import NixSeal.Cache.Commit
import NixSeal.Cache.Totals
import NixSeal.Cache.Transfer

/-!
# Copying one cache into another

A copy adds the contents of the source to those of the destination, entry by entry, and never
replaces what is there.  It goes through exactly when the source is a well-formed exchange within
the limits that does not contradict the destination.
-/

namespace NixSeal.Cache

open Faulty Faulty.Program Fallible Ordered

/-- The contents of a cache to which some entries of another have been added. -/
structure Merged (old added : Contents) (digests keys : List String) (merged : Contents) :
    Prop where
  object : ∀ digest : String, merged.objects[digest]? =
    old.objects[digest]?.or (if digest ∈ digests then added.objects[digest]? else none)
  artifact : ∀ key : String, merged.artifacts[key]? =
    old.artifacts[key]?.or (if key ∈ keys then added.artifacts[key]? else none)

/-- Two bundles that an import does not tell apart. -/
def Bundle.Agrees (env : Environment) (left right : Bundle) : Prop :=
  env.digest left.ciphertext = env.digest right.ciphertext ∧ left.envelope = right.envelope

instance (env : Environment) (left right : Bundle) : Decidable (left.Agrees env right) :=
  inferInstanceAs (Decidable (_ ∧ _))

/-- No bundle of one cache contradicts the bundle of the other under the same key. -/
def Compatible (env : Environment) (old added : Contents) : Prop :=
  ∀ (key : String) (left right : Bundle), old.artifacts[key]? = some left →
    added.artifacts[key]? = some right → left.Agrees env right

section Merging

variable {env : Environment} {old added merged : Contents} {digests keys : List String}

theorem Merged.start (old added : Contents) : Merged old added [] [] old :=
  ⟨by simp, by simp⟩

theorem Merged.put (merge : Merged old added digests keys merged) {bytes : Bytes}
    (stored : added.objects[env.digest bytes]? = some bytes) :
    Merged old added (digests ++ [env.digest bytes]) keys (merged.put env bytes) := by
  refine ⟨fun digest => ?_, ?_⟩
  · unfold Contents.put
    have here := merge.object (env.digest bytes)
    cases known : merged.objects[env.digest bytes]? with
    | some found =>
        simp only
        rw [merge.object digest]
        by_cases same : digest = env.digest bytes
        · subst same
          rw [known] at here
          rw [← here]
          grind
        · simp [same]
    | none =>
        simp only
        rw [getElem?_insert_eq, merge.object digest]
        by_cases same : env.digest bytes = digest
        · subst same
          rw [known] at here
          grind
        · simp [same, Ne.symm same]
  · intro key
    rw [← merge.artifact key]
    unfold Contents.put
    cases merged.objects[env.digest bytes]? with
    | some found => rfl
    | none => rfl

theorem Merged.putArtifact (merge : Merged old added digests keys merged) {key : String}
    {bundle : Bundle} (stored : added.artifacts[key]? = some bundle) :
    Merged old added digests (keys ++ [key]) (merged.putArtifact key bundle) := by
  refine ⟨?_, fun other => ?_⟩
  · intro digest
    rw [← merge.object digest]
    unfold Contents.putArtifact
    cases merged.artifacts[key]? with
    | some found => rfl
    | none => rfl
  · unfold Contents.putArtifact
    have here := merge.artifact key
    cases known : merged.artifacts[key]? with
    | some found =>
        simp only
        rw [merge.artifact other]
        by_cases same : other = key
        · subst same
          rw [known] at here
          grind
        · simp [same]
    | none =>
        simp only
        rw [getElem?_insert_eq, merge.artifact other]
        by_cases same : key = other
        · subst same
          rw [known] at here
          grind
        · simp [same, Ne.symm same]

theorem Merged.agrees (merge : Merged old added digests keys merged)
    (compatible : Compatible env old added) {key : String} {existing bundle : Bundle}
    (there : merged.artifacts[key]? = some existing) (stored : added.artifacts[key]? = some bundle) :
    env.digest existing.ciphertext = env.digest bundle.ciphertext ∧
      existing.envelope = bundle.envelope := by
  rw [merge.artifact key] at there
  cases before : old.artifacts[key]? with
  | some found =>
      rw [before, Option.some_or, Option.some.injEq] at there
      subst there
      exact compatible key found bundle before stored
  | none =>
      rw [before, Option.none_or, stored] at there
      have same : bundle = existing := by grind
      rw [same]
      exact ⟨rfl, rfl⟩

end Merging

/-- The report of a transfer of some objects and bundles. -/
def Contents.transfer (contents : Contents) (digests keys : List String) : CacheTransferReport where
  objectCount := digests.length
  artifactCount := keys.length
  bytes := (digests.map (weigh contents.objects List.length)).sum +
    (keys.map (weigh contents.artifacts fun bundle => bundle.ciphertext.length)).sum +
      (keys.map (weigh contents.artifacts fun bundle => bundle.envelope.length)).sum

/-- The report of a transfer of everything. -/
def Contents.report (contents : Contents) : CacheTransferReport where
  objectCount := contents.objects.size
  artifactCount := contents.artifacts.size
  bytes := contents.objectBytes + contents.ciphertextBytes + contents.envelopeBytes

theorem Contents.transfer_all {contents : Contents} {digests keys : List String}
    (digests_perm : digests.Perm contents.objects.keys)
    (keys_perm : keys.Perm contents.artifacts.keys) :
    contents.transfer digests keys = contents.report := by
  unfold Contents.transfer
  rw [sum_weigh digests_perm, sum_weigh keys_perm, sum_weigh keys_perm,
    length_of_perm_keys digests_perm, length_of_perm_keys keys_perm]
  rfl

/-- The kills of a copy are those its single writes recover from. -/
def SparedCopy (env : Environment) (verdict : CopyStep → Verdict) : Prop :=
  ∀ entry, SparedLink env (verdict ∘ .object entry) ∧ SparedStaging env (verdict ∘ .artifact entry)

theorem sparedCopy_of_never (env : Environment) {verdict : CopyStep → Verdict}
    (never : ∀ label progress, verdict label ≠ .kill progress) : SparedCopy env verdict :=
  fun _ => ⟨.inr (never _), .inr (never _)⟩

theorem Steady.comp {L L' : Type} {verdict : L → Verdict} (steady : Steady verdict)
    (label : L' → L) : Steady (verdict ∘ label) :=
  fun inner => steady (label inner)

section Copying

variable {env : Environment} {verdict : CopyStep → Verdict} {settled tidy : Bool} {root : Root}
  {contents old added : Contents} {source : Cache} {raises : CacheError → Root → Prop}
  {stops : Root → Prop}

/-- The states a killed copy can leave: some entries have been added. -/
def Partly (env : Environment) (old added : Contents) (root : Root) : Prop :=
  ∃ digests keys merged, Merged old added digests keys merged ∧
    Holds env false false root merged

theorem copyObject_meets (steady : Steady verdict) (spared : SparedCopy env verdict)
    (shows : Shows env source true added) (limits : added.WithinLimits) (locked : Bool)
    {digests done rest : List String} {digest : String}
    (listed : digests.Perm added.objects.keys) (split : digests = done ++ digest :: rest)
    (merge : Merged old added done [] contents) (holds : Holds env settled tidy root contents) :
    (copyObject env source locked (added.transfer done []) (.text digest)).Meets verdict root
      (fun report after => report = added.transfer (done ++ [digest]) [] ∧
        ∃ merged, Merged old added (done ++ [digest]) [] merged ∧
          Holds env settled tidy after merged)
      (fun _ _ => False) (Partly env old added) := by
  obtain ⟨bytes, stored⟩ := exists_value listed split
  obtain ⟨⟨node, found, isFile⟩, small, hashed⟩ := shows.hasObject stored
  have count := length_lt_size listed split
  have sum := partial_le_total List.length listed split stored
  have entries := limits.entries
  have bytes_le := limits.bytes
  unfold Contents.objectBytes at bytes_le
  have few : maxTransferEntries < 2 ^ 64 := by decide
  have named : digestName (.text digest) = .ok digest :=
    digestName_eq_ok_iff.mpr ⟨rfl, hashed ▸ env.isDigest_digest bytes⟩
  have counted : checkedAdd (added.transfer done []).objectCount 1 = .ok (done.length + 1) :=
    checkedAdd_eq_ok_iff.mpr ⟨rfl, by omega⟩
  have limited : enforceTransferEntryLimit (done.length + 1)
      (added.transfer done []).artifactCount = .ok () :=
    enforceTransferEntryLimit_eq_ok_iff.mpr (by simp only [Contents.transfer, List.length_nil]; omega)
  have length : source.fileLength env (source.objectFile digest) = .ok bytes.length :=
    fileLength_eq_ok_iff.mpr ⟨node, bytes, found, isFile, rfl⟩
  have total : checkedTransferBytes (added.transfer done []).bytes bytes.length =
      .ok ((added.transfer done []).bytes + bytes.length) :=
    checkedTransferBytes_eq_ok_iff.mpr ⟨rfl, by
      simp only [Contents.transfer, List.map_nil, List.sum_nil]; omega⟩
  have read := get_eq_ok_iff_hasObject.mpr (shows.hasObject stored)
  unfold copyObject
  refine Meets.lift_ok named (Meets.lift_ok counted (Meets.lift_ok limited
    (Meets.lift_ok length (Meets.lift_ok total (Meets.lift_ok read ?_)))))
  apply Meets.bind
  refine Meets.require (fun _ => ?_) fun refused => absurd rfl refused
  apply Meets.bind
  apply Meets.relabel
  subst hashed
  have stores : ∀ after, Holds env settled tidy after (contents.put env bytes) →
      (do
        require (env.digest bytes = env.digest bytes) CacheError.hashMismatch
        pure { added.transfer done [] with
          objectCount := done.length + 1
          bytes := (added.transfer done []).bytes + bytes.length } : Copy CacheTransferReport).Meets
        verdict after (fun report after =>
          report = added.transfer (done ++ [env.digest bytes]) [] ∧
            ∃ merged, Merged old added (done ++ [env.digest bytes]) [] merged ∧
              Holds env settled tidy after merged)
        (fun _ _ => False) (Partly env old added) := by
    intro after kept
    apply Meets.bind
    refine Meets.require (fun _ => ?_) fun refused => absurd rfl refused
    apply Meets.pure
    refine ⟨?_, _, merge.put stored, kept⟩
    simp only [Contents.transfer, List.length_append, List.length_cons, List.length_nil,
      List.map_append, List.map_cons, List.map_nil, List.sum_append, List.sum_cons, List.sum_nil,
      weigh_of_getElem? stored, Nat.add_zero, Nat.zero_add]
  have partly : ∀ after, Holds env false false after contents ∨
      Holds env false false after (contents.put env bytes) → Partly env old added after := by
    rintro after (kept | kept)
    · exact ⟨_, _, _, merge, kept⟩
    · exact ⟨_, _, _, merge.put stored, kept⟩
  cases locked with
  | true =>
      exact putUnlocked_meets (steady.comp _) (spared _).1 holds (fun _ => stores)
        (fun long => absurd small long) partly
  | false =>
      exact put_meets (steady.comp _) (spared _).1 holds (fun _ => stores)
        (fun long => absurd small long) partly

theorem copyRecord_meets (steady : Steady verdict) (spared : SparedCopy env verdict)
    (locked : Bool) {key : String} {bundle : Bundle} (holds : Holds env settled tidy root contents)
    (digest : isDigest key = true) (short : bundle.ciphertext.length ≤ maxCiphertextBytes)
    (fits : bundle.envelope.length ≤ maxEnvelopeBytes)
    (agrees : ∀ existing, contents.artifacts[key]? = some existing →
      env.digest existing.ciphertext = env.digest bundle.ciphertext ∧
        existing.envelope = bundle.envelope)
    {returns : Unit → Root → Prop}
    (onReturn : ∀ after, Holds env settled tidy after (contents.putArtifact key bundle) →
      returns () after)
    (onStop : ∀ after, Holds env false false after contents ∨
      Holds env false false after (contents.putArtifact key bundle) → stops after) :
    (copyRecord env locked (Contents.record env key bundle) bundle.ciphertext).Meets verdict root
      returns raises stops := by
  unfold copyRecord
  apply Meets.bind
  apply Meets.attempt
  apply Meets.relabel
  rw [Contents.record_key, Contents.record_envelope]
  have stored : contents.refusal key bundle = none → ∀ after,
      Holds env settled tidy after (contents.putArtifact key bundle) →
        (settleRecord env (Contents.record env key bundle)
          (.ok (Contents.record env key bundle))).Meets verdict after returns raises stops := by
    intro _ after kept
    exact Meets.require (fun _ => onReturn after kept) fun refused => absurd rfl refused
  have existing : ∀ error, contents.refusal key bundle = some error → ∀ after,
      Holds env settled tidy after contents →
        (settleRecord env (Contents.record env key bundle) (.error error)).Meets verdict after
          returns raises stops := by
    intro error refused after kept
    cases known : contents.artifacts[key]? with
    | none =>
        rw [Contents.refusal_eq_none digest fits known short] at refused
        cases refused
    | some found =>
        rw [Contents.refusal_of_stored digest fits (by rw [known]; rfl)] at refused
        cases refused
        apply Meets.bind
        apply Meets.read
        rw [Contents.record_key, kept.shows.loadArtifactByKey_eq known]
        apply Meets.bind
        apply Meets.pure
        refine Meets.require (fun _ => onReturn after ?_) fun refused =>
          absurd (agrees found known) refused
        rwa [Contents.putArtifact, known]
  have stopped : ∀ after, Holds env false false after contents ∨
      contents.refusal key bundle = none ∧
        Holds env false false after (contents.putArtifact key bundle) → stops after :=
    fun after either => onStop after (either.imp id fun both => both.2)
  cases locked with
  | true =>
      exact putArtifactByKeyUnlocked_meets (steady.comp _) (spared _).2 holds stored existing
        stopped
  | false =>
      exact putArtifactByKey_meets (steady.comp _) (spared _).2 holds stored existing stopped

theorem copyArtifact_meets (steady : Steady verdict) (spared : SparedCopy env verdict)
    (shows : Shows env source true added) (limits : added.WithinLimits)
    (compatible : Compatible env old added) (locked : Bool) {digests keys done rest : List String}
    {key : String} (listed : digests.Perm added.objects.keys)
    (ordered : keys.Perm added.artifacts.keys) (split : keys = done ++ key :: rest)
    (merge : Merged old added digests done contents)
    (holds : Holds env settled tidy root contents) :
    (copyArtifact env source locked (added.transfer digests done) key).Meets verdict root
      (fun report after => report = added.transfer digests (done ++ [key]) ∧
        ∃ merged, Merged old added digests (done ++ [key]) merged ∧
          Holds env settled tidy after merged)
      (fun _ _ => False) (Partly env old added) := by
  obtain ⟨bundle, stored⟩ := exists_value ordered split
  have present := shows.hasBundle stored
  obtain ⟨digest, ⟨node, found, isBundle⟩, short, fits⟩ := present
  obtain ⟨⟨file, inside, isFile⟩, _⟩ := bundleFile_of_isBundle found isBundle
  have count := length_lt_size ordered split
  have ciphertexts :=
    partial_le_total (fun bundle => bundle.ciphertext.length) ordered split stored
  have envelopes := partial_le_total (fun bundle => bundle.envelope.length) ordered split stored
  have objects : (digests.map (weigh added.objects List.length)).sum = added.objectBytes :=
    sum_weigh listed
  have objectCount := length_of_perm_keys listed
  obtain ⟨entries, bytes_le, _⟩ := limits
  unfold Contents.ciphertextBytes Contents.envelopeBytes at bytes_le
  have few : maxTransferEntries < 2 ^ 64 := by decide
  have counted : checkedAdd (added.transfer digests done).artifactCount 1 =
      .ok (done.length + 1) := checkedAdd_eq_ok_iff.mpr ⟨rfl, by omega⟩
  have limited : enforceTransferEntryLimit (added.transfer digests done).objectCount
      (done.length + 1) = .ok () :=
    enforceTransferEntryLimit_eq_ok_iff.mpr (by simp only [Contents.transfer]; omega)
  have laidOut : source.artifactLayout env key =
      .ok (bundle.ciphertext.length, bundle.envelope.length) :=
    artifactLayout_eq_ok_iff.mpr ⟨bundle, shows.hasBundle stored, rfl⟩
  have total : checkedTransferBytes (added.transfer digests done).bytes bundle.ciphertext.length =
      .ok ((added.transfer digests done).bytes + bundle.ciphertext.length) :=
    checkedTransferBytes_eq_ok_iff.mpr ⟨rfl, by simp only [Contents.transfer]; omega⟩
  have total' : checkedTransferBytes ((added.transfer digests done).bytes +
      bundle.ciphertext.length) bundle.envelope.length =
        .ok ((added.transfer digests done).bytes + bundle.ciphertext.length +
          bundle.envelope.length) :=
    checkedTransferBytes_eq_ok_iff.mpr ⟨rfl, by simp only [Contents.transfer]; omega⟩
  have opened : openPrivateRegular env source.requireOwner (source.bundleFile key ciphertextName) =
      .ok bundle.ciphertext := openPrivateRegular_eq_ok_iff.mpr ⟨file, inside, isFile⟩
  unfold copyArtifact
  refine Meets.lift_ok counted (Meets.lift_ok limited (Meets.lift_ok laidOut (Meets.lift_ok total
    (Meets.lift_ok total' (Meets.lift_ok (shows.loadArtifactByKey_eq stored)
      (Meets.lift_ok opened ?_))))))
  apply Meets.bind
  refine copyRecord_meets steady spared locked holds digest short fits
    (fun existing there => merge.agrees compatible there stored) (fun after kept => ?_) ?_
  · apply Meets.pure
    refine ⟨?_, _, merge.putArtifact stored, kept⟩
    simp only [Contents.transfer, List.length_append, List.length_cons, List.length_nil,
      List.map_append, List.map_cons, List.map_nil, List.sum_append, List.sum_cons, List.sum_nil,
      weigh_of_getElem? stored, Nat.add_zero, Nat.zero_add, CacheTransferReport.mk.injEq, true_and]
    omega
  · rintro after (kept | kept)
    · exact ⟨_, _, _, merge, kept⟩
    · exact ⟨_, _, _, merge.putArtifact stored, kept⟩

/-- A copy of a well-formed exchange into a cache it does not contradict goes through. -/
theorem copyIntoUnlockedWith_meets (steady : Steady verdict) (spared : SparedCopy env verdict)
    (shows : Shows env source true added) (limits : added.WithinLimits)
    (compatible : Compatible env old added) (locked : Bool)
    (holds : Holds env settled tidy root old) :
    (copyIntoUnlockedWith env source locked).Meets verdict root
      (fun report after => report = added.report ∧ ∃ digests keys merged,
        digests.Perm added.objects.keys ∧ keys.Perm added.artifacts.keys ∧
          Merged old added digests keys merged ∧ Holds env settled tidy after merged)
      (fun _ _ => False) (Partly env old added) := by
  obtain ⟨digests, listed, digests_perm⟩ := shows.listObjects .copyObjects
  have few : added.artifacts.size ≤ maxTransferEntries := by
    have entries := limits.entries
    omega
  obtain ⟨keys, collected, ordered⟩ := shows.artifactKeys_eq few .copyKeys
  have keys_perm : keys.toList.Perm added.artifacts.keys := by rw [ordered]
  unfold copyIntoUnlockedWith
  refine Meets.lift_ok (shows.preflightTransferLimits_iff.mpr limits) (Meets.lift_ok listed ?_)
  rw [List.foldlM_map]
  apply Meets.bind
  refine Meets.foldlM (fun done report after => report = added.transfer done [] ∧
    ∃ merged, Merged old added done [] merged ∧ Holds env settled tidy after merged)
    ⟨rfl, old, Merged.start old added, holds⟩ ?_ ?_
  · rintro done digest rest _ before split ⟨rfl, merged, merge, held⟩
    exact copyObject_meets steady spared shows limits locked digests_perm split merge held
  · rintro _ middle ⟨rfl, contents, merge, held⟩
    refine Meets.lift_ok collected ?_
    refine Meets.foldlM (fun done report after => report = added.transfer digests done ∧
      ∃ merged, Merged old added digests done merged ∧ Holds env settled tidy after merged)
      ⟨rfl, contents, merge, held⟩ ?_ ?_
    · rintro done key rest _ before split ⟨rfl, merged, merge, held⟩
      exact copyArtifact_meets steady spared shows limits compatible locked digests_perm keys_perm
        split merge held
    · rintro _ after ⟨rfl, merged, merge, held⟩
      exact ⟨Contents.transfer_all digests_perm keys_perm, digests, keys.toList, merged,
        digests_perm, keys_perm, merge, held⟩

theorem hasObject_of_copyObject {locked : Bool} {report next : CacheTransferReport}
    {name : FileName} {before after : Root}
    (copied : copyObject env source locked report name verdict before = .ok next after) :
    ∃ digest bytes, name = .text digest ∧ isDigest digest = true ∧
      HasObject env source digest bytes := by
  unfold copyObject at copied
  obtain ⟨digest, _, named, rest⟩ := Program.bind_eq_ok.mp copied
  obtain ⟨_, _, _, rest⟩ := Program.bind_eq_ok.mp rest
  obtain ⟨_, _, _, rest⟩ := Program.bind_eq_ok.mp rest
  obtain ⟨_, _, _, rest⟩ := Program.bind_eq_ok.mp rest
  obtain ⟨_, _, _, rest⟩ := Program.bind_eq_ok.mp rest
  obtain ⟨bytes, _, read, _⟩ := Program.bind_eq_ok.mp rest
  obtain ⟨rfl, isDigest⟩ := digestName_eq_ok_iff.mp (lift_eq_ok.mp named).1
  exact ⟨digest, bytes, rfl, isDigest, get_eq_ok_iff_hasObject.mp (lift_eq_ok.mp read).1⟩

/-- The bundle of a copied key was read and accepted. -/
theorem hasBundle_of_copyArtifact {locked : Bool} {report next : CacheTransferReport}
    {key : String} {before after : Root}
    (copied : copyArtifact env source locked report key verdict before = .ok next after) :
    ∃ bundle, HasBundle env source key bundle := by
  unfold copyArtifact at copied
  obtain ⟨_, _, _, rest⟩ := Program.bind_eq_ok.mp copied
  obtain ⟨_, _, _, rest⟩ := Program.bind_eq_ok.mp rest
  obtain ⟨_, _, laidOut, _⟩ := Program.bind_eq_ok.mp rest
  obtain ⟨bundle, present, _⟩ := artifactLayout_eq_ok_iff.mp (lift_eq_ok.mp laidOut).1
  exact ⟨bundle, present⟩

theorem HasObject.unique {digest : String} {left right : Bytes}
    (first : HasObject env source digest left) (second : HasObject env source digest right) :
    left = right := by
  obtain ⟨⟨node, found, isFile⟩, _⟩ := first
  obtain ⟨⟨other, found', isFile'⟩, _⟩ := second
  rw [found] at found'
  cases found'
  exact isFile.unique isFile'

theorem HasBundle.unique {key : String} {left right : Bundle}
    (first : HasBundle env source key left) (second : HasBundle env source key right) :
    left = right := by
  obtain ⟨_, ⟨node, found, stored⟩, _⟩ := first
  obtain ⟨_, ⟨other, found', stored'⟩, _⟩ := second
  obtain ⟨⟨file, inside, isFile⟩, envelope, inside', isEnvelope⟩ :=
    bundleFile_of_isBundle found stored
  obtain ⟨⟨file', again, isFile'⟩, envelope', again', isEnvelope'⟩ :=
    bundleFile_of_isBundle found' stored'
  rw [inside] at again
  rw [inside'] at again'
  cases again
  cases again'
  have ciphertexts := isFile.unique isFile'
  have envelopes := isEnvelope.unique isEnvelope'
  cases left
  cases right
  simp only at ciphertexts envelopes
  rw [ciphertexts, envelopes]

/-- A directory in which every entry was accepted stores a map. -/
theorem exists_stored (env : Environment) {β γ : Type} (holds : γ → Node β → Prop)
    (accepted : String → γ → Prop) {path : Option (Node (Node β))} {folder : Folder (Node β)}
    {names : List FileName} (opens : Opens path folder) (listed : ∀ name ∈ folder, name ∈ names)
    (entries : ∀ name ∈ names, ∃ key value, name = .text key ∧ accepted key value)
    (single : ∀ key left right, accepted key left → accepted key right → left = right)
    (found : ∀ key value, accepted key value →
      ∃ node, child path (.text key) = .ok node ∧ holds value node) :
    ∃ map : Std.TreeMap String γ compare,
      (∀ (key : String) (value : γ), map[key]? = some value → accepted key value) ∧
        Stored folder holds (Leftover env true) map := by
  obtain ⟨map, stored⟩ := exists_map (names.filterMap FileName.toStr) accepted single
  refine ⟨map, fun key value mapped => ((stored key value).mp mapped).2,
    fun key value mapped => ?_, fun name node inside => .inl ?_⟩
  · obtain ⟨node, inside, held⟩ := found key value ((stored key value).mp mapped).2
    rw [opens.child_eq] at inside
    refine ⟨node, ?_, held⟩
    cases lookup : folder.lookup (.text key) with
    | none => simp [lookup, orNotFound] at inside
    | some other => simpa [lookup, orNotFound] using inside
  · have member := listed name (AList.lookup_isSome.mp (by rw [inside]; rfl))
    obtain ⟨key, value, rfl, held⟩ := entries name member
    exact ⟨key, value, rfl, (stored key value).mpr
      ⟨List.mem_filterMap.mpr ⟨_, member, rfl⟩, held⟩⟩

/-- What could be copied is a well-formed exchange within the limits. -/
theorem exists_shows_of_copy {locked : Bool} {report : CacheTransferReport} {after : Root}
    (copied : copyIntoUnlockedWith env source locked verdict root = .ok report after) :
    ∃ contents, Shows env source true contents ∧ contents.WithinLimits := by
  unfold copyIntoUnlockedWith at copied
  obtain ⟨_, _, limited, rest⟩ := Program.bind_eq_ok.mp copied
  obtain ⟨names, _, listed, rest⟩ := Program.bind_eq_ok.mp rest
  obtain ⟨_, _, objects, rest⟩ := Program.bind_eq_ok.mp rest
  obtain ⟨keys, _, collected, artifacts⟩ := Program.bind_eq_ok.mp rest
  obtain ⟨folder, opens, permuted⟩ := exists_opens_of_listNames (lift_eq_ok.mp listed).1
  obtain ⟨objectMap, acceptedObjects, storedObjects⟩ := exists_stored env
    (IsFile env source.requireOwner) (HasObject env source) opens
    (fun name member => permuted.mem_iff.mpr (AList.mem_keys.mp member))
    (fun name member => by
      obtain ⟨_, _, _, _, stepped⟩ := Program.step_of_foldlM_eq_ok objects member
      obtain ⟨digest, bytes, rfl, _, present⟩ := hasObject_of_copyObject stepped
      exact ⟨digest, bytes, rfl, present⟩)
    (fun _ _ _ => HasObject.unique) (fun _ _ present => present.1)
  have collected := (lift_eq_ok.mp collected).1
  obtain ⟨listing, listed', folded⟩ := Fallible.bind_eq_ok.mp collected
  obtain ⟨folder', opens', permuted'⟩ := exists_opens_of_listNames listed'
  obtain ⟨digestKeys, members, _, _⟩ := addArtifactKeys_eq_ok folded
  obtain ⟨artifactMap, acceptedArtifacts, storedArtifacts⟩ := exists_stored env
    (IsBundle env source.requireOwner) (HasBundle env source) opens'
    (fun name member => permuted'.mem_iff.mpr (AList.mem_keys.mp member))
    (fun name member => by
      obtain ⟨key, rfl, _⟩ := digestKeys name member
      obtain ⟨_, _, _, _, stepped⟩ := Program.step_of_foldlM_eq_ok artifacts
        (Std.TreeSet.mem_toList.mpr ((members key).mpr member))
      obtain ⟨bundle, present⟩ := hasBundle_of_copyArtifact stepped
      exact ⟨key, bundle, rfl, present⟩)
    (fun _ _ _ => HasBundle.unique) (fun _ _ present => present.2.1)
  have shows : Shows env source true ⟨objectMap, artifactMap⟩ :=
    ⟨⟨fun digest bytes mapped => ⟨(acceptedObjects digest bytes mapped).2.2,
        (acceptedObjects digest bytes mapped).2.1⟩,
      fun key bundle mapped => ⟨(acceptedArtifacts key bundle mapped).1,
        (acceptedArtifacts key bundle mapped).2.2⟩⟩,
      ⟨folder, opens, storedObjects⟩, folder', opens', storedArtifacts⟩
  exact ⟨_, shows, shows.preflightTransferLimits_iff.mp (lift_eq_ok.mp limited).1⟩

end Copying

end NixSeal.Cache
