import Mathlib.Data.Set.Function
import NixSeal.Cache.Exchange

/-!
# Importing an exchange

An import takes a snapshot of the exchange, compares it with the destination, and copies it only
when nothing contradicts.  Because the comparison repeats every check of the copy, the copy cannot
be refused once it has begun.
-/

namespace NixSeal.Cache

open Faulty Faulty.Program Fallible Ordered

/-- A directory that can be imported: private, whoever owns it, and every entry of its two stores
is accepted. -/
structure Exchanged (env : Environment) (root : Root) (contents : Contents) : Prop where
  opened : openExisting env root = .ok ⟨root, true⟩
  shows : Shows env ⟨root, true⟩ true contents

/-- The contents of two caches together; what the old one holds stands. -/
def Contents.merge (old added : Contents) : Contents where
  objects := added.objects ∪ old.objects
  artifacts := added.artifacts ∪ old.artifacts

/-- Contents with the same entries; their maps may have grown differently. -/
structure Contents.Same (left right : Contents) : Prop where
  object : ∀ digest : String, left.objects[digest]? = right.objects[digest]?
  artifact : ∀ key : String, left.artifacts[key]? = right.artifacts[key]?

section Merging

variable {env : Environment} {old added : Contents}

@[simp]
theorem Contents.merge_objects (digest : String) :
    (old.merge added).objects[digest]? = old.objects[digest]?.or added.objects[digest]? :=
  Std.TreeMap.getElem?_union

@[simp]
theorem Contents.merge_artifacts (key : String) :
    (old.merge added).artifacts[key]? = old.artifacts[key]?.or added.artifacts[key]? :=
  Std.TreeMap.getElem?_union

theorem Contents.Same.report_eq {left right : Contents} (same : left.Same right) :
    left.report = right.report := by
  have objects := Std.TreeMap.Equiv.of_forall_constGet?_eq same.object
  have artifacts := Std.TreeMap.Equiv.of_forall_constGet?_eq same.artifact
  unfold Contents.report Contents.objectBytes Contents.ciphertextBytes Contents.envelopeBytes total
  rw [objects.size_eq, artifacts.size_eq, objects.toList_eq, artifacts.toList_eq]

theorem Area.Stores.of_same_entries {β γ : Type} {area : Area β} {held : γ → Node β → Prop}
    {settled tidy : Bool} {root : Root} {map other : Std.TreeMap String γ compare}
    (stores : area.Stores env held settled tidy root map)
    (same : ∀ key : String, other[key]? = map[key]?) :
    area.Stores env held settled tidy root other := by
  rcases stores with ⟨missing, empty⟩ | ⟨status, entries, found, owner, restricted, stored⟩
  · exact .inl ⟨missing, fun key => by rw [same, empty]⟩
  · refine .inr ⟨status, entries, found, owner, restricted, fun key value mapped => ?_,
      fun name node inside => ?_⟩
    · rw [same] at mapped
      exact stored.present key value mapped
    · rcases stored.accounted name node inside with ⟨key, value, named, mapped⟩ | left
      · exact .inl ⟨key, value, named, by rw [same, mapped]⟩
      · exact .inr left

/-- A cache does not tell apart contents with the same entries. -/
theorem Holds.of_same {settled tidy : Bool} {root : Root} {contents other : Contents}
    (holds : Holds env settled tidy root contents) (same : other.Same contents) :
    Holds env settled tidy root other := by
  refine ⟨⟨fun digest bytes => ?_, fun key bundle => ?_⟩, holds.directory, holds.lockable,
    holds.objects.of_same_entries same.object, holds.artifacts.of_same_entries same.artifact⟩
  · rw [same.object]
    exact holds.valid.object digest bytes
  · rw [same.artifact]
    exact holds.valid.artifact key bundle

theorem Merged.merge {digests keys : List String} {merged : Contents}
    (merge : Merged old added digests keys merged) (digests_perm : digests.Perm added.objects.keys)
    (keys_perm : keys.Perm added.artifacts.keys) {settled tidy : Bool} {root : Root}
    (holds : Holds env settled tidy root merged) :
    Holds env settled tidy root (old.merge added) := by
  refine holds.of_same ⟨fun digest => ?_, fun key => ?_⟩
  · rw [Contents.merge_objects, merge.object]
    by_cases listed : digest ∈ digests
    · rw [if_pos listed]
    · have absent : digest ∉ added.objects := by
        rwa [← Std.TreeMap.mem_keys, ← digests_perm.mem_iff]
      rw [if_neg listed, Std.TreeMap.getElem?_eq_none absent]
  · rw [Contents.merge_artifacts, merge.artifact]
    by_cases listed : key ∈ keys
    · rw [if_pos listed]
    · have absent : key ∉ added.artifacts := by
        rwa [← Std.TreeMap.mem_keys, ← keys_perm.mem_iff]
      rw [if_neg listed, Std.TreeMap.getElem?_eq_none absent]

end Merging

section Comparing

variable {env : Environment} {source : Cache} {settled tidy : Bool} {root : Root}
  {old added : Contents}

/-- An object of the snapshot never contradicts the destination. -/
theorem preflightObject_eq (shows : Shows env source true added)
    (holds : Holds env settled tidy root old) {digest : String} {bytes : Bytes}
    (stored : added.objects[digest]? = some bytes) :
    source.preflightObject env root.own (.text digest) = .ok () := by
  have hex := isHexDigest_of_isDigest (shows.valid.isDigest_object digest bytes stored)
  simp only [preflightObject, FileName.toStr]
  rw [get_eq_ok_iff_hasObject.mpr (shows.hasObject stored), ok_bind]
  cases known : old.objects[digest]? with
  | none =>
      rw [holds.shows.objectFile_missing hex known]
      rfl
  | some found =>
      obtain ⟨⟨node, present, _⟩, _⟩ := holds.shows.hasObject known
      rw [present]
      simp only
      rw [get_eq_ok_iff_hasObject.mpr (holds.shows.hasObject known), ok_bind]
      rfl

/-- A bundle of the snapshot contradicts the destination when a different one is there. -/
theorem preflightRecord_eq (holds : Holds env settled tidy root old) {key : String}
    (digest : isDigest key = true) (bundle : Bundle) :
    preflightRecord env root.own (Contents.record env key bundle) =
      match old.artifacts[key]? with
      | none => .ok ()
      | some existing => if existing.Agrees env bundle then .ok () else .error .conflict := by
  unfold preflightRecord
  cases known : old.artifacts[key]? with
  | none =>
      rw [Contents.record_key, holds.shows.bundleDirectory_missing digest known]
      rfl
  | some existing =>
      obtain ⟨_, ⟨node, present, _⟩, _⟩ := holds.shows.hasBundle known
      rw [Contents.record_key, present]
      simp only
      rw [holds.shows.loadArtifactByKey_eq known, ok_bind]
      by_cases agree : existing.Agrees env bundle
      · rw [if_pos agree]
        refine if_neg fun differ => ?_
        rcases differ with hashes | envelopes
        · exact hashes agree.1
        · exact envelopes agree.2
      · rw [if_neg agree]
        refine if_pos ?_
        by_contra neither
        rw [not_or, not_not, not_not] at neither
        exact agree neither

theorem mem_records_iff {record : ArtifactRecord} : record ∈ added.records env ↔
    ∃ (key : String) (bundle : Bundle), added.artifacts[key]? = some bundle ∧
      Contents.record env key bundle = record := by
  unfold Contents.records
  simp [Std.TreeMap.mem_toList_iff_getElem?_eq_some]

theorem preflightRecords_eq_ok_iff (holds : Holds env settled tidy root old)
    (valid : added.Valid env) :
    (added.records env).forM (preflightRecord env root.own) = .ok () ↔
      Compatible env old added := by
  rw [forM_eq_ok]
  constructor
  · intro passed key left right known stored
    have accepted := passed _ (mem_records_iff.mpr ⟨key, right, stored, rfl⟩)
    rw [preflightRecord_eq holds (valid.isDigest_artifact key right stored), known] at accepted
    simp only at accepted
    by_contra differ
    rw [if_neg differ] at accepted
    cases accepted
  · intro compatible record member
    obtain ⟨key, bundle, stored, rfl⟩ := mem_records_iff.mp member
    rw [preflightRecord_eq holds (valid.isDigest_artifact key bundle stored)]
    cases known : old.artifacts[key]? with
    | none => rfl
    | some existing => exact if_pos (compatible key existing bundle known stored)

theorem preflightRecords_cases (holds : Holds env settled tidy root old) (valid : added.Valid env) :
    (added.records env).forM (preflightRecord env root.own) = .ok () ∨
      (added.records env).forM (preflightRecord env root.own) = .error .conflict := by
  refine forM_eq_ok_or_error fun record member => ?_
  obtain ⟨key, bundle, stored, rfl⟩ := mem_records_iff.mp member
  rw [preflightRecord_eq holds (valid.isDigest_artifact key bundle stored)]
  cases old.artifacts[key]? with
  | none => exact .inl rfl
  | some existing =>
      by_cases agree : existing.Agrees env bundle
      · exact .inl (if_pos agree)
      · exact .inr (if_neg agree)

/-- The comparison is one of the bundles, once the stores of the destination are private. -/
theorem preflightDestination_eq (shows : Shows env source true added)
    (limits : added.WithinLimits) (holds : Holds env settled tidy root old) :
    source.preflightDestination env root.own =
      (do
        root.own.preflightStore env root.objects
        root.own.preflightStore env root.artifacts
        (added.records env).forM (preflightRecord env root.own)) := by
  obtain ⟨digests, listed, permuted⟩ := shows.listObjects .preflightObjects
  have compared : (digests.map FileName.text).forM (source.preflightObject env root.own) =
      .ok () := by
    rw [forM_eq_ok]
    intro name member
    obtain ⟨digest, inside, rfl⟩ := List.mem_map.mp member
    have present : digest ∈ added.objects := by
      rw [← Std.TreeMap.mem_keys, ← permuted.mem_iff]
      exact inside
    obtain ⟨bytes, stored⟩ :=
      Option.isSome_iff_exists.mp (Std.TreeMap.mem_iff_isSome_getElem?.mp present)
    exact preflightObject_eq shows holds stored
  have few : added.artifacts.size ≤ maxTransferEntries := by
    have entries := limits.entries
    omega
  unfold preflightDestination
  rw [listed, ok_bind, compared, ok_bind, shows.artifactRecords_eq few limits.envelopes, ok_bind]
  rfl

theorem preflightStore_eq_ok {β γ : Type} {area : Area β} {held : γ → Node β → Prop}
    {map : Std.TreeMap String γ compare} (stores : area.Stores env held settled true root map) :
    root.own.preflightStore env (area.get root) = .ok () := by
  rcases stores with ⟨missing, _⟩ | ⟨status, entries, found, owner, restricted, _⟩
  · rw [missing]
    rfl
  · rw [found]
    have accepted : validatePrivateMetadata env ⟨.directory, status, 0⟩ true true = .ok () :=
      validatePrivateMetadata_directory_iff.mpr ⟨rfl, restricted rfl, fun _ => owner⟩
    exact accepted

theorem compatible_of_preflightDestination (shows : Shows env source true added)
    (limits : added.WithinLimits) (holds : Holds env settled tidy root old)
    (passed : source.preflightDestination env root.own = .ok ()) : Compatible env old added := by
  rw [preflightDestination_eq shows limits holds] at passed
  obtain ⟨_, _, rest⟩ := bind_eq_ok.mp passed
  obtain ⟨_, _, records⟩ := bind_eq_ok.mp rest
  exact (preflightRecords_eq_ok_iff holds shows.valid).mp records

/-- A comparison with a tidy destination fails only by a conflict. -/
theorem preflightDestination_of_tidy (shows : Shows env source true added)
    (limits : added.WithinLimits) (holds : Holds env settled true root old) :
    source.preflightDestination env root.own = .ok () ∧ Compatible env old added ∨
      source.preflightDestination env root.own = .error .conflict ∧
        ¬Compatible env old added := by
  have compared : source.preflightDestination env root.own =
      (added.records env).forM (preflightRecord env root.own) := by
    rw [preflightDestination_eq shows limits holds]
    change (root.own.preflightStore env (Area.objects.get root) >>= fun _ =>
      root.own.preflightStore env (Area.artifacts.get root) >>= fun _ => _) = _
    rw [preflightStore_eq_ok holds.objects, ok_bind, preflightStore_eq_ok holds.artifacts, ok_bind]
  have passes := preflightRecords_eq_ok_iff holds shows.valid
  rw [compared]
  rcases preflightRecords_cases holds shows.valid with passed | failed
  · exact .inl ⟨passed, passes.mp passed⟩
  · refine .inr ⟨failed, fun compatible => ?_⟩
    rw [passes.mpr compatible] at failed
    cases failed

end Comparing

section Importing

variable {env : Environment} {verdict : ImportStep → Verdict} {settled tidy : Bool}
  {root : Root} {old added : Contents} {source : Cache}

/-- A path where nothing exists holds the empty contents. -/
theorem holds_missing (env : Environment) (settled tidy : Bool) :
    Holds env settled tidy Root.missing ⟨∅, ∅⟩ := by
  refine ⟨⟨fun digest bytes => ?_, fun key bundle => ?_⟩, ?_, .inl rfl, .inl ⟨rfl, ?_⟩,
    .inl ⟨rfl, ?_⟩⟩
  · simp
  · simp
  · intro metadata found
    cases found
  · intro key
    simp
  · intro key
    simp

theorem steady_spare {L : Type} {verdict : L → Verdict} (steady : Steady verdict) :
    Steady (spare verdict) :=
  fun label failed => steady label (spare_eq_fail_iff.mp failed)

/-- The snapshot of an exchange: it is taken exactly when the exchange is well formed and within
the limits. -/
theorem stageExchange_meets (steady : Steady verdict) :
    (stageExchange env source).Meets verdict Root.missing
      (fun report staged => ∃ added, Shows env source true added ∧ added.WithinLimits ∧
        report = added.report ∧ Holds env true true staged added)
      (fun _ _ => ¬∃ added, Shows env source true added ∧ added.WithinLimits) fun _ => True := by
  refine Meets.spare ?_ fun _ => trivial
  have steady := steady_spare steady
  unfold stageExchange
  apply Meets.bind
  apply Meets.relabel
  refine openCache_meets (steady.comp _) (holds_missing env false true) (fun after holds _ => ?_)
    fun _ _ => trivial
  apply Meets.relabel
  by_cases acceptable : ∃ added, Shows env source true added ∧ added.WithinLimits
  · obtain ⟨added, shows, limits⟩ := acceptable
    have compatible : Compatible env ⟨∅, ∅⟩ added := by
      intro key left right known
      simp at known
    have spared : SparedCopy env (spare verdict ∘ ImportStep.staging) :=
      sparedCopy_of_never env fun _ => spare_ne_kill verdict _
    refine (copyIntoUnlockedWith_meets (steady.comp _) spared shows limits compatible false
      holds).mono ?_ (fun _ _ impossible => impossible.elim) fun _ _ => trivial
    rintro report staged ⟨rfl, digests, keys, merged, digests_perm, keys_perm, merge, held⟩
    refine ⟨added, shows, limits, rfl, ?_⟩
    refine (merge.merge digests_perm keys_perm held).of_same ⟨fun digest => ?_, fun key => ?_⟩
    · simp
    · simp
  · refine Meets.refuted (fun report staged copied => acceptable (exists_shows_of_copy copied))
      (fun _ _ => acceptable) fun _ => trivial

/-- An import adds all of a well-formed exchange that contradicts nothing, and otherwise changes
nothing but the lock. -/
theorem importFrom_meets (steady : Steady verdict) (spared : SparedCopy env (verdict ∘ .commit))
    (holds : Holds env settled tidy root old) (exchange : Root) :
    (importFrom env (.elsewhere exchange)).Meets verdict root
      (fun report after => ∃ added, Exchanged env exchange added ∧ added.WithinLimits ∧
        Compatible env old added ∧ report = added.report ∧
          Holds env settled tidy after (old.merge added))
      (fun error after => after.objects = root.objects ∧ after.artifacts = root.artifacts ∧
        Holds env settled tidy after old ∧ (tidy = true →
          (¬∃ added, Exchanged env exchange added ∧ added.WithinLimits) ∨
            error = .conflict ∧ ∃ added, Exchanged env exchange added ∧ added.WithinLimits ∧
              ¬Compatible env old added))
      (fun after => Holds env false false after old ∨
        ∃ added, Exchanged env exchange added ∧ added.WithinLimits ∧ Compatible env old added ∧
          Partly env old added after) := by
  unfold importFrom
  simp only
  cases opened : openExisting env exchange with
  | error error =>
      refine ⟨rfl, rfl, holds, fun _ => .inl ?_⟩
      rintro ⟨added, exchanged, _⟩
      rw [exchanged.opened] at opened
      cases opened
  | ok cache =>
      have named : cache = ⟨exchange, true⟩ := by
        unfold openExisting at opened
        cases found : exchange.metadata with
        | none => simp [found] at opened
        | some metadata =>
            simp only [found] at opened
            obtain ⟨_, rest⟩ := guard_eq_ok.mp opened
            obtain ⟨_, _, rest⟩ := bind_eq_ok.mp rest
            cases rest
            rfl
      subst named
      refine Meets.lift_ok rfl ?_
      apply Meets.bind
      refine Meets.within (stageExchange_meets steady) ?_ ?_ (.inl holds.unsettle)
      · rintro report staged ⟨added, shows, limits, rfl, staging⟩
        have exchanged : Exchanged env exchange added := ⟨opened, shows⟩
        apply Meets.bind
        apply Meets.relabel
        refine holds.lock_meets (steady.comp _) (fun locked held objects artifacts => ?_)
          fun after held => .inl held.unsettle
        apply Meets.bind
        apply Meets.read
        apply Meets.bind
        apply Meets.lift
        · intro _ passed
          have compatible := compatible_of_preflightDestination staging.shows limits held passed
          apply Meets.bind
          apply Meets.relabel
          refine (copyIntoUnlockedWith_meets (steady.comp _) spared staging.shows limits compatible
            true held).mono ?_ (fun _ _ impossible => impossible.elim)
              fun after partly => .inr ⟨added, exchanged, limits, compatible, partly⟩
          rintro _ after ⟨rfl, digests, keys, merged, digests_perm, keys_perm, merge, kept⟩
          exact ⟨added, exchanged, limits, compatible, rfl,
            merge.merge digests_perm keys_perm kept⟩
        · intro error failed
          refine ⟨objects, artifacts, held, ?_⟩
          rintro rfl
          rcases preflightDestination_of_tidy staging.shows limits held with passed | conflict
          · rw [passed.1] at failed
            cases failed
          · rw [conflict.1] at failed
            cases failed
            exact .inr ⟨rfl, added, exchanged, limits, conflict.2⟩
      · intro error _ unacceptable
        refine ⟨rfl, rfl, holds, fun _ => .inl ?_⟩
        rintro ⟨added, exchanged, limits⟩
        exact unacceptable ⟨added, exchanged.shows, limits⟩

/-- Two readings of one exchange find the same entries. -/
theorem Shows.same {contents : Contents} (left : Shows env source true added)
    (right : Shows env source true contents) : added.Same contents := by
  constructor
  · intro digest
    cases stored : added.objects[digest]? with
    | none =>
        cases known : contents.objects[digest]? with
        | none => rfl
        | some bytes =>
            have hex := isHexDigest_of_isDigest (right.valid.isDigest_object digest bytes known)
            obtain ⟨⟨node, present, _⟩, _⟩ := right.hasObject known
            rw [left.objectFile_missing hex stored] at present
            cases present
    | some bytes =>
        cases known : contents.objects[digest]? with
        | none =>
            have hex := isHexDigest_of_isDigest (left.valid.isDigest_object digest bytes stored)
            obtain ⟨⟨node, present, _⟩, _⟩ := left.hasObject stored
            rw [right.objectFile_missing hex known] at present
            cases present
        | some other => rw [(left.hasObject stored).unique (right.hasObject known)]
  · intro key
    cases stored : added.artifacts[key]? with
    | none =>
        cases known : contents.artifacts[key]? with
        | none => rfl
        | some bundle =>
            obtain ⟨digest, ⟨node, present, _⟩, _⟩ := right.hasBundle known
            rw [left.bundleDirectory_missing digest stored] at present
            cases present
    | some bundle =>
        cases known : contents.artifacts[key]? with
        | none =>
            obtain ⟨digest, ⟨node, present, _⟩, _⟩ := left.hasBundle stored
            rw [right.bundleDirectory_missing digest known] at present
            cases present
        | some other => rw [(left.hasBundle stored).unique (right.hasBundle known)]

end Importing

section Sharing

variable {env : Environment} {requireOwner settled tidy : Bool} {root : Root} {contents : Contents}

theorem Status.Admissible.relax {status : Status} (admissible : status.Admissible env true) :
    status.Admissible env requireOwner :=
  ⟨admissible.1, fun _ => admissible.2 rfl⟩

theorem IsFile.relax {bytes : Bytes} {node : Leaf} (file : IsFile env true bytes node) :
    IsFile env requireOwner bytes node := by
  obtain ⟨status, found, admissible, links⟩ := file
  exact ⟨status, found, admissible.relax, links⟩

theorem IsBundle.relax {bundle : Bundle} {node : Node Leaf} (stored : IsBundle env true bundle node) :
    IsBundle env requireOwner bundle node := by
  obtain ⟨status, entries, ciphertext, envelope, found, admissible, names, first, isFile, second,
    isEnvelope⟩ := stored
  exact ⟨status, entries, ciphertext, envelope, found, admissible.relax, names, first,
    isFile.relax, second, isEnvelope.relax⟩

theorem Stored.imp {β γ : Type} {folder : Folder (Node β)} {held held' : γ → Node β → Prop}
    {leftover : FileName → Node β → Prop} {map : Std.TreeMap String γ compare}
    (stored : Stored folder held leftover map)
    (weaker : ∀ value node, held value node → held' value node) :
    Stored folder held' leftover map := by
  refine ⟨fun key value mapped => ?_, stored.accounted⟩
  obtain ⟨node, found, kept⟩ := stored.present key value mapped
  exact ⟨node, found, weaker value node kept⟩

theorem HasRoot.openExisting_eq (opened : HasRoot env root) :
    openExisting env root = .ok ⟨root, true⟩ := by
  obtain ⟨metadata, found, kind, restricted, _⟩ := opened
  unfold openExisting
  rw [found]
  simp only
  rw [if_neg (by simp [kind]),
    validatePrivateMetadata_directory_iff.mpr ⟨kind, restricted, by simp⟩]
  rfl

/-- Every settled cache of the effective user can be imported. -/
theorem Holds.exchanged (holds : Holds env true tidy root contents) (opened : HasRoot env root) :
    Exchanged env root contents := by
  obtain ⟨objects, opensObjects, storedObjects⟩ := holds.objects.opens
  obtain ⟨artifacts, opensArtifacts, storedArtifacts⟩ := holds.artifacts.opens
  exact ⟨opened.openExisting_eq, holds.valid,
    ⟨objects, opensObjects, storedObjects.imp fun _ _ => IsFile.relax⟩,
    artifacts, opensArtifacts, storedArtifacts.imp fun _ _ => IsBundle.relax⟩

end Sharing

/-- The same user and hash function; names, umask and the order of listings may differ. -/
structure Environment.SameHost (env other : Environment) : Prop where
  user : other.user = env.user
  digest : other.digest = env.digest

namespace Environment.SameHost

theorem symm {env other : Environment} (same : env.SameHost other) : other.SameHost env :=
  ⟨same.user.symm, same.digest.symm⟩

variable {env other : Environment} {β γ : Type} {settled tidy : Bool} {root : Root}
  {contents : Contents}

theorem isFile_eq (same : env.SameHost other) : IsFile other = IsFile env := by
  funext requireOwner bytes node
  simp only [IsFile, Status.Admissible, same.user]

theorem isBundle_eq (same : env.SameHost other) : IsBundle other = IsBundle env := by
  funext requireOwner bundle node
  simp only [IsBundle, Status.Admissible, same.user, same.isFile_eq]

theorem leftover_eq (same : env.SameHost other) :
    (Leftover other settled : FileName → Node β → Prop) = Leftover env settled := by
  funext name node
  cases node with
  | file status bytes => simp only [Leftover, Removable, Status.Admissible, same.user]
  | directory status entries => simp only [Leftover, Removable, Status.Admissible, same.user]
  | symlink target => simp only [Leftover, Removable]
  | dangling => simp only [Leftover, Removable]
  | special status => simp only [Leftover, Removable]

theorem valid (same : env.SameHost other) (valid : contents.Valid env) : contents.Valid other := by
  refine ⟨?_, valid.artifact⟩
  rw [same.digest]
  exact valid.object

theorem shows {cache : Cache} (same : env.SameHost other)
    (shows : Shows env cache settled contents) : Shows other cache settled contents := by
  refine ⟨same.valid shows.valid, ?_, ?_⟩
  · rw [same.isFile_eq, same.leftover_eq]
    exact shows.objects
  · rw [same.isBundle_eq, same.leftover_eq]
    exact shows.artifacts

theorem exchanged (same : env.SameHost other) (exchanged : Exchanged env root contents) :
    Exchanged other root contents := by
  refine ⟨?_, same.shows exchanged.shows⟩
  have opened := exchanged.opened
  simp only [openExisting, validatePrivateMetadata, Bool.false_eq_true, false_and, false_or] at opened ⊢
  exact opened

theorem stores {area : Area β} {held : γ → Node β → Prop} {map : Std.TreeMap String γ compare}
    (same : env.SameHost other) (stores : area.Stores env held settled tidy root map) :
    area.Stores other held settled tidy root map := by
  unfold Area.Stores
  rw [same.user, same.leftover_eq]
  exact stores

theorem holds (same : env.SameHost other) (holds : Holds env settled tidy root contents) :
    Holds other settled tidy root contents := by
  refine ⟨same.valid holds.valid, ?_, ?_, ?_, ?_⟩
  · rw [same.user]
    exact holds.directory
  · unfold Lockable
    rw [same.user]
    exact holds.lockable
  · rw [same.isFile_eq]
    exact same.stores holds.objects
  · rw [same.isBundle_eq]
    exact same.stores holds.artifacts

end Environment.SameHost

/-- The bytes of a cache that are compared by their hash. -/
def Contents.hashed (contents : Contents) : Set Bytes :=
  { bytes | (∃ digest : String, contents.objects[digest]? = some bytes) ∨
    ∃ (key : String) (bundle : Bundle), contents.artifacts[key]? = some bundle ∧
      bundle.ciphertext = bytes }

/-- Some key has a different ciphertext or envelope in the two caches. -/
def Contents.Clash (old added : Contents) : Prop :=
  ∃ (key : String) (left right : Bundle), old.artifacts[key]? = some left ∧
    added.artifacts[key]? = some right ∧ left ≠ right

/-- The entries of the one are those of the two others together. -/
structure Contents.Union (old added merged : Contents) : Prop where
  object : ∀ (digest : String) (bytes : Bytes), merged.objects[digest]? = some bytes ↔
    old.objects[digest]? = some bytes ∨ added.objects[digest]? = some bytes
  artifact : ∀ (key : String) (bundle : Bundle), merged.artifacts[key]? = some bundle ↔
    old.artifacts[key]? = some bundle ∨ added.artifacts[key]? = some bundle

section Exactness

variable {env : Environment} {old added : Contents}

theorem compatible_iff_not_clash (distinct : Set.InjOn env.digest (old.hashed ∪ added.hashed)) :
    Compatible env old added ↔ ¬old.Clash added := by
  constructor
  · rintro compatible ⟨key, left, right, known, stored, differ⟩
    obtain ⟨hashes, envelopes⟩ := compatible key left right known stored
    have ciphertexts := distinct (.inl (.inr ⟨key, left, known, rfl⟩))
      (.inr (.inr ⟨key, right, stored, rfl⟩)) hashes
    cases left
    cases right
    simp only at ciphertexts envelopes
    exact differ (by rw [ciphertexts, envelopes])
  · intro none key left right known stored
    by_cases same : left = right
    · rw [same]
      exact ⟨rfl, rfl⟩
    · exact absurd ⟨key, left, right, known, stored, same⟩ none

theorem or_eq_some_iff_of_agree {γ : Type} {left right : Option γ} {value : γ}
    (agree : ∀ known stored, left = some known → right = some stored → known = stored) :
    left.or right = some value ↔ left = some value ∨ right = some value := by
  cases left with
  | none => simp
  | some known =>
      rw [Option.some_or, Option.some.injEq]
      constructor
      · exact .inl
      · rintro (same | stored)
        · exact same
        · exact agree known value rfl stored

theorem union_merge (distinct : Set.InjOn env.digest (old.hashed ∪ added.hashed))
    (valid : old.Valid env) (valid' : added.Valid env) (compatible : Compatible env old added) :
    old.Union added (old.merge added) := by
  constructor
  · intro digest bytes
    rw [Contents.merge_objects]
    refine or_eq_some_iff_of_agree fun known stored here there => ?_
    refine distinct (.inl (.inl ⟨digest, here⟩)) (.inr (.inl ⟨digest, there⟩)) ?_
    rw [(valid.object digest known here).1, (valid'.object digest stored there).1]
  · intro key bundle
    rw [Contents.merge_artifacts]
    refine or_eq_some_iff_of_agree fun known stored here there => ?_
    by_contra differ
    exact (compatible_iff_not_clash distinct).mp compatible ⟨key, known, stored, here, there, differ⟩

theorem Steady.of_pass {L : Type} {verdict : L → Verdict} (passes : ∀ label, verdict label = .pass) :
    Steady verdict := by
  intro label failed
  rw [passes label] at failed
  cases failed

theorem importFrom_passes {verdict : ImportStep → Verdict} {settled : Bool} {root : Root}
    (passes : ∀ label, verdict label = .pass) (holds : Holds env settled true root old)
    (exchange : Root) :
    (importFrom env (.elsewhere exchange)).Meets verdict root
      (fun report after => ∃ added, Exchanged env exchange added ∧ added.WithinLimits ∧
        Compatible env old added ∧ report = added.report ∧
          Holds env settled true after (old.merge added))
      (fun error after => after.objects = root.objects ∧ after.artifacts = root.artifacts ∧
        Holds env settled true after old ∧ ((¬∃ added, Exchanged env exchange added ∧ added.WithinLimits) ∨
          error = .conflict ∧ ∃ added, Exchanged env exchange added ∧ added.WithinLimits ∧
            ¬Compatible env old added))
      (fun _ => False) := by
  have never : ∀ label progress, verdict label ≠ .kill progress := by
    intro label progress killed
    rw [passes label] at killed
    cases killed
  have spared : SparedCopy env (verdict ∘ .commit) := sparedCopy_of_never env fun _ => never _
  have lives := (importFrom_meets (Steady.of_pass passes) spared holds exchange).alive never
  exact lives.mono (fun _ _ returned => returned)
    (fun _ _ raised => ⟨raised.1, raised.2.1, raised.2.2.1, raised.2.2.2 rfl⟩) fun _ impossible => impossible

/-- An import of an acceptable exchange that contradicts nothing returns the report of the
exchange. -/
theorem importFrom_eq_ok {verdict : ImportStep → Verdict} {settled : Bool} {root exchange : Root}
    (passes : ∀ label, verdict label = .pass) (holds : Holds env settled true root old)
    (exchanged : Exchanged env exchange added) (limits : added.WithinLimits)
    (compatible : Compatible env old added) :
    ∃ after, importFrom env (.elsewhere exchange) verdict root = .ok added.report after ∧
      Holds env settled true after (old.merge added) := by
  rcases (importFrom_passes passes holds exchange).elim with ⟨report, after, ended, returned⟩ | ⟨error, after, ended, raised⟩ | stopped
  · obtain ⟨found, exchanged', _, _, rfl, kept⟩ := returned
    have same := exchanged.shows.same exchanged'.shows
    refine ⟨after, by rw [ended, same.report_eq], kept.of_same ⟨fun digest => ?_, fun key => ?_⟩⟩
    · rw [Contents.merge_objects, Contents.merge_objects, same.object]
    · rw [Contents.merge_artifacts, Contents.merge_artifacts, same.artifact]
  · rcases raised.2.2.2 with unacceptable | ⟨_, found, exchanged', _, contradiction⟩
    · exact absurd ⟨added, exchanged, limits⟩ unacceptable
    · refine absurd (fun key left right known stored => ?_) contradiction
      rw [exchanged'.shows.same exchanged.shows |>.artifact] at stored
      exact compatible key left right known stored
  · obtain ⟨_, _, _, impossible⟩ := stopped
    exact impossible.elim

/-- An import of an acceptable exchange that contradicts the cache is a conflict. -/
theorem importFrom_eq_conflict {verdict : ImportStep → Verdict} {settled : Bool}
    {root exchange : Root} (passes : ∀ label, verdict label = .pass)
    (holds : Holds env settled true root old) (exchanged : Exchanged env exchange added)
    (limits : added.WithinLimits) (differ : ¬Compatible env old added) :
    ∃ after, importFrom env (.elsewhere exchange) verdict root = .err .conflict after ∧
      Holds env settled true after old := by
  rcases (importFrom_passes passes holds exchange).elim with
    ⟨_, _, _, found, exchanged', _, compatible, _⟩ |
      ⟨error, after, ended, _, _, held, unacceptable | ⟨rfl, _⟩⟩ | ⟨_, _, _, impossible⟩
  · refine absurd (fun key left right known stored => ?_) differ
    rw [exchanged.shows.same exchanged'.shows |>.artifact] at stored
    exact compatible key left right known stored
  · exact absurd ⟨added, exchanged, limits⟩ unacceptable
  · exact ⟨after, ended, held⟩
  · exact impossible.elim

/-- A second import finds everything there. -/
theorem importFrom_again {other : Environment} {verdict : ImportStep → Verdict} {settled : Bool}
    {root exchange : Root} (same : env.SameHost other) (passes : ∀ label, verdict label = .pass)
    (holds : Holds env settled true root (old.merge added))
    (exchanged : Exchanged env exchange added) (limits : added.WithinLimits)
    (compatible : Compatible env old added) :
    ∃ again, importFrom other (.elsewhere exchange) verdict root = .ok added.report again ∧
      Holds env settled true again (old.merge added) := by
  have present : Compatible other (old.merge added) added := by
    intro key left right known stored
    rw [Contents.merge_artifacts] at known
    unfold Bundle.Agrees
    rw [same.digest]
    cases before : old.artifacts[key]? with
    | some found =>
        rw [before, Option.some_or, Option.some.injEq] at known
        subst known
        exact compatible key found right before stored
    | none =>
        rw [before, Option.none_or, stored, Option.some.injEq] at known
        rw [known]
        exact ⟨rfl, rfl⟩
  obtain ⟨again, ended, kept⟩ := importFrom_eq_ok passes (same.holds holds)
    (same.exchanged exchanged) limits present
  refine ⟨again, ended, (same.symm.holds kept).of_same ⟨fun digest => ?_, fun key => ?_⟩⟩
  · simp only [Contents.merge_objects, Option.or_assoc, Option.or_self]
  · simp only [Contents.merge_artifacts, Option.or_assoc, Option.or_self]

theorem importFrom_itself {verdict : ImportStep → Verdict} {root : Root} (opened : HasRoot env root) :
    importFrom env .itself verdict root = .err .unsafeMetadata root := by
  have met : (importFrom env .itself).Meets verdict root (fun _ _ => False)
      (fun error after => error = .unsafeMetadata ∧ after = root) fun _ => False := by
    unfold importFrom
    apply Meets.bind
    apply Meets.read
    exact Meets.lift_ok opened.openExisting_eq (Meets.raise ⟨rfl, rfl⟩)
  rcases met.elim with ⟨_, _, _, impossible⟩ | ⟨_, _, ended, rfl, rfl⟩ | ⟨_, _, _, impossible⟩
  · exact impossible.elim
  · exact ended
  · exact impossible.elim

/-- Importing an exchange: all of it is added, or nothing changes; a second import of it, whatever
the order of its entries, finds everything there. -/
theorem importFrom_atomic {verdict : ImportStep → Verdict} {settled : Bool} {root : Root}
    (passes : ∀ label, verdict label = .pass) (holds : Holds env settled true root old)
    (exchange : Root) (distinct : ∀ added, Exchanged env exchange added →
      Set.InjOn env.digest (old.hashed ∪ added.hashed)) :
    (importFrom env (.elsewhere exchange)).Meets verdict root
        (fun report after => ∃ added merged, Exchanged env exchange added ∧ added.WithinLimits ∧
          report = added.report ∧ old.Union added merged ∧ Holds env settled true after merged ∧
            ∀ other, env.SameHost other → ∀ verdict' : ImportStep → Verdict,
              (∀ label, verdict' label = .pass) → ∃ again,
                importFrom other (.elsewhere exchange) verdict' after = .ok report again ∧
                  Holds env settled true again merged)
        (fun error after => after.objects = root.objects ∧ after.artifacts = root.artifacts ∧
          ((∀ added, ¬Exchanged env exchange added) ∨
            (∃ added, Exchanged env exchange added ∧ ¬added.WithinLimits) ∨
              error = .conflict ∧ ∃ added, Exchanged env exchange added ∧ added.WithinLimits ∧
                old.Clash added))
        (fun _ => False) ∧
      (∀ added, Exchanged env exchange added → added.WithinLimits →
        ((∃ after, importFrom env (.elsewhere exchange) verdict root = .err .conflict after) ↔
          old.Clash added)) ∧
      (HasRoot env root → importFrom env .itself verdict root = .err .unsafeMetadata root) := by
  have met := importFrom_passes passes holds exchange
  refine ⟨met.mono ?_ ?_ fun _ impossible => impossible, fun added exchanged limits => ?_,
    importFrom_itself⟩
  · rintro report after ⟨added, exchanged, limits, compatible, rfl, kept⟩
    have injective := distinct added exchanged
    exact ⟨added, old.merge added, exchanged, limits, rfl,
      union_merge injective holds.valid exchanged.shows.valid compatible, kept,
      fun other same verdict' passes' => importFrom_again same passes' kept exchanged limits compatible⟩
  · rintro error after ⟨objects, artifacts, _, unacceptable | ⟨rfl, added, exchanged, limits, differ⟩⟩
    · refine ⟨objects, artifacts, ?_⟩
      by_cases readable : ∃ added, Exchanged env exchange added
      · obtain ⟨added, exchanged⟩ := readable
        exact .inr (.inl ⟨added, exchanged, fun limits => unacceptable ⟨added, exchanged, limits⟩⟩)
      · exact .inl fun added exchanged => readable ⟨added, exchanged⟩
    · rw [compatible_iff_not_clash (distinct added exchanged), not_not] at differ
      exact ⟨objects, artifacts, .inr (.inr ⟨rfl, added, exchanged, limits, differ⟩)⟩
  · have decided := compatible_iff_not_clash (distinct added exchanged)
    constructor
    · rintro ⟨after, ended⟩
      by_contra none
      obtain ⟨_, returned, _⟩ := importFrom_eq_ok passes holds exchanged limits (decided.mpr none)
      rw [returned] at ended
      cases ended
    · intro clash
      obtain ⟨after, ended, _⟩ := importFrom_eq_conflict passes holds exchanged limits
        fun compatible => decided.mp compatible clash
      exact ⟨after, ended⟩

end Exactness

/-- BLAKE3 of no bytes, of one zero byte, and, in place of all others, of the bytes 0 and 1. -/
def sampleDigest : Bytes → String
  | [] => "af1349b9f5f9a1a6a0404dea36dcc9499bcb25c9adc112b7cc9a93cae41f3262"
  | [0] => "2d3adedff11b61f14c886e35afa036736dcd87a74d27b5c1510225d0f592e213"
  | _ => "7b7015bb92cf0b318037702a6cdd81dee41224f734684c2c122cd6359cb1ee63"

/-- A suffix that makes a name longer than all the given ones. -/
def sampleSuffix (names : List FileName) : String :=
  String.ofList (List.replicate ((names.filterMap FileName.toStr).map String.length).sum 'a')

theorem sampleSuffix_fresh (names : List FileName) :
    FileName.text (transactionPrefix ++ sampleSuffix names) ∉ names := by
  intro member
  have listed : (transactionPrefix ++ sampleSuffix names).length ∈
      (names.filterMap FileName.toStr).map String.length :=
    List.mem_map.mpr ⟨_, List.mem_filterMap.mpr ⟨_, member, rfl⟩, rfl⟩
  have longer : (transactionPrefix ++ sampleSuffix names).length =
      14 + ((names.filterMap FileName.toStr).map String.length).sum := by
    rw [String.length_append, sampleSuffix, String.length_ofList, List.length_replicate]
    rfl
  obtain ⟨before, rest, split⟩ := List.append_of_mem listed
  rw [split, List.sum_append, List.sum_cons] at longer
  omega

def sampleEnvironment : Environment where
  user := 1000
  umask := 0o022
  digest := sampleDigest
  isDigest_digest bytes := by
    unfold sampleDigest
    split
    · decide
    · decide
    · decide
  temporarySuffix := sampleSuffix
  temporary_fresh := sampleSuffix_fresh
  atomicPersist := true
  listing _ names := names
  listing_perm _ names := .refl names

/-- A cache of the sample user with a single object, and one with a single bundle. -/
def sampleDestination : Root where
  metadata := some ⟨.directory, ⟨1000, 0o700, 1⟩, 0⟩
  lock := none
  objects := some (.directory ⟨1000, 0o700, 1⟩
    ((∅ : Folder Leaf).insert (.text (sampleDigest [])) (privateFile sampleEnvironment [])))
  artifacts := none

def sampleBundle : Bundle := ⟨[0], []⟩

def sampleKey : String := "7b7015bb92cf0b318037702a6cdd81dee41224f734684c2c122cd6359cb1ee63"

def sampleExchange : Root where
  metadata := some ⟨.directory, ⟨1000, 0o700, 1⟩, 0⟩
  lock := none
  objects := none
  artifacts := some (.directory ⟨1000, 0o700, 1⟩ ((∅ : Folder (Node Leaf)).insert (.text sampleKey)
    (.directory ⟨1000, 0o700, 1⟩ (bundleFiles sampleEnvironment sampleBundle))))

theorem samplePrivate : (⟨1000, 0o700, 1⟩ : Status).isPrivate :=
  Status.isPrivate_iff.mpr (show (0o700 : Nat) % 64 = 0 from rfl)

theorem sampleDestination_holds : Holds sampleEnvironment true true sampleDestination
    ⟨(∅ : Std.TreeMap String Bytes compare).insert (sampleDigest []) [], ∅⟩ := by
  have stored : Stored (∅ : Folder Leaf) (IsFile sampleEnvironment true)
      (Leftover sampleEnvironment true) (∅ : Std.TreeMap String Bytes compare) :=
    Stored.empty (by simp)
  refine ⟨⟨fun digest bytes found => ?_, by simp⟩, ?_, .inl rfl,
    .inr ⟨_, _, rfl, rfl, fun _ => samplePrivate,
      stored.insert (isFile_private []) fun name => lookup_insert_eq _ _ _ _⟩, .inl ⟨rfl, by simp⟩⟩
  · rw [getElem?_insert_eq] at found
    split at found
    · cases found
      exact ⟨‹_›, by decide⟩
    · simp at found
  · rintro _ ⟨⟩
    exact ⟨rfl, rfl⟩

/-- A cache with a single bundle. -/
def singleBundle (bundle : Bundle) : Root where
  metadata := some ⟨.directory, ⟨1000, 0o700, 1⟩, 0⟩
  lock := none
  objects := none
  artifacts := some (.directory ⟨1000, 0o700, 1⟩ ((∅ : Folder (Node Leaf)).insert (.text sampleKey)
    (.directory ⟨1000, 0o700, 1⟩ (bundleFiles sampleEnvironment bundle))))

theorem singleBundle_holds {bundle : Bundle} (ciphertext : bundle.ciphertext.length ≤ maxCiphertextBytes)
    (envelope : bundle.envelope.length ≤ maxEnvelopeBytes) :
    Holds sampleEnvironment true true (singleBundle bundle)
      ⟨∅, (∅ : Std.TreeMap String Bundle compare).insert sampleKey bundle⟩ := by
  have stored : Stored (∅ : Folder (Node Leaf)) (IsBundle sampleEnvironment true)
      (Leftover sampleEnvironment true) (∅ : Std.TreeMap String Bundle compare) :=
    Stored.empty (by simp)
  refine ⟨⟨by simp, fun key inside found => ?_⟩, ?_, .inl rfl, .inl ⟨rfl, by simp⟩,
    .inr ⟨_, _, rfl, rfl, fun _ => samplePrivate,
      stored.insert (isBundle_bundleFiles bundle ⟨samplePrivate, fun _ => rfl⟩)
        fun name => lookup_insert_eq _ _ _ _⟩⟩
  · rw [getElem?_insert_eq] at found
    split at found
    · cases found
      rename_i same
      rw [← same]
      exact ⟨by decide, ciphertext, envelope⟩
    · simp at found
  · rintro _ ⟨⟩
    exact ⟨rfl, rfl⟩

theorem sampleExchange_holds : Holds sampleEnvironment true true sampleExchange
    ⟨∅, (∅ : Std.TreeMap String Bundle compare).insert sampleKey sampleBundle⟩ :=
  singleBundle_holds (by decide) (by decide)

theorem sample_distinct (added : Contents)
    (exchanged : Exchanged sampleEnvironment sampleExchange added) :
    Set.InjOn sampleEnvironment.digest
      (Contents.hashed ⟨(∅ : Std.TreeMap String Bytes compare).insert (sampleDigest []) [], ∅⟩ ∪
        added.hashed) := by
  have known := sampleExchange_holds.exchanged ⟨_, rfl, rfl, samplePrivate, fun _ => rfl⟩
  have same := exchanged.shows.same known.shows
  have small : Set.InjOn sampleEnvironment.digest {[], [0]} := by
    rintro left (rfl | rfl) right (rfl | rfl) equal
    · rfl
    · exact absurd equal (by decide)
    · exact absurd equal (by decide)
    · rfl
  refine small.mono ?_
  rintro bytes ((⟨digest, found⟩ | ⟨key, bundle, found, _⟩) |
    (⟨digest, found⟩ | ⟨key, bundle, found, rfl⟩))
  · rw [getElem?_insert_eq] at found
    split at found
    · cases found
      simp
    · simp at found
  · simp at found
  · rw [same.object] at found
    simp at found
  · rw [same.artifact, getElem?_insert_eq] at found
    split at found
    · cases found
      simp [sampleBundle]
    · simp at found

theorem importFrom_atomic_sample :
    ¬∃ after, importFrom sampleEnvironment (.elsewhere sampleExchange) (fun _ => .pass)
      sampleDestination = .err .conflict after := by
  have exchanged := sampleExchange_holds.exchanged ⟨_, rfl, rfl, samplePrivate, fun _ => rfl⟩
  have passes : ∀ label, (fun _ : ImportStep => Verdict.pass) label = .pass := fun _ => rfl
  have atomic := importFrom_atomic passes sampleDestination_holds sampleExchange sample_distinct
  rw [atomic.2.1 _ exchanged ⟨by decide, by decide, by decide⟩]
  rintro ⟨key, left, right, known, _⟩
  simp at known

theorem importFrom_itself_refused :
    ∃ contents, Holds sampleEnvironment true true sampleDestination contents ∧
      Exchanged sampleEnvironment sampleDestination contents ∧ contents.WithinLimits ∧
        ¬contents.Clash contents ∧
          importFrom sampleEnvironment .itself (fun _ => .pass) sampleDestination =
            .err .unsafeMetadata sampleDestination := by
  have opened : HasRoot sampleEnvironment sampleDestination :=
    ⟨_, rfl, rfl, samplePrivate, fun _ => rfl⟩
  refine ⟨_, sampleDestination_holds, sampleDestination_holds.exchanged opened,
    ⟨by decide, by decide, by decide⟩, ?_, importFrom_itself opened⟩
  rintro ⟨key, left, right, known, _⟩
  simp at known

end NixSeal.Cache
