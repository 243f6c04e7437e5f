import NixSeal.Cache.Refinement

/-!
# What writers accept and readers refuse

Writers bound every entry on its own; readers bound the entries together.  A cache filled by
accepted writes can be listed, counted, collected and exported exactly when what was written stays
within the limits of an exchange.
-/

namespace NixSeal.Cache

open Faulty Faulty.Program Fallible Ordered

/-- The public operations that add entries. -/
inductive Write where
  | put (bytes : Bytes)
  | putArtifact (address : ArtifactAddress) (ciphertext envelope : Bytes)
  | importFrom (source : Source)

/-- The cache after a call that returned `Ok`. -/
def accepted {α : Type} (ended : Except CacheError α × Root) : Option Root :=
  if ended.1.isOk then some ended.2 else none

/-- One write; `none` when it is refused. -/
def Write.perform (env : Environment) (cache : Root) : Write → Option Root
  | .put bytes => accepted ((Cache.put env bytes).passing cache)
  | .putArtifact address ciphertext envelope =>
      accepted ((Cache.putArtifact env address ciphertext envelope).passing cache)
  | .importFrom source => accepted ((Cache.importFrom env source).passing cache)

/-- A sequence of accepted writes; each call may see its directories in an order of its own. -/
def performAll (cache : Root) (writes : List (Environment × Write)) : Option Root :=
  writes.foldlM (fun cache write => write.2.perform write.1 cache) cache

/-- The entries that a write adds. -/
def Adds (env : Environment) (old : Contents) : Write → Contents → Prop
  | .put bytes, next => next = old.put env bytes
  | .putArtifact address ciphertext envelope, next =>
      ∃ key, address.key env = .ok key ∧ next = old.putArtifact key ⟨ciphertext, envelope⟩
  | .importFrom (.elsewhere exchange), next =>
      ∃ added, Exchanged env exchange added ∧ next = old.merge added
  | .importFrom .itself, _ => False

/-- The entries that a sequence of writes adds. -/
inductive AddsAll (env : Environment) (start : Contents) : List Write → Contents → Prop
  | nil : AddsAll env start [] start
  | snoc {writes : List Write} {write : Write} {old next : Contents} :
      AddsAll env start writes old → Adds env old write next →
        AddsAll env start (writes ++ [write]) next

/-- Every reader of a cache succeeds, in whatever order it lists the directories. -/
structure Readable (env : Environment) (cache : Root) : Prop where
  artifactRecords : ∀ other, env.SameHost other →
    ∃ records, cache.own.artifactRecords other = .ok records
  inventory : ∀ other, env.SameHost other → ∃ counts, cache.own.inventory other = .ok counts
  exportTo : ∀ other, env.SameHost other → ∀ destination : Root, destination.metadata = none →
    ∃ result after, (Cache.exportTo other destination).passing cache = (.ok result, after)
  dryRun : ∀ other, env.SameHost other → ∀ request : GcRequest, request.WellFormed →
    request.execute = false →
      ∃ report after, (Cache.garbageCollect other request).passing cache = (.ok report, after)

section Writing

variable {env : Environment} {cache : Root} {contents : Contents}

theorem accepted_eq_some {α : Type} {ended : Except CacheError α × Root} {after : Root} :
    accepted ended = some after ↔ ∃ value, ended = (.ok value, after) := by
  obtain ⟨result, root⟩ := ended
  cases result with
  | error error => simp [accepted, Except.isOk, Except.toBool]
  | ok value => simp [accepted, Except.isOk, Except.toBool]

theorem returns_of_accepted {L α : Type} {program : Program L Root CacheError α}
    {returns : α → Root → Prop} {raises : CacheError → Root → Prop} {stops : Root → Prop}
    (met : program.Meets (fun _ => .pass) cache returns raises stops) {after : Root}
    (ended : accepted (program.passing cache) = some after) :
    ∃ value, (program.passing cache).2 = after ∧ returns value after := by
  obtain ⟨value, ended⟩ := accepted_eq_some.mp ended
  rcases met.passing with ⟨_, _, ended', returned⟩ | ⟨_, _, ended', _⟩
  · rw [ended] at ended'
    cases ended'
    exact ⟨value, by rw [ended], returned⟩
  · rw [ended] at ended'
    cases ended'

theorem adds_of_perform (holds : Holds env true true cache contents) (rooted : HasRoot env cache)
    {write : Write} {after : Root} (performed : write.perform env cache = some after) :
    ∃ next, Adds env contents write next ∧ Holds env true true after next ∧ HasRoot env after := by
  cases write with
  | put bytes =>
      have met : (put env bytes).Meets (fun _ => .pass) cache
          (fun _ after => Holds env true true after (contents.put env bytes)) (fun _ _ => True)
          fun _ => True :=
        put_meets steady_pass (.inr (by simp)) holds (fun _ _ held => held)
          (fun _ _ _ => trivial) fun _ _ => trivial
      obtain ⟨_, rfl, held⟩ := returns_of_accepted met performed
      exact ⟨_, rfl, held, rooted.of_metadata_eq ((keeps_put bytes).passing cache)⟩
  | putArtifact address ciphertext envelope =>
      have met : (putArtifact env address ciphertext envelope).Meets (fun _ => .pass) cache
          (fun _ after => ∃ key, address.key env = .ok key ∧
            Holds env true true after (contents.putArtifact key ⟨ciphertext, envelope⟩))
          (fun _ _ => True) fun _ => True := by
        apply Meets.bind
        refine Meets.lift (fun key addressed => ?_) fun _ _ => trivial
        change (putArtifactByKey env key (Bundle.mk ciphertext envelope).ciphertext
          (Bundle.mk ciphertext envelope).envelope).Meets _ _ _ _ _
        exact putArtifactByKey_meets steady_pass (.inr (by simp)) holds
          (fun _ after held => ⟨key, addressed, held⟩) (fun _ _ _ _ => trivial) fun _ _ => trivial
      obtain ⟨_, rfl, key, addressed, held⟩ := returns_of_accepted met performed
      exact ⟨_, ⟨key, addressed, rfl⟩, held, rooted.of_metadata_eq
        ((keeps_putArtifact address ciphertext envelope).passing cache)⟩
  | importFrom source =>
      have place : ((importFrom env source).passing cache).2.metadata = cache.metadata :=
        (keeps_importFrom source).passing cache
      cases source with
      | itself =>
          obtain ⟨_, ended⟩ := accepted_eq_some.mp performed
          rw [passing_eq_error (importFrom_itself rooted)] at ended
          cases ended
      | elsewhere exchange =>
          have met := importFrom_passes (fun _ => rfl) holds exchange
          obtain ⟨_, rfl, added, exchanged, -, -, -, held⟩ := returns_of_accepted met performed
          exact ⟨_, ⟨added, exchanged, rfl⟩, held, rooted.of_metadata_eq place⟩

/-- The entries added are the same on every listing order. -/
theorem adds_of_sameHost {other : Environment} (same : env.SameHost other) {write : Write}
    {next : Contents} (adds : Adds other contents write next) : Adds env contents write next := by
  cases write with
  | put bytes =>
      cases adds
      simp only [Adds, Contents.put, same.digest]
  | putArtifact address ciphertext envelope =>
      obtain ⟨key, addressed, rfl⟩ := adds
      refine ⟨key, ?_, rfl⟩
      simpa only [ArtifactAddress.key, same.digest] using addressed
  | importFrom source =>
      cases source with
      | itself => exact adds
      | elsewhere exchange =>
          obtain ⟨added, exchanged, rfl⟩ := adds
          exact ⟨added, same.symm.exchanged exchanged, rfl⟩

theorem addsAll_of_performAll (holds : Holds env true true cache contents)
    (rooted : HasRoot env cache) {writes : List (Environment × Write)}
    (hosts : ∀ write ∈ writes, env.SameHost write.1) {after : Root}
    (performed : performAll cache writes = some after) :
    ∃ final, AddsAll env contents (writes.map Prod.snd) final ∧ Holds env true true after final ∧
      HasRoot env after := by
  induction writes using List.reverseRecOn generalizing after with
  | nil =>
      cases performed
      exact ⟨contents, .nil, holds, rooted⟩
  | append_singleton writes write ih =>
      obtain ⟨other, write⟩ := write
      rw [performAll, List.foldlM_append] at performed
      obtain ⟨before, earlier, last⟩ := Option.bind_eq_some_iff.mp performed
      rw [List.foldlM_cons] at last
      obtain ⟨final, performed, rest⟩ := Option.bind_eq_some_iff.mp last
      cases rest
      have same : env.SameHost other := hosts (other, write) (by simp)
      obtain ⟨old, adds, held, opened⟩ := ih (fun write member => hosts write (by simp [member]))
        earlier
      have opened' : HasRoot other before := by
        unfold HasRoot Status.Admissible
        rw [same.user]
        exact opened
      obtain ⟨next, added, kept, rooted⟩ := adds_of_perform (same.holds held) opened' performed
      refine ⟨next, ?_, same.symm.holds kept, ?_⟩
      · rw [List.map_append]
        exact .snoc adds (adds_of_sameHost same added)
      · unfold HasRoot Status.Admissible
        rw [← same.user]
        exact rooted

/-- What can be exported stays within the limits. -/
theorem limits_of_exportTo (holds : Holds env true true cache contents) (destination : Root)
    {result : CacheTransferReport × Root} {after : Root}
    (exported : (exportTo env destination).passing cache = (.ok result, after)) :
    contents.WithinLimits := by
  have met : (exportTo env destination).Meets (fun _ => .pass) cache
      (fun _ _ => contents.WithinLimits) (fun _ _ => True) fun _ => True := by
    unfold exportTo
    apply Meets.bind
    refine Meets.require (fun _ => ?_) fun _ => trivial
    apply Meets.bind
    have opening : (relabel ExportStep.openStaging (openCache env)).Meets (fun _ => .pass)
        Root.missing (fun _ _ => True) (fun _ _ => True) fun _ => True :=
      Meets.ends (fun _ _ => trivial) (fun _ _ => trivial) fun _ => trivial
    refine Meets.within opening ?_ (fun _ _ _ => trivial) trivial
    intro _ staged _
    apply Meets.bind
    apply Meets.relabel
    refine holds.lock_meets (Steady.of_pass fun _ => rfl) (fun locked held _ _ => ?_)
      fun _ _ => trivial
    apply Meets.bind
    apply Meets.read
    apply Meets.bind
    have copied : (stageExport env locked.own).Meets (fun _ => .pass) staged
        (fun _ _ => contents.WithinLimits) (fun _ _ => True) fun _ => True := by
      apply Meets.bind
      apply Meets.relabel
      apply Meets.bind
      refine Meets.lift (fun _ preflight => ?_) fun _ _ => trivial
      have limits := held.shows.preflightTransferLimits_iff.mp preflight
      exact Meets.ends (fun _ _ => Meets.ends (fun _ _ => limits) (fun _ _ => trivial)
        fun _ => trivial) (fun _ _ => trivial) fun _ => trivial
    refine Meets.within copied (fun _ _ limits => ?_) (fun _ _ _ => trivial) trivial
    exact Meets.ends (fun _ _ => limits) (fun _ _ => trivial) fun _ => trivial
  rcases met.passing with ⟨_, _, _, limits⟩ | ⟨_, _, refused, _⟩
  · exact limits
  · rw [exported] at refused
    cases refused

/-- Every reader succeeds exactly when the contents stay within the limits of an exchange. -/
theorem readable_iff_withinLimits (holds : Holds env true true cache contents) :
    Readable env cache ↔ contents.WithinLimits := by
  constructor
  · intro readable
    obtain ⟨result, after, exported⟩ := readable.exportTo env ⟨rfl, rfl⟩ Root.missing rfl
    exact limits_of_exportTo holds Root.missing exported
  · intro limits
    have few : contents.artifacts.size ≤ maxTransferEntries := by
      have entries := limits.entries
      omega
    refine ⟨fun other same => ?_, fun other same => ?_, fun other same destination missing => ?_,
      fun other same request wellFormed dry => ?_⟩
    · exact ⟨_, (same.holds holds).shows.artifactRecords_eq few limits.envelopes⟩
    · exact ⟨_, (same.holds holds).shows.inventory_eq limits.countable⟩
    · rcases (exportTo_meets steady_pass (same.holds holds) limits destination).passing with
        ⟨result, after, ended, _⟩ | ⟨_, _, _, taken, _⟩
      · exact ⟨result, after, ended⟩
      · exact absurd missing taken
    · rcases (garbageCollect_meets steady_pass ⟨by simp, by simp⟩ (same.holds holds)
          request).passing with
        ⟨report, after, ended, _⟩ | ⟨_, _, _, _, _, _, ⟨malformed, _⟩ | ⟨_, exceeded⟩⟩
      · exact ⟨report, after, ended⟩
      · exact absurd wellFormed malformed
      · exact absurd ⟨rfl, limits⟩ exceeded

theorem exists_performed_putArtifact (holds : Holds env true true cache contents)
    (rooted : HasRoot env cache) {address : ArtifactAddress} {bundle : Bundle} {key : String}
    (addressed : address.key env = .ok key) (accepted : contents.refusal key bundle = none) :
    ∃ after, Write.perform env cache (.putArtifact address bundle.ciphertext bundle.envelope) =
        some after ∧ Holds env true true after (contents.putArtifact key bundle) ∧
      HasRoot env after := by
  have refines : Refines env ⟨cache, fun _ => Root.missing⟩ ⟨contents, fun _ => none⟩ :=
    ⟨holds, rooted, fun _ _ => rfl, fun _ _ found => by cases found⟩
  obtain ⟨reply, kept⟩ := simulated_putArtifact refines address bundle.ciphertext bundle.envelope
  simp only [System.perform, State.perform, addressed, accepted, Reply.published.injEq]
    at reply kept
  exact ⟨_, accepted_eq_some.mpr ⟨_, Prod.ext reply rfl⟩, kept.holds, kept.rooted⟩

end Writing

/-- Accepted writes from an empty cache leave it readable exactly when what they wrote, counted
once, stays within the limits of an exchange. -/
theorem readable_iff {env : Environment} {writes : List (Environment × Write)} {after : Root}
    (hosts : ∀ write ∈ writes, env.SameHost write.1)
    (performed : performAll (System.start env).cache writes = some after) :
    ∃ contents, AddsAll env ⟨∅, ∅⟩ (writes.map Prod.snd) contents ∧
      (Readable env after ↔ contents.WithinLimits) := by
  have refines := (refines_start env).2
  obtain ⟨contents, adds, holds, _⟩ := addsAll_of_performAll refines.holds refines.rooted hosts
    performed
  exact ⟨contents, adds, readable_iff_withinLimits holds⟩

namespace Sample

/-- The last sixteen bits of a text, as a number. -/
def lastBits (bytes : Bytes) : Nat :=
  match bytes.reverse with
  | low :: high :: _ => high.toNat * 256 + low.toNat
  | _ => 0

/-- A hash that tells apart what differs in its last sixteen bits. -/
def bitDigest (bytes : Bytes) : String :=
  String.ofList ((List.range 64).map fun index =>
    if (lastBits bytes).testBit index then 'b' else 'a')

theorem utf8ByteSize_ofList_of_ascii {chars : List Char}
    (ascii : ∀ char ∈ chars, char.utf8Size = 1) :
    (String.ofList chars).utf8ByteSize = chars.length := by
  induction chars with
  | nil => rfl
  | cons char rest ih =>
      rw [String.ofList_cons, String.utf8ByteSize_append, String.utf8ByteSize_singleton,
        ih fun other member => ascii other (by simp [member]), ascii char (by simp),
        List.length_cons, Nat.add_comm]

theorem isDigest_bitDigest (bytes : Bytes) : isDigest (bitDigest bytes) = true := by
  unfold isDigest bitDigest
  rw [Bool.and_eq_true, beq_iff_eq, String.toList_ofList, List.all_eq_true,
    utf8ByteSize_ofList_of_ascii]
  · refine ⟨by simp, fun char member => ?_⟩
    obtain ⟨index, _, rfl⟩ := List.mem_map.mp member
    split <;> decide
  · intro char member
    obtain ⟨index, _, rfl⟩ := List.mem_map.mp member
    split <;> decide

theorem lastBits_lt (bytes : Bytes) : lastBits bytes < 2 ^ 64 := by
  unfold lastBits
  split
  · rename_i low high rest _
    have low_lt := low.toNat_lt
    have high_lt := high.toNat_lt
    omega
  · decide

theorem lastBits_inj {left right : Bytes} (same : bitDigest left = bitDigest right) :
    lastBits left = lastBits right := by
  refine Nat.eq_of_testBit_eq fun index => ?_
  by_cases small : index < 64
  · have chars := congrArg String.toList same
    rw [bitDigest, bitDigest, String.toList_ofList, String.toList_ofList] at chars
    have char := List.map_inj_left.mp chars index (List.mem_range.mpr small)
    cases bit : (lastBits left).testBit index <;> cases bit' : (lastBits right).testBit index <;>
      simp_all
  · have above : 2 ^ 64 ≤ 2 ^ index := Nat.pow_le_pow_right (by decide) (by omega)
    rw [Nat.testBit_lt_two_pow (lt_of_lt_of_le (lastBits_lt left) above),
      Nat.testBit_lt_two_pow (lt_of_lt_of_le (lastBits_lt right) above)]

def bitEnvironment : Environment :=
  { sampleEnvironment with digest := bitDigest, isDigest_digest := isDigest_bitDigest }

/-- The addresses of one secret, one for each generation. -/
def addressAt (generation : Nat) : ArtifactAddress where
  artifactPolicyHash := sampleKey
  sourceCiphertextHash := sampleKey
  recipientFingerprint := sampleKey
  targetId := "host"
  secretId := "token"
  artifactGeneration := UInt64.ofNat generation

/-- Generations that fit into sixteen bits have keys of their own. -/
theorem exists_key {generation : Nat} (positive : 0 < generation) (small : generation < 65536) :
    ∃ bytes, (addressAt generation).key bitEnvironment = .ok (bitDigest bytes) ∧
      lastBits bytes = generation := by
  have wide : (UInt64.ofNat generation).toNat = generation :=
    UInt64.toNat_ofNat_of_lt (lt_trans small (by decide))
  have valid : (addressAt generation).validate = .ok () := by
    unfold ArtifactAddress.validate
    rw [if_pos]
    rw [Bool.and_eq_true, decide_eq_true_eq]
    have ids : ([sampleKey, sampleKey, sampleKey].all isDigest && isId "host" && isId "token") =
        true := by decide
    refine ⟨ids, UInt64.lt_iff_toNat_lt.mpr ?_⟩
    rw [addressAt, wide]
    exact positive
  unfold ArtifactAddress.key
  rw [valid]
  refine ⟨_, rfl, ?_⟩
  unfold lastBits beU64
  rw [List.reverse_append, addressAt, wide]
  simp [List.range_succ]
  omega

/-- A caller that stores one small bundle for each of the first generations. -/
def generations (count : Nat) : List (Environment × Write) :=
  (List.range count).map fun index =>
    (bitEnvironment, .putArtifact (addressAt (index + 1)) [0] [])

theorem exists_performed_generations (count : Nat) (small : count < 65536) :
    ∃ after contents, performAll (System.start bitEnvironment).cache (generations count) =
        some after ∧
      Holds bitEnvironment true true after contents ∧ HasRoot bitEnvironment after ∧
        contents.artifacts.size = count ∧ ∀ key ∈ contents.artifacts, ∃ bytes,
          key = bitDigest bytes ∧ lastBits bytes ≤ count := by
  induction count with
  | zero =>
      have refines := (refines_start bitEnvironment).2
      exact ⟨_, _, rfl, refines.holds, refines.rooted, rfl,
        fun key member => by simp [State.start] at member⟩
  | succ count ih =>
      obtain ⟨before, contents, performed, holds, rooted, size, keys⟩ := ih (by omega)
      obtain ⟨bytes, addressed, last⟩ := exists_key (Nat.succ_pos count) small
      have missing : bitDigest bytes ∉ contents.artifacts := by
        intro member
        obtain ⟨other, same, bounded⟩ := keys _ member
        have := lastBits_inj same
        omega
      have absent : contents.artifacts[bitDigest bytes]? = none :=
        Std.TreeMap.getElem?_eq_none missing
      have accepted : contents.refusal (bitDigest bytes) ⟨[0], []⟩ = none := by
        simp [Contents.refusal, isDigest_bitDigest, absent, maxCiphertextBytes]
      obtain ⟨after, stored, held, opened⟩ :=
        exists_performed_putArtifact holds rooted addressed accepted
      refine ⟨after, _, ?_, held, opened, ?_, ?_⟩
      · rw [performAll, generations, List.range_succ, List.map_append, List.foldlM_append]
        exact Option.bind_eq_some_iff.mpr ⟨before, performed, by simpa using stored⟩
      · have fresh : ¬contents.artifacts.contains (bitDigest bytes) = true := missing
        simp only [Contents.putArtifact, absent, Std.TreeMap.size_insert]
        rw [if_neg fresh, size]
      · intro key member
        simp only [Contents.putArtifact, absent, Std.TreeMap.mem_insert,
          Std.LawfulEqCmp.compare_eq_iff_eq] at member
        rcases member with rfl | member
        · exact ⟨bytes, rfl, le_of_eq last⟩
        · obtain ⟨other, same, bounded⟩ := keys key member
          exact ⟨other, same, by omega⟩

end Sample

/-- Writers accept ten thousand and one bundles of one octet, which no reader lists. -/
theorem unreadable_after_generations :
    ∃ after, performAll (System.start Sample.bitEnvironment).cache (Sample.generations 10001) =
        some after ∧
      (∀ records, after.own.artifactRecords Sample.bitEnvironment ≠ .ok records) ∧
        ¬Readable Sample.bitEnvironment after := by
  obtain ⟨after, contents, performed, holds, _, size, _⟩ :=
    Sample.exists_performed_generations 10001 (by decide)
  have refused : ∀ records, after.own.artifactRecords Sample.bitEnvironment ≠ .ok records := by
    intro records listed
    obtain ⟨keys, collected, _⟩ := bind_eq_ok.mp listed
    have few := holds.shows.artifacts_few collected
    have limit : maxTransferEntries = 10000 := rfl
    omega
  refine ⟨after, performed, refused, fun readable => ?_⟩
  obtain ⟨records, listed⟩ := readable.artifactRecords Sample.bitEnvironment ⟨rfl, rfl⟩
  exact refused records listed

theorem readable_iff_single_generation :
    ∃ after, performAll (System.start Sample.bitEnvironment).cache (Sample.generations 1) =
        some after ∧
      ∃ contents, AddsAll Sample.bitEnvironment ⟨∅, ∅⟩ ((Sample.generations 1).map Prod.snd)
          contents ∧ (Readable Sample.bitEnvironment after ↔ contents.WithinLimits) := by
  obtain ⟨after, _, performed, _⟩ := Sample.exists_performed_generations 1 (by decide)
  have hosts : ∀ write ∈ Sample.generations 1, Sample.bitEnvironment.SameHost write.1 := by
    intro write member
    obtain ⟨index, _, rfl⟩ := List.mem_map.mp member
    exact ⟨rfl, rfl⟩
  exact ⟨after, performed, readable_iff hosts performed⟩

end NixSeal.Cache
