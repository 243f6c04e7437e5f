import NixSeal.Cache.Refinement

/-!
# Dry runs and executed collections

A dry run counts what an executed collection with the same retention sets removes.  It leaves the
stores alone; the executed collection leaves the retained entries, and a second one finds nothing
more to remove.
-/

namespace NixSeal.Cache

open Faulty Faulty.Program Fallible Ordered

/-- The same retention sets, to be executed or not. -/
def GcRequest.executing (request : GcRequest) (execute : Bool) : GcRequest :=
  { request with execute }

/-- A lock file that taking the lock does not change. -/
def Environment.Locked (env : Environment) (root : Root) : Prop :=
  ∃ status bytes, root.lock = some (.file status bytes) ∧ status.links = 1 ∧
    status.owner = env.user ∧ status.mode = 0o600

/-- Nothing changed, apart from a lock file that was not there or not private. -/
structure Idle (env : Environment) (root after : Root) : Prop where
  stores : after = { root with lock := after.lock }
  lock : env.Locked root → after = root

/-- The entries of the retention sets are left, with their bytes. -/
structure Contents.Retained (contents : Contents) (request : GcRequest) (kept : Contents) :
    Prop where
  object : ∀ digest : String, kept.objects[digest]? =
    if request.keepsObject digest then contents.objects[digest]? else none
  artifact : ∀ key : String, kept.artifacts[key]? =
    if request.keepsArtifact key then contents.artifacts[key]? else none

/-- Nothing was found that could be removed. -/
structure GcReport.Clean (report : GcReport) : Prop where
  candidateObjects : report.candidateObjects = 0
  candidateArtifacts : report.candidateArtifacts = 0
  candidateBytes : report.candidateBytes = 0

section DryRuns

variable {env : Environment} {verdict : Step → Verdict} {request : GcRequest} {root : Root}

theorem Idle.refl : Idle env root root :=
  ⟨rfl, fun _ => rfl⟩

theorem Idle.of_lock {lock : Option Leaf} (held : env.Locked root → lock = root.lock) :
    Idle env root { root with lock := lock } :=
  ⟨rfl, fun locked => by rw [held locked]⟩

theorem lock_idle : (lock env).Meets verdict root (fun _ after => Idle env root after)
    (fun _ after => Idle env root after) fun after => Idle env root after := by
  unfold lock
  apply Meets.bind
  apply Meets.read
  apply Meets.bind
  cases present : root.lock with
  | none =>
      have opened : ∀ lock, Idle env root { root with lock := lock } := fun lock =>
        .of_lock fun ⟨_, _, found, _⟩ => by rw [present] at found; cases found
      refine Meets.when (fun _ => ?_) fun missing => absurd rfl missing
      refine Meets.step ?_ (fun _ => .refl) fun _ _ => .refl
      apply Meets.bind
      apply Meets.read
      apply Meets.bind
      refine Meets.require (fun _ => ?_) fun _ => opened _
      exact Meets.step (opened _) (fun _ => opened _) fun _ _ => opened _
  | some leaf =>
      refine Meets.when (fun missing => by simp at missing) fun _ => ?_
      apply Meets.bind
      apply Meets.read
      rw [present]
      cases leaf with
      | file status bytes =>
          apply Meets.bind
          refine Meets.require (fun _ => ?_) fun _ => .refl
          refine Meets.step (.of_lock fun locked => ?_) (fun _ => .refl) fun _ _ => .refl
          obtain ⟨_, _, found, _, _, mode⟩ := locked
          rw [present] at found
          cases found
          rw [present, Option.map_some, Node.withMode, ← mode]
      | directory status entries => exact Meets.raise .refl
      | symlink target => exact Meets.raise .refl
      | dangling => exact Meets.raise .refl
      | special status => exact Meets.raise .refl

variable {γ : Type} {view : Root → γ}

theorem keeps_when_dry {program : Action Unit} (dry : request.execute = false) :
    (when (request.execute = true) program).Keeps view := by
  unfold Program.when
  rw [if_neg (by simp [dry])]
  exact Keeps.pure ()

theorem keeps_collectObject_dry (dry : request.execute = false) (report : GcReport)
    (name : FileName) : (collectObject env request report name).Keeps view := by
  unfold collectObject
  refine Keeps.bind (Keeps.lift _) fun _ => Keeps.bind Keeps.read fun _ => ?_
  refine Keeps.bind (Keeps.lift _) fun _ => Keeps.bind (Keeps.lift _) fun _ => ?_
  refine Keeps.bind (Keeps.require _) fun _ => ?_
  split
  · exact Keeps.bind (Keeps.lift _) fun _ => Keeps.pure _
  · refine Keeps.bind (Keeps.lift _) fun _ => Keeps.bind (Keeps.lift _) fun _ => ?_
    exact Keeps.bind (keeps_when_dry dry) fun _ => Keeps.pure _

theorem keeps_collectArtifact_dry (dry : request.execute = false) (report : GcReport)
    (name : FileName) : (collectArtifact env request report name).Keeps view := by
  unfold collectArtifact
  refine Keeps.bind (Keeps.lift _) fun _ => Keeps.bind Keeps.read fun _ => ?_
  refine Keeps.bind (Keeps.lift _) fun _ => Keeps.bind (Keeps.lift _) fun _ => ?_
  refine Keeps.bind (Keeps.lift _) fun _ => ?_
  split
  · exact Keeps.bind (Keeps.lift _) fun _ => Keeps.pure _
  · refine Keeps.bind (Keeps.lift _) fun _ => Keeps.bind (Keeps.lift _) fun _ => ?_
    exact Keeps.bind (keeps_when_dry dry) fun _ => Keeps.pure _

theorem keeps_syncCollected_dry {α : Type} (dry : request.execute = false) (store : Store)
    (path : Option (Node α)) : (syncCollected request store path).Keeps view := by
  unfold syncCollected
  refine Keeps.bind (Keeps.lift _) fun entries => ?_
  cases entries with
  | none => exact Keeps.pure ()
  | some entries => exact keeps_when_dry dry

/-- A program that leaves the whole state alone. -/
theorem Meets.leaving {L σ ε α : Type} {program : Program L σ ε α} {verdict : L → Verdict}
    {state : σ} (keeps : program.Keeps id) :
    program.Meets verdict state (fun _ after => after = state) (fun _ after => after = state)
      fun after => after = state :=
  (Meets.keeping (Meets.ends (fun _ _ => trivial) (fun _ _ => trivial) fun _ => trivial) keeps).mono
    (fun _ _ kept => kept.2) (fun _ _ kept => kept.2) fun _ kept => kept.2

theorem garbageCollect_idle (dry : request.execute = false) :
    (garbageCollect env request).Meets verdict root (fun _ after => Idle env root after)
      (fun _ after => Idle env root after) fun after => Idle env root after := by
  unfold garbageCollect
  apply Meets.bind
  refine Meets.require (fun _ => ?_) fun _ => .refl
  refine lock_idle.seq fun _ locked idle => ?_
  refine Meets.mono (Meets.leaving ?_) ?_ ?_ ?_
  · refine Keeps.bind Keeps.read fun _ => Keeps.bind (Keeps.lift _) fun _ => ?_
    refine Keeps.bind (Keeps.foldlM fun _ _ => keeps_collectObject_dry dry _ _) fun _ => ?_
    refine Keeps.bind Keeps.read fun _ => Keeps.bind (keeps_syncCollected_dry dry _ _) fun _ => ?_
    refine Keeps.bind Keeps.read fun _ => Keeps.bind (Keeps.lift _) fun _ => ?_
    refine Keeps.bind (Keeps.foldlM fun _ _ => keeps_collectArtifact_dry dry _ _) fun _ => ?_
    refine Keeps.bind Keeps.read fun _ => Keeps.bind (keeps_syncCollected_dry dry _ _) fun _ => ?_
    exact Keeps.pure _
  · rintro _ _ rfl
    exact idle
  · rintro _ _ rfl
    exact idle
  · rintro _ rfl
    exact idle

end DryRuns

section Runs

variable {env other : Environment} {tidy : Bool} {cache root : Root} {contents kept : Contents}
  {request : GcRequest} {digests keys : List String}

theorem Idle.holds {after : Root} (idle : Idle env root after)
    (holds : Holds env true tidy root contents) (held : ∃ other, Holds env true tidy after other) :
    Holds env true tidy after contents := by
  obtain ⟨other, held⟩ := held
  rw [idle.stores]
  exact holds.set_lock held.lockable

theorem collected_executing (execute : Bool) :
    contents.collected (request.executing execute) digests keys =
      { contents.collected request digests keys with executed := execute } :=
  rfl

theorem tallies_executing (execute : Bool) :
    contents.Tallies (request.executing execute) ↔ contents.Tallies request := by
  unfold Contents.Tallies
  rw [collected_executing]
  exact ⟨fun fits => { fits with }, fun fits => { fits with }⟩

/-- Sweeping a whole map leaves what is kept. -/
theorem swept_of_perm {γ : Type} {map : Std.TreeMap String γ compare} {keys : List String}
    (permuted : keys.Perm map.keys) (keep : String → Bool) (key : String) :
    (if true = true ∧ key ∈ keys ∧ keep key = false then none else map[key]?) =
      if keep key then map[key]? else none := by
  cases kept : keep key with
  | true => simp
  | false =>
      by_cases member : key ∈ keys
      · simp [member]
      · have missing : key ∉ map := by rwa [permuted.mem_iff, Std.TreeMap.mem_keys] at member
        simp [Std.TreeMap.getElem?_eq_none missing]

/-- What an executed collection leaves. -/
theorem retained_sweep (listed : digests.Perm contents.objects.keys)
    (ordered : keys.Perm contents.artifacts.keys) :
    contents.Retained request (contents.sweep (request.executing true) digests keys) := by
  constructor
  · intro digest
    rw [Contents.sweep_objects]
    exact swept_of_perm listed request.keepsObject digest
  · intro key
    rw [Contents.sweep_artifacts]
    exact swept_of_perm ordered request.keepsArtifact key

theorem kept_of_perm {γ : Type} {map whole : Std.TreeMap String γ compare} {keep : String → Bool}
    (retained : ∀ key : String, map[key]? = if keep key then whole[key]? else none)
    (permuted : keys.Perm map.keys) {key : String} (member : key ∈ keys) : keep key = true := by
  rw [permuted.mem_iff, Std.TreeMap.mem_keys, Std.TreeMap.mem_iff_isSome_getElem?,
    retained key] at member
  by_contra dropped
  simp [dropped] at member

/-- A collection of what is left finds nothing to remove. -/
theorem Contents.Retained.clean (retained : contents.Retained request kept)
    (listed : digests.Perm kept.objects.keys) (ordered : keys.Perm kept.artifacts.keys) :
    (kept.collected request digests keys).Clean := by
  have objects : ∀ digest ∈ digests, request.keepsObject digest = true :=
    fun _ member => kept_of_perm retained.object listed member
  have artifacts : ∀ key ∈ keys, request.keepsArtifact key = true :=
    fun _ member => kept_of_perm retained.artifact ordered member
  have noObjects : digests.filter (fun digest => !request.keepsObject digest) = [] := by
    simpa using objects
  have noArtifacts : keys.filter (fun key => !request.keepsArtifact key) = [] := by
    simpa using artifacts
  refine ⟨?_, ?_, ?_⟩
  · simpa [Contents.collected] using objects
  · simpa [Contents.collected] using artifacts
  · simp only [Contents.collected, noObjects, noArtifacts]
    rfl

theorem count_of_retained {γ : Type} {map whole : Std.TreeMap String γ compare}
    {keep : String → Bool}
    (retained : ∀ key : String, map[key]? = if keep key then whole[key]? else none) :
    map.keys.countP keep ≤ whole.keys.countP keep := by
  have inside : map.keys.filter keep ⊆ whole.keys.filter keep := by
    intro key member
    obtain ⟨stored, kept⟩ := List.mem_filter.mp member
    refine List.mem_filter.mpr ⟨?_, kept⟩
    rw [Std.TreeMap.mem_keys, Std.TreeMap.mem_iff_isSome_getElem?] at stored ⊢
    rwa [retained key, if_pos kept] at stored
  rw [List.countP_eq_length_filter, List.countP_eq_length_filter]
  exact ((Std.TreeMap.nodup_keys.filter keep).subperm inside).length_le

theorem Contents.Retained.tallies (retained : contents.Retained request kept)
    (tallies : contents.Tallies request) : kept.Tallies request := by
  have clean := retained.clean (List.Perm.refl _) (List.Perm.refl _)
  have objects := count_of_retained retained.object
  have artifacts := count_of_retained retained.artifact
  have positive := Nat.two_pow_pos 64
  exact ⟨artifacts.trans_lt tallies.retainedArtifacts, objects.trans_lt tallies.retainedObjects,
    clean.candidateArtifacts ▸ positive, clean.candidateObjects ▸ positive,
    clean.candidateBytes ▸ positive⟩

/-- Nothing is left to remove from what is left. -/
theorem Contents.Retained.again {kept' : Contents} (retained : contents.Retained request kept)
    (again : kept.Retained request kept') : kept.Same kept' := by
  constructor
  · intro digest
    rw [again.object, retained.object]
    split <;> rfl
  · intro key
    rw [again.artifact, retained.artifact]
    split <;> rfl

/-- A collection of a valid cache returns when its counters suffice. -/
theorem garbageCollect_passing (holds : Holds env true tidy root contents) (request : GcRequest) :
    (∃ report after, (garbageCollect env request).passing root = (.ok report, after) ∧
      request.WellFormed ∧ contents.Tallies request ∧ ∃ digests keys,
        digests.Perm contents.objects.keys ∧ keys.Perm contents.artifacts.keys ∧
          report = contents.collected request digests keys ∧
            Holds env true tidy after (contents.sweep request digests keys)) ∨
      ∃ error after, (garbageCollect env request).passing root = (.error error, after) ∧
        ¬(request.WellFormed ∧ contents.Tallies request) ∧
          ∃ kept, Holds env true tidy after kept := by
  have met := garbageCollect_counts steady_pass ⟨by simp, by simp⟩ holds request
  rcases met.passing with ⟨report, after, ended, wellFormed, digests, keys, every, rfl, fits, left⟩ |
      ⟨error, after, ended, kept, -, left, stopped⟩
  · obtain ⟨listed, ordered⟩ := every rfl
    refine .inl ⟨_, after, ended, wellFormed, ?_, digests, keys, listed, ordered, rfl, left⟩
    rwa [Contents.Tallies, ← Contents.collected_congr listed ordered]
  · refine .inr ⟨error, after, ended, ?_, kept, left⟩
    rintro ⟨wellFormed, tallies⟩
    rcases stopped with ⟨malformed, -, -⟩ | ⟨-, exceeded⟩
    · exact malformed wellFormed
    · exact exceeded ⟨rfl, tallies⟩

/-- An executed collection of a valid cache. -/
theorem garbageCollect_executed (holds : Holds env true tidy root contents) (request : GcRequest)
    (wellFormed : request.WellFormed) (tallies : contents.Tallies request) :
    ∃ swept kept, (garbageCollect env (request.executing true)).passing root =
        (.ok (contents.collected (request.executing true) contents.objects.keys
          contents.artifacts.keys), swept) ∧
      Holds env true tidy swept kept ∧ contents.Retained request kept := by
  rcases garbageCollect_passing holds (request.executing true) with
    ⟨_, swept, ended, -, -, digests, keys, listed, ordered, rfl, left⟩ | ⟨_, _, -, exceeded, -⟩
  · rw [Contents.collected_congr listed ordered] at ended
    exact ⟨swept, _, ended, left, retained_sweep listed ordered⟩
  · exact absurd ⟨wellFormed, (tallies_executing true).mpr tallies⟩ exceeded

/-- The dry run of a valid cache. -/
theorem idle_of_dry {after : Root} {result : Except CacheError GcReport}
    (dry : (garbageCollect env (request.executing false)).passing root = (result, after)) :
    Idle env root after := by
  have met : (garbageCollect env (request.executing false)).Meets (fun _ => .pass) root _ _ _ :=
    garbageCollect_idle rfl
  rcases met.passing with ⟨_, _, ended, idle⟩ | ⟨_, _, ended, idle⟩
  · rw [dry] at ended
    cases ended
    exact idle
  · rw [dry] at ended
    cases ended
    exact idle

/-- A dry run changes nothing; the collection it announces then removes exactly what it counted, and
a second one finds nothing more. -/
theorem garbageCollect_as_announced (holds : Holds env true tidy cache contents)
    (request : GcRequest) {result : Except CacheError GcReport} {dried : Root}
    (dry : (garbageCollect env (request.executing false)).passing cache = (result, dried)) :
    Idle env cache dried ∧
      ((∃ report, result = .ok report) ↔ request.WellFormed ∧ contents.Tallies request) ∧
        ∀ report, result = .ok report → report.executed = false ∧
          ∀ other, env.SameHost other → ∀ start, start = cache ∨ start = dried →
            ∃ swept kept, (garbageCollect other (request.executing true)).passing start =
                (.ok { report with executed := true }, swept) ∧
              Holds env true tidy swept kept ∧ contents.Retained request kept ∧
                ∀ later, env.SameHost later → ∃ again final,
                  (garbageCollect later (request.executing true)).passing swept =
                    (.ok again, final) ∧ again.Clean ∧ Holds env true tidy final kept := by
  have idle := idle_of_dry dry
  refine ⟨idle, ?_⟩
  rcases garbageCollect_passing holds (request.executing false) with
    ⟨_, _, ended, wellFormed, tallies, digests, keys, listed, ordered, rfl, left⟩ |
      ⟨_, _, ended, exceeded, -⟩
  · rw [dry] at ended
    cases ended
    rw [tallies_executing] at tallies
    refine ⟨⟨fun _ => ⟨wellFormed, tallies⟩, fun _ => ⟨_, rfl⟩⟩, ?_⟩
    rintro _ ⟨⟩
    refine ⟨rfl, fun other same start begins => ?_⟩
    have started : Holds other true tidy start contents := by
      rcases begins with rfl | rfl
      · exact same.holds holds
      · exact same.holds (idle.holds holds ⟨_, left⟩)
    obtain ⟨swept, kept, removed, left, retained⟩ :=
      garbageCollect_executed started request wellFormed tallies
    refine ⟨swept, kept, ?_, same.symm.holds left, retained, fun later still => ?_⟩
    · rw [removed, Contents.collected_congr listed ordered]
      rfl
    · have held := still.holds (same.symm.holds left)
      obtain ⟨final, kept', again, left', retained'⟩ :=
        garbageCollect_executed held request wellFormed (retained.tallies tallies)
      have clean : (kept.collected request kept.objects.keys kept.artifacts.keys).Clean :=
        retained.clean (List.Perm.refl _) (List.Perm.refl _)
      refine ⟨_, final, again, ⟨clean.1, clean.2, clean.3⟩, ?_⟩
      exact still.symm.holds (left'.of_same (retained.again retained'))
  · rw [dry] at ended
    cases ended
    rw [tallies_executing] at exceeded
    refine ⟨⟨fun returned => ?_, fun enough => absurd enough exceeded⟩, ?_⟩
    · obtain ⟨_, impossible⟩ := returned
      cases impossible
    · rintro _ ⟨⟩

/-- A request that retains nothing. -/
def retainsNothing : GcRequest where
  retainedArtifacts := ∅
  retainedObjects := ∅

theorem garbageCollect_sample : ∃ report dried swept,
    (garbageCollect sampleEnvironment (retainsNothing.executing false)).passing
        (singleBundle sampleBundle) = (.ok report, dried) ∧
      (garbageCollect sampleEnvironment (retainsNothing.executing true)).passing dried =
        (.ok { report with executed := true }, swept) := by
  have holds := singleBundle_holds (show sampleBundle.ciphertext.length ≤ maxCiphertextBytes by decide)
    (show sampleBundle.envelope.length ≤ maxEnvelopeBytes by decide)
  obtain ⟨_, returns, announced⟩ := garbageCollect_as_announced holds retainsNothing rfl
  obtain ⟨report, ended⟩ := returns.mpr ⟨rfl, Contents.WithinLimits.tallies (by decide)⟩
  obtain ⟨_, runs⟩ := announced report ended
  obtain ⟨swept, _, executed, _⟩ := runs sampleEnvironment ⟨rfl, rfl⟩ _ (.inr rfl)
  exact ⟨report, _, swept, Prod.ext ended rfl, executed⟩

end Runs

end NixSeal.Cache
