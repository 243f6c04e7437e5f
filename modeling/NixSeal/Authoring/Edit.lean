import NixSeal.Authoring.Interleaving
import NixSeal.Lib.Fallible

/-!
# Which version an edit replaces

Only the holder of the repository lock changes the source, so from the moment its final
`write_secret` takes the lock an edit sees one version and replaces that one.  The version it
decrypted for the editor was opened before, without the lock.
-/

namespace NixSeal.Authoring

open Script

/-! ## Changes happen under the lock -/

/-- Every step that changes the source comes after the lock is taken. -/
def Guarded : Bool → Script → Prop
  | _, .finish _ => True
  | holding, .act action succeeded failed =>
      (action.changes = true → holding = true) ∧
        Guarded (holding || action == .acquire) succeeded ∧ ∀ error, Guarded holding (failed error)

theorem guarded_of_authoringScript {script : Script} (authoring : AuthoringScript script) :
    Guarded false script := by
  cases authoring with
  | write mode => cases mode <;> simp [writeSecret, commit, attempt, sync, Guarded, Action.changes]
  | delegated => simp [writeSecretCreateDelegated, attempt, sync, Guarded, Action.changes]
  | rekey inPlace mode =>
      cases inPlace <;> cases mode <;>
        simp [rekeySecret, commit, attempt, sync, Guarded, Action.changes]
  | batch mode =>
      cases mode <;>
        simp [writeBatch, commitBatch, rollback, attempt, sync, Guarded, Action.changes]
  | delete => simp [deleteSecret, attempt, sync, Guarded, Action.changes]
  | edit => simp [editSecretChecked, writeSecret, commit, attempt, sync, Guarded, Action.changes]

/-- What a step that is not refused does to the source and to what its process remembers. -/
structure Performed (action : Action) (world : World) (process : Process)
    (source : Option Version) (after : Process) : Prop where
  unchanged : action.changes = false → source = world.source
  found : after.found = process.found
  ending : after.ending = process.ending
  decrypted : action ≠ .openSource → after.decrypted = process.decrypted
  kept : (∀ mode, action ≠ .persist mode) →
    after.committed = process.committed ∧ after.replaced = process.replaced
  committed : ∀ mode, action = .persist mode →
    after.committed = true ∧ after.replaced = world.source
  validated : ∀ kept, action = .validate .replace kept → world.source.isSome = true

theorem performed_of_perform {action : Action} {choice : Choice} {world : World}
    {process after : Process} {source : Option Version}
    (performed : perform action choice world process = .ok (source, after)) :
    Performed action world process source after := by
  cases action with
  | validate mode kept =>
      cases mode <;> simp only [perform, Fallible.guard_eq_ok, Except.ok.injEq, Prod.mk.injEq]
        at performed
      · obtain ⟨-, rfl, rfl⟩ := performed
        cases kept <;> constructor <;> simp
      · obtain ⟨present, rfl, rfl⟩ := performed
        cases kept <;> constructor <;> simp_all [Option.isSome_iff_ne_none]
  | recheck mode =>
      cases mode with
      | create =>
          simp only [perform, Fallible.guard_eq_ok, Except.ok.injEq, Prod.mk.injEq] at performed
          obtain ⟨-, rfl, rfl⟩ := performed
          constructor <;> simp
      | replace =>
          simp only [perform] at performed
          split at performed
          · cases performed
          · cases performed
          · simp only [Fallible.guard_eq_ok, Except.ok.injEq, Prod.mk.injEq] at performed
            obtain ⟨-, rfl, rfl⟩ := performed
            constructor <;> simp
  | openSource =>
      simp only [perform, Fallible.guard_eq_ok, Except.ok.injEq, Prod.mk.injEq] at performed
      obtain ⟨-, rfl, rfl⟩ := performed
      constructor <;> simp
  | persist mode =>
      simp only [perform, Fallible.guard_eq_ok, Except.ok.injEq, Prod.mk.injEq] at performed
      obtain ⟨-, rfl, rfl⟩ := performed
      constructor <;> simp [Action.changes]
  | remove =>
      simp only [perform, Fallible.guard_eq_ok, Except.ok.injEq, Prod.mk.injEq] at performed
      obtain ⟨-, rfl, rfl⟩ := performed
      constructor <;> simp [Action.changes]
  | quarantine =>
      simp only [perform, Fallible.guard_eq_ok, Except.ok.injEq, Prod.mk.injEq] at performed
      obtain ⟨-, rfl, rfl⟩ := performed
      constructor <;> simp [Action.changes]
  | elsewhere => cases performed; constructor <;> simp
  | acquire => cases performed; constructor <;> simp
  | stage => cases performed; constructor <;> simp
  | backup => cases performed; constructor <;> simp [Action.changes]
  | restore => cases performed; constructor <;> simp [Action.changes]

/-- Everything one step of a process can do. -/
theorem step_cases {id : Nat} {choice : Choice} {world next : World}
    (stepped : step id choice world = some next) :
    (∃ ending, (world.processes id).script = .finish ending ∧
      (world.processes id).ending = none ∧ next.source = world.source ∧
      next.holder = (if world.holder = some id then none else world.holder) ∧
      next.processes = world.update id { world.processes id with ending := some ending }) ∨
    ∃ action succeeded failed, (world.processes id).script = .act action succeeded failed ∧
      ((∃ error, next.source = world.source ∧ next.holder = world.holder ∧
          next.processes =
            world.update id { world.processes id with script := failed error }) ∨
        (action = .acquire ∧ world.holder = none ∧ next.source = world.source ∧
          next.holder = some id ∧ next.processes = world.update id
            { world.processes id with script := succeeded, found := world.source }) ∨
        ∃ after, action ≠ .acquire ∧ next.holder = world.holder ∧
          Performed action world (world.processes id) next.source after ∧
          next.processes = world.update id { after with script := succeeded }) := by
  simp only [step] at stepped
  split at stepped
  · rename_i ending script
    split at stepped
    · cases stepped
    · rename_i running
      cases stepped
      exact .inl ⟨ending, script, by simpa using running, rfl, rfl, rfl⟩
  · rename_i action succeeded failed script
    refine .inr ⟨action, succeeded, failed, script, ?_⟩
    split at stepped
    · cases stepped
      exact .inl ⟨_, rfl, rfl, rfl⟩
    · split at stepped
      · rename_i acquires
        split at stepped
        · cases stepped
        · rename_i free
          cases stepped
          exact .inr (.inl ⟨acquires, by simpa using free, rfl, rfl, rfl⟩)
      · rename_i acquires
        split at stepped
        · cases stepped
          exact .inl ⟨_, rfl, rfl, rfl⟩
        · rename_i source after performed
          cases stepped
          exact .inr (.inr ⟨after, acquires, rfl, performed_of_perform performed, rfl⟩)

@[simp]
theorem update_self (world : World) (id : Nat) (process : Process) :
    world.update id process id = process := by
  simp [World.update]

theorem update_other {world : World} {id other : Nat} (process : Process) (apart : other ≠ id) :
    world.update id process other = world.processes other := by
  simp [World.update, apart]

/-- Every running process changes the source only while it holds the lock, and a process that has
ended does not hold it. -/
structure Disciplined (world : World) : Prop where
  guarded : ∀ id, (world.processes id).ending = none →
    Guarded (world.holder == some id) (world.processes id).script
  released : ∀ id, (world.processes id).ending ≠ none → world.holder ≠ some id
  finished : ∀ id ending, (world.processes id).ending = some ending →
    (world.processes id).script = .finish ending

theorem Disciplined.running {id : Nat} {choice : Choice} {world next : World}
    (disciplined : Disciplined world) (stepped : step id choice world = some next) :
    (world.processes id).ending = none := by
  rcases step_cases stepped with ⟨_, _, running, _⟩ | ⟨action, succeeded, failed, script, _⟩
  · exact running
  · cases ended : (world.processes id).ending with
    | none => rfl
    | some ending =>
        rw [disciplined.finished id ending ended] at script
        cases script

theorem Disciplined.others {world next : World} {id : Nat} {process : Process}
    (disciplined : Disciplined world) (updated : next.processes = world.update id process)
    (mine : process.ending = none →
      Guarded (next.holder == some id) process.script)
    (ended : ∀ ending, process.ending = some ending →
      process.script = .finish ending ∧ next.holder ≠ some id)
    (same : ∀ other, other ≠ id → (next.holder = some other ↔ world.holder = some other)) :
    Disciplined next where
  guarded other running := by
    rw [updated] at running ⊢
    by_cases equal : other = id
    · subst equal
      rw [update_self] at running ⊢
      exact mine running
    · rw [update_other process equal] at running ⊢
      have unmoved : (next.holder == some other) = (world.holder == some other) := by
        rw [Bool.eq_iff_iff, beq_iff_eq, beq_iff_eq]
        exact same other equal
      rw [unmoved]
      exact disciplined.guarded other running
  released other stopped := by
    rw [updated] at stopped
    by_cases equal : other = id
    · subst equal
      rw [update_self] at stopped
      obtain ⟨ending, is⟩ := Option.ne_none_iff_exists'.mp stopped
      exact (ended ending is).2
    · rw [update_other process equal] at stopped
      rw [ne_eq, same other equal]
      exact disciplined.released other stopped
  finished other ending stopped := by
    rw [updated] at stopped ⊢
    by_cases equal : other = id
    · subst equal
      rw [update_self] at stopped ⊢
      exact (ended ending stopped).1
    · rw [update_other process equal] at stopped ⊢
      exact disciplined.finished other ending stopped

/-- The discipline is kept by every step. -/
theorem Disciplined.advance {id : Nat} {choice : Choice} {world next : World}
    (disciplined : Disciplined world) (stepped : step id choice world = some next) :
    Disciplined next := by
  have running := disciplined.running stepped
  have guarded := disciplined.guarded id running
  rcases step_cases stepped with ⟨ending, script, _, _, holder, updated⟩ |
    ⟨action, succeeded, failed, script, ⟨error, _, holder, updated⟩ |
      ⟨rfl, free, _, holder, updated⟩ | ⟨after, other, holder, performed, updated⟩⟩
  · refine disciplined.others updated (fun absent => by cases absent) (fun _ stopped => ?_)
      fun other apart => ?_
    · cases stopped
      refine ⟨script, ?_⟩
      rw [holder]
      split
      · simp
      · assumption
    · rw [holder]
      split
      · rename_i mine
        rw [mine]
        simp [apart.symm]
      · exact Iff.rfl
  · rw [script] at guarded
    refine disciplined.others updated (fun _ => ?_) (fun _ stopped => ?_) fun _ _ => by rw [holder]
    · rw [holder]
      exact guarded.2.2 error
    · rw [running] at stopped
      cases stopped
  · rw [script] at guarded
    refine disciplined.others updated (fun _ => ?_) (fun _ stopped => ?_) fun other apart => ?_
    · simpa [holder] using guarded.2.1
    · rw [running] at stopped
      cases stopped
    · simp [holder, free, apart.symm]
  · rw [script] at guarded
    refine disciplined.others updated (fun _ => ?_) (fun _ stopped => ?_) fun _ _ => by rw [holder]
    · have plain : (action == Action.acquire) = false := beq_eq_false_iff_ne.mpr other
      rw [holder]
      simpa [plain] using guarded.2.1
    · rw [performed.ending, running] at stopped
      cases stopped

/-- While a process holds the lock, nobody else changes the source, and nobody takes the lock. -/
theorem Disciplined.excludes {id holder : Nat} {choice : Choice} {world next : World}
    (disciplined : Disciplined world) (held : world.holder = some holder) (apart : id ≠ holder)
    (stepped : step id choice world = some next) :
    next.source = world.source ∧ next.holder = some holder := by
  have guarded := disciplined.guarded id (disciplined.running stepped)
  have outside : (world.holder == some id) = false := by simp [held, apart.symm]
  rw [outside] at guarded
  rcases step_cases stepped with ⟨ending, script, _, source, released, _⟩ |
    ⟨action, succeeded, failed, script, ⟨error, source, kept, _⟩ |
      ⟨rfl, free, _⟩ | ⟨after, other, kept, performed, _⟩⟩
  · refine ⟨source, ?_⟩
    rw [released, held, if_neg (by simp [apart.symm])]
  · exact ⟨source, kept.trans held⟩
  · rw [free] at held
    cases held
  · rw [script] at guarded
    refine ⟨performed.unchanged ?_, kept.trans held⟩
    cases changes : action.changes with
    | false => rfl
    | true => cases guarded.1 changes

theorem processes_of_step {id other : Nat} {choice : Choice} {world next : World}
    (stepped : step id choice world = some next) (apart : other ≠ id) :
    next.processes other = world.processes other := by
  rcases step_cases stepped with ⟨_, _, _, _, _, updated⟩ |
    ⟨_, _, _, _, ⟨_, _, _, updated⟩ | ⟨_, _, _, _, updated⟩ | ⟨_, _, _, _, updated⟩⟩
  all_goals
    rw [updated]
    exact update_other _ apart

/-! ## The edit -/

/-- How far an edit has come with its replacement. -/
inductive Phase where
  | unlocked
  | locked
  | validated
  | committed
  deriving DecidableEq

/-- The phase after a step that succeeded; an edit takes no other steps. -/
def Phase.advance : Phase → Action → Option Phase
  | .unlocked, .acquire => some .locked
  | .unlocked, .openSource => some .unlocked
  | .locked, .validate .replace _ => some .validated
  | .validated, .persist .replace => some .committed
  | phase, .elsewhere => some phase
  | phase, .stage => some phase
  | phase, .recheck .replace => some phase
  | .unlocked, .validate .replace _ => some .unlocked
  | _, _ => none

/-- A script that replaces the source once, under the lock and after validating it, and returns
successfully only then. -/
def Edits : Phase → Script → Prop
  | phase, .finish ending => ending = .ok () → phase = .committed
  | phase, .act action succeeded failed =>
      (∃ next, phase.advance action = some next ∧ Edits next succeeded) ∧
        ∀ error, Edits phase (failed error)

theorem edits_editSecretChecked : Edits .unlocked editSecretChecked := by
  simp [editSecretChecked, writeSecret, commit, attempt, sync, Edits, Phase.advance]

/-- What an edit knows in each phase. -/
def Phase.Knows (phase : Phase) (id : Nat) (world : World) : Prop :=
  let process := world.processes id
  match phase with
  | .unlocked => world.holder ≠ some id ∧ process.committed = false
  | .locked =>
      world.holder = some id ∧ process.found = world.source ∧ process.committed = false
  | .validated =>
      world.holder = some id ∧ process.found = world.source ∧ process.committed = false ∧
        process.found.isSome = true
  | .committed =>
      process.committed = true ∧ process.replaced = process.found ∧ process.found.isSome = true

/-- The invariant of a run that contains an edit. -/
structure Editing (id : Nat) (world : World) : Prop where
  disciplined : Disciplined world
  phase : ∃ phase : Phase, Edits phase (world.processes id).script ∧ phase.Knows id world

/-- A step of another process keeps what the edit knows. -/
theorem Phase.Knows.other {phase : Phase} {id other : Nat} {choice : Choice} {world next : World}
    (knows : phase.Knows id world) (disciplined : Disciplined world) (apart : other ≠ id)
    (stepped : step other choice world = some next) : phase.Knows id next := by
  have same := processes_of_step stepped apart.symm
  cases phase with
  | unlocked =>
      refine ⟨?_, by rw [same]; exact knows.2⟩
      rcases step_cases stepped with ⟨_, _, _, _, released, _⟩ |
        ⟨_, _, _, _, ⟨_, _, kept, _⟩ | ⟨_, _, _, taken, _⟩ | ⟨_, _, kept, _, _⟩⟩
      · rw [released]
        split
        · simp
        · exact knows.1
      · rw [kept]
        exact knows.1
      · simp [taken, apart]
      · rw [kept]
        exact knows.1
  | locked =>
      obtain ⟨source, held⟩ := disciplined.excludes knows.1 apart stepped
      refine ⟨held, ?_, ?_⟩
      · rw [same, source]
        exact knows.2.1
      · rw [same]
        exact knows.2.2
  | validated =>
      obtain ⟨source, held⟩ := disciplined.excludes knows.1 apart stepped
      refine ⟨held, ?_, ?_⟩
      · rw [same, source]
        exact knows.2.1
      · rw [same]
        exact knows.2.2
  | committed =>
      simp only [Phase.Knows, same]
      exact knows

theorem Phase.advance_cases {phase next : Phase} {action : Action} (other : action ≠ .acquire)
    (advanced : phase.advance action = some next) :
    (next = phase ∧ action.changes = false ∧ ∀ mode, action ≠ .persist mode) ∨
      (phase = .locked ∧ next = .validated ∧ ∃ kept, action = .validate .replace kept) ∨
        phase = .validated ∧ next = .committed ∧ action = .persist .replace := by
  unfold Phase.advance at advanced
  split at advanced <;> simp_all [Action.changes, eq_comm]

theorem Phase.Knows.performed {phase following : Phase} {id : Nat} {world next : World}
    {action : Action} {after : Process} {script : Script} (knows : phase.Knows id world)
    (other : action ≠ .acquire) (advanced : phase.advance action = some following)
    (holder : next.holder = world.holder)
    (performed : Performed action world (world.processes id) next.source after)
    (updated : next.processes = world.update id { after with script := script }) :
    following.Knows id next := by
  rcases Phase.advance_cases other advanced with ⟨rfl, unchanging, plain⟩ |
    ⟨rfl, rfl, kept, rfl⟩ | ⟨rfl, rfl, rfl⟩
  · obtain ⟨committed, replaced⟩ := performed.kept plain
    have source := performed.unchanged unchanging
    cases following <;>
      simpa [Phase.Knows, updated, holder, source, performed.found, committed, replaced]
        using knows
  · have source := performed.unchanged rfl
    have present := performed.validated kept rfl
    obtain ⟨committed, -⟩ := performed.kept (by simp)
    obtain ⟨held, found, pending⟩ := knows
    simp [Phase.Knows, updated, holder, source, performed.found, committed, held, found, pending,
      present]
  · obtain ⟨committed, replaced⟩ := performed.committed .replace rfl
    obtain ⟨_, found, _, present⟩ := knows
    simp [Phase.Knows, updated, performed.found, committed, replaced, ← found, present]

/-- A step of the edit itself moves it to the next phase, or it keeps what it knew. -/
theorem Editing.own {id : Nat} {choice : Choice} {world next : World} (editing : Editing id world)
    (stepped : step id choice world = some next) : Editing id next := by
  refine ⟨editing.disciplined.advance stepped, ?_⟩
  obtain ⟨phase, edits, knows⟩ := editing.phase
  rcases step_cases stepped with ⟨ending, script, running, source, holder, updated⟩ |
    ⟨action, succeeded, failed, script, ⟨error, source, holder, updated⟩ |
      ⟨rfl, free, source, holder, updated⟩ | ⟨after, other, holder, performed, updated⟩⟩
  · rw [script] at edits
    -- An edit that ends without a commit knows no more than one that has not locked.
    by_cases committed : phase = .committed
    · subst committed
      refine ⟨.committed, ?_, ?_⟩
      · simp [updated, script, Edits]
      · simpa [Phase.Knows, updated] using knows
    · refine ⟨.unlocked, ?_, ?_, ?_⟩
      · simpa [updated, script, Edits] using fun ok => committed (edits ok)
      · rw [holder]
        split
        · simp
        · assumption
      · rw [updated, update_self]
        cases phase with
        | unlocked => exact knows.2
        | locked => exact knows.2.2
        | validated => exact knows.2.2.1
        | committed => exact absurd rfl committed
  · rw [script] at edits
    refine ⟨phase, by simpa [updated] using edits.2 error, ?_⟩
    cases phase <;> simpa [Phase.Knows, updated, holder, source] using knows
  · rw [script] at edits
    obtain ⟨⟨following, advanced, edits⟩, -⟩ := edits
    cases phase <;> simp only [Phase.advance, Option.some.injEq, reduceCtorEq] at advanced
    subst advanced
    refine ⟨.locked, by simpa [updated] using edits, holder, ?_, ?_⟩
    · simp [updated, source]
    · simpa [updated] using knows.2
  · rw [script] at edits
    obtain ⟨⟨following, advanced, edits⟩, -⟩ := edits
    exact ⟨following, by simpa [updated] using edits,
      knows.performed other advanced holder performed updated⟩

theorem Editing.advance {id other : Nat} {choice : Choice} {world next : World}
    (editing : Editing id world) (stepped : step other choice world = some next) :
    Editing id next := by
  by_cases own : other = id
  · subst own
    exact editing.own stepped
  · obtain ⟨phase, edits, knows⟩ := editing.phase
    refine ⟨editing.disciplined.advance stepped, phase, ?_,
      knows.other editing.disciplined own stepped⟩
    rw [processes_of_step stepped (Ne.symm own)]
    exact edits

/-- The invariant holds after every run. -/
theorem Editing.run {id : Nat} {steps : List (Nat × Choice)} {world final : World}
    (editing : Editing id world) (ran : run steps world = some final) : Editing id final := by
  induction steps generalizing world with
  | nil =>
      cases ran
      exact editing
  | cons choice rest ih =>
      obtain ⟨next, stepped, remaining⟩ := Option.bind_eq_some_iff.mp ran
      exact ih (editing.advance stepped) remaining

/-- Before any step: one process is about to edit, the others are about to run some authoring
operation on the source, and nobody holds the lock. -/
structure Starts (id : Nat) (world : World) : Prop where
  free : world.holder = none
  edit : world.processes id = { script := editSecretChecked }
  others : ∀ other, ∃ script, AuthoringScript script ∧
    world.processes other = { script := script }

theorem Starts.editing {id : Nat} {world : World} (starts : Starts id world) :
    Editing id world := by
  refine ⟨⟨fun other _ => ?_, fun other _ => ?_, fun other ending ended => ?_⟩,
    .unlocked, ?_, ?_, ?_⟩
  · obtain ⟨script, authoring, is⟩ := starts.others other
    rw [is, starts.free]
    exact guarded_of_authoringScript authoring
  · rw [starts.free]
    simp
  · obtain ⟨script, -, is⟩ := starts.others other
    rw [is] at ended
    cases ended
  · rw [starts.edit]
    exact edits_editSecretChecked
  · rw [starts.free]
    simp
  · rw [starts.edit]

/-- The claim on one process: it returns successfully only after a replacement, and it replaces no
other version than the one it decrypted. -/
structure NoLostUpdate (process : Process) : Prop where
  commits : process.ending = some (.ok ()) → process.committed = true
  replaces : process.committed = true →
    ∃ version, process.replaced = some version ∧ process.decrypted = some version

/-- In every interleaving an edit loses no update exactly when it does not get as far as replacing
the source, or the file it found there when it took the lock is the file it had decrypted. -/
theorem edit_loses_no_update_iff {id : Nat} {steps : List (Nat × Choice)} {world final : World}
    (starts : Starts id world) (ran : run steps world = some final) :
    NoLostUpdate (final.processes id) ↔
      ((final.processes id).committed = true →
        (final.processes id).found = (final.processes id).decrypted) := by
  obtain ⟨disciplined, phase, edits, knows⟩ := starts.editing.run ran
  have replaced : (final.processes id).committed = true →
      (final.processes id).replaced = (final.processes id).found ∧
        (final.processes id).found.isSome = true := by
    intro committed
    cases phase with
    | unlocked => simp [knows.2] at committed
    | locked => simp [knows.2.2] at committed
    | validated => simp [knows.2.2.1] at committed
    | committed => exact knows.2
  constructor
  · intro holds committed
    obtain ⟨version, replaces, decrypted⟩ := holds.replaces committed
    rw [← (replaced committed).1, replaces, decrypted]
  · intro undisturbed
    refine ⟨fun ended => ?_, fun committed => ?_⟩
    · have script := disciplined.finished id _ ended
      rw [script] at edits
      have last := edits rfl
      subst last
      exact knows.1
    · obtain ⟨same, present⟩ := replaced committed
      obtain ⟨version, found⟩ := Option.isSome_iff_exists.mp present
      exact ⟨version, same.trans found, (undisturbed committed).symm.trans found⟩

namespace Sample

/-- The ciphertext that is at the source first. -/
def first : Version := ⟨0, 7, [1, 2, 3]⟩

/-- One edit, and any number of replacements of the same source. -/
def world : World where
  source := some first
  processes := fun id => if id = 0 then ⟨editSecretChecked, none, none, none, none, none, false,
    none, none⟩ else ⟨writeSecret .replace, none, none, none, none, none, false, none, none⟩

/-- A process takes a number of steps, of which none fails, staging a file of its own. -/
def turns (id count : Nat) : List (Nat × Choice) :=
  List.replicate count (id, ⟨none, 8 + id, [id.toUInt8]⟩)

theorem starts_world : Starts 0 world where
  free := rfl
  edit := rfl
  others other := by
    by_cases edit : other = 0
    · exact ⟨editSecretChecked, .edit, by simp [world, edit]⟩
    · exact ⟨writeSecret .replace, .write .replace, by simp [world, edit]⟩

end Sample

/-- An edit that follows a replacement. -/
theorem edit_after_replacement :
    ∃ final, run (Sample.turns 1 8 ++ Sample.turns 0 13) Sample.world = some final ∧
      (final.processes 0).ending = some (.ok ()) ∧ NoLostUpdate (final.processes 0) := by
  obtain ⟨final, ran, ended, found⟩ :
      ∃ final, run (Sample.turns 1 8 ++ Sample.turns 0 13) Sample.world = some final ∧
        (final.processes 0).ending = some (.ok ()) ∧
        (final.processes 0).found = (final.processes 0).decrypted := ⟨_, rfl, rfl, rfl⟩
  exact ⟨final, ran, ended, (edit_loses_no_update_iff Sample.starts_world ran).mpr fun _ => found⟩

/-- A replacement between the decryption and the commit of an edit is lost without an error. -/
theorem edit_loses_replacement :
    Starts 0 Sample.world ∧
      ∃ final, run (Sample.turns 0 5 ++ Sample.turns 1 8 ++ Sample.turns 0 8) Sample.world =
          some final ∧
        (final.processes 1).ending = some (.ok ()) ∧ (final.processes 0).ending = some (.ok ()) ∧
        (final.processes 0).decrypted = some Sample.first ∧
        (final.processes 0).replaced = some ⟨8, 9, [1]⟩ ∧ ¬NoLostUpdate (final.processes 0) := by
  refine ⟨Sample.starts_world, _, rfl, rfl, rfl, rfl, rfl, fun holds => ?_⟩
  obtain ⟨version, replaced, decrypted⟩ := holds.replaces rfl
  cases replaced
  cases decrypted

end NixSeal.Authoring
