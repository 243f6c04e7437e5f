import NixSeal.Runtime.Supervision

/-!
# Descendants of a generator

A generator runs as the leader of a process group, which cancellation signals while its leader
runs.  A leader that ends before its descendants leaves them running.
-/

namespace NixSeal.Runtime.Supervised

open Runs

variable {termination : ChildTermination} {w next : World} {event : Event}

/-- The end of `generate_external_values` on an answer of `wait_until`. -/
def concludeGenerator : Except IoError (Option ExitStatus) → Except String Unit
  | .error _ => .error "could not observe constrained generator"
  | .ok (some status) => if status.success then .ok () else .error "constrained generator failed"
  | .ok none => .error "constrained generator timed out"

/-- A generator was given up because it failed or timed out, and its owner was dropped. -/
structure GivenUp (w : World) : Prop where
  failed : ∃ answer, w.calls 0 = .returned answer ∧
    (concludeGenerator answer = .error "constrained generator failed" ∨
      concludeGenerator answer = .error "constrained generator timed out")
  dropped : w.owner = .dropped

/-- How `generate_external_values` uses its child: it waits once, and then drops it. -/
structure WaitsOnce (w : World) : Prop where
  single : ∀ index ≠ 0, w.calls index = .absent
  after : w.owner ≠ .alive → ∃ answer, w.calls 0 = .returned answer

/-- No process of the group runs. -/
def World.Empty (w : World) : Prop :=
  w.leader ≠ .running ∧ w.members = []

/-- While the leader runs the group can still be signalled. -/
structure Contained (w : World) : Prop where
  gone : w.leader ≠ .running →
    w.members = [] ∨ ∃ purpose, w.lock = .terminating purpose .authorized
  killing : ∀ purpose, w.lock = .terminating purpose .killing → w.Empty

theorem Process.killed_ne_running {leader : Process} : leader.killed ≠ .running := by
  cases leader <;> simp [Process.killed]

theorem World.Empty.finish (empty : w.Empty) (purpose : Purpose) : Contained (w.finish purpose) := by
  cases purpose <;> exact ⟨fun _ => .inl empty.2, by simp [World.finish]⟩

theorem Contained.finish (before : Contained w) {purpose : Purpose} {stage : Stage}
    (inside : w.lock = .terminating purpose stage) (other : stage ≠ .authorized) :
    Contained (w.finish purpose) := by
  obtain ⟨gone, killing⟩ := before
  cases purpose <;> rw [World.finish] <;> constructor <;> grind

theorem Step.contained (moves : Step .processGroup w event next) (last : EndsLast ⟨w, event⟩)
    (apart : Exclusive w) (before : Contained w) : Contained next := by
  have whole := before
  obtain ⟨gone, killing⟩ := before
  cases moves
  case tryWaitFails error child leader here waits =>
    have stopped := Child.tryWait_stopped waits
    have free := apart.not_authorized here
    constructor <;> grind
  case tryWaitFinds status child leader here waits =>
    have stopped := Child.tryWait_stopped waits
    have free := apart.not_authorized here
    constructor <;> grind
  case tryWaitFindsNone child leader here waits =>
    have stopped := Child.tryWait_stopped waits
    have free := apart.not_authorized here
    constructor <;> grind
  case creatorReaps error status child leader here waits =>
    have stopped := Child.wait_stopped waits
    constructor <;> grind [Exclusive]
  case observerReaps outcome status child leader here waits =>
    have stopped := Child.wait_stopped waits
    constructor <;> grind [Exclusive]
  case terminateFinished purpose here result => exact whole.finish here (by simp)
  case terminateNoPid purpose here result pid => exact whole.finish here (by simp)
  case pollNotRunning purpose answer here report other => exact whole.finish here (by simp)
  case killsNothing purpose here cached => exact whole.finish here (by simp)
  case kills purpose here cached =>
    have empty : World.Empty { w with leader := w.leader.killed } :=
      ⟨Process.killed_ne_running, (killing purpose here).2⟩
    exact empty.finish purpose
  case exits running status =>
    constructor
    · exact fun _ => last status rfl
    · grind [World.Empty]
  case signalsGroup purpose here =>
    exact ⟨fun _ => .inl rfl, fun _ _ => ⟨Process.killed_ne_running, rfl⟩⟩
  all_goals
    constructor <;> grind [Exclusive, World.Empty]

theorem Spawned.contained (spawned : Spawned w) : Contained w :=
  ⟨fun gone => absurd spawned.running gone, by simp [spawned.handed.lock]⟩

/-- A failed or timed-out generator leaves no process of its group behind in a run in which its
leader never ends by itself before the others, unless their signal is already authorized. -/
theorem generator_leaves_none {start : World} {trace : List (Moment World Event)}
    (spawned : Spawned start) (run : Run (Step .processGroup) start trace w)
    (last : ∀ moment ∈ trace, EndsLast moment) : GivenUp w → w.Empty := by
  intro given
  have keeps : ∀ state event next, EndsLast ⟨state, event⟩ → Invariant state ∧ Contained state →
      Step .processGroup state event next → Invariant next ∧ Contained next :=
    fun _ _ _ last before moves =>
      ⟨moves.invariant before.1, moves.contained last before.1.exclusive before.2⟩
  have begins : Invariant start ∧ Contained start := ⟨spawned.handed.invariant, spawned.contained⟩
  obtain ⟨⟨-, settled⟩, contained⟩ := run.invariant_where keeps begins last
  have reaped := settled.finished (settled.dropped given.dropped)
  have gone : w.leader ≠ .running := by simp [reaped]
  refine ⟨gone, ?_⟩
  rcases contained.gone gone with none | ⟨purpose, held⟩
  · exact none
  · exact absurd reaped (settled.authorized (by simp [held]))

theorem generator_leaves_none_timedOut : ∃ w, GivenUp w ∧ w.Empty := by
  obtain ⟨trace, w, run, answer, dropped⟩ := Sample.timedOut
  have given : GivenUp w := ⟨⟨.ok none, answer, .inr rfl⟩, dropped⟩
  exact ⟨w, given, generator_leaves_none Sample.spawned run.of_restricted.1 run.of_restricted.2 given⟩

namespace Sample

/-- At a moment of a run the generator is waited for at most once. -/
abbrev WaitedOnce (moment : Moment World Event) : Prop :=
  WaitsOnce moment.before

theorem absent_update {calls : Nat → Call} (absent : ∀ index ≠ 0, calls index = .absent)
    (call : Call) : ∀ index ≠ 0, Function.update calls 0 call index = .absent :=
  fun index apart => (Function.update_of_ne apart _ _).trans (absent index apart)

/-- The leader fails while a descendant of it runs on: its result is in before the drop. -/
theorem failed : ∃ trace w, Run (Restricted (Step .processGroup) WaitedOnce) start trace w ∧
    WaitsOnce w ∧ GivenUp w ∧ w.members = [8] := by
  have kept {w : World} (single : ∀ index ≠ 0, w.calls index = .absent) (alive : w.owner = .alive) :
      WaitsOnce w := ⟨single, fun gone => absurd alive gone⟩
  have unused : ∀ index ≠ 0, start.calls index = .absent := fun _ _ => rfl
  have entered := absent_update unused (.entering 1)
  have tested := absent_update entered (.testing 1)
  have returned := absent_update tested (.returned (.ok (some (.exited 1))))
  have run : Run (Restricted (Step .processGroup) WaitedOnce) start [] start := .refl
  have run := run.snoc ⟨.forks start (.inl rfl) 8, kept unused rfl⟩
  have run := run.snoc ⟨.tryWaitFindsNone _ ⟨7, none⟩ .running rfl rfl, kept unused rfl⟩
  have run := run.snoc ⟨.inspectsNone _ rfl rfl rfl, kept unused rfl⟩
  have run := run.snoc ⟨.spawns _ rfl, kept unused rfl⟩
  have run := run.snoc ⟨.observerStarts _ rfl rfl (by decide), kept unused rfl⟩
  have run := run.snoc ⟨.waitBegins _ 0 1 true rfl rfl, kept unused rfl⟩
  have run := run.snoc ⟨.exits _ rfl (.exited 1), kept entered rfl⟩
  have run := run.snoc ⟨.observes _ rfl ⟨_, rfl⟩, kept entered rfl⟩
  have run := run.snoc ⟨.observerLocks _ rfl rfl, kept entered rfl⟩
  have run := run.snoc ⟨.observerReaps _ (.ok ()) (.ok (.exited 1)) ⟨7, some (.exited 1)⟩ .reaped rfl
    rfl, kept entered rfl⟩
  have run := run.snoc ⟨.observerPublishes _ _ rfl, kept entered rfl⟩
  have run := run.snoc ⟨.waitLocks _ 0 1 (.inl rfl) rfl, kept entered rfl⟩
  have run := run.snoc ⟨.waitReturns _ 0 1 (.ok (.exited 1)) rfl rfl, kept tested rfl⟩
  have run := run.snoc ⟨.dropBegins _ true rfl rfl, kept returned rfl⟩
  have run := run.snoc ⟨.dropLocks _ rfl rfl, ⟨returned, fun _ => ⟨_, rfl⟩⟩⟩
  have run := run.snoc ⟨.terminateFinished _ .drop rfl (by simp [andResult]),
    ⟨returned, fun _ => ⟨_, rfl⟩⟩⟩
  have run := run.snoc ⟨.joins _ rfl rfl, ⟨returned, fun _ => ⟨_, rfl⟩⟩⟩
  exact ⟨_, _, run, ⟨returned, fun _ => ⟨_, rfl⟩⟩, ⟨⟨_, rfl, .inl rfl⟩, rfl⟩, rfl⟩

end Sample

/-- A generator that fails before its descendants end leaves them running. -/
theorem generator_leaves_descendant :
    ¬ ∀ (start w : World) (trace : List (Moment World Event)), Spawned start →
      Run (Step .processGroup) start trace w → (∀ moment ∈ trace, WaitsOnce moment.before) →
        WaitsOnce w → GivenUp w → w.Empty := by
  intro claim
  obtain ⟨trace, w, run, once, given, members⟩ := Sample.failed
  obtain ⟨steps, waits⟩ := run.of_restricted
  have empty := claim Sample.start w trace Sample.spawned steps waits once given
  simp [empty.2] at members

end NixSeal.Runtime.Supervised
