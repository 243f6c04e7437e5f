import NixSeal.Runtime.Child

/-!
# Signalling and reaping

Every interleaving of the observer, the calls and the drop signals only an unreaped child, settles
one result, and has reaped the child once the owner is gone.
-/

namespace NixSeal.Runtime.Supervised

open Runs

/-- Who holds the mutex, as the threads see it. -/
structure Exclusive (w : World) : Prop where
  early : (∀ observer, w.creator ≠ .created observer) →
    w.observer = .absent ∧ (∀ index, w.calls index = .absent) ∧ w.owner = .alive
  spawnFailure : ∀ error stage, w.lock = .terminating (.spawnFailure error) stage →
    w.creator = .terminating error
  observerFailure : ∀ error stage, w.lock = .terminating (.observerFailure error) stage →
    w.observer = .terminating error
  call : ∀ index stage, w.lock = .terminating (.call index) stage → w.calls index = .terminating
  drop : ∀ stage, w.lock = .terminating .drop stage → w.owner = .terminating
  creator : ∀ error, w.creator = .reaping error → w.lock = .held .creator
  reaping : ∀ outcome, w.observer = .reaping outcome → w.lock = .held .observer
  publishing : ∀ result, w.observer = .publishing result → w.lock = .held .observer
  testing : ∀ index deadline, w.calls index = .testing deadline → w.lock = .held (.call index)

variable {termination : ChildTermination} {w next : World} {event : Event}

theorem Exclusive.finish (before : Exclusive w) {purpose : Purpose} {stage : Stage}
    (inside : w.lock = .terminating purpose stage) : Exclusive (w.finish purpose) := by
  obtain ⟨early, spawnFailure, observerFailure, call, drop, creator, reaping, publishing, testing⟩ :=
    before
  cases purpose with
  | spawnFailure error => rw [World.finish]; constructor <;> grind
  | observerFailure error => rw [World.finish]; constructor <;> grind
  | call index => rw [World.finish]; constructor <;> grind
  | drop => rw [World.finish]; constructor <;> grind

theorem Exclusive.leaderMoves (before : Exclusive w) (leader : Process) :
    Exclusive { w with leader } :=
  ⟨before.early, before.spawnFailure, before.observerFailure, before.call, before.drop,
    before.creator, before.reaping, before.publishing, before.testing⟩

/-- Every step keeps the critical sections apart. -/
theorem Step.exclusive (moves : Step termination w event next) (before : Exclusive w) :
    Exclusive next := by
  cases moves
  case kills purpose here cached =>
    exact (before.leaderMoves w.leader.killed).finish here
  case terminateFinished purpose here result => exact before.finish here
  case terminateNoPid purpose here result pid => exact before.finish here
  case pollNotRunning purpose answer here report other => exact before.finish here
  case killsNothing purpose here cached => exact before.finish here
  all_goals
    obtain ⟨early, spawnFailure, observerFailure, call, drop, creator, reaping, publishing, testing⟩ :=
      before
    constructor <;> grind

theorem Exclusive.not_authorized (apart : Exclusive w) (here : w.creator = .tryWait) :
    ¬ w.lock.Authorized := by
  obtain ⟨noObserver, noCall, alive⟩ := apart.early (by simp [here])
  cases locked : w.lock with
  | free => simp
  | held party => simp
  | terminating purpose stage =>
      cases purpose with
      | spawnFailure error => simp [apart.spawnFailure error stage locked] at here
      | observerFailure error => simp [apart.observerFailure error stage locked] at noObserver
      | call index =>
          have inside := apart.call index stage locked
          simp [noCall index] at inside
      | drop => simp [apart.drop stage locked] at alive

/-! ## The result and the child -/

/-- What is known of the child and its result. -/
structure Settled (w : World) : Prop where
  cached : w.state.child.status ≠ none → w.leader = .reaped
  finished : w.state.result ≠ none → w.leader = .reaped
  publishing : ∀ result, w.observer = .publishing result → w.leader = .reaped
  authorized : w.lock.Authorized → w.leader ≠ .reaped
  early : w.creator = .tryWait ∨ w.creator = .spawning → w.state.result = none
  unfinished : w.observer ≠ .absent → w.observer ≠ .done → w.state.result = none
  present : w.creator = .created true → w.observer ≠ .absent
  done : w.observer = .done → w.state.result ≠ none
  alone : w.creator = .created false → w.state.result ≠ none ∧ w.observer = .absent
  dropped : w.owner = .dropped → w.state.result ≠ none
  answered : ∀ index status, w.calls index = .returned (.ok (some status)) →
    w.state.result = some (.ok status)

theorem Child.tryWait_reaps {child after : Child} {leader left : Process} {status : ExitStatus}
    (cached : child.status ≠ none → leader = .reaped)
    (waits : child.tryWait leader = (.ok (some status), after, left)) : left = .reaped := by
  simp only [Child.tryWait] at waits
  cases known : child.status with
  | none => cases leader <;> simp_all
  | some status => simp_all

theorem Child.tryWait_none {child after : Child} {leader left : Process}
    (waits : child.tryWait leader = (.ok none, after, left)) :
    left = leader ∧ after.status = none := by
  simp only [Child.tryWait] at waits
  cases known : child.status with
  | none => cases leader <;> simp_all
  | some status => simp_all

theorem Child.tryWait_fails {child after : Child} {leader left : Process} {error : IoError}
    (waits : child.tryWait leader = (.error error, after, left)) :
    left = leader ∧ after.status = none := by
  simp only [Child.tryWait] at waits
  cases known : child.status with
  | none => cases leader <;> simp_all
  | some status => simp_all

theorem Child.wait_reaps {child after : Child} {leader left : Process}
    {status : Except IoError ExitStatus} (cached : child.status ≠ none → leader = .reaped)
    (waits : child.wait leader = some (status, after, left)) : left = .reaped := by
  simp only [Child.wait] at waits
  cases known : child.status with
  | none => cases leader <;> simp_all
  | some status => simp_all

theorem Child.tryWait_stopped {child after : Child} {leader left : Process}
    {answer : Except IoError (Option ExitStatus)}
    (waits : child.tryWait leader = (answer, after, left)) (stopped : left ≠ .running) :
    leader ≠ .running := by
  simp only [Child.tryWait] at waits
  cases known : child.status with
  | none => cases leader <;> simp_all
  | some status => simp_all

theorem Child.wait_stopped {child after : Child} {leader left : Process}
    {status : Except IoError ExitStatus} (waits : child.wait leader = some (status, after, left))
    (stopped : left ≠ .running) : leader ≠ .running := by
  simp only [Child.wait] at waits
  cases known : child.status with
  | none => cases leader <;> simp_all
  | some status => simp_all

theorem Process.killed_eq_reaped {leader : Process} : leader.killed = .reaped ↔ leader = .reaped := by
  cases leader <;> simp [Process.killed]

@[simp, grind =]
theorem answerOf_eq_status {result : Except IoError ExitStatus} {status : ExitStatus} :
    answerOf result = .ok (some status) ↔ result = .ok status := by
  cases result <;> simp [answerOf]

theorem Settled.killed (before : Settled w) : Settled { w with leader := w.leader.killed } := by
  obtain ⟨cached, finished, publishing, authorized, early, unfinished, present, done, alone, dropped,
    answered⟩ := before
  constructor <;> grind [Process.killed_eq_reaped]

theorem Settled.finish (before : Settled w) (apart : Exclusive w) {purpose : Purpose}
    {stage : Stage} (inside : w.lock = .terminating purpose stage) :
    Settled (w.finish purpose) := by
  obtain ⟨cached, finished, publishing, authorized, early, unfinished, present, done, alone, dropped,
    answered⟩ := before
  cases purpose with
  | spawnFailure error => rw [World.finish]; constructor <;> grind [Exclusive]
  | observerFailure error => rw [World.finish]; constructor <;> grind [Exclusive]
  | call index => rw [World.finish]; constructor <;> grind
  | drop => rw [World.finish]; constructor <;> grind

section Waits

variable {child : Child} {leader : Process}

theorem Settled.tryWaitFails (before : Settled w) (apart : Exclusive w) {error : IoError}
    (here : w.creator = .tryWait)
    (waits : w.state.child.tryWait w.leader = (.error error, child, leader)) :
    Settled { w with leader, state := ⟨child, none⟩, creator := .failed error } := by
  obtain ⟨cached, finished, publishing, authorized, early, unfinished, present, done, alone, dropped,
    answered⟩ := before
  obtain ⟨rfl, fresh⟩ := Child.tryWait_fails waits
  have free := apart.not_authorized here
  constructor <;> grind [Exclusive]

theorem Settled.tryWaitFinds (before : Settled w) (apart : Exclusive w) {status : ExitStatus}
    (here : w.creator = .tryWait)
    (waits : w.state.child.tryWait w.leader = (.ok (some status), child, leader)) :
    Settled { w with leader, state := ⟨child, some (.ok status)⟩, creator := .inspecting } := by
  obtain ⟨cached, finished, publishing, authorized, early, unfinished, present, done, alone, dropped,
    answered⟩ := before
  have reaped := Child.tryWait_reaps cached waits
  have free := apart.not_authorized here
  constructor <;> grind [Exclusive]

theorem Settled.tryWaitFindsNone (before : Settled w) (apart : Exclusive w)
    (here : w.creator = .tryWait)
    (waits : w.state.child.tryWait w.leader = (.ok none, child, leader)) :
    Settled { w with leader, state := ⟨child, none⟩, creator := .inspecting } := by
  obtain ⟨cached, finished, publishing, authorized, early, unfinished, present, done, alone, dropped,
    answered⟩ := before
  obtain ⟨rfl, fresh⟩ := Child.tryWait_none waits
  have free := apart.not_authorized here
  constructor <;> grind [Exclusive]

theorem Settled.creatorReaps (before : Settled w) {error : IoError}
    {status : Except IoError ExitStatus}
    (waits : w.state.child.wait w.leader = some (status, child, leader)) :
    Settled { w with
      leader, state := ⟨child, w.state.result⟩, lock := .free, creator := .failed error } := by
  obtain ⟨cached, finished, publishing, authorized, early, unfinished, present, done, alone, dropped,
    answered⟩ := before
  have reaped := Child.wait_reaps cached waits
  constructor <;> grind [Exclusive]

theorem Settled.observerReaps (before : Settled w) (apart : Exclusive w)
    {outcome : Except IoError Unit} {status : Except IoError ExitStatus}
    (here : w.observer = .reaping outcome)
    (waits : w.state.child.wait w.leader = some (status, child, leader)) :
    Settled { w with
      leader, state := ⟨child, w.state.result⟩
      observer := .publishing (andResult outcome status) } := by
  obtain ⟨cached, finished, publishing, authorized, early, unfinished, present, done, alone, dropped,
    answered⟩ := before
  have reaped := Child.wait_reaps cached waits
  constructor <;> grind [Exclusive]

end Waits

section Frames

variable {lock : Lock}

theorem Settled.leaderMoves (before : Settled w) {leader : Process}
    (kept : w.leader = .reaped → leader = .reaped)
    (signals : w.lock.Authorized → leader ≠ .reaped) : Settled { w with leader } := by
  obtain ⟨cached, finished, publishing, -, early, unfinished, present, done, alone, dropped,
    answered⟩ := before
  exact ⟨kept ∘ cached, kept ∘ finished, fun result here => kept (publishing result here), signals,
    early, unfinished, present, done, alone, dropped, answered⟩

theorem Settled.surroundings (before : Settled w) (members : List Nat) (now : Nat) :
    Settled { w with members, now } := by
  obtain ⟨cached, finished, publishing, authorized, early, unfinished, present, done, alone, dropped,
    answered⟩ := before
  exact ⟨cached, finished, publishing, authorized, early, unfinished, present, done, alone, dropped,
    answered⟩

theorem Settled.relock (before : Settled w) (signals : lock.Authorized → w.leader ≠ .reaped) :
    Settled { w with lock } := by
  obtain ⟨cached, finished, publishing, -, early, unfinished, present, done, alone, dropped,
    answered⟩ := before
  exact ⟨cached, finished, publishing, signals, early, unfinished, present, done, alone, dropped,
    answered⟩

theorem Settled.observes (before : Settled w) {stage : Observer}
    (active : w.observer ≠ .absent ∧ w.observer ≠ .done)
    (ongoing : stage ≠ .absent ∧ stage ≠ .done ∧ ∀ result, stage ≠ .publishing result) :
    Settled { w with observer := stage } := by
  obtain ⟨cached, finished, publishing, authorized, early, unfinished, present, done, alone, dropped,
    answered⟩ := before
  refine ⟨cached, finished, fun result here => absurd here (ongoing.2.2 result), authorized, early,
    fun _ _ => unfinished active.1 active.2, fun _ => ongoing.1, fun here => absurd here ongoing.2.1,
    fun created => ?_, dropped, answered⟩
  exact absurd (alone created).2 active.1

theorem Settled.recreate (before : Settled w) {creator : Creator}
    (started : creator ≠ .tryWait ∧ creator ≠ .spawning)
    (ongoing : ∀ watched, creator ≠ .created watched) : Settled { w with creator } := by
  obtain ⟨cached, finished, publishing, authorized, early, unfinished, present, done, alone, dropped,
    answered⟩ := before
  refine ⟨cached, finished, publishing, authorized, fun start => ?_, unfinished,
    fun created => absurd created (ongoing true), done,
    fun created => absurd created (ongoing false), dropped, answered⟩
  exact start.elim (absurd · started.1) (absurd · started.2)

theorem Settled.calls (before : Settled w) {index : Nat} {call : Call}
    (answers : ∀ status, call = .returned (.ok (some status)) → w.state.result = some (.ok status))
    (signals : lock.Authorized → w.lock.Authorized) :
    Settled { w with calls := Function.update w.calls index call, lock } := by
  obtain ⟨cached, finished, publishing, authorized, early, unfinished, present, done, alone, dropped,
    answered⟩ := before
  refine ⟨cached, finished, publishing, fun held => authorized (signals held), early, unfinished,
    present, done, alone, dropped, ?_⟩
  intro other status returned
  change Function.update w.calls index call other = _ at returned
  by_cases same : other = index
  · subst same
    rw [Function.update_self] at returned
    exact answers status returned
  · rw [Function.update_of_ne same] at returned
    exact answered other status returned

theorem Settled.owner (before : Settled w) {owner : Owner}
    (dropped : owner = .dropped → w.state.result ≠ none) : Settled { w with owner } := by
  obtain ⟨cached, finished, publishing, authorized, early, unfinished, present, done, alone, -,
    answered⟩ := before
  exact ⟨cached, finished, publishing, authorized, early, unfinished, present, done, alone, dropped,
    answered⟩

end Frames

section Results

theorem Settled.inspectsResult (before : Settled w) (apart : Exclusive w)
    (here : w.creator = .inspecting) (result : w.state.result ≠ none) :
    Settled { w with creator := .created false } := by
  obtain ⟨cached, finished, publishing, authorized, early, unfinished, present, done, alone, dropped,
    answered⟩ := before
  obtain ⟨noObserver, -⟩ := apart.early (by simp [here])
  exact ⟨cached, finished, publishing, authorized, by simp, unfinished, by simp, done,
    fun _ => ⟨result, noObserver⟩, dropped, answered⟩

theorem Settled.inspectsNone (before : Settled w) (result : w.state.result = none) :
    Settled { w with creator := .spawning } := by
  obtain ⟨cached, finished, publishing, authorized, early, unfinished, present, done, alone, dropped,
    answered⟩ := before
  exact ⟨cached, finished, publishing, authorized, fun _ => result, unfinished, by simp, done,
    by simp, dropped, answered⟩

theorem Settled.spawns (before : Settled w) (here : w.creator = .spawning) :
    Settled { w with creator := .created true, observer := .begun } := by
  obtain ⟨cached, finished, publishing, authorized, early, unfinished, present, done, alone, dropped,
    answered⟩ := before
  have fresh := early (.inr here)
  exact ⟨cached, finished, by simp, authorized, by simp, fun _ _ => fresh, by simp, by simp,
    by simp, dropped, answered⟩

theorem Settled.publishes (before : Settled w) {result : Except IoError ExitStatus}
    (apart : Exclusive w) (here : w.observer = .publishing result) :
    Settled { w with state := ⟨w.state.child, some result⟩, lock := .free, observer := .done } := by
  obtain ⟨cached, finished, publishing, authorized, early, unfinished, present, done, alone, dropped,
    answered⟩ := before
  have reaped := publishing result here
  have fresh : w.state.result = none := unfinished (by simp [here]) (by simp [here])
  have created : ∃ watched, w.creator = .created watched := by
    by_contra other
    have absent := (apart.early (not_exists.mp other)).1
    simp [here] at absent
  obtain ⟨watched, created⟩ := created
  refine ⟨cached, fun _ => reaped, by simp, by simp, ?_, by simp, by simp, by simp, ?_, by simp, ?_⟩
  · simp [created]
  · intro none
    have absent := (alone none).2
    simp [here] at absent
  · intro index status returned
    have known := answered index status returned
    simp [fresh] at known

end Results

theorem Step.settled (moves : Step termination w event next) (apart : Exclusive w)
    (before : Settled w) : Settled next := by
  cases moves
  case tick => exact before.surroundings _ _
  case exits running status => exact before.leaderMoves (by simp [running]) (by simp)
  case forks running pid => exact before.surroundings _ _
  case memberExits pid => exact before.surroundings _ _
  case stolen status waitable unauthorized =>
    exact before.leaderMoves (by simp) fun signals => absurd signals unauthorized
  case tryWaitFails error child leader here waits => exact before.tryWaitFails apart here waits
  case tryWaitFinds status child leader here waits => exact before.tryWaitFinds apart here waits
  case tryWaitFindsNone child leader here waits => exact before.tryWaitFindsNone apart here waits
  case inspectsResult here free result => exact before.inspectsResult apart here result
  case inspectsNone here free result => exact before.inspectsNone result
  case spawns here => exact before.spawns here
  case spawnFails here error => exact before.recreate (by simp) (by simp)
  case creatorLocks error here free =>
    have waiting : Settled { w with creator := .terminating error } :=
      before.recreate (by simp) (by simp)
    exact waiting.relock (by simp)
  case creatorReaps error status child leader here waits => exact before.creatorReaps waits
  case terminateFinished purpose here result => exact before.finish apart here
  case terminateNoPid purpose here result pid => exact before.finish apart here
  case terminatePolls purpose here result pid => exact before.relock (by simp)
  case pollInterrupted purpose here => exact before
  case pollRunning purpose here report =>
    have running : w.leader = .running := report
    exact before.relock fun _ => by simp [running]
  case pollNotRunning purpose answer here report other => exact before.finish apart here
  case signalsGroup purpose here whole =>
    have unreaped := before.authorized (by simp [here])
    have killed := before.killed.surroundings [] w.now
    exact killed.relock fun _ => by simpa [Process.killed_eq_reaped] using unreaped
  case signalsNoGroup purpose here single =>
    exact before.relock fun _ => before.authorized (by simp [here])
  case kills purpose here fresh => exact before.killed.finish (apart.leaderMoves _) here
  case killsNothing purpose here cached => exact before.finish apart here
  case observerStarts here free pid => exact before.observes (by simp [here]) (by simp)
  case observerNoPid here free pid => exact before.observes (by simp [here]) (by simp)
  case observerInterrupted here => exact before
  case observes here report => exact before.observes (by simp [here]) (by simp)
  case observesNothing here report => exact before.observes (by simp [here]) (by simp)
  case observationFails here errno report => exact before.observes (by simp [here]) (by simp)
  case observerLocks here free =>
    have reaping : Settled { w with observer := .reaping (.ok ()) } :=
      before.observes (by simp [here]) (by simp)
    exact reaping.relock (by simp)
  case observerCancels error here free =>
    have cancelling : Settled { w with observer := .terminating error } :=
      before.observes (by simp [here]) (by simp)
    exact cancelling.relock (by simp)
  case observerReaps outcome status child leader here waits =>
    exact before.observerReaps apart here waits
  case observerPublishes result here => exact before.publishes apart here
  case waitBegins index deadline observer created here => exact before.calls (by simp) id
  case waitLocks index deadline here free => exact before.calls (by simp) (by simp)
  case waitReturns index deadline result here finished =>
    exact before.calls (by simp [finished]) (by simp)
  case waitTimesOut index deadline here unfinished late => exact before.calls (by simp) (by simp)
  case waitSleeps index deadline here unfinished early => exact before.calls (by simp) (by simp)
  case terminateBegins index observer created here => exact before.calls (by simp) id
  case terminateLocks index here free => exact before.calls (by simp) (by simp)
  case dropBegins observer created here => exact before.owner (by simp)
  case dropLocks here free =>
    have entering : Settled { w with owner := .terminating } := before.owner (by simp)
    exact entering.relock (by simp)
  case joins here done => exact before.owner fun _ => before.done done
  case joinsNone here created => exact before.owner fun _ => (before.alone created).1

/-- What every step of a run keeps. -/
structure Invariant (w : World) : Prop where
  exclusive : Exclusive w
  settled : Settled w

theorem Step.invariant (before : Invariant w) (moves : Step termination w event next) :
    Invariant next :=
  ⟨moves.exclusive before.exclusive, moves.settled before.exclusive before.settled⟩

theorem Handed.invariant (handed : Handed w) : Invariant w := by
  obtain ⟨cached, result, lock, creator, observer, calls, owner⟩ := handed
  refine ⟨?_, ?_⟩
  · constructor <;> simp [lock, creator, observer, calls, owner]
  · constructor <;> simp [result, lock, creator, observer, calls, owner]
    exact cached

theorem steps_invariant (termination : ChildTermination) (state : World) (event : Event)
    (next : World) (before : Invariant state) (moves : Step termination state event next) :
    Invariant next :=
  moves.invariant before

/-! ## Signals -/

/-- `waitid` finds the child running inside `Shared::terminate`. -/
def FoundRunning (purpose : Purpose) (moment : Moment World Event) : Prop :=
  moment.event = .polled purpose .nothing ∧ moment.before.leader = .running ∧
    moment.before.lock.HeldFor purpose

/-- Every signal of a trace goes to an unreaped child that was found running under the same lock. -/
def SignalsSafely (trace : List (Moment World Event)) : Prop :=
  ∀ earlier moment later purpose target, trace = earlier ++ moment :: later →
    moment.event = .signalled purpose target →
      moment.before.leader ≠ .reaped ∧ moment.before.lock.HeldFor purpose ∧
        Since (FoundRunning purpose) (fun other => other.before.lock.HeldFor purpose) earlier

/-- A check has authorized a purpose to signal. -/
def AuthorizedFor (purpose : Purpose) (w : World) : Prop :=
  w.lock.HeldFor purpose ∧ w.lock.Authorized

theorem World.finish_not_authorized (w : World) (purpose : Purpose) :
    ¬ (w.finish purpose).lock.Authorized := by
  cases purpose <;> simp [World.finish]

theorem Step.signalled_authorized {purpose : Purpose} {target : Target}
    (moves : Step termination w (.signalled purpose target) next) : AuthorizedFor purpose w := by
  cases moves with
  | signalsGroup purpose here whole => exact ⟨⟨_, here⟩, by simp [here]⟩
  | kills purpose here cached => exact ⟨⟨_, here⟩, by simp [here]⟩

/-- Only a check that finds the child running authorizes. -/
theorem Step.authorized_cases {purpose : Purpose} (moves : Step termination w event next)
    (after : AuthorizedFor purpose next) :
    FoundRunning purpose ⟨w, event⟩ ∨ AuthorizedFor purpose w ∧ w.lock.HeldFor purpose := by
  obtain ⟨⟨stage, held⟩, authorized⟩ := after
  cases moves
  case terminateFinished other here result =>
    exact absurd authorized (w.finish_not_authorized other)
  case terminateNoPid other here result pid =>
    exact absurd authorized (w.finish_not_authorized other)
  case pollNotRunning other answer here report failed =>
    exact absurd authorized (w.finish_not_authorized other)
  case kills other here cached => exact absurd authorized (World.finish_not_authorized _ other)
  case killsNothing other here cached => exact absurd authorized (w.finish_not_authorized other)
  case pollRunning other here report =>
    cases held
    exact .inl ⟨rfl, report, _, here⟩
  case signalsGroup other here whole =>
    cases held
    exact .inr ⟨⟨⟨_, here⟩, by simp [here]⟩, _, here⟩
  case signalsNoGroup other here single =>
    cases held
    exact .inr ⟨⟨⟨_, here⟩, by simp [here]⟩, _, here⟩
  -- every other step leaves the lock, or takes it or gives it up
  all_goals
    first
    | exact .inr ⟨⟨⟨stage, held⟩, authorized⟩, stage, held⟩
    | simp at authorized

/-! ## Runs -/

theorem signalsSafely {start : World} {trace : List (Moment World Event)} (handed : Handed start)
    (run : Run (Step termination) start trace w) : SignalsSafely trace := by
  intro earlier moment later purpose target same signalled
  subst same
  obtain ⟨reached, next, moves, -⟩ := run.through
  rw [signalled] at moves
  have authorized := moves.signalled_authorized
  have invariant := reached.invariant (steps_invariant termination) handed.invariant
  refine ⟨invariant.settled.authorized authorized.2, authorized.1, ?_⟩
  have unauthorized : ¬ AuthorizedFor purpose start := by
    rintro ⟨⟨stage, held⟩, -⟩
    simp [handed.lock] at held
  exact reached.since unauthorized (fun _ _ _ moves => moves.authorized_cases) authorized

/-- The result is set at most once and never changes. -/
structure SettlesOnce (trace : List (Moment World Event)) (w : World) : Prop where
  fresh : ∀ moment ∈ trace, ∀ result, moment.event = .published result →
    moment.before.state.result = none
  kept : ∀ earlier moment later result, trace = earlier ++ moment :: later →
    moment.before.state.result = some result ∨ moment.event = .published result →
      (∀ other ∈ later, other.before.state.result = some result) ∧ w.state.result = some result

theorem Step.publishes {result : Except IoError ExitStatus} (before : Invariant w)
    (moves : Step termination w (.published result) next) :
    w.state.result = none ∧ next.state.result = some result := by
  obtain ⟨exclusive, settled⟩ := before
  cases moves with
  | tryWaitFinds status child leader here waits => exact ⟨settled.early (.inl here), rfl⟩
  | observerPublishes _ here => exact ⟨settled.unfinished (by simp [here]) (by simp [here]), rfl⟩

@[simp, grind =]
theorem World.finish_state (w : World) (purpose : Purpose) : (w.finish purpose).state = w.state := by
  cases purpose <;> rfl

theorem Step.keeps_result {result : Except IoError ExitStatus} (before : Invariant w)
    (moves : Step termination w event next) (settled : w.state.result = some result) :
    next.state.result = some result := by
  have early := before.settled.early
  have unfinished := before.settled.unfinished
  cases moves <;> grind

theorem settlesOnce {start : World} {trace : List (Moment World Event)} (handed : Handed start)
    (run : Run (Step termination) start trace w) : SettlesOnce trace w := by
  have invariant := run.moments (steps_invariant termination) handed.invariant
  refine ⟨?_, ?_⟩
  · intro moment member result published
    obtain ⟨earlier, later, rfl⟩ := List.append_of_mem member
    obtain ⟨reached, next, moves, -⟩ := run.through
    rw [published] at moves
    exact (moves.publishes (invariant moment member)).1
  · intro earlier moment later result same known
    subst same
    obtain ⟨reached, next, moves, rest⟩ := run.through
    have here := invariant moment (by simp)
    have after : next.state.result = some result := by
      rcases known with known | published
      · exact moves.keeps_result here known
      · rw [published] at moves
        exact (moves.publishes here).2
    have keeps : ∀ state event next, Invariant state ∧ state.state.result = some result →
        Step termination state event next → Invariant next ∧ next.state.result = some result :=
      fun _ _ _ known moves => ⟨moves.invariant known.1, moves.keeps_result known.1 known.2⟩
    have begins : Invariant next ∧ next.state.result = some result := ⟨moves.invariant here, after⟩
    exact ⟨fun other member => (rest.moments keeps begins other member).2,
      (rest.invariant keeps begins).2⟩

/-- The leader ends by itself only when nothing else of its group runs, or when a check has already
authorized the signal to the group. -/
def EndsLast (moment : Moment World Event) : Prop :=
  ∀ status, moment.event = .exited status →
    moment.before.members = [] ∨ ∃ purpose, moment.before.lock = .terminating purpose .authorized

/-- A generator right after its spawn, before it is supervised. -/
structure Spawned (w : World) : Prop where
  handed : Handed w
  running : w.leader = .running

namespace Sample

/-- A generator that was just spawned. -/
def start : World where
  leader := .running
  members := []
  now := 0
  state := ⟨⟨7, none⟩, none⟩
  lock := .free
  creator := .tryWait
  observer := .absent
  calls := fun _ => .absent
  owner := .alive

theorem spawned : Spawned start := by
  refine ⟨?_, rfl⟩
  constructor <;> simp [start]

theorem endsLast_silent (w : World) : EndsLast ⟨w, .silent⟩ :=
  fun _ => nofun

theorem endsLast_polled (w : World) (purpose : Purpose) (answer : Waitid) :
    EndsLast ⟨w, .polled purpose answer⟩ :=
  fun _ => nofun

theorem endsLast_signalled (w : World) (purpose : Purpose) (target : Target) :
    EndsLast ⟨w, .signalled purpose target⟩ :=
  fun _ => nofun

theorem endsLast_published (w : World) (result : Except IoError ExitStatus) :
    EndsLast ⟨w, .published result⟩ :=
  fun _ => nofun

/-- A descendant is forked, the deadline passes, and the drop signals the group. -/
theorem timedOut : ∃ trace w, Run (Restricted (Step .processGroup) EndsLast) start trace w ∧ w.calls 0 = .returned (.ok none) ∧
    w.owner = .dropped := by
  have run : Run (Restricted (Step .processGroup) EndsLast) start [] start := .refl
  have run := run.snoc ⟨.forks start (.inl rfl) 8, endsLast_silent _⟩
  have run := run.snoc ⟨.tryWaitFindsNone _ ⟨7, none⟩ .running rfl rfl, endsLast_silent _⟩
  have run := run.snoc ⟨.inspectsNone _ rfl rfl rfl, endsLast_silent _⟩
  have run := run.snoc ⟨.spawns _ rfl, endsLast_silent _⟩
  have run := run.snoc ⟨.observerStarts _ rfl rfl (by decide), endsLast_silent _⟩
  have run := run.snoc ⟨.waitBegins _ 0 1 true rfl rfl, endsLast_silent _⟩
  have run := run.snoc ⟨.waitLocks _ 0 1 (.inl rfl) rfl, endsLast_silent _⟩
  have run := run.snoc ⟨.waitSleeps _ 0 1 rfl rfl (by decide), endsLast_silent _⟩
  have run := run.snoc ⟨.tick _, endsLast_silent _⟩
  have run := run.snoc ⟨.waitLocks _ 0 1 (.inr rfl) rfl, endsLast_silent _⟩
  have run := run.snoc ⟨.waitTimesOut _ 0 1 rfl rfl rfl, endsLast_silent _⟩
  have run := run.snoc ⟨.dropBegins _ true rfl rfl, endsLast_silent _⟩
  have run := run.snoc ⟨.dropLocks _ rfl rfl, endsLast_silent _⟩
  have run := run.snoc ⟨.terminatePolls _ .drop rfl rfl (by decide), endsLast_silent _⟩
  have run := run.snoc ⟨.pollRunning _ .drop rfl rfl, endsLast_polled _ _ _⟩
  have run := run.snoc ⟨.signalsGroup _ .drop rfl rfl, endsLast_signalled _ _ _⟩
  have run := run.snoc ⟨.kills _ .drop rfl rfl, endsLast_signalled _ _ _⟩
  have run := run.snoc ⟨.observes _ rfl ⟨_, rfl⟩, endsLast_silent _⟩
  have run := run.snoc ⟨.observerLocks _ rfl rfl, endsLast_silent _⟩
  have run := run.snoc ⟨.observerReaps _ (.ok ()) (.ok (.signaled 9)) ⟨7, some (.signaled 9)⟩ .reaped rfl rfl, endsLast_silent _⟩
  have run := run.snoc ⟨.observerPublishes _ _ rfl, endsLast_published _ _⟩
  have run := run.snoc ⟨.joins _ rfl rfl, endsLast_silent _⟩
  exact ⟨_, _, run, rfl, rfl⟩

end Sample

/-- Supervision signals and reaps safely in every run: signals reach only an unreaped child found
running under the same lock, the result is set once, every status that `wait_until` returns is that
of the result, and the child is reaped once the owner is dropped. -/
theorem supervised_child {start : World} {trace : List (Moment World Event)}
    (handed : Handed start) (run : Run (Step termination) start trace w) :
    SignalsSafely trace ∧ SettlesOnce trace w ∧
      (∀ first second status other, w.calls first = .returned (.ok (some status)) →
        w.calls second = .returned (.ok (some other)) → status = other) ∧
      (w.owner = .dropped → w.leader = .reaped) := by
  have settled := (run.invariant (steps_invariant termination) handed.invariant).settled
  refine ⟨signalsSafely handed run, settlesOnce handed run, ?_, ?_⟩
  · intro first second status other answered again
    have same := (settled.answered first status answered).symm.trans
      (settled.answered second other again)
    simpa using same
  · intro dropped
    exact settled.finished (settled.dropped dropped)

theorem supervised_child_timedOut : ∃ trace w, w.calls 0 = .returned (.ok none) ∧
    SignalsSafely trace ∧ SettlesOnce trace w ∧
      (∀ first second status other, w.calls first = .returned (.ok (some status)) →
        w.calls second = .returned (.ok (some other)) → status = other) ∧
      (w.owner = .dropped → w.leader = .reaped) := by
  obtain ⟨trace, w, run, answer, -⟩ := Sample.timedOut
  exact ⟨trace, w, answer, supervised_child Sample.spawned.handed run.of_restricted.1⟩

end NixSeal.Runtime.Supervised
