import Mathlib.Logic.Function.Basic
import NixSeal.Lib.Runs

/-!
# Supervised children

One owner, one observer thread and any number of concurrent calls share a child behind a mutex.
The child and the other processes of its group run on between any two steps of theirs.
-/

namespace NixSeal.Runtime.Supervised

/-- Which processes cancellation may terminate. -/
inductive ChildTermination where
  | process
  | processGroup
  deriving DecidableEq

/-- std's `ExitStatus`. -/
inductive ExitStatus where
  | exited (code : UInt8)
  | signaled (signal : Nat)
  deriving DecidableEq

/-- `ExitStatus::success`. -/
def ExitStatus.success : ExitStatus → Bool
  | .exited code => code = 0
  | .signaled _ => false

/-- `Signal::KILL`. -/
def sigkill : Nat := 9

/-- std's `io::Error`: an error number, or a text of its own. -/
inductive IoError where
  | os (errno : Int)
  | other (text : String)
  deriving DecidableEq

/-- `ECHILD`. -/
def echild : IoError := .os 10

/-- What the kernel holds of the owned process: its PID is reserved until it is reaped. -/
inductive Process where
  | running
  | exited (status : ExitStatus)
  | reaped
  deriving DecidableEq

/-- A process that `SIGKILL` reaches. -/
def Process.killed : Process → Process
  | .running => .exited (.signaled sigkill)
  | .exited status => .exited status
  | .reaped => .reaped

/-- std's `Child`, with the exit status it caches. -/
structure Child where
  id : UInt32
  status : Option ExitStatus

/-- `Child::try_wait`. -/
def Child.tryWait (child : Child) (leader : Process) :
    Except IoError (Option ExitStatus) × Child × Process :=
  match child.status with
  | some status => (.ok (some status), child, leader)
  | none =>
      match leader with
      | .running => (.ok none, child, .running)
      | .exited status => (.ok (some status), { child with status := some status }, .reaped)
      | .reaped => (.error echild, child, .reaped)

/-- `Child::wait`, which blocks while the child runs. -/
def Child.wait (child : Child) (leader : Process) :
    Option (Except IoError ExitStatus × Child × Process) :=
  match child.status with
  | some status => some (.ok status, child, leader)
  | none =>
      match leader with
      | .running => none
      | .exited status => some (.ok status, { child with status := some status }, .reaped)
      | .reaped => some (.error echild, child, .reaped)

/-- What one `waitid` with `WNOWAIT` reports. -/
inductive Waitid where
  | interrupted
  | exited
  | nothing
  | failed (errno : Int)
  deriving DecidableEq

/-- What `waitid` may report of a process. A PID that is not a child's any more reports an error. -/
def Waitid.MayReport (leader : Process) : Waitid → Prop
  | .interrupted => True
  | .exited => ∃ status, leader = .exited status
  | .nothing => leader = .running
  | .failed _ => True

/-- rustix's `Pid::from_raw`. -/
def pidFromRaw (raw : Int32) : Option Int32 :=
  if raw = 0 then none else some raw

/-- What the mutex guards. -/
structure State where
  child : Child
  result : Option (Except IoError ExitStatus)

/-- The PID of `terminate` and of the observer. -/
def State.pid (state : State) : Option Int32 :=
  pidFromRaw state.child.id.toInt32

/-- Who holds the mutex outside `terminate`. -/
inductive Party where
  | creator
  | observer
  | call (index : Nat)
  deriving DecidableEq

/-- Who runs `Shared::terminate`, and why. -/
inductive Purpose where
  | spawnFailure (error : IoError)
  | observerFailure (error : IoError)
  | call (index : Nat)
  | drop
  deriving DecidableEq

/-- Where a run of `Shared::terminate` stands. -/
inductive Stage where
  /-- The result and the PID are looked at next. -/
  | entered
  /-- In the loop of `waitid`. -/
  | polling
  /-- The child was running: its group is signalled next. -/
  | authorized
  /-- The child is signalled next. -/
  | killing
  deriving DecidableEq

/-- The mutex, with what its holder does. -/
inductive Lock where
  | free
  | held (party : Party)
  | terminating (purpose : Purpose) (stage : Stage)
  deriving DecidableEq

/-- The thread of `SupervisedChild::new`. -/
inductive Creator where
  | tryWait
  | inspecting
  | spawning
  | locking (error : IoError)
  | terminating (error : IoError)
  | reaping (error : IoError)
  | failed (error : IoError)
  | created (observer : Bool)

/-- The observer thread. -/
inductive Observer where
  | absent
  | begun
  | observing
  | observed (outcome : Except IoError Unit)
  | terminating (error : IoError)
  | reaping (outcome : Except IoError Unit)
  | publishing (result : Except IoError ExitStatus)
  | done

/-- A call of `wait_until` or of `terminate`. -/
inductive Call where
  | absent
  | entering (deadline : Nat)
  | testing (deadline : Nat)
  | sleeping (deadline : Nat)
  | returned (answer : Except IoError (Option ExitStatus))
  | locking
  | terminating
  | terminated

/-- The drop of the owner. -/
inductive Owner where
  | alive
  | locking
  | terminating
  | joining
  | dropped
  deriving DecidableEq

/-- The processes of the group, the clock, the shared state and the threads. -/
structure World where
  leader : Process
  /-- The running processes of the group other than its leader. -/
  members : List Nat
  now : Nat
  state : State
  lock : Lock
  creator : Creator
  observer : Observer
  calls : Nat → Call
  owner : Owner

/-- What a signal is sent to. -/
inductive Target where
  | group
  | child
  deriving DecidableEq

/-- What a step shows. -/
inductive Event where
  | silent
  /-- The child ends by itself. -/
  | exited (status : ExitStatus)
  /-- An answer of `waitid` in `terminate`. -/
  | polled (purpose : Purpose) (answer : Waitid)
  | signalled (purpose : Purpose) (target : Target)
  /-- The result is set. -/
  | published (result : Except IoError ExitStatus)

/-- The error that `wait_until` makes of the stored one. -/
def copyError : IoError → IoError
  | .os errno => .os errno
  | .other text => .other text

@[simp]
theorem copyError_eq (error : IoError) : copyError error = error := by
  cases error <;> rfl

/-- What `wait_until` returns of a result. -/
def answerOf : Except IoError ExitStatus → Except IoError (Option ExitStatus)
  | .ok status => .ok (some status)
  | .error error => .error (copyError error)

/-- `Result::and`. -/
def andResult (observed : Except IoError Unit) (status : Except IoError ExitStatus) :
    Except IoError ExitStatus :=
  match observed with
  | .ok () => status
  | .error error => .error error

/-- The end of `Shared::terminate`: a call and the drop give up the lock with it, the creator and
the observer go on to reap under it. -/
def World.finish (world : World) : Purpose → World
  | .spawnFailure error => { world with lock := .held .creator, creator := .reaping error }
  | .observerFailure error => { world with lock := .held .observer, observer := .reaping (.error error) }
  | .call index =>
      { world with lock := .free, calls := Function.update world.calls index .terminated }
  | .drop => { world with lock := .free, owner := .joining }

/-- The mutex is held by a run of `Shared::terminate`. -/
def Lock.HeldFor (purpose : Purpose) (lock : Lock) : Prop :=
  ∃ stage, lock = .terminating purpose stage

/-- A child was found running, and not every signal was sent on it yet. -/
def Lock.Authorized : Lock → Prop
  | .free | .held _ => False
  | .terminating _ stage => stage = .authorized ∨ stage = .killing

@[simp, grind =]
theorem Lock.authorized_free : Lock.free.Authorized ↔ False :=
  Iff.rfl

@[simp, grind =]
theorem Lock.authorized_held (party : Party) : (Lock.held party).Authorized ↔ False :=
  Iff.rfl

@[simp, grind =]
theorem Lock.authorized_terminating (purpose : Purpose) (stage : Stage) :
    (Lock.terminating purpose stage).Authorized ↔ stage = .authorized ∨ stage = .killing :=
  Iff.rfl

/-- One step of the kernel or of a thread. -/
inductive Step (termination : ChildTermination) : World → Event → World → Prop where
  | tick (w : World) : Step termination w .silent { w with now := w.now + 1 }
  | exits (w : World) (running : w.leader = .running) (status : ExitStatus) :
      Step termination w (.exited status) { w with leader := .exited status }
  | forks (w : World) (running : w.leader = .running ∨ w.members ≠ []) (pid : Nat) :
      Step termination w .silent { w with members := pid :: w.members }
  | memberExits (w : World) (pid : Nat) :
      Step termination w .silent { w with members := w.members.erase pid }
  -- somebody else reaps the child, though never between a check and its signals
  | stolen (w : World) (status : ExitStatus) (waitable : w.leader = .exited status)
      (apart : ¬ w.lock.Authorized) : Step termination w .silent { w with leader := .reaped }
  -- `SupervisedChild::new`
  | tryWaitFails (w : World) (error : IoError) (child : Child) (leader : Process)
      (here : w.creator = .tryWait)
      (waits : w.state.child.tryWait w.leader = (.error error, child, leader)) :
      Step termination w .silent
        { w with leader, state := ⟨child, none⟩, creator := .failed error }
  | tryWaitFinds (w : World) (status : ExitStatus) (child : Child) (leader : Process)
      (here : w.creator = .tryWait)
      (waits : w.state.child.tryWait w.leader = (.ok (some status), child, leader)) :
      Step termination w (.published (.ok status))
        { w with leader, state := ⟨child, some (.ok status)⟩, creator := .inspecting }
  | tryWaitFindsNone (w : World) (child : Child) (leader : Process)
      (here : w.creator = .tryWait)
      (waits : w.state.child.tryWait w.leader = (.ok none, child, leader)) :
      Step termination w .silent
        { w with leader, state := ⟨child, none⟩, creator := .inspecting }
  | inspectsResult (w : World) (here : w.creator = .inspecting) (free : w.lock = .free)
      (result : w.state.result ≠ none) :
      Step termination w .silent { w with creator := .created false }
  | inspectsNone (w : World) (here : w.creator = .inspecting) (free : w.lock = .free)
      (result : w.state.result = none) : Step termination w .silent { w with creator := .spawning }
  | spawns (w : World) (here : w.creator = .spawning) :
      Step termination w .silent { w with creator := .created true, observer := .begun }
  | spawnFails (w : World) (here : w.creator = .spawning) (error : IoError) :
      Step termination w .silent { w with creator := .locking error }
  | creatorLocks (w : World) (error : IoError) (here : w.creator = .locking error)
      (free : w.lock = .free) :
      Step termination w .silent
        { w with creator := .terminating error, lock := .terminating (.spawnFailure error) .entered }
  | creatorReaps (w : World) (error : IoError) (status : Except IoError ExitStatus) (child : Child)
      (leader : Process) (here : w.creator = .reaping error)
      (waits : w.state.child.wait w.leader = some (status, child, leader)) :
      Step termination w .silent
        { w with
          leader, state := ⟨child, w.state.result⟩, lock := .free, creator := .failed error }
  -- `Shared::terminate`
  | terminateFinished (w : World) (purpose : Purpose) (here : w.lock = .terminating purpose .entered)
      (result : w.state.result ≠ none) : Step termination w .silent (w.finish purpose)
  | terminateNoPid (w : World) (purpose : Purpose) (here : w.lock = .terminating purpose .entered)
      (result : w.state.result = none) (pid : w.state.pid = none) :
      Step termination w .silent (w.finish purpose)
  | terminatePolls (w : World) (purpose : Purpose) (here : w.lock = .terminating purpose .entered)
      (result : w.state.result = none) (pid : w.state.pid ≠ none) :
      Step termination w .silent { w with lock := .terminating purpose .polling }
  | pollInterrupted (w : World) (purpose : Purpose)
      (here : w.lock = .terminating purpose .polling) :
      Step termination w (.polled purpose .interrupted) w
  | pollRunning (w : World) (purpose : Purpose) (here : w.lock = .terminating purpose .polling)
      (report : Waitid.nothing.MayReport w.leader) :
      Step termination w (.polled purpose .nothing)
        { w with lock := .terminating purpose .authorized }
  | pollNotRunning (w : World) (purpose : Purpose) (answer : Waitid)
      (here : w.lock = .terminating purpose .polling) (report : answer.MayReport w.leader)
      (other : answer ≠ .interrupted ∧ answer ≠ .nothing) :
      Step termination w (.polled purpose answer) (w.finish purpose)
  | signalsGroup (w : World) (purpose : Purpose)
      (here : w.lock = .terminating purpose .authorized) (whole : termination = .processGroup) :
      Step termination w (.signalled purpose .group)
        { w with leader := w.leader.killed, members := [], lock := .terminating purpose .killing }
  | signalsNoGroup (w : World) (purpose : Purpose)
      (here : w.lock = .terminating purpose .authorized) (single : termination = .process) :
      Step termination w .silent { w with lock := .terminating purpose .killing }
  -- `Child::kill` sends nothing once a status is cached
  | kills (w : World) (purpose : Purpose) (here : w.lock = .terminating purpose .killing)
      (cached : w.state.child.status = none) :
      Step termination w (.signalled purpose .child)
        ({ w with leader := w.leader.killed }.finish purpose)
  | killsNothing (w : World) (purpose : Purpose) (here : w.lock = .terminating purpose .killing)
      (cached : w.state.child.status ≠ none) : Step termination w .silent (w.finish purpose)
  | observerStarts (w : World) (here : w.observer = .begun) (free : w.lock = .free)
      (pid : w.state.pid ≠ none) : Step termination w .silent { w with observer := .observing }
  | observerNoPid (w : World) (here : w.observer = .begun) (free : w.lock = .free)
      (pid : w.state.pid = none) :
      Step termination w .silent
        { w with observer := .observed (.error (.other "invalid child PID")) }
  | observerInterrupted (w : World) (here : w.observer = .observing) : Step termination w .silent w
  | observes (w : World) (here : w.observer = .observing)
      (report : Waitid.exited.MayReport w.leader) :
      Step termination w .silent { w with observer := .observed (.ok ()) }
  | observesNothing (w : World) (here : w.observer = .observing)
      (report : Waitid.nothing.MayReport w.leader) :
      Step termination w .silent
        { w with observer := .observed (.error (.other "child exit was not reported")) }
  | observationFails (w : World) (here : w.observer = .observing) (errno : Int)
      (report : (Waitid.failed errno).MayReport w.leader) :
      Step termination w .silent { w with observer := .observed (.error (.os errno)) }
  | observerLocks (w : World) (here : w.observer = .observed (.ok ())) (free : w.lock = .free) :
      Step termination w .silent { w with observer := .reaping (.ok ()), lock := .held .observer }
  | observerCancels (w : World) (error : IoError) (here : w.observer = .observed (.error error))
      (free : w.lock = .free) :
      Step termination w .silent
        { w with
          observer := .terminating error, lock := .terminating (.observerFailure error) .entered }
  | observerReaps (w : World) (outcome : Except IoError Unit) (status : Except IoError ExitStatus)
      (child : Child) (leader : Process) (here : w.observer = .reaping outcome)
      (waits : w.state.child.wait w.leader = some (status, child, leader)) :
      Step termination w .silent
        { w with
          leader, state := ⟨child, w.state.result⟩
          observer := .publishing (andResult outcome status) }
  | observerPublishes (w : World) (result : Except IoError ExitStatus)
      (here : w.observer = .publishing result) :
      Step termination w (.published result)
        { w with state := ⟨w.state.child, some result⟩, lock := .free, observer := .done }
  -- `wait_until`
  | waitBegins (w : World) (index deadline observer) (created : w.creator = .created observer)
      (here : w.calls index = .absent) :
      Step termination w .silent
        { w with calls := Function.update w.calls index (.entering deadline) }
  | waitLocks (w : World) (index deadline)
      (here : w.calls index = .entering deadline ∨ w.calls index = .sleeping deadline)
      (free : w.lock = .free) :
      Step termination w .silent
        { w with
          calls := Function.update w.calls index (.testing deadline), lock := .held (.call index) }
  | waitReturns (w : World) (index deadline result) (here : w.calls index = .testing deadline)
      (finished : w.state.result = some result) :
      Step termination w .silent
        { w with
          calls := Function.update w.calls index (.returned (answerOf result)), lock := .free }
  | waitTimesOut (w : World) (index deadline) (here : w.calls index = .testing deadline)
      (unfinished : w.state.result = none) (late : deadline - w.now = 0) :
      Step termination w .silent
        { w with calls := Function.update w.calls index (.returned (.ok none)), lock := .free }
  | waitSleeps (w : World) (index deadline) (here : w.calls index = .testing deadline)
      (unfinished : w.state.result = none) (early : deadline - w.now ≠ 0) :
      Step termination w .silent
        { w with calls := Function.update w.calls index (.sleeping deadline), lock := .free }
  -- `SupervisedChild::terminate`
  | terminateBegins (w : World) (index observer) (created : w.creator = .created observer)
      (here : w.calls index = .absent) :
      Step termination w .silent { w with calls := Function.update w.calls index .locking }
  | terminateLocks (w : World) (index) (here : w.calls index = .locking) (free : w.lock = .free) :
      Step termination w .silent
        { w with
          calls := Function.update w.calls index .terminating
          lock := .terminating (.call index) .entered }
  -- `drop`
  | dropBegins (w : World) (observer) (created : w.creator = .created observer)
      (here : w.owner = .alive) : Step termination w .silent { w with owner := .locking }
  | dropLocks (w : World) (here : w.owner = .locking) (free : w.lock = .free) :
      Step termination w .silent
        { w with owner := .terminating, lock := .terminating .drop .entered }
  | joins (w : World) (here : w.owner = .joining) (done : w.observer = .done) :
      Step termination w .silent { w with owner := .dropped }
  | joinsNone (w : World) (here : w.owner = .joining) (created : w.creator = .created false) :
      Step termination w .silent { w with owner := .dropped }

/-- A child that is handed to `SupervisedChild::new`: nobody else knows it yet. -/
structure Handed (w : World) : Prop where
  cached : w.state.child.status ≠ none → w.leader = .reaped
  result : w.state.result = none
  lock : w.lock = .free
  creator : w.creator = .tryWait
  observer : w.observer = .absent
  calls : ∀ index, w.calls index = .absent
  owner : w.owner = .alive

end NixSeal.Runtime.Supervised
