import Mathlib.Data.List.Basic

/-!
# Programs whose steps can fail or be the last one

A program reads a verdict for each labelled step it takes: the step happens, it is refused by the
system and the program sees an error, or the process is killed and nothing after it happens.  A
kill carries a progress, for steps such as a write that may have happened in part.  The rules below
reason about all three ways a program can end at once, and they compose along sequences,
cleanups and loops.
-/

namespace Faulty

/-- What the system does with one step. -/
inductive Verdict where
  | pass
  | fail
  | kill (progress : Nat)
  deriving DecidableEq, Repr

/-- How a program ended, with the state it left. -/
inductive Outcome (σ ε α : Type) where
  | ok (value : α) (state : σ)
  | err (error : ε) (state : σ)
  | killed (state : σ)
  deriving DecidableEq, Repr

namespace Outcome

variable {σ ε α : Type}

/-- The state left behind, however the program ended. -/
def state : Outcome σ ε α → σ
  | .ok _ after => after
  | .err _ after => after
  | .killed after => after

@[simp]
theorem state_ok (value : α) (after : σ) : (Outcome.ok value after : Outcome σ ε α).state = after :=
  rfl

@[simp]
theorem state_err (error : ε) (after : σ) :
    (Outcome.err error after : Outcome σ ε α).state = after :=
  rfl

@[simp]
theorem state_killed (after : σ) : (Outcome.killed after : Outcome σ ε α).state = after :=
  rfl

end Outcome

/-- The same system, except that it kills nobody. -/
def spare {L : Type} (verdict : L → Verdict) (label : L) : Verdict :=
  match verdict label with
  | .kill _ => .pass
  | other => other

theorem spare_ne_kill {L : Type} (verdict : L → Verdict) (label : L) (progress : Nat) :
    spare verdict label ≠ .kill progress := by
  unfold spare
  cases verdict label with
  | pass => simp
  | fail => simp
  | kill _ => simp

theorem spare_eq_fail_iff {L : Type} {verdict : L → Verdict} {label : L} :
    spare verdict label = .fail ↔ verdict label = .fail := by
  unfold spare
  cases verdict label with
  | pass => simp
  | fail => simp
  | kill _ => simp

/-- A program over the state `σ` whose steps carry labels from `L`.  Either it is killed, at a step
that is killed, or it runs as in a system that kills nobody. -/
structure Program (L σ ε α : Type) where
  run : (L → Verdict) → σ → Outcome σ ε α
  honest : ∀ verdict state,
    (∃ label progress after, verdict label = .kill progress ∧ run verdict state = .killed after) ∨
      run verdict state = run (spare verdict) state ∧ ∀ after, run verdict state ≠ .killed after

namespace Program

variable {L L' σ τ ε α β : Type}

instance : CoeFun (Program L σ ε α) fun _ => (L → Verdict) → σ → Outcome σ ε α :=
  ⟨Program.run⟩

protected def pure (value : α) : Program L σ ε α where
  run _ state := .ok value state
  honest _ _ := .inr ⟨rfl, by simp⟩

protected def bind (first : Program L σ ε α) (next : α → Program L σ ε β) : Program L σ ε β where
  run verdict state :=
    match first verdict state with
    | .ok value after => next value verdict after
    | .err error after => .err error after
    | .killed after => .killed after
  honest verdict state := by
    rcases first.honest verdict state with ⟨label, progress, after, killed, ended⟩ | ⟨same, lives⟩
    · exact .inl ⟨label, progress, after, killed, by simp only [ended]⟩
    · rw [← same]
      cases ended : first verdict state with
      | ok value after => exact (next value).honest verdict after
      | err error after => exact .inr ⟨rfl, by simp⟩
      | killed after => exact absurd ended (lives after)

instance : Monad (Program L σ ε) where
  pure := Program.pure
  bind := Program.bind

theorem ext_run {first second : Program L σ ε α}
    (same : ∀ verdict state, first verdict state = second verdict state) : first = second := by
  obtain ⟨run, honest⟩ := first
  obtain ⟨run', honest'⟩ := second
  have equal : run = run' := funext fun verdict => funext (same verdict)
  subst equal
  rfl

theorem bind_run (first : Program L σ ε α) (next : α → Program L σ ε β) (verdict : L → Verdict)
    (state : σ) : (first >>= next) verdict state =
      match first verdict state with
      | .ok value after => next value verdict after
      | .err error after => .err error after
      | .killed after => .killed after :=
  rfl

instance : LawfulMonad (Program L σ ε) := by
  refine LawfulMonad.mk' _ (fun program => ?_) (fun _ _ => rfl) fun first second third => ?_
  · refine ext_run fun verdict state => ?_
    change (program >>= fun value => Program.pure value) verdict state = program verdict state
    rw [bind_run]
    cases program verdict state with
    | ok value after => rfl
    | err error after => rfl
    | killed after => rfl
  · refine ext_run fun verdict state => ?_
    simp only [bind_run]
    cases first verdict state with
    | ok value after => rfl
    | err error after => rfl
    | killed after => rfl

/-- Stop with an error. -/
def raise (error : ε) : Program L σ ε α where
  run _ state := .err error state
  honest _ _ := .inr ⟨rfl, by simp⟩

/-- The current state. -/
def read : Program L σ ε σ where
  run _ state := .ok state state
  honest _ _ := .inr ⟨rfl, by simp⟩

/-- The result of a computation that only reads. -/
def lift : Except ε α → Program L σ ε α
  | .ok value => Program.pure value
  | .error error => raise error

/-- Stop with an error unless a condition holds. -/
def require (condition : Prop) [Decidable condition] (error : ε) : Program L σ ε Unit :=
  if condition then Program.pure () else raise error

/-- Run a program only when a condition holds. -/
def when (condition : Prop) [Decidable condition] (program : Program L σ ε Unit) :
    Program L σ ε Unit :=
  if condition then program else Program.pure ()

/-- A step that can be cut short: a kill leaves `interrupted progress` behind. -/
def write (label : L) (error : ε) (interrupted : Nat → σ → σ) (effect : σ → σ) :
    Program L σ ε Unit where
  run verdict state :=
    match verdict label with
    | .pass => .ok () (effect state)
    | .fail => .err error state
    | .kill progress => .killed (interrupted progress state)
  honest verdict state := by
    unfold spare
    cases found : verdict label with
    | pass => exact .inr ⟨rfl, by simp⟩
    | fail => exact .inr ⟨rfl, by simp⟩
    | kill progress => exact .inl ⟨label, progress, _, found, rfl⟩

/-- A step that happens as a whole or not at all. -/
def step (label : L) (error : ε) (effect : σ → σ) : Program L σ ε Unit :=
  write label error (fun _ state => state) effect

/-- A change that always happens. -/
def update (effect : σ → σ) : Program L σ ε Unit where
  run _ state := .ok () (effect state)
  honest _ _ := .inr ⟨rfl, by simp⟩

/-- Run a program and hand its error to the caller as a value. -/
def attempt (program : Program L σ ε α) : Program L σ ε (Except ε α) where
  run verdict state :=
    match program verdict state with
    | .ok value after => .ok (.ok value) after
    | .err error after => .ok (.error error) after
    | .killed after => .killed after
  honest verdict state := by
    rcases program.honest verdict state with ⟨label, progress, after, killed, ended⟩ | ⟨same, lives⟩
    · exact .inl ⟨label, progress, after, killed, by simp only [ended]⟩
    · rw [← same]
      cases ended : program verdict state with
      | ok value after => exact .inr ⟨rfl, by simp⟩
      | err error after => exact .inr ⟨rfl, by simp⟩
      | killed after => exact absurd ended (lives after)

/-- Run a cleanup when a program stops with an error, ignoring the errors of the cleanup. -/
def onError (program : Program L σ ε α) (cleanup : Program L σ ε Unit) : Program L σ ε α := do
  match ← attempt program with
  | .ok value => pure value
  | .error error => do
      let _ ← attempt cleanup
      raise error

/-- Run a program under other labels. -/
def relabel (label : L' → L) (program : Program L' σ ε α) : Program L σ ε α where
  run verdict state := program (verdict ∘ label) state
  honest verdict state := by
    have spared : spare verdict ∘ label = spare (verdict ∘ label) := rfl
    rw [spared]
    rcases program.honest (verdict ∘ label) state with ⟨inner, progress, after, ended⟩ | lives
    · exact .inl ⟨label inner, progress, after, ended⟩
    · exact .inr lives

/-- Run a program over a state of its own, which is lost unless the program returns. -/
def within (start : τ) (program : Program L τ ε α) : Program L σ ε (α × τ) where
  run verdict state :=
    match program verdict start with
    | .ok value inner => .ok (value, inner) state
    | .err error _ => .err error state
    | .killed _ => .killed state
  honest verdict state := by
    rcases program.honest verdict start with ⟨label, progress, after, killed, ended⟩ | ⟨same, lives⟩
    · exact .inl ⟨label, progress, state, killed, by simp only [ended]⟩
    · rw [← same]
      cases ended : program verdict start with
      | ok value after => exact .inr ⟨rfl, by simp⟩
      | err error after => exact .inr ⟨rfl, by simp⟩
      | killed after => exact absurd ended (lives after)

/-- Every way the program can end from `state` is as described. -/
def Meets (program : Program L σ ε α) (verdict : L → Verdict) (state : σ)
    (returns : α → σ → Prop) (raises : ε → σ → Prop) (stops : σ → Prop) : Prop :=
  match program verdict state with
  | .ok value after => returns value after
  | .err error after => raises error after
  | .killed after => stops after

section Rules

variable {verdict : L → Verdict} {state : σ} {returns returns' : α → σ → Prop}
  {raises raises' : ε → σ → Prop} {stops stops' : σ → Prop}

theorem Meets.pure {value : α} (holds : returns value state) :
    (pure value : Program L σ ε α).Meets verdict state returns raises stops :=
  holds

theorem Meets.raise {error : ε} (holds : raises error state) :
    (Program.raise error : Program L σ ε α).Meets verdict state returns raises stops :=
  holds

theorem Meets.read {returns : σ → σ → Prop} (holds : returns state state) :
    (Program.read : Program L σ ε σ).Meets verdict state returns raises stops :=
  holds

theorem Meets.bind {first : Program L σ ε α} {next : α → Program L σ ε β}
    {final : β → σ → Prop}
    (head : first.Meets verdict state
      (fun value after => (next value).Meets verdict after final raises stops) raises stops) :
    (first >>= next).Meets verdict state final raises stops := by
  change (Program.bind first next).Meets verdict state final raises stops
  unfold Meets at head ⊢
  unfold Program.bind
  cases ended : first verdict state with
  | ok value after => simpa [ended] using head
  | err error after => simpa [ended] using head
  | killed after => simpa [ended] using head

theorem Meets.mono {program : Program L σ ε α}
    (holds : program.Meets verdict state returns raises stops)
    (onReturn : ∀ value after, returns value after → returns' value after)
    (onRaise : ∀ error after, raises error after → raises' error after)
    (onStop : ∀ after, stops after → stops' after) :
    program.Meets verdict state returns' raises' stops' := by
  unfold Meets at holds ⊢
  cases ended : program verdict state with
  | ok value after => exact onReturn _ _ (by simpa [ended] using holds)
  | err error after => exact onRaise _ _ (by simpa [ended] using holds)
  | killed after => exact onStop _ (by simpa [ended] using holds)

theorem Meets.and {program : Program L σ ε α}
    (first : program.Meets verdict state returns raises stops)
    (second : program.Meets verdict state returns' raises' stops') :
    program.Meets verdict state (fun value after => returns value after ∧ returns' value after)
      (fun error after => raises error after ∧ raises' error after)
      (fun after => stops after ∧ stops' after) := by
  unfold Meets at first second ⊢
  cases ended : program verdict state with
  | ok value after => exact ⟨by simpa [ended] using first, by simpa [ended] using second⟩
  | err error after => exact ⟨by simpa [ended] using first, by simpa [ended] using second⟩
  | killed after => exact ⟨by simpa [ended] using first, by simpa [ended] using second⟩

/-- A sequence whose first part is already described. -/
theorem Meets.seq {first : Program L σ ε α} {next : α → Program L σ ε β} {final : β → σ → Prop}
    (head : first.Meets verdict state returns raises stops)
    (tail : ∀ value after, returns value after →
      (next value).Meets verdict after final raises stops) :
    (first >>= next).Meets verdict state final raises stops :=
  Meets.bind (head.mono tail (fun _ _ holds => holds) fun _ holds => holds)

theorem Meets.lift {result : Except ε α}
    (onReturn : ∀ value, result = .ok value → returns value state)
    (onRaise : ∀ error, result = .error error → raises error state) :
    (Program.lift result : Program L σ ε α).Meets verdict state returns raises stops := by
  cases result with
  | ok value => exact onReturn value rfl
  | error error => exact onRaise error rfl

theorem Meets.lift_ok {result : Except ε α} {value : α} {next : α → Program L σ ε β}
    {final : β → σ → Prop} (known : result = .ok value)
    (tail : (next value).Meets verdict state final raises stops) :
    ((Program.lift result : Program L σ ε α) >>= next).Meets verdict state final raises stops := by
  subst known
  exact Meets.bind tail

theorem Meets.require {condition : Prop} [Decidable condition] {error : ε}
    {returns : Unit → σ → Prop} (onReturn : condition → returns () state)
    (onRaise : ¬condition → raises error state) :
    (Program.require condition error : Program L σ ε Unit).Meets verdict state returns raises
      stops := by
  unfold Program.require
  by_cases holds : condition
  · rw [if_pos holds]
    exact onReturn holds
  · rw [if_neg holds]
    exact onRaise holds

theorem Meets.when {condition : Prop} [Decidable condition] {program : Program L σ ε Unit}
    {returns : Unit → σ → Prop}
    (taken : condition → program.Meets verdict state returns raises stops)
    (skipped : ¬condition → returns () state) :
    (Program.when condition program).Meets verdict state returns raises stops := by
  unfold Program.when
  by_cases holds : condition
  · rw [if_pos holds]
    exact taken holds
  · rw [if_neg holds]
    exact skipped holds

theorem Meets.write {label : L} {error : ε} {interrupted : Nat → σ → σ} {effect : σ → σ}
    {returns : Unit → σ → Prop} (onReturn : returns () (effect state))
    (onRaise : verdict label = .fail → raises error state)
    (onStop : ∀ progress, verdict label = .kill progress → stops (interrupted progress state)) :
    (Program.write label error interrupted effect).Meets verdict state returns raises stops := by
  simp only [Meets, Program.write]
  cases found : verdict label with
  | pass => exact onReturn
  | fail => exact onRaise found
  | kill progress => exact onStop progress found

theorem Meets.step {label : L} {error : ε} {effect : σ → σ} {returns : Unit → σ → Prop}
    (onReturn : returns () (effect state)) (onRaise : verdict label = .fail → raises error state)
    (onStop : ∀ progress, verdict label = .kill progress → stops state) :
    (Program.step label error effect).Meets verdict state returns raises stops :=
  Meets.write onReturn onRaise onStop

theorem Meets.update {effect : σ → σ} {returns : Unit → σ → Prop}
    (holds : returns () (effect state)) :
    (Program.update effect : Program L σ ε Unit).Meets verdict state returns raises stops :=
  holds

/-- A step in a system that refuses nothing. -/
theorem Meets.step_unrefused {label : L} {error : ε} {effect : σ → σ} {returns : Unit → σ → Prop}
    (holds : returns () (effect state)) :
    (Program.step label error effect).Meets (fun _ => .pass) state returns raises stops :=
  holds

theorem Meets.attempt {program : Program L σ ε α} {final : Except ε α → σ → Prop}
    (holds : program.Meets verdict state (fun value => final (.ok value))
      (fun error => final (.error error)) stops) :
    (attempt program).Meets verdict state final raises stops := by
  unfold Meets at holds ⊢
  unfold Program.attempt
  cases ended : program verdict state with
  | ok value after => simpa [ended] using holds
  | err error after => simpa [ended] using holds
  | killed after => simpa [ended] using holds

theorem Meets.onError {program : Program L σ ε α} {cleanup : Program L σ ε Unit}
    (broken : ε → σ → Prop) (holds : program.Meets verdict state returns broken stops)
    (clean : ∀ error after, broken error after →
      cleanup.Meets verdict after (fun _ => raises error) (fun _ => raises error) stops) :
    (onError program cleanup).Meets verdict state returns raises stops := by
  apply Meets.bind
  apply Meets.attempt
  refine holds.mono (fun value after kept => kept) (fun error after failed => ?_)
    fun _ stopped => stopped
  apply Meets.bind
  apply Meets.attempt
  exact (clean error after failed).mono (fun _ _ kept => kept) (fun _ _ kept => kept)
    fun _ stopped => stopped

theorem Meets.relabel {label : L' → L} {program : Program L' σ ε α}
    (holds : program.Meets (verdict ∘ label) state returns raises stops) :
    (relabel label program).Meets verdict state returns raises stops := by
  unfold Meets at holds ⊢
  unfold Program.relabel
  cases ended : program (verdict ∘ label) state with
  | ok value after => simpa [ended] using holds
  | err error after => simpa [ended] using holds
  | killed after => simpa [ended] using holds

theorem Meets.within {start : τ} {program : Program L τ ε α} {final : α × τ → σ → Prop}
    {inner : α → τ → Prop} {innerRaises : ε → τ → Prop}
    (holds : program.Meets verdict start inner innerRaises fun _ => True)
    (onReturn : ∀ value after, inner value after → final (value, after) state)
    (onRaise : ∀ error after, innerRaises error after → raises error state)
    (onStop : stops state) :
    (within start program).Meets verdict state final raises stops := by
  simp only [Meets, Program.within] at holds ⊢
  cases ended : program verdict start with
  | ok value after =>
      simp only [ended] at holds
      exact onReturn value after holds
  | err error after =>
      simp only [ended] at holds
      exact onRaise error after holds
  | killed after => exact onStop

theorem Meets.ends {program : Program L σ ε α} (onReturn : ∀ value after, returns value after)
    (onRaise : ∀ error after, raises error after) (onStop : ∀ after, stops after) :
    program.Meets verdict state returns raises stops := by
  unfold Meets
  split
  · exact onReturn _ _
  · exact onRaise _ _
  · exact onStop _

/-- A program that never returns. -/
theorem Meets.refuted {program : Program L σ ε α}
    (never : ∀ value after, program verdict state ≠ .ok value after)
    (onRaise : ∀ error after, raises error after) (onStop : ∀ after, stops after) :
    program.Meets verdict state returns raises stops := by
  unfold Meets
  cases ended : program verdict state with
  | ok value after => exact absurd ended (never value after)
  | err error after => exact onRaise error after
  | killed after => exact onStop after

/-- A program that a kill can do no harm to. -/
theorem Meets.spare {program : Program L σ ε α}
    (holds : program.Meets (spare verdict) state returns raises fun _ => True)
    (onStop : ∀ after, stops after) : program.Meets verdict state returns raises stops := by
  unfold Meets at holds ⊢
  rcases program.honest verdict state with ⟨_, _, after, _, ended⟩ | ⟨same, lives⟩
  · rw [ended]
    exact onStop after
  · rw [← same] at holds
    cases ended : program verdict state with
    | ok value after => simpa [ended] using holds
    | err error after => simpa [ended] using holds
    | killed after => exact absurd ended (lives after)

/-- The loop rule: the invariant speaks of the items processed so far. -/
theorem Meets.foldlM {items : List α} {body : β → α → Program L σ ε β} {init : β}
    {final : β → σ → Prop} (invariant : List α → β → σ → Prop) (start : invariant [] init state)
    (keep : ∀ done item rest value before, items = done ++ item :: rest →
      invariant done value before →
        (body value item).Meets verdict before (invariant (done ++ [item])) raises stops)
    (finish : ∀ value after, invariant items value after → final value after) :
    (items.foldlM body init).Meets verdict state final raises stops := by
  suffices general : ∀ rest done value before, items = done ++ rest →
      invariant done value before →
        (rest.foldlM body value).Meets verdict before (invariant items) raises stops by
    exact (general items [] init state rfl start).mono finish (fun _ _ holds => holds)
      fun _ holds => holds
  intro rest
  induction rest with
  | nil =>
      intro done value before split holds
      rw [List.append_nil] at split
      subst split
      exact Meets.pure holds
  | cons item rest ih =>
      intro done value before split holds
      rw [List.foldlM_cons]
      refine (keep done item rest value before split holds).seq fun next after kept => ?_
      exact ih (done ++ [item]) next after (by simpa using split) kept

theorem Meets.elim {program : Program L σ ε α}
    (holds : program.Meets verdict state returns raises stops) :
    (∃ value after, program verdict state = .ok value after ∧ returns value after) ∨
      (∃ error after, program verdict state = .err error after ∧ raises error after) ∨
        ∃ after, program verdict state = .killed after ∧
          (∃ label progress, verdict label = .kill progress) ∧ stops after := by
  unfold Meets at holds
  cases ended : program verdict state with
  | ok value after => exact .inl ⟨value, after, rfl, by simpa [ended] using holds⟩
  | err error after => exact .inr (.inl ⟨error, after, rfl, by simpa [ended] using holds⟩)
  | killed after =>
      refine .inr (.inr ⟨after, rfl, ?_, by simpa [ended] using holds⟩)
      rcases program.honest verdict state with ⟨label, progress, _, killed, _⟩ | ⟨_, lives⟩
      · exact ⟨label, progress, killed⟩
      · exact absurd ended (lives after)

/-- What every ending guarantees about the state it leaves. -/
theorem Meets.leaves {program : Program L σ ε α} {kept : σ → Prop}
    (holds : program.Meets verdict state (fun _ => kept) (fun _ => kept) kept) :
    kept (program verdict state).state := by
  unfold Meets at holds
  cases ended : program verdict state with
  | ok value after => simpa [ended] using holds
  | err error after => simpa [ended] using holds
  | killed after => simpa [ended] using holds

theorem Meets.alive {program : Program L σ ε α}
    (holds : program.Meets verdict state returns raises stops)
    (never : ∀ label progress, verdict label ≠ .kill progress) :
    program.Meets verdict state returns raises fun _ => False := by
  unfold Meets at holds ⊢
  cases ended : program verdict state with
  | ok value after => simpa [ended] using holds
  | err error after => simpa [ended] using holds
  | killed after =>
      rcases program.honest verdict state with ⟨label, progress, _, killed, _⟩ | ⟨_, lives⟩
      · exact absurd killed (never label progress)
      · exact absurd ended (lives after)

end Rules

/-- Whatever happens, the program leaves a part of the state alone. -/
def Keeps {γ : Type} (program : Program L σ ε α) (view : σ → γ) : Prop :=
  ∀ verdict state, view (program verdict state).state = view state

section Frames

variable {γ : Type} {view : σ → γ}

theorem Keeps.pure (value : α) : (pure value : Program L σ ε α).Keeps view :=
  fun _ _ => rfl

theorem Keeps.raise (error : ε) : (Program.raise error : Program L σ ε α).Keeps view :=
  fun _ _ => rfl

theorem Keeps.read : (Program.read : Program L σ ε σ).Keeps view :=
  fun _ _ => rfl

theorem Keeps.lift (result : Except ε α) : (Program.lift result : Program L σ ε α).Keeps view := by
  cases result with
  | ok value => exact Keeps.pure value
  | error error => exact Keeps.raise error

theorem Keeps.require {condition : Prop} [Decidable condition] (error : ε) :
    (Program.require condition error : Program L σ ε Unit).Keeps view := by
  unfold Program.require
  split
  · exact Keeps.pure ()
  · exact Keeps.raise error

theorem Keeps.bind {first : Program L σ ε α} {next : α → Program L σ ε β}
    (head : first.Keeps view) (tail : ∀ value, (next value).Keeps view) :
    (first >>= next).Keeps view := by
  intro verdict state
  have before := head verdict state
  change view (Program.bind first next verdict state).state = view state
  simp only [Program.bind]
  cases ended : first verdict state with
  | ok value after =>
      rw [ended] at before
      exact (tail value verdict after).trans before
  | err error after => simpa [ended] using before
  | killed after => simpa [ended] using before

theorem Keeps.when {condition : Prop} [Decidable condition] {program : Program L σ ε Unit}
    (keeps : program.Keeps view) : (Program.when condition program).Keeps view := by
  unfold Program.when
  split
  · exact keeps
  · exact Keeps.pure ()

theorem Keeps.write {label : L} {error : ε} {interrupted : Nat → σ → σ} {effect : σ → σ}
    (cut : ∀ progress state, view (interrupted progress state) = view state)
    (whole : ∀ state, view (effect state) = view state) :
    (Program.write label error interrupted effect).Keeps view := by
  intro verdict state
  simp only [Program.write]
  cases verdict label with
  | pass => exact whole state
  | fail => rfl
  | kill progress => exact cut progress state

theorem Keeps.step {label : L} {error : ε} {effect : σ → σ}
    (whole : ∀ state, view (effect state) = view state) :
    (Program.step label error effect).Keeps view :=
  Keeps.write (fun _ _ => rfl) whole

theorem Keeps.attempt {program : Program L σ ε α} (keeps : program.Keeps view) :
    (attempt program).Keeps view := by
  intro verdict state
  have before := keeps verdict state
  simp only [Program.attempt]
  cases ended : program verdict state with
  | ok value after => simpa [ended] using before
  | err error after => simpa [ended] using before
  | killed after => simpa [ended] using before

theorem Keeps.onError {program : Program L σ ε α} {cleanup : Program L σ ε Unit}
    (keeps : program.Keeps view) (clean : cleanup.Keeps view) :
    (onError program cleanup).Keeps view := by
  refine Keeps.bind keeps.attempt fun result => ?_
  cases result with
  | ok value => exact Keeps.pure value
  | error error => exact Keeps.bind clean.attempt fun _ => Keeps.raise error

theorem Keeps.relabel {label : L' → L} {program : Program L' σ ε α} (keeps : program.Keeps view) :
    (relabel label program).Keeps view :=
  fun verdict state => keeps (verdict ∘ label) state

theorem Keeps.within {start : τ} {program : Program L τ ε α} :
    (within start program : Program L σ ε (α × τ)).Keeps view := by
  intro verdict state
  simp only [Program.within]
  cases program verdict start with
  | ok value after => rfl
  | err error after => rfl
  | killed after => rfl

theorem Keeps.foldlM {items : List α} {body : β → α → Program L σ ε β} {init : β}
    (keeps : ∀ value item, (body value item).Keeps view) : (items.foldlM body init).Keeps view := by
  induction items generalizing init with
  | nil => exact Keeps.pure init
  | cons item rest ih =>
      rw [List.foldlM_cons]
      exact Keeps.bind (keeps init item) fun _ => ih

/-- A description of a program together with what it leaves alone. -/
theorem Meets.keeping {program : Program L σ ε α} {verdict : L → Verdict} {state : σ}
    {returns : α → σ → Prop} {raises : ε → σ → Prop} {stops : σ → Prop}
    (holds : program.Meets verdict state returns raises stops) (keeps : program.Keeps view) :
    program.Meets verdict state (fun value after => returns value after ∧ view after = view state)
      (fun error after => raises error after ∧ view after = view state)
      (fun after => stops after ∧ view after = view state) := by
  have kept := keeps verdict state
  unfold Meets at holds ⊢
  cases ended : program verdict state with
  | ok value after => simpa [ended] using And.intro holds kept
  | err error after => simpa [ended] using And.intro holds kept
  | killed after => simpa [ended] using And.intro holds kept

end Frames

/-- The program in a system that refuses nothing and kills nobody. -/
def passing (program : Program L σ ε α) (state : σ) : Except ε α × σ :=
  match ended : program (fun _ => .pass) state with
  | .ok value after => (.ok value, after)
  | .err error after => (.error error, after)
  | .killed after => False.elim (by
      rcases program.honest (fun _ => .pass) state with ⟨_, _, _, killed, _⟩ | ⟨_, lives⟩
      · cases killed
      · exact lives after ended)

theorem Meets.passing {program : Program L σ ε α} {state : σ} {returns : α → σ → Prop}
    {raises : ε → σ → Prop} {stops : σ → Prop}
    (holds : program.Meets (fun _ => .pass) state returns raises stops) :
    (∃ value after, program.passing state = (.ok value, after) ∧ returns value after) ∨
      ∃ error after, program.passing state = (.error error, after) ∧ raises error after := by
  unfold Meets at holds
  unfold Program.passing
  split
  · rename_i value after ended
    rw [ended] at holds
    exact .inl ⟨value, after, rfl, holds⟩
  · rename_i error after ended
    rw [ended] at holds
    exact .inr ⟨error, after, rfl, holds⟩
  · rename_i after ended
    rcases program.honest (fun _ => .pass) state with ⟨_, _, _, killed, _⟩ | ⟨_, lives⟩
    · cases killed
    · exact absurd ended (lives after)

theorem passing_eq_ok {program : Program L σ ε α} {state after : σ} {value : α}
    (ended : program (fun _ => .pass) state = .ok value after) :
    program.passing state = (.ok value, after) := by
  have met : program.Meets (fun _ => .pass) state (fun found final => found = value ∧ final = after)
      (fun _ _ => False) fun _ => False := by
    unfold Meets
    rw [ended]
    exact ⟨rfl, rfl⟩
  rcases met.passing with ⟨_, _, returned, rfl, rfl⟩ | ⟨_, _, _, impossible⟩
  · exact returned
  · exact impossible.elim

theorem passing_eq_error {program : Program L σ ε α} {state after : σ} {error : ε}
    (ended : program (fun _ => .pass) state = .err error after) :
    program.passing state = (.error error, after) := by
  have met : program.Meets (fun _ => .pass) state (fun _ _ => False)
      (fun found final => found = error ∧ final = after) fun _ => False := by
    unfold Meets
    rw [ended]
    exact ⟨rfl, rfl⟩
  rcases met.passing with ⟨_, _, _, impossible⟩ | ⟨_, _, raised, rfl, rfl⟩
  · exact impossible.elim
  · exact raised

theorem Keeps.passing {γ : Type} {view : σ → γ} {program : Program L σ ε α}
    (keeps : program.Keeps view) (state : σ) : view (program.passing state).2 = view state := by
  have described : program.Meets (fun _ => .pass) state (fun _ _ => True) (fun _ _ => True)
      fun _ => True :=
    Meets.ends (fun _ _ => trivial) (fun _ _ => trivial) fun _ => trivial
  rcases (described.keeping keeps).passing with ⟨_, _, ended, _, kept⟩ | ⟨_, _, ended, _, kept⟩
  · rw [ended]
    exact kept
  · rw [ended]
    exact kept

section Inversion

variable {verdict : L → Verdict} {state after : σ}

theorem bind_eq_ok {first : Program L σ ε α} {next : α → Program L σ ε β} {result : β} :
    (first >>= next) verdict state = .ok result after ↔
      ∃ value between, first verdict state = .ok value between ∧
        next value verdict between = .ok result after := by
  change Program.bind first next verdict state = .ok result after ↔ _
  simp only [Program.bind]
  cases ended : first verdict state with
  | ok value between => simp
  | err error between => simp
  | killed between => simp

theorem lift_eq_ok {result : Except ε α} {value : α} :
    (Program.lift result : Program L σ ε α) verdict state = .ok value after ↔
      result = .ok value ∧ state = after := by
  cases result with
  | ok found => simp [Program.lift, Program.pure]
  | error error => simp [Program.lift, raise]

theorem pure_eq_ok {value result : α} :
    (pure value : Program L σ ε α) verdict state = .ok result after ↔
      value = result ∧ state = after := by
  change Outcome.ok value state = Outcome.ok result after ↔ _
  rw [Outcome.ok.injEq]

theorem require_eq_ok {condition : Prop} [Decidable condition] {error : ε} :
    (Program.require condition error : Program L σ ε Unit) verdict state = .ok () after ↔
      condition ∧ state = after := by
  by_cases holds : condition
  · simp [Program.require, holds, Program.pure]
  · simp [Program.require, holds, raise]

theorem write_eq_ok {label : L} {error : ε} {interrupted : Nat → σ → σ} {effect : σ → σ} :
    Program.write label error interrupted effect verdict state = .ok () after ↔
      verdict label = .pass ∧ effect state = after := by
  cases found : verdict label with
  | pass => simp [Program.write, found]
  | fail => simp [Program.write, found]
  | kill progress => simp [Program.write, found]

theorem step_eq_ok {label : L} {error : ε} {effect : σ → σ} :
    Program.step label error effect verdict state = .ok () after ↔
      verdict label = .pass ∧ effect state = after :=
  write_eq_ok

theorem read_bind_eq_ok {next : σ → Program L σ ε β} {result : β} :
    (Program.read >>= next) verdict state = .ok result after ↔
      next state verdict state = .ok result after :=
  Iff.rfl

theorem require_bind_eq_ok {condition : Prop} [Decidable condition] {error : ε}
    {next : Unit → Program L σ ε β} {result : β} :
    (Program.require condition error >>= next) verdict state = .ok result after ↔
      condition ∧ next () verdict state = .ok result after := by
  constructor
  · intro returned
    obtain ⟨_, _, required, rest⟩ := bind_eq_ok.mp returned
    obtain ⟨holds, rfl⟩ := require_eq_ok.mp required
    exact ⟨holds, rest⟩
  · intro returned
    exact bind_eq_ok.mpr ⟨(), state, require_eq_ok.mpr ⟨returned.1, rfl⟩, returned.2⟩

theorem step_bind_eq_ok {label : L} {error : ε} {effect : σ → σ} {next : Unit → Program L σ ε β}
    {result : β} :
    (Program.step label error effect >>= next) verdict state = .ok result after ↔
      verdict label = .pass ∧ next () verdict (effect state) = .ok result after := by
  constructor
  · intro returned
    obtain ⟨_, _, stepped, rest⟩ := bind_eq_ok.mp returned
    obtain ⟨passed, rfl⟩ := step_eq_ok.mp stepped
    exact ⟨passed, rest⟩
  · intro returned
    exact bind_eq_ok.mpr ⟨(), effect state, step_eq_ok.mpr ⟨returned.1, rfl⟩, returned.2⟩

theorem raise_ne_ok {error : ε} {value : α} :
    (raise error : Program L σ ε α) verdict state ≠ .ok value after := by
  simp [raise]

theorem attempt_eq_ok {program : Program L σ ε α} {value : α} :
    attempt program verdict state = .ok (.ok value) after ↔
      program verdict state = .ok value after := by
  simp only [attempt]
  cases program verdict state with
  | ok found final => simp
  | err error final => simp
  | killed final => simp

/-- A cleanup only happens on the way to an error. -/
theorem onError_eq_ok {program : Program L σ ε α} {cleanup : Program L σ ε Unit} {value : α} :
    onError program cleanup verdict state = .ok value after ↔
      program verdict state = .ok value after := by
  constructor
  · intro returned
    obtain ⟨result, between, tried, rest⟩ := bind_eq_ok.mp returned
    cases result with
    | ok found =>
        obtain ⟨rfl, rfl⟩ := pure_eq_ok.mp rest
        exact attempt_eq_ok.mp tried
    | error error =>
        obtain ⟨_, _, -, raised⟩ := bind_eq_ok.mp rest
        exact absurd raised raise_ne_ok
  · intro returned
    exact bind_eq_ok.mpr ⟨.ok value, after, attempt_eq_ok.mpr returned, pure_eq_ok.mpr ⟨rfl, rfl⟩⟩

/-- What a program keeps is kept when it returns. -/
theorem Keeps.of_ok {γ : Type} {view : σ → γ} {program : Program L σ ε α} {value : α}
    (keeps : program.Keeps view) (returned : program verdict state = .ok value after) :
    view after = view state := by
  have kept := keeps verdict state
  rwa [returned] at kept

/-- What a program keeps is kept however it ends, and a result is what it returned. -/
theorem Keeps.meets {γ : Type} {view : σ → γ} {program : Program L σ ε α} (keeps : program.Keeps view)
    (verdict : L → Verdict) (state : σ) :
    program.Meets verdict state
      (fun value after => program verdict state = .ok value after ∧ view after = view state)
      (fun _ after => view after = view state) fun after => view after = view state := by
  have kept := keeps verdict state
  unfold Meets
  cases ended : program verdict state with
  | ok value after => exact ⟨rfl, by simpa [ended] using kept⟩
  | err error after => simpa [ended] using kept
  | killed after => simpa [ended] using kept

/-- A sequence whose first part keeps what its other endings are about. -/
theorem Keeps.seq {γ : Type} {view : σ → γ} {first : Program L σ ε α} {next : α → Program L σ ε β}
    {final : β → σ → Prop} {raises : ε → σ → Prop} {stops : σ → Prop} (keeps : first.Keeps view)
    (tail : ∀ value between, first verdict state = .ok value between → view between = view state →
      (next value).Meets verdict between final raises stops)
    (onRaise : ∀ error between, view between = view state → raises error between)
    (onStop : ∀ between, view between = view state → stops between) :
    (first >>= next).Meets verdict state final raises stops :=
  Meets.bind ((keeps.meets verdict state).mono
    (fun value between returned => tail value between returned.1 returned.2) onRaise onStop)

theorem Meets.of_ok {program : Program L σ ε α} {returns : α → σ → Prop} {raises : ε → σ → Prop}
    {stops : σ → Prop} {value : α} (holds : program.Meets verdict state returns raises stops)
    (returned : program verdict state = .ok value after) : returns value after := by
  rwa [Meets, returned] at holds

theorem step_of_foldlM_eq_ok {items : List α} {body : β → α → Program L σ ε β} {init final : β}
    (returned : (items.foldlM body init) verdict state = .ok final after) {item : α}
    (member : item ∈ items) :
    ∃ value before next later, body value item verdict before = .ok next later := by
  induction items generalizing init state with
  | nil => cases member
  | cons first rest ih =>
      rw [List.foldlM_cons] at returned
      obtain ⟨next, between, stepped, remaining⟩ := bind_eq_ok.mp returned
      rcases List.mem_cons.mp member with rfl | member
      · exact ⟨init, state, next, between, stepped⟩
      · exact ih remaining member

end Inversion

end Program

end Faulty
