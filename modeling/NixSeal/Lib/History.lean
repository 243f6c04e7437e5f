import NixSeal.Lib.Focus

/-!
# Programs with a history

A program can run beside a history that it never reads.  Entries are noted between its steps, with
the latest first, and without the history the program is the one that it was.
-/

namespace Faulty

namespace Outcome

variable {σ τ ε α : Type}

/-- The same ending with another view of the state. -/
def mapState (view : σ → τ) : Outcome σ ε α → Outcome τ ε α
  | .ok value after => .ok value (view after)
  | .err error after => .err error (view after)
  | .killed after => .killed (view after)

theorem state_mapState (view : σ → τ) (outcome : Outcome σ ε α) :
    (outcome.mapState view).state = view outcome.state := by
  cases outcome with
  | ok value after => rfl
  | err error after => rfl
  | killed after => rfl

end Outcome

namespace Program

variable {L σ η ε α β : Type}

/-- A program that notes nothing. -/
def silent (program : Program L σ ε α) : Program L (σ × List η) ε α :=
  focus Prod.fst (fun inner state => (inner, state.2)) program

/-- An entry about the state is noted. -/
def note (entry : σ → η) : Program L (σ × List η) ε Unit :=
  update fun state => (state.1, entry state.1 :: state.2)

/-- Without its history a program runs as another one. -/
def Erases (noted : Program L (σ × List η) ε α) (plain : Program L σ ε α) : Prop :=
  ∀ verdict state, (noted verdict state).mapState Prod.fst = plain verdict state.1

section Erasure

theorem Erases.silent (program : Program L σ ε α) :
    Erases (silent program : Program L (σ × List η) ε α) program := by
  intro verdict state
  simp only [Program.silent, focus]
  cases program verdict state.1 with
  | ok value after => rfl
  | err error after => rfl
  | killed after => rfl

theorem Erases.pure (value : α) :
    Erases (pure value : Program L (σ × List η) ε α) (pure value) :=
  fun _ _ => rfl

theorem Erases.raise (error : ε) :
    Erases (raise error : Program L (σ × List η) ε α) (raise error) :=
  fun _ _ => rfl

theorem Erases.bind {noted : Program L (σ × List η) ε α} {plain : Program L σ ε α}
    {later : α → Program L (σ × List η) ε β} {next : α → Program L σ ε β}
    (head : Erases noted plain) (tail : ∀ value, Erases (later value) (next value)) :
    Erases (noted >>= later) (plain >>= next) := by
  intro verdict state
  have same := head verdict state
  rw [bind_run, bind_run, ← same]
  cases noted verdict state with
  | ok value after => exact tail value verdict after
  | err error after => rfl
  | killed after => rfl

/-- What is noted between two steps is not seen by the second one. -/
theorem Erases.after_note (entry : σ → η) {later : Unit → Program L (σ × List η) ε β}
    {next : Program L σ ε β} (erased : Erases (later ()) next) :
    Erases (note entry >>= later) next :=
  fun verdict state => erased verdict (state.1, entry state.1 :: state.2)

theorem Erases.when {condition : Prop} [Decidable condition] {noted : Program L (σ × List η) ε Unit}
    {plain : Program L σ ε Unit} (erased : Erases noted plain) :
    Erases (Program.when condition noted) (Program.when condition plain) := by
  unfold Program.when
  split
  · exact erased
  · exact .pure ()

theorem Erases.attempt {noted : Program L (σ × List η) ε α} {plain : Program L σ ε α}
    (erased : Erases noted plain) : Erases (attempt noted) (attempt plain) := by
  intro verdict state
  have same := erased verdict state
  simp only [Program.attempt, ← same]
  cases noted verdict state with
  | ok value after => rfl
  | err error after => rfl
  | killed after => rfl

theorem Erases.onError {noted : Program L (σ × List η) ε α} {plain : Program L σ ε α}
    {notedCleanup : Program L (σ × List η) ε Unit} {cleanup : Program L σ ε Unit}
    (erased : Erases noted plain) (cleaned : Erases notedCleanup cleanup) :
    Erases (onError noted notedCleanup) (onError plain cleanup) := by
  refine erased.attempt.bind fun result => ?_
  cases result with
  | ok value => exact .pure value
  | error error => exact cleaned.attempt.bind fun _ => .raise error

/-- The state that a program leaves does not depend on the history. -/
theorem Erases.state {noted : Program L (σ × List η) ε α} {plain : Program L σ ε α}
    (erased : Erases noted plain) (verdict : L → Verdict) (state : σ × List η) :
    (noted verdict state).state.1 = (plain verdict state.1).state := by
  rw [← erased verdict state, Outcome.state_mapState]

end Erasure

section Rules

variable {verdict : L → Verdict} {state : σ × List η} {returns : α → σ × List η → Prop}
  {raises : ε → σ × List η → Prop} {stops : σ × List η → Prop}

theorem Meets.silent {program : Program L σ ε α}
    (holds : program.Meets verdict state.1 (fun value inner => returns value (inner, state.2))
      (fun error inner => raises error (inner, state.2)) fun inner => stops (inner, state.2)) :
    (silent program).Meets verdict state returns raises stops :=
  Meets.focus holds

/-- A program that notes nothing comes first, and keeps what its other endings are about. -/
theorem Keeps.silent_seq {γ : Type} {view : σ → γ} {program : Program L σ ε α}
    {next : α → Program L (σ × List η) ε β} {final : β → σ × List η → Prop}
    (keeps : program.Keeps view)
    (tail : ∀ value between, program verdict state.1 = .ok value between →
      view between = view state.1 → (next value).Meets verdict (between, state.2) final raises stops)
    (onRaise : ∀ error between, view between = view state.1 → raises error (between, state.2))
    (onStop : ∀ between, view between = view state.1 → stops (between, state.2)) :
    (silent program >>= next).Meets verdict state final raises stops :=
  Meets.bind (Meets.silent ((keeps.meets verdict state.1).mono
    (fun value between returned => tail value between returned.1 returned.2) onRaise onStop))

theorem Meets.note {entry : σ → η} {returns : Unit → σ × List η → Prop}
    (holds : returns () (state.1, entry state.1 :: state.2)) :
    (note entry : Program L (σ × List η) ε Unit).Meets verdict state returns raises stops :=
  Meets.update holds

end Rules

end Program
end Faulty
