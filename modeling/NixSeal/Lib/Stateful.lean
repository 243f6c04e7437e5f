import NixSeal.Lib.Fallible

/-!
# Fallible computations with a state

A computation reads and changes a state and may fail.  Its successes are inverted step by step, and
a computation that succeeds from every state is put together from such computations.
-/

namespace Stateful

variable {σ ε α β : Type}

/-- A computation that can fail and has a state. -/
abbrev Action (σ ε α : Type) : Type := StateT σ (Except ε) α

theorem pure_apply (value : α) (state : σ) :
    (pure value : Action σ ε α) state = .ok (value, state) :=
  rfl

theorem throw_apply (failure : ε) (state : σ) :
    (throw failure : Action σ ε α) state = .error failure :=
  rfl

theorem get_bind (next : σ → Action σ ε α) (state : σ) :
    (get >>= next : Action σ ε α) state = next state state :=
  rfl

theorem set_bind (next : PUnit → Action σ ε α) (value state : σ) :
    (set value >>= next : Action σ ε α) state = next ⟨⟩ value :=
  rfl

/-- A computation that leaves the state alone. -/
def lift (computation : Except ε α) : Action σ ε α :=
  fun state => computation.map fun value => (value, state)

theorem lift_eq_ok {computation : Except ε α} {state : σ} {result : α × σ} :
    (lift computation : Action σ ε α) state = .ok result ↔
      computation = .ok result.1 ∧ result.2 = state := by
  unfold lift
  cases computation with
  | error failure => simp [Except.map]
  | ok value => simp [Except.map, Prod.ext_iff, eq_comm]

theorem bind_eq_ok {first : Action σ ε α} {next : α → Action σ ε β} {state : σ} {result : β × σ} :
    (first >>= next) state = .ok result ↔
      ∃ value middle, first state = .ok (value, middle) ∧ next value middle = .ok result := by
  have unfolded : (first >>= next) state = first state >>= fun step => next step.1 step.2 := rfl
  rw [unfolded, Fallible.bind_eq_ok, Prod.exists]

theorem guard_eq_ok {refused : Prop} [Decidable refused] {failure : ε} {next : Action σ ε α}
    {state : σ} {result : α × σ} :
    (if refused then throw failure else next) state = .ok result ↔
      ¬refused ∧ next state = .ok result := by
  by_cases holds : refused
  · simp [holds, throw_apply]
  · simp [holds]

theorem length_of_mapM {compute : α → Action σ ε β} {items : List α} {state final : σ}
    {values : List β} (mapped : items.mapM compute state = .ok (values, final)) :
    values.length = items.length := by
  induction items generalizing state values with
  | nil =>
      rw [List.mapM_nil, pure_apply] at mapped
      cases mapped
      rfl
  | cons item rest ih =>
      rw [List.mapM_cons] at mapped
      obtain ⟨value, middle, -, mapped⟩ := bind_eq_ok.mp mapped
      obtain ⟨others, later, computed, returned⟩ := bind_eq_ok.mp mapped
      rw [pure_apply] at returned
      cases returned
      rw [List.length_cons, List.length_cons, ih computed]

/-- When the state counts the computations of a list, each value is told by its number. -/
theorem getElem_of_mapM {compute : α → Action Nat ε β} {items : List α} {start final : Nat}
    {values : List β} (tells : Nat → β → Prop)
    (step : ∀ item state value next, compute item state = .ok (value, next) →
      next = state + 1 ∧ tells state value)
    (mapped : items.mapM compute start = .ok (values, final)) :
    final = start + items.length ∧
      ∀ index value, values[index]? = some value → tells (start + index) value := by
  induction items generalizing start values with
  | nil =>
      rw [List.mapM_nil, pure_apply] at mapped
      cases mapped
      exact ⟨rfl, by simp⟩
  | cons item rest ih =>
      rw [List.mapM_cons] at mapped
      obtain ⟨first, middle, computed, mapped⟩ := bind_eq_ok.mp mapped
      obtain ⟨others, later, remaining, returned⟩ := bind_eq_ok.mp mapped
      rw [pure_apply] at returned
      cases returned
      obtain ⟨rfl, told⟩ := step item start first middle computed
      obtain ⟨ends, others_told⟩ := ih remaining
      refine ⟨by rw [ends, List.length_cons]; omega, fun index value found => ?_⟩
      cases index with
      | zero =>
          obtain rfl := Option.some.inj found
          exact told
      | succ index =>
          have read := others_told index value found
          rwa [show start + (index + 1) = start + 1 + index by omega]

/-- Whatever the state, the computation succeeds exactly under a condition. -/
def Runs (action : Action σ ε α) (condition : Prop) : Prop :=
  ∀ state, (∃ result, action state = .ok result) ↔ condition

namespace Runs

variable {condition later : Prop}

theorem congr {action : Action σ ε α} (runs : Runs action condition)
    (same : condition ↔ later) : Runs action later :=
  fun state => (runs state).trans same

theorem pure (value : α) : Runs (pure value : Action σ ε α) True :=
  fun state => iff_of_true ⟨_, pure_apply value state⟩ trivial

theorem lift {computation : Except ε α} (succeeds : (∃ value, computation = .ok value) ↔ condition) :
    Runs (lift computation : Action σ ε α) condition := by
  intro state
  rw [← succeeds]
  constructor
  · rintro ⟨result, lifted⟩
    exact ⟨result.1, (lift_eq_ok.mp lifted).1⟩
  · rintro ⟨value, computed⟩
    exact ⟨(value, state), lift_eq_ok.mpr ⟨computed, rfl⟩⟩

theorem bind {first : Action σ ε α} {next : α → Action σ ε β} (runs : Runs first condition)
    (goes : ∀ state value middle, first state = .ok (value, middle) → Runs (next value) later) :
    Runs (first >>= next) (condition ∧ later) := by
  intro state
  constructor
  · rintro ⟨result, sequence⟩
    obtain ⟨value, middle, computed, continued⟩ := bind_eq_ok.mp sequence
    exact ⟨(runs state).mp ⟨_, computed⟩,
      (goes state value middle computed middle).mp ⟨result, continued⟩⟩
  · rintro ⟨starts, ends⟩
    obtain ⟨⟨value, middle⟩, computed⟩ := (runs state).mpr starts
    obtain ⟨result, continued⟩ := (goes state value middle computed middle).mpr ends
    exact ⟨result, bind_eq_ok.mpr ⟨value, middle, computed, continued⟩⟩

theorem andThen {first : Action σ ε α} {next : α → Action σ ε β} (runs : Runs first condition)
    (goes : ∀ state value middle, first state = .ok (value, middle) → Runs (next value) True) :
    Runs (first >>= next) condition :=
  (runs.bind goes).congr (and_true _).to_iff

/-- A sequence whose first part always runs. -/
theorem seq {first : Action σ ε α} {next : α → Action σ ε β} (runs : Runs first True)
    (goes : ∀ value, Runs (next value) condition) : Runs (first >>= next) condition :=
  (runs.bind fun _ value _ _ => goes value).congr (true_and _).to_iff

theorem pass {refused : Prop} [Decidable refused] {failure : ε} {next : Action σ ε α}
    (passes : ¬refused) (runs : Runs next condition) :
    Runs (if refused then MonadExcept.throw failure else next) condition := by
  rwa [if_neg passes]

theorem guard {refused : Prop} [Decidable refused] {failure : ε} {next : Action σ ε α}
    (runs : Runs next condition) :
    Runs (if refused then MonadExcept.throw failure else next) (¬refused ∧ condition) := by
  intro state
  simp only [guard_eq_ok, exists_and_left]
  exact and_congr_right fun _ => runs state

/-- Items that run under one condition, at least one of them. -/
theorem mapM {compute : α → Action σ ε β} {items : List α} (nonempty : items ≠ [])
    (runs : ∀ item ∈ items, Runs (compute item) condition) : Runs (items.mapM compute) condition := by
  induction items with
  | nil => exact absurd rfl nonempty
  | cons item rest ih =>
      rw [List.mapM_cons]
      have others : Runs (rest.mapM compute) condition ∨ rest = [] := by
        by_cases last : rest = []
        · exact .inr last
        · exact .inl (ih last fun other member => runs other (List.mem_cons_of_mem _ member))
      rcases others with others | rfl
      · refine ((runs item List.mem_cons_self).bind fun _ value _ _ =>
          others.andThen fun _ values _ _ => pure (value :: values)).congr ?_
        rw [and_self]
      · refine (runs item List.mem_cons_self).andThen fun _ value _ _ => ?_
        rw [List.mapM_nil, pure_bind]
        exact pure [value]

end Runs
end Stateful
