import Mathlib.Data.List.Forall2
import Mathlib.Data.List.Induction

/-!
# Fallible computations

Inversion rules for `Except`: how a sequence, a guard and a loop of checks succeed.
-/

namespace Fallible

universe u

variable {ε : Type*} {α β : Type u}

theorem bind_eq_ok {first : Except ε α} {next : α → Except ε β} {result : β} :
    (first >>= next) = .ok result ↔ ∃ value, first = .ok value ∧ next value = .ok result := by
  cases first with
  | error failure => simp [bind, Except.bind]
  | ok value => simp [bind, Except.bind]

@[simp]
theorem ok_bind (value : α) (next : α → Except ε β) : (Except.ok value >>= next) = next value :=
  rfl

theorem mapError_eq_ok {φ : Type} {rename : ε → φ} {result : Except ε α} {value : α} :
    result.mapError rename = .ok value ↔ result = .ok value := by
  cases result with
  | error failure => simp [Except.mapError]
  | ok found => simp [Except.mapError]

theorem guard_eq_ok {refused : Prop} [Decidable refused] {failure : ε} {next : Except ε β}
    {result : β} :
    (if refused then .error failure else next) = .ok result ↔ ¬refused ∧ next = .ok result := by
  by_cases holds : refused
  · simp [holds]
  · simp [holds]

theorem forM_eq_ok {check : α → Except ε PUnit} {items : List α} :
    items.forM check = .ok ⟨⟩ ↔ ∀ item ∈ items, check item = .ok ⟨⟩ := by
  induction items with
  | nil => simp [pure, Except.pure]
  | cons item rest ih =>
      have unfolded : (item :: rest).forM check = (check item >>= fun _ => rest.forM check) := rfl
      rw [unfolded, bind_eq_ok]
      constructor
      · intro ⟨_, first, remaining⟩ other member
        rcases List.mem_cons.mp member with rfl | member
        · exact first
        · exact ih.mp remaining other member
      · intro all
        exact ⟨⟨⟩, all item (by simp), ih.mpr fun other member => all other (by simp [member])⟩

/-- Checks that can fail in one way only. -/
theorem forM_eq_ok_or_error {check : α → Except ε PUnit} {items : List α} {error : ε}
    (each : ∀ item ∈ items, check item = .ok ⟨⟩ ∨ check item = .error error) :
    items.forM check = .ok ⟨⟩ ∨ items.forM check = .error error := by
  induction items with
  | nil => exact .inl rfl
  | cons item rest ih =>
      rw [List.forM_eq_forM, List.forM_cons]
      rcases each item (by simp) with passed | failed
      · rw [passed, ok_bind]
        exact ih fun other member => each other (by simp [member])
      · rw [failed]
        exact .inr rfl

/-- A mapped list succeeds when every item does, with the values in the order of the items. -/
theorem mapM_eq_ok {compute : α → Except ε β} {items : List α} {values : List β} :
    items.mapM compute = .ok values ↔
      List.Forall₂ (fun item value => compute item = .ok value) items values := by
  induction items generalizing values with
  | nil => simp [pure, Except.pure, eq_comm]
  | cons item rest ih =>
      rw [List.mapM_cons, bind_eq_ok, List.forall₂_cons_left_iff]
      constructor
      · intro ⟨value, first, remaining⟩
        obtain ⟨tail, computed, returned⟩ := bind_eq_ok.mp remaining
        exact ⟨value, tail, first, ih.mp computed, (Except.ok.inj returned).symm⟩
      · intro ⟨value, tail, first, computed, listed⟩
        subst listed
        exact ⟨value, first, bind_eq_ok.mpr ⟨tail, ih.mpr computed, rfl⟩⟩

theorem exists_mapM_ok {compute : α → Except ε β} {items : List α}
    (each : ∀ item ∈ items, ∃ value, compute item = .ok value) :
    ∃ values, items.mapM compute = .ok values := by
  induction items with
  | nil => exact ⟨[], rfl⟩
  | cons item rest ih =>
      obtain ⟨value, first⟩ := each item (by simp)
      obtain ⟨values, remaining⟩ := ih fun other member => each other (by simp [member])
      refine ⟨value :: values, ?_⟩
      rw [List.mapM_cons, first, ok_bind, remaining, ok_bind]
      rfl

/-- Items that can fail in one way only, one of which does. -/
theorem mapM_eq_error {compute : α → Except ε β} {items : List α} {error : ε}
    (each : ∀ item ∈ items, (∃ value, compute item = .ok value) ∨ compute item = .error error)
    (fails : ∃ item ∈ items, compute item = .error error) :
    items.mapM compute = .error error := by
  induction items with
  | nil =>
      obtain ⟨_, member, -⟩ := fails
      cases member
  | cons item rest ih =>
      rw [List.mapM_cons]
      rcases each item List.mem_cons_self with ⟨value, computed⟩ | failed
      · have later : ∃ item ∈ rest, compute item = .error error := by
          obtain ⟨other, member, failed⟩ := fails
          rcases List.mem_cons.mp member with rfl | member
          · rw [computed] at failed
            cases failed
          · exact ⟨other, member, failed⟩
        rw [computed, ok_bind, ih (fun other member => each other (List.mem_cons_of_mem _ member)) later]
        rfl
      · rw [failed]
        rfl

theorem step_of_foldlM_eq_ok {step : β → α → Except ε β} {items : List α} {init final : β}
    (folded : items.foldlM step init = .ok final) {item : α} (member : item ∈ items) :
    ∃ before after, step before item = .ok after := by
  induction items generalizing init with
  | nil => cases member
  | cons first rest ih =>
      rw [List.foldlM_cons] at folded
      obtain ⟨next, stepped, remaining⟩ := bind_eq_ok.mp folded
      rcases List.mem_cons.mp member with rfl | member
      · exact ⟨init, next, stepped⟩
      · exact ih remaining member

/-- A fold whose steps keep an invariant of the items processed so far succeeds with it. -/
theorem foldlM_split {step : β → α → Except ε β} {items : List α} {init : β}
    (invariant : List α → β → Prop) (start : invariant [] init)
    (keep : ∀ done item rest state, items = done ++ item :: rest → invariant done state →
      ∃ next, step state item = .ok next ∧ invariant (done ++ [item]) next) :
    ∃ final, items.foldlM step init = .ok final ∧ invariant items final := by
  suffices general : ∀ remaining done state, items = done ++ remaining →
      invariant done state →
        ∃ final, remaining.foldlM step state = .ok final ∧ invariant items final by
    exact general items [] init rfl start
  intro remaining
  induction remaining with
  | nil =>
      intro done state split holds
      rw [List.append_nil] at split
      exact ⟨state, rfl, split ▸ holds⟩
  | cons item rest ih =>
      intro done state split holds
      obtain ⟨next, stepped, holds⟩ := keep done item rest state split holds
      obtain ⟨final, folded, holds⟩ := ih (done ++ [item]) next (by simpa using split) holds
      refine ⟨final, ?_, holds⟩
      rw [List.foldlM_cons, stepped]
      exact folded

/-- The same when the invariant does not need to know what is still to come. -/
theorem foldlM_induction {step : β → α → Except ε β} {items : List α} {init : β}
    (invariant : List α → β → Prop) (start : invariant [] init)
    (keep : ∀ done item state, item ∈ items → invariant done state →
      ∃ next, step state item = .ok next ∧ invariant (done ++ [item]) next) :
    ∃ final, items.foldlM step init = .ok final ∧ invariant items final := by
  refine foldlM_split invariant start fun done item rest state split holds => ?_
  exact keep done item state (by simp [split]) holds

/-- A fold whose steps always succeed succeeds. -/
theorem exists_foldlM {step : β → α → Except ε β} {items : List α} {init : β}
    (each : ∀ state, ∀ item ∈ items, ∃ next, step state item = .ok next) :
    ∃ final, items.foldlM step init = .ok final := by
  obtain ⟨final, folded, -⟩ := @foldlM_induction _ _ _ step items init (fun _ _ => True) trivial
    fun _ item state member _ => (each state item member).imp fun _ stepped => ⟨stepped, trivial⟩
  exact ⟨final, folded⟩

/-- What every successful step keeps holds after a successful fold. -/
theorem foldlM_eq_ok_split {step : β → α → Except ε β} {items : List α} {init final : β}
    (folded : items.foldlM step init = .ok final) (invariant : List α → β → Prop)
    (start : invariant [] init)
    (keep : ∀ done item rest state next, items = done ++ item :: rest →
      step state item = .ok next → invariant done state → invariant (done ++ [item]) next) :
    invariant items final := by
  suffices general : ∀ remaining done state, items = done ++ remaining →
      invariant done state → remaining.foldlM step state = .ok final → invariant items final by
    exact general items [] init rfl start folded
  intro remaining
  induction remaining with
  | nil =>
      intro done state split holds folded
      rw [List.append_nil] at split
      cases folded
      exact split ▸ holds
  | cons item rest ih =>
      intro done state split holds folded
      rw [List.foldlM_cons] at folded
      obtain ⟨next, stepped, folded⟩ := bind_eq_ok.mp folded
      exact ih (done ++ [item]) next (by simpa using split)
        (keep done item rest state next split stepped holds) folded

/-- The same when the invariant does not need to know what is still to come. -/
theorem foldlM_eq_ok_induction {step : β → α → Except ε β} {items : List α} {init final : β}
    (folded : items.foldlM step init = .ok final) (invariant : List α → β → Prop)
    (start : invariant [] init)
    (keep : ∀ done item state next, item ∈ items → step state item = .ok next →
      invariant done state → invariant (done ++ [item]) next) : invariant items final := by
  refine foldlM_eq_ok_split folded invariant start fun done item rest state next split => ?_
  exact keep done item state next (by simp [split])

/-- A loop whose turns accept an item for itself and for the items before it: all items are
accepted and every two of them go together. -/
theorem foldlM_isOk_iff {step : β → α → Except ε β} {items : List α} {init : β}
    {accepted : α → Prop} {together : α → α → Prop} (invariant : List α → β → Prop)
    (start : invariant [] init)
    (turn : ∀ done state item, invariant done state →
      ((∃ next, step state item = .ok next) ↔
        accepted item ∧ ∀ earlier ∈ done, together earlier item))
    (keep : ∀ done state item next, invariant done state → step state item = .ok next →
      invariant (done ++ [item]) next) :
    (∃ final, items.foldlM step init = .ok final) ↔
      (∀ item ∈ items, accepted item) ∧ items.Pairwise together := by
  induction items using List.reverseRecOn with
  | nil => simp [pure, Except.pure]
  | append_singleton done item ih =>
      have last : (∃ final, (done ++ [item]).foldlM step init = .ok final) ↔
          ∃ middle, done.foldlM step init = .ok middle ∧ ∃ final, step middle item = .ok final := by
        simp only [List.foldlM_append, bind_eq_ok, List.foldlM_cons, List.foldlM_nil]
        constructor
        · rintro ⟨final, middle, folded, next, stepped, -⟩
          exact ⟨middle, folded, next, stepped⟩
        · rintro ⟨middle, folded, next, stepped⟩
          exact ⟨next, middle, folded, next, stepped, rfl⟩
      have reached : ∀ middle, done.foldlM step init = .ok middle → invariant done middle :=
        fun middle folded => foldlM_eq_ok_induction folded invariant start
          fun before other state next _ stepped holds => keep before state other next holds stepped
      rw [last, List.pairwise_append]
      simp only [List.mem_append, List.mem_singleton, List.pairwise_singleton, true_and]
      constructor
      · rintro ⟨middle, folded, stepped⟩
        obtain ⟨all, pairs⟩ := ih.mp ⟨middle, folded⟩
        obtain ⟨own, others⟩ := (turn done middle item (reached middle folded)).mp stepped
        refine ⟨?_, pairs, fun earlier member other same => same ▸ others earlier member⟩
        rintro other (member | rfl)
        · exact all other member
        · exact own
      · rintro ⟨all, pairs, others⟩
        obtain ⟨middle, folded⟩ := ih.mpr ⟨fun other member => all other (.inl member), pairs⟩
        exact ⟨middle, folded, (turn done middle item (reached middle folded)).mpr
          ⟨all item (.inr rfl), fun earlier member => others earlier member item rfl⟩⟩

end Fallible
