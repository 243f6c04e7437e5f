import Mathlib.Data.List.Basic
import Mathlib.Order.Lattice

/-!
# The last of the greatest

An item with the greatest key is picked from a list; of several the last one.
-/

namespace LastMax

variable {α β κ : Type} [LinearOrder κ] {key : α → κ}

/-- The later of two items, unless its key is smaller. -/
def better (key : α → κ) (best item : α) : α := if key item < key best then best else item

/-- The last item with the greatest key. -/
def lastMax (key : α → κ) : List α → Option α
  | [] => none
  | first :: rest => some (rest.foldl (better key) first)

/-- No item has a greater key, and no later one the same. -/
def IsLastMax (key : α → κ) (items : List α) (found : α) : Prop :=
  ∃ before after, items = before ++ found :: after ∧
    (∀ other ∈ before, key other ≤ key found) ∧ ∀ other ∈ after, key other < key found

theorem IsLastMax.mem {items : List α} {found : α} (max : IsLastMax key items found) :
    found ∈ items := by
  obtain ⟨before, after, rfl, -, -⟩ := max
  simp

theorem IsLastMax.le {items : List α} {found other : α} (max : IsLastMax key items found)
    (member : other ∈ items) : key other ≤ key found := by
  obtain ⟨before, after, rfl, earlier, later⟩ := max
  rcases List.mem_append.mp member with member | member
  · exact earlier other member
  · rcases List.mem_cons.mp member with rfl | member
    · exact le_refl _
    · exact (later other member).le

theorem lastMax_eq_none {items : List α} : lastMax key items = none ↔ items = [] := by
  cases items <;> simp [lastMax]

theorem IsLastMax.snoc {items : List α} {found : α} (max : IsLastMax key items found) (item : α) :
    IsLastMax key (items ++ [item]) (better key found item) := by
  by_cases smaller : key item < key found
  · rw [better, if_pos smaller]
    obtain ⟨before, after, rfl, earlier, later⟩ := max
    refine ⟨before, after ++ [item], by simp, earlier, fun other member => ?_⟩
    rcases List.mem_append.mp member with member | member
    · exact later other member
    · rw [List.mem_singleton.mp member]
      exact smaller
  · rw [better, if_neg smaller]
    refine ⟨items, [], rfl, fun other member => ?_, by simp⟩
    exact (max.le member).trans (not_lt.mp smaller)

theorem isLastMax_foldl {items : List α} {found : α} (max : IsLastMax key items found)
    (more : List α) : IsLastMax key (items ++ more) (more.foldl (better key) found) := by
  induction more generalizing items found with
  | nil => rwa [List.append_nil]
  | cons item rest ih =>
      rw [List.foldl_cons, List.append_cons]
      exact ih (max.snoc item)

/-- What is picked is the last of the greatest. -/
theorem isLastMax_of_lastMax {items : List α} {found : α}
    (picked : lastMax key items = some found) : IsLastMax key items found := by
  cases items with
  | nil => cases picked
  | cons first rest =>
      cases picked
      exact @isLastMax_foldl _ _ _ _ [first] _ ⟨[], [], rfl, by simp, by simp⟩ rest

theorem lastMax_map (picture : β → α) (items : List β) :
    lastMax key (items.map picture) = (lastMax (key ∘ picture) items).map picture := by
  cases items with
  | nil => rfl
  | cons first rest =>
      simp only [List.map_cons, lastMax, Option.map_some, Option.some.injEq]
      induction rest generalizing first with
      | nil => rfl
      | cons item rest ih =>
          simp only [List.map_cons, List.foldl_cons]
          have one : better key (picture first) (picture item) =
              picture (better (key ∘ picture) first item) := by
            simp only [better, Function.comp_apply, apply_ite picture]
          rw [one, ih]

end LastMax
