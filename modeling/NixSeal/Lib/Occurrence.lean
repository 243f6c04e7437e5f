import Mathlib.Data.List.Basic
import Mathlib.Data.List.Infix

/-!
# Leftmost occurrences

Searching a pattern from the left, and splitting at every occurrence that does not overlap an
earlier one.
-/

namespace NixSeal
namespace Occurrence

variable {α : Type} [DecidableEq α] {pattern : List α}

/-- What stands before and after the leftmost occurrence of a pattern. -/
def breakOn (pattern : List α) : List α → Option (List α × List α)
  | [] => if pattern = [] then some ([], []) else none
  | first :: rest =>
      if pattern <+: first :: rest then some ([], (first :: rest).drop pattern.length)
      else (breakOn pattern rest).map fun found => (first :: found.1, found.2)

theorem breakOn_nil :
    breakOn pattern [] = if pattern = [] then some ([], []) else none := rfl

theorem breakOn_cons (first : α) (rest : List α) : breakOn pattern (first :: rest) =
    if pattern <+: first :: rest then some ([], (first :: rest).drop pattern.length)
    else (breakOn pattern rest).map fun found => (first :: found.1, found.2) := rfl

theorem eq_of_breakOn {text before after : List α}
    (found : breakOn pattern text = some (before, after)) : text = before ++ pattern ++ after := by
  induction text generalizing before with
  | nil =>
      rw [breakOn_nil] at found
      split at found
      · rename_i empty
        cases found
        rw [empty]
        rfl
      · cases found
  | cons first rest ih =>
      rw [breakOn_cons] at found
      split at found
      · rename_i inside
        cases found
        exact List.prefix_append_drop inside
      · obtain ⟨⟨front, back⟩, earlier, same⟩ := Option.map_eq_some_iff.mp found
        cases same
        rw [ih earlier, List.cons_append, List.cons_append]

/-- The occurrence that was found overlaps no earlier one. -/
theorem not_infix_of_breakOn {text before after : List α} (nonempty : pattern ≠ [])
    (found : breakOn pattern text = some (before, after)) :
    ¬pattern <:+: before ++ pattern.dropLast := by
  induction text generalizing before with
  | nil =>
      rw [breakOn_nil, if_neg nonempty] at found
      cases found
  | cons first rest ih =>
      rw [breakOn_cons] at found
      split at found
      · cases found
        intro inside
        have length := inside.length_le
        have positive := List.length_pos_of_ne_nil nonempty
        rw [List.nil_append, List.length_dropLast] at length
        omega
      · rename_i different
        obtain ⟨⟨front, back⟩, earlier, same⟩ := Option.map_eq_some_iff.mp found
        cases same
        rw [List.cons_append, List.infix_cons_iff]
        rintro (starts | inside)
        · refine different (starts.trans ?_)
          rw [eq_of_breakOn earlier, List.append_assoc, List.cons_prefix_cons]
          exact ⟨rfl, (List.prefix_append_right_inj front).mpr
            ((List.dropLast_prefix pattern).trans (List.prefix_append pattern back))⟩
        · exact ih earlier inside

theorem not_infix_of_breakOn_eq_none {text : List α} (absent : breakOn pattern text = none) :
    ¬pattern <:+: text := by
  induction text with
  | nil =>
      rw [breakOn_nil] at absent
      split at absent
      · cases absent
      · rename_i nonempty
        exact fun inside => nonempty (List.infix_nil.mp inside)
  | cons first rest ih =>
      rw [breakOn_cons] at absent
      split at absent
      · cases absent
      · rename_i different
        rw [List.infix_cons_iff]
        rintro (starts | inside)
        · exact different starts
        · exact ih (Option.map_eq_none_iff.mp absent) inside

/-- A text in front that lacks a symbol of the pattern's start only moves the occurrence. -/
theorem breakOn_append_of_not_mem {start : α} {tail front : List α} (absent : start ∉ front)
    (text : List α) :
    breakOn (start :: tail) (front ++ text) =
      (breakOn (start :: tail) text).map fun found => (front ++ found.1, found.2) := by
  induction front with
  | nil => simp
  | cons first rest ih =>
      obtain ⟨different, later⟩ := not_or.mp (mt List.mem_cons.mpr absent)
      have here : ¬start :: tail <+: first :: (rest ++ text) := by
        intro inside
        exact different (List.cons_prefix_cons.mp inside).1
      rw [List.cons_append, breakOn_cons, if_neg here, ih later, Option.map_map]
      rfl

/-- The first occurrence behind a text that lacks the pattern's start. -/
theorem breakOn_of_not_mem {start : α} {tail before : List α} (absent : start ∉ before)
    (after : List α) :
    breakOn (start :: tail) (before ++ (start :: tail) ++ after) = some (before, after) := by
  have inside : start :: tail <+: start :: (tail ++ after) := ⟨after, rfl⟩
  have here : breakOn (start :: tail) ((start :: tail) ++ after) = some ([], after) := by
    rw [List.cons_append, breakOn_cons, if_pos inside, ← List.cons_append, List.drop_left]
  rw [List.append_assoc, breakOn_append_of_not_mem absent, here, Option.map_some, List.append_nil]

theorem length_of_breakOn {text before after : List α} (nonempty : pattern ≠ [])
    (found : breakOn pattern text = some (before, after)) : after.length < text.length := by
  have positive := List.length_pos_of_ne_nil nonempty
  rw [eq_of_breakOn found, List.length_append, List.length_append]
  omega

/-- The parts of a text between the occurrences of a pattern, which may not be empty. -/
def splitOn (start : α) (tail text : List α) : List (List α) :=
  match _found : breakOn (start :: tail) text with
  | none => [text]
  | some (before, after) => before :: splitOn start tail after
termination_by text.length
decreasing_by exact length_of_breakOn (List.cons_ne_nil start tail) ‹_›

theorem splitOn_of_none {start : α} {tail text : List α}
    (absent : breakOn (start :: tail) text = none) : splitOn start tail text = [text] := by
  rw [splitOn]
  split
  · rfl
  · rename_i found
    rw [absent] at found
    cases found

theorem splitOn_of_some {start : α} {tail text before after : List α}
    (found : breakOn (start :: tail) text = some (before, after)) :
    splitOn start tail text = before :: splitOn start tail after := by
  rw [splitOn]
  split
  · rename_i absent
    rw [found] at absent
    cases absent
  · rename_i again
    rw [found] at again
    cases again
    rfl

theorem exists_head_splitOn (start : α) (tail text : List α) :
    ∃ head rest, splitOn start tail text = head :: rest ∧ head <+: text := by
  cases found : breakOn (start :: tail) text with
  | none => exact ⟨text, [], splitOn_of_none found, List.prefix_rfl⟩
  | some parts =>
      obtain ⟨before, after⟩ := parts
      refine ⟨before, splitOn start tail after, splitOn_of_some found, ?_⟩
      rw [eq_of_breakOn found, List.append_assoc]
      exact List.prefix_append before _

theorem join_splitOn {start : α} {tail text head : List α} {parts : List (List α)}
    (split : splitOn start tail text = head :: parts) :
    head ++ parts.flatMap (start :: tail ++ ·) = text := by
  induction size : text.length using Nat.strong_induction_on generalizing text head parts with
  | _ length ih =>
      cases found : breakOn (start :: tail) text with
      | none =>
          rw [splitOn_of_none found] at split
          cases split
          exact List.append_nil text
      | some broken =>
          obtain ⟨before, after⟩ := broken
          obtain ⟨next, others, later, -⟩ := exists_head_splitOn start tail after
          rw [splitOn_of_some found, later] at split
          cases split
          rw [List.flatMap_cons, List.append_assoc (start :: tail) next,
            ih _ (size ▸ length_of_breakOn (List.cons_ne_nil _ _) found) later rfl,
            ← List.append_assoc, ← eq_of_breakOn found]

/-- A text in front that lacks the start of the pattern belongs to the first part. -/
theorem splitOn_append_of_not_mem {start : α} {tail front : List α} (absent : start ∉ front)
    {text head : List α} {rest : List (List α)} (split : splitOn start tail text = head :: rest) :
    splitOn start tail (front ++ text) = (front ++ head) :: rest := by
  have moved := @breakOn_append_of_not_mem _ _ start tail front absent text
  cases found : breakOn (start :: tail) text with
  | none =>
      rw [found, Option.map_none] at moved
      rw [splitOn_of_none found] at split
      cases split
      exact splitOn_of_none moved
  | some parts =>
      rw [found, Option.map_some] at moved
      rw [splitOn_of_some found] at split
      cases split
      exact splitOn_of_some moved

end Occurrence
end NixSeal
