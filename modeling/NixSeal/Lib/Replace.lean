import Mathlib.Data.List.Basic
import Mathlib.Data.List.Infix

/-!
# Replacing patterns from a table

At every position the first pattern of the table that stands there is replaced, and the scan goes
on behind it.
-/

namespace NixSeal
namespace Replace

variable {α : Type} [DecidableEq α] {table : List (List α × List α)}

/-- The entry for a position. -/
def entryAt (table : List (List α × List α)) (text : List α) : Option (List α × List α) :=
  table.find? fun entry => decide (entry.1 <+: text)

/-- Replacement behind `skip` symbols that are already replaced.  No pattern may be empty. -/
def replaceFrom (table : List (List α × List α)) : Nat → List α → List α
  | _, [] => []
  | skip + 1, _ :: rest => replaceFrom table skip rest
  | 0, first :: rest =>
      match entryAt table (first :: rest) with
      | some (pattern, value) => value ++ replaceFrom table (pattern.length - 1) rest
      | none => first :: replaceFrom table 0 rest

def replace (table : List (List α × List α)) (text : List α) : List α := replaceFrom table 0 text

theorem replaceFrom_eq (skip : Nat) (text : List α) :
    replaceFrom table skip text = replace table (text.drop skip) := by
  induction skip generalizing text with
  | zero => rfl
  | succ skip ih =>
      cases text with
      | nil => rw [List.drop_nil]; rfl
      | cons first rest =>
          rw [List.drop_succ_cons, ← ih, replaceFrom]

theorem replace_nil : replace table [] = [] := rfl

theorem replace_cons_of_none {first : α} {rest : List α}
    (absent : entryAt table (first :: rest) = none) :
    replace table (first :: rest) = first :: replace table rest := by
  simp only [replace, replaceFrom, absent]

theorem replace_append_of_some {pattern value rest : List α} (nonempty : pattern ≠ [])
    (found : entryAt table (pattern ++ rest) = some (pattern, value)) :
    replace table (pattern ++ rest) = value ++ replace table rest := by
  cases pattern with
  | nil => exact absurd rfl nonempty
  | cons first pattern =>
      rw [List.cons_append] at found ⊢
      simp only [replace, replaceFrom, found]
      rw [replaceFrom_eq, List.length_cons, Nat.add_sub_cancel, List.drop_left]
      rfl

theorem replace_append_of_none {front rest : List α}
    (absent : ∀ tail, tail <:+ front → tail ≠ [] → entryAt table (tail ++ rest) = none) :
    replace table (front ++ rest) = front ++ replace table rest := by
  induction front with
  | nil => rfl
  | cons first front ih =>
      have here := absent (first :: front) List.suffix_rfl (List.cons_ne_nil _ _)
      rw [List.cons_append] at here ⊢
      rw [replace_cons_of_none here, ih fun tail inside => absent tail
        (inside.trans (List.suffix_cons first front)), List.cons_append]

theorem entryAt_eq_none {text : List α} :
    entryAt table text = none ↔ ∀ entry ∈ table, ¬entry.1 <+: text := by
  simp [entryAt]

end Replace
end NixSeal
