import Mathlib.Data.List.Basic

/-!
# Words

A text is split at its blanks, and nothing stands between two blanks in a row.
-/

namespace Words

variable {α : Type} {blank : α → Bool}

/-- The words of a text. -/
def words (blank : α → Bool) (text : List α) : List (List α) :=
  (text.splitOnP blank).filter fun part => !part.isEmpty

/-- Something without a blank. -/
structure Word (blank : α → Bool) (text : List α) : Prop where
  nonempty : text ≠ []
  solid : ∀ item ∈ text, blank item = false

theorem word_iff {text : List α} :
    Word blank text ↔ (!text.isEmpty && text.all fun item => !blank item) = true := by
  simp only [Bool.and_eq_true, Bool.not_eq_true', List.isEmpty_eq_false_iff, List.all_eq_true]
  exact ⟨fun word => ⟨word.nonempty, word.solid⟩, fun ⟨nonempty, solid⟩ => ⟨nonempty, solid⟩⟩

instance : DecidablePred (Word blank) := fun _ => decidable_of_iff _ word_iff.symm

theorem words_of_word {text : List α} (word : Word blank text) : words blank text = [text] := by
  rw [words, List.splitOnP_eq_singleton word.solid]
  simp [word.nonempty]

theorem words_append_cons (front back : List α) {gap : α} (isBlank : blank gap = true) :
    words blank (front ++ gap :: back) = words blank front ++ words blank back := by
  rw [words, List.splitOnP_append_cons front back isBlank, List.filter_append]
  rfl

/-- Joined words are the same words again. -/
theorem words_intercalate {gap : α} (isBlank : blank gap = true) {items : List (List α)}
    (each : ∀ item ∈ items, Word blank item) : words blank ([gap].intercalate items) = items := by
  induction items with
  | nil => simp [words, List.intercalate]
  | cons first rest ih =>
      obtain ⟨word, others⟩ := List.forall_mem_cons.mp each
      cases rest with
      | nil => simpa [List.intercalate] using words_of_word word
      | cons second rest =>
          have joined : [gap].intercalate (first :: second :: rest) =
              first ++ gap :: [gap].intercalate (second :: rest) := by
            simp [List.intercalate]
          rw [joined, words_append_cons _ _ isBlank, words_of_word word, ih others]
          rfl

theorem infix_intercalate (gap : List α) {items : List (List α)} {item : List α}
    (member : item ∈ items) : item <:+: gap.intercalate items := by
  induction items with
  | nil => cases member
  | cons first rest ih =>
      cases rest with
      | nil =>
          rw [List.mem_singleton.mp member]
          simp [List.intercalate]
      | cons second rest =>
          have joined : gap.intercalate (first :: second :: rest) =
              first ++ (gap ++ gap.intercalate (second :: rest)) := by
            simp [List.intercalate]
          rw [joined]
          rcases List.mem_cons.mp member with rfl | later
          · exact (List.prefix_append _ _).isInfix
          · exact (ih later).trans ((List.suffix_append _ _).trans
              (List.suffix_append _ _)).isInfix

theorem solid_of_mem_splitOnP {text part : List α} (member : part ∈ text.splitOnP blank) :
    ∀ item ∈ part, blank item = false := by
  induction text generalizing part with
  | nil =>
      rw [List.splitOnP_nil, List.mem_singleton] at member
      simp [member]
  | cons first rest ih =>
      rw [List.splitOnP_cons_eq_if_modifyHead] at member
      split at member
      · rcases List.mem_cons.mp member with rfl | member
        · simp
        · exact ih member
      · rename_i solid
        cases pieces : rest.splitOnP blank with
        | nil => exact absurd pieces (List.splitOnP_ne_nil blank rest)
        | cons head tail =>
            rw [pieces, List.modifyHead_cons] at member
            rcases List.mem_cons.mp member with rfl | member
            · intro item inside
              rcases List.mem_cons.mp inside with rfl | inside
              · simpa using solid
              · exact ih (by simp [pieces]) item inside
            · exact ih (by simp [pieces, member])

theorem word_of_mem_words {text item : List α} (member : item ∈ words blank text) :
    Word blank item := by
  obtain ⟨part, nonempty⟩ := List.mem_filter.mp member
  exact ⟨by simpa using nonempty, solid_of_mem_splitOnP part⟩

end Words
