import Mathlib.Tactic

/-!
# Lists cut after a separator

A list is cut after every occurrence of a separator, as texts are cut into lines that keep their
ends.
-/

namespace Lines

variable {α : Type} [DecidableEq α]

/-- The pieces of a list, each but the last one with its separator. -/
def cut (separator : α) : List α → List (List α)
  | [] => []
  | item :: rest =>
      if item = separator then [item] :: cut separator rest
      else
        match cut separator rest with
        | [] => [[item]]
        | piece :: others => (item :: piece) :: others

/-- A line with its end. -/
def Ended (separator : α) (line : List α) : Prop :=
  ∃ content, line = content ++ [separator] ∧ separator ∉ content

variable {separator : α}

theorem cut_content {content : List α} (inside : separator ∉ content) (rest : List α) :
    cut separator (content ++ separator :: rest) =
      (content ++ [separator]) :: cut separator rest := by
  induction content with
  | nil => simp [cut]
  | cons item content ih =>
      rw [List.mem_cons, not_or] at inside
      rw [List.cons_append, cut, if_neg (Ne.symm inside.1), ih inside.2]
      rfl

theorem cut_flatten_append {lines : List (List α)}
    (ended : ∀ line ∈ lines, Ended separator line) (rest : List α) :
    cut separator (lines.flatten ++ rest) = lines ++ cut separator rest := by
  induction lines with
  | nil => rfl
  | cons line lines ih =>
      obtain ⟨⟨content, rfl, inside⟩, others⟩ := List.forall_mem_cons.mp ended
      simp only [List.flatten_cons, List.append_assoc, List.cons_append, List.nil_append]
      rw [cut_content inside, ih others]

/-- Joined lines are cut into the same lines. -/
theorem cut_flatten {lines : List (List α)} (ended : ∀ line ∈ lines, Ended separator line) :
    cut separator lines.flatten = lines := by
  have whole := cut_flatten_append ended []
  rwa [List.append_nil, cut, List.append_nil] at whole

/-- The end of a list of whole lines. -/
def Boundary (separator : α) (front : List α) : Prop :=
  front = [] ∨ front.getLast? = some separator

omit [DecidableEq α] in
theorem boundary_append (separator : α) (front : List α) :
    Boundary separator (front ++ [separator]) :=
  .inr (by simp)

omit [DecidableEq α] in
theorem boundary_flatten {lines : List (List α)} (ended : ∀ line ∈ lines, Ended separator line) :
    Boundary separator lines.flatten := by
  rcases List.eq_nil_or_concat lines with rfl | ⟨front, last, rfl⟩
  · exact .inl rfl
  · obtain ⟨content, rfl, -⟩ := ended last (by simp)
    simpa using boundary_append separator (front.flatten ++ content)

omit [DecidableEq α] in
/-- An end without a separator is the unfinished line behind the whole lines. -/
theorem append_inj_of_boundary {front back line line' : List α}
    (first : Boundary separator front) (second : Boundary separator back)
    (inside : separator ∉ line) (inside' : separator ∉ line')
    (same : front ++ line = back ++ line') : front = back ∧ line = line' := by
  have empty : ∀ {whole piece other : List α}, Boundary separator (whole ++ piece) →
      separator ∉ piece ++ other → piece = [] := by
    intro whole piece other boundary outside
    rcases List.eq_nil_or_concat' piece with rfl | ⟨start, last, rfl⟩
    · rfl
    · rcases boundary with none | ends
      · simp at none
      · rw [← List.append_assoc, List.getLast?_append, List.getLast?_singleton] at ends
        rw [Option.some_or, Option.some.injEq] at ends
        subst ends
        simp at outside
  rcases List.append_eq_append_iff.mp same with ⟨piece, rfl, rfl⟩ | ⟨piece, rfl, rfl⟩
  · rw [empty second inside, List.append_nil, List.nil_append]
    exact ⟨rfl, rfl⟩
  · rw [empty first inside', List.append_nil, List.nil_append]
    exact ⟨rfl, rfl⟩

end Lines
