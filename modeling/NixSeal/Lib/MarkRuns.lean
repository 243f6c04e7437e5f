import NixSeal.Lib.Occurrence

/-!
# Words behind runs of a mark

A scanner that takes marks in pairs meets a word that stands behind an even run of them, and passes
over a word that stands behind an odd run.
-/

namespace NixSeal
namespace MarkRuns

open Occurrence

variable {α : Type} [DecidableEq α] {mark : α} {word : List α} {accept : Nat → Prop}

/-- The marks at the end of a text that follows `run` marks. -/
def runBehind (mark : α) (run : Nat) (text : List α) : Nat :=
  text.foldl (fun run symbol => if symbol = mark then run + 1 else 0) run

@[simp]
theorem runBehind_nil {run : Nat} : runBehind mark run [] = run := rfl

theorem runBehind_cons {run : Nat} {symbol : α} {text : List α} :
    runBehind mark run (symbol :: text) =
      runBehind mark (if symbol = mark then run + 1 else 0) text := rfl

theorem runBehind_append {run : Nat} {front back : List α} :
    runBehind mark run (front ++ back) = runBehind mark (runBehind mark run front) back :=
  List.foldl_append

theorem runBehind_of_ne {run : Nat} {text : List α} {last : α} (ends : text.getLast? = some last)
    (other : last ≠ mark) : runBehind mark run text = 0 := by
  obtain ⟨front, rfl⟩ := List.getLast?_eq_some_iff.mp ends
  rw [runBehind_append, runBehind_cons, if_neg other, runBehind_nil]

/-- The word stands in a text, right behind an accepted number of marks. -/
def Behind (mark : α) (word : List α) (accept : Nat → Prop) (run : Nat) (text : List α) : Prop :=
  ∃ front back, text = front ++ word ++ back ∧ accept (runBehind mark run front)

theorem not_behind_nil (nonempty : word ≠ []) {run : Nat} : ¬Behind mark word accept run [] := by
  rintro ⟨front, back, same, -⟩
  have empty := (List.append_eq_nil_iff.mp (List.append_eq_nil_iff.mp same.symm).1).2
  exact nonempty empty

theorem behind_cons {run : Nat} {symbol : α} {text : List α} :
    Behind mark word accept run (symbol :: text) ↔ accept run ∧ word <+: symbol :: text ∨
      Behind mark word accept (if symbol = mark then run + 1 else 0) text := by
  constructor
  · rintro ⟨front, back, same, accepted⟩
    cases front with
    | nil => exact .inl ⟨accepted, back, same.symm⟩
    | cons first front =>
        obtain ⟨rfl, rest⟩ := List.cons.inj same
        exact .inr ⟨front, back, rest, accepted⟩
  · rintro (⟨accepted, back, same⟩ | ⟨front, back, rfl, accepted⟩)
    · exact ⟨[], back, same.symm, accepted⟩
    · exact ⟨symbol :: front, back, rfl, accepted⟩

theorem behind_congr {also : Nat → Prop} (same : ∀ run, accept run ↔ also run) {run : Nat}
    {text : List α} : Behind mark word accept run text ↔ Behind mark word also run text :=
  exists_congr fun _ => exists_congr fun _ => and_congr_right fun _ => same _

theorem behind_or {also : Nat → Prop} {run : Nat} {text : List α} :
    Behind mark word (fun run => accept run ∨ also run) run text ↔
      Behind mark word accept run text ∨ Behind mark word also run text := by
  constructor
  · rintro ⟨front, back, same, accepted | accepted⟩
    · exact .inl ⟨front, back, same, accepted⟩
    · exact .inr ⟨front, back, same, accepted⟩
  · rintro (⟨front, back, same, accepted⟩ | ⟨front, back, same, accepted⟩)
    · exact ⟨front, back, same, .inl accepted⟩
    · exact ⟨front, back, same, .inr accepted⟩

/-- A word that does not reach over the border of two texts stands in one of them. -/
theorem behind_append (nonempty : word ≠ []) {run : Nat} {left right : List α}
    (splits : ∀ tail, tail <:+ left → tail ≠ [] → word <+: tail ++ right → word <+: tail) :
    Behind mark word accept run (left ++ right) ↔ Behind mark word accept run left ∨
      Behind mark word accept (runBehind mark run left) right := by
  induction left generalizing run with
  | nil => simp [not_behind_nil nonempty]
  | cons symbol left ih =>
      have here : word <+: symbol :: (left ++ right) ↔ word <+: symbol :: left :=
        ⟨splits _ List.suffix_rfl (List.cons_ne_nil _ _),
          fun inside => inside.trans (List.prefix_append (symbol :: left) right)⟩
      rw [List.cons_append, behind_cons, behind_cons, here,
        ih fun tail inside => splits tail (inside.trans (List.suffix_cons _ _)), or_assoc,
        runBehind_cons]

omit [DecidableEq α] in
/-- A word without marks does not reach over a mark. -/
theorem prefix_of_prefix_append (plain : mark ∉ word) {tail right : List α}
    (border : tail.getLast? = some mark ∨ right.head? = some mark) (inside : word <+: tail ++ right) :
    word <+: tail := by
  rcases List.prefix_or_prefix_of_prefix inside (List.prefix_append tail right) with
    within | ⟨more, rfl⟩
  · exact within
  · rcases border with ends | starts
    · exact absurd (List.mem_append_left more (List.mem_of_getLast? ends)) plain
    · cases more with
      | nil => rw [List.append_nil]
      | cons first more =>
          obtain ⟨rest, rfl⟩ := (List.prefix_append_right_inj tail).mp inside
          cases starts
          exact absurd (List.mem_append_right tail (List.mem_cons_self ..)) plain

omit [DecidableEq α] in
theorem not_prefix_mark_cons (plain : mark ∉ word) (nonempty : word ≠ []) (rest : List α) :
    ¬word <+: mark :: rest := by
  intro inside
  cases word with
  | nil => exact nonempty rfl
  | cons first tail =>
      obtain ⟨rfl, -⟩ := List.cons_prefix_cons.mp inside
      exact plain (List.mem_cons_self ..)

/-- Two texts that meet at a mark. -/
theorem behind_append_of_border (plain : mark ∉ word) (nonempty : word ≠ []) {run : Nat}
    {left right : List α}
    (border : left = [] ∨ left.getLast? = some mark ∨ right.head? = some mark) :
    Behind mark word accept run (left ++ right) ↔ Behind mark word accept run left ∨
      Behind mark word accept (runBehind mark run left) right := by
  refine behind_append nonempty fun tail inside present => ?_
  rcases border with rfl | border
  · exact absurd (List.suffix_nil.mp inside) present
  · refine prefix_of_prefix_append plain (border.imp_left fun ends => ?_)
    obtain ⟨front, rfl⟩ := inside
    rwa [List.getLast?_append_of_ne_nil _ present] at ends

/-- Behind a text without marks there is no run. -/
theorem behind_append_of_not_mem (bare : ¬accept 0) {text : List α}
    (rest : List α) (absent : mark ∉ text) :
    Behind mark word accept 0 (text ++ rest) ↔ Behind mark word accept 0 rest := by
  induction text with
  | nil => rfl
  | cons symbol text ih =>
      obtain ⟨different, later⟩ := not_or.mp (mt List.mem_cons.mpr absent)
      rw [List.cons_append, behind_cons, if_neg (Ne.symm different), ih later]
      exact or_iff_right fun here => bare here.1

/-! ## A scanner of pairs -/

/-- The runs that a scanner of pairs takes to their end, and those that it does not. -/
def Paired (run : Nat) : Prop := 2 ≤ run ∧ run % 2 = 0

def Unpaired (run : Nat) : Prop := 2 ≤ run ∧ run % 2 = 1

theorem paired_or_unpaired {run : Nat} : 2 ≤ run ↔ Paired run ∨ Unpaired run := by
  unfold Paired Unpaired
  omega

/-- Where no two marks meet, the word has no pair before it, unless one stands before the text. -/
theorem not_behind_of_not_infix (nonempty : word ≠ []) {run : Nat} {text : List α}
    (single : ¬[mark, mark] <:+: text) (starts : Paired run → ¬word <+: text)
    (odd : run % 2 = 1 → text.head? ≠ some mark) : ¬Behind mark word Paired run text := by
  induction text generalizing run with
  | nil => exact not_behind_nil nonempty
  | cons symbol text ih =>
      have later : ¬[mark, mark] <:+: text := fun inside => single (inside.trans
        (List.suffix_cons symbol text).isInfix)
      rw [behind_cons]
      rintro (⟨accepted, here⟩ | behind)
      · exact starts accepted here
      · refine ih later ?_ ?_ behind
        · split
          · rename_i marked
            intro paired
            have even : run % 2 ≠ 1 := fun odd' => odd odd' (by rw [marked, List.head?_cons])
            exact absurd paired.2 (by omega)
          · exact fun paired => absurd paired.1 (by decide)
        · split
          · rename_i marked
            intro _ again
            obtain ⟨rest, rfl⟩ := List.head?_eq_some_iff.mp again
            exact single ⟨[], rest, by rw [marked]; rfl⟩
          · exact fun odd' => absurd odd' (by decide)

theorem even_runBehind {run : Nat} (even : run % 2 = 0) {text before after : List α}
    (found : breakOn [mark, mark] text = some (before, after)) :
    runBehind mark run before % 2 = 0 := by
  rcases List.eq_nil_or_concat' before with rfl | ⟨front, last, rfl⟩
  · exact even
  · have other : last ≠ mark := by
      rintro rfl
      refine not_infix_of_breakOn (List.cons_ne_nil _ _) found ⟨front, [], ?_⟩
      simp
    rw [@runBehind_of_ne _ _ _ _ (front ++ [last]) last (by simp) other]

/-- Between two texts, a scanner has taken the marks of the first in pairs and has met no word. -/
structure Aligned (mark : α) (word pending text : List α) : Prop where
  even : runBehind mark 0 pending % 2 = 0
  border : pending = [] ∨ pending.getLast? = some mark
  passed : ¬Behind mark word Paired 0 pending
  next : pending ≠ [] → ¬word <+: text

namespace Aligned

variable {pending text before after : List α}

theorem nil : Aligned mark word [] text where
  even := rfl
  border := .inl rfl
  passed := by
    rintro ⟨front, back, same, accepted⟩
    obtain ⟨empty, -⟩ := List.append_eq_nil_iff.mp (List.append_eq_nil_iff.mp same.symm).1
    rw [empty] at accepted
    have short : 2 ≤ 0 := accepted.1
    omega
  next empty := absurd rfl empty

theorem not_behind_append (aligned : Aligned mark word pending text) (plain : mark ∉ word)
    (nonempty : word ≠ []) {more : List α} (inside : more <+: text)
    (single : ¬[mark, mark] <:+: more) : ¬Behind mark word Paired 0 (pending ++ more) := by
  rw [behind_append_of_border plain nonempty (aligned.border.imp_right .inl)]
  rintro (behind | behind)
  · exact aligned.passed behind
  · refine not_behind_of_not_infix nonempty single (fun paired starts => ?_) (fun odd => ?_) behind
    · refine aligned.next ?_ (starts.trans inside)
      rintro rfl
      have short : 2 ≤ 0 := paired.1
      omega
    · exact absurd aligned.even (by omega)

theorem not_behind_of_breakOn (aligned : Aligned mark word pending text) (plain : mark ∉ word)
    (nonempty : word ≠ []) (found : breakOn [mark, mark] text = some (before, after)) :
    ¬Behind mark word Paired 0 (pending ++ before) := by
  refine aligned.not_behind_append plain nonempty ?_ fun inside =>
    not_infix_of_breakOn (List.cons_ne_nil _ _) found (inside.trans (List.infix_append' [] _ _))
  rw [eq_of_breakOn found, List.append_assoc]
  exact List.prefix_append before _

theorem even_of_breakOn (aligned : Aligned mark word pending text)
    (found : breakOn [mark, mark] text = some (before, after)) :
    runBehind mark 0 (pending ++ before) % 2 = 0 := by
  rw [runBehind_append]
  exact even_runBehind aligned.even found

theorem skip (aligned : Aligned mark word pending text) (plain : mark ∉ word)
    (nonempty : word ≠ []) (found : breakOn [mark, mark] text = some (before, after))
    (other : ¬word <+: after) : Aligned mark word (pending ++ before ++ [mark, mark]) after where
  even := by
    have even := aligned.even_of_breakOn found
    rw [runBehind_append, runBehind_cons, if_pos rfl, runBehind_cons, if_pos rfl, runBehind_nil]
    omega
  border := .inr (by simp)
  passed := by
    have apart := not_prefix_mark_cons plain nonempty
    rw [behind_append_of_border plain nonempty (.inr (.inr rfl)), behind_cons, behind_cons]
    rintro (behind | ⟨-, here⟩ | ⟨-, here⟩ | behind)
    · exact aligned.not_behind_of_breakOn plain nonempty found behind
    · exact apart _ here
    · exact apart _ here
    · exact not_behind_nil nonempty behind
  next _ := other

end Aligned

/-- Where no two marks meet, no word stands behind more than one. -/
theorem not_behind_of_single (zero : ¬accept 0) (one : ¬accept 1) (nonempty : word ≠ []) {run : Nat}
    {text : List α} (single : ¬[mark, mark] <:+: text)
    (starts : run = 0 ∨ run = 1 ∧ text.head? ≠ some mark) :
    ¬Behind mark word accept run text := by
  induction text generalizing run with
  | nil => exact not_behind_nil nonempty
  | cons symbol text ih =>
      have later : ¬[mark, mark] <:+: text := fun inside => single (inside.trans
        (List.suffix_cons symbol text).isInfix)
      rw [behind_cons]
      rintro (⟨accepted, -⟩ | behind)
      · rcases starts with rfl | ⟨rfl, -⟩
        · exact zero accepted
        · exact one accepted
      · refine ih later ?_ behind
        split
        · rename_i marked
          rcases starts with rfl | ⟨-, other⟩
          · refine .inr ⟨rfl, fun again => ?_⟩
            obtain ⟨rest, rfl⟩ := List.head?_eq_some_iff.mp again
            exact single ⟨[], rest, by rw [marked]; rfl⟩
          · exact absurd (by rw [marked, List.head?_cons]) other
        · exact .inl rfl

/-- Behind an even run, a single mark is the only way to an odd one. -/
theorem not_behind_unpaired (nonempty : word ≠ []) {run : Nat} {text : List α}
    (even : run % 2 = 0) (single : ¬[mark, mark] <:+: text)
    (clear : 2 ≤ run → ¬mark :: word <+: text) : ¬Behind mark word Unpaired run text := by
  have zero : ¬Unpaired 0 := fun odd => absurd odd.1 (by decide)
  have one : ¬Unpaired 1 := fun odd => absurd odd.1 (by decide)
  have here : ¬Unpaired run := fun odd => absurd odd.2 (by omega)
  cases text with
  | nil => exact not_behind_nil nonempty
  | cons symbol text =>
      have later : ¬[mark, mark] <:+: text := fun inside => single (inside.trans
        (List.suffix_cons symbol text).isInfix)
      rw [behind_cons, or_iff_right fun front => here front.1]
      split
      · rename_i marked
        subst marked
        cases text with
        | nil => exact not_behind_nil nonempty
        | cons next text =>
            have different : next ≠ symbol := by
              rintro rfl
              exact single ⟨[], text, rfl⟩
            rw [behind_cons, if_neg different]
            rintro (⟨odd, inside⟩ | behind)
            · have long := odd.1
              have parity := odd.2
              exact clear (by omega) (List.cons_prefix_cons.mpr ⟨rfl, inside⟩)
            · exact not_behind_of_single zero one nonempty (fun inside => later (inside.trans
                (List.suffix_cons next text).isInfix)) (.inl rfl) behind
      · exact not_behind_of_single zero one nonempty later (.inl rfl)

/-- Up to the next pair, no word stands behind an odd run. -/
theorem behind_unpaired_iff (plain : mark ∉ word) (nonempty : word ≠ []) {run : Nat}
    (even : run % 2 = 0) {text before after : List α}
    (clear : 2 ≤ run → ¬mark :: word <+: text)
    (found : breakOn [mark, mark] text = some (before, after)) :
    Behind mark word Unpaired run text ↔
      Behind mark word Unpaired (runBehind mark run before) ([mark, mark] ++ after) := by
  have whole := eq_of_breakOn found
  have inside : before <+: text := by
    rw [whole, List.append_assoc]
    exact List.prefix_append before _
  rw [whole, List.append_assoc, behind_append_of_border plain nonempty (.inr (.inr rfl))]
  refine or_iff_right (not_behind_unpaired nonempty even (fun pair => ?_) fun long starts =>
    clear long (starts.trans inside))
  exact not_infix_of_breakOn (List.cons_ne_nil _ _) found (pair.trans (List.infix_append' [] _ _))

theorem behind_pair (plain : mark ∉ word) (nonempty : word ≠ []) {run : Nat} {text : List α} :
    Behind mark word accept run ([mark, mark] ++ text) ↔
      Behind mark word accept (run + 2) text := by
  have apart := not_prefix_mark_cons plain nonempty
  change Behind mark word accept run (mark :: mark :: text) ↔ _
  rw [behind_cons, if_pos rfl, behind_cons, if_pos rfl]
  simp [apart]

theorem behind_pair_append (plain : mark ∉ word) (nonempty : word ≠ []) {run : Nat}
    (even : run % 2 = 0) {name : List α} (absent : mark ∉ name) (present : name ≠ [])
    (rest : List α) :
    Behind mark word Unpaired run ([mark, mark] ++ name ++ rest) ↔
      Behind mark word Unpaired 0 rest := by
  have bare : ¬Unpaired 0 := fun odd => absurd odd.1 (by decide)
  have apart := not_prefix_mark_cons plain nonempty
  cases name with
  | nil => exact absurd rfl present
  | cons first name =>
      obtain ⟨different, later⟩ := not_or.mp (mt List.mem_cons.mpr absent)
      have beyond : ¬Unpaired (run + 1 + 1) := by
        intro odd
        have := odd.2
        omega
      change Behind mark word Unpaired run (mark :: mark :: first :: (name ++ rest)) ↔ _
      rw [behind_cons, if_pos rfl, behind_cons, if_pos rfl, behind_cons, if_neg (Ne.symm different),
        behind_append_of_not_mem bare rest later]
      simp [apart, beyond]

/-- A pair and the word, wherever they stand. -/
theorem infix_iff_behind {text : List α} :
    [mark, mark] ++ word <:+: text ↔ Behind mark word (2 ≤ ·) 0 text := by
  constructor
  · rintro ⟨front, back, rfl⟩
    refine ⟨front ++ [mark, mark], back, by simp only [List.append_assoc], ?_⟩
    rw [runBehind_append, runBehind_cons, if_pos rfl, runBehind_cons, if_pos rfl, runBehind_nil]
    omega
  · rintro ⟨front, back, rfl, long⟩
    have ends : ∀ front : List α, 0 < runBehind mark 0 front → ∃ earlier,
        front = earlier ++ [mark] ∧ runBehind mark 0 front = runBehind mark 0 earlier + 1 := by
      intro front positive
      rcases List.eq_nil_or_concat' front with rfl | ⟨earlier, last, rfl⟩
      · exact absurd positive (by simp)
      · rw [runBehind_append, runBehind_cons, runBehind_nil] at positive ⊢
        split at positive
        · rename_i marked
          exact ⟨earlier, by rw [marked], by rw [if_pos marked]⟩
        · exact absurd positive (Nat.lt_irrefl 0)
    obtain ⟨front, rfl, one⟩ := ends front (by omega)
    obtain ⟨front, rfl, two⟩ := ends front (by omega)
    exact ⟨front, back, by simp only [List.append_assoc, List.cons_append, List.nil_append]⟩

/-- Behind a pair, the word stands behind an even run or an odd one. -/
theorem infix_iff_paired_or_unpaired {text : List α} :
    [mark, mark] ++ word <:+: text ↔
      Behind mark word Paired 0 text ∨ Behind mark word Unpaired 0 text := by
  rw [infix_iff_behind, ← behind_or, behind_congr fun _ => paired_or_unpaired]

end MarkRuns
end NixSeal
