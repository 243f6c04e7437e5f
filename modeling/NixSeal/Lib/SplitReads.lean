import Mathlib.Tactic

/-!
# Texts that are read in parts

A source delivers a text through calls that have room for so many symbols.  How many symbols a call
delivers is up to the source, but a call that has room and delivers none has reached the end.  A
digest is computed from the parts as they come, and does not depend on how the text was split.
-/

namespace SplitReads

/-- A source: its calls, and what is left of its text in every state. -/
structure Source (α σ : Type) where
  /-- One call with room for so many symbols. -/
  read : σ → Nat → List α × σ
  rest : σ → List α
  rest_eq : ∀ state room, rest state = (read state room).1 ++ rest (read state room).2
  length_le : ∀ state room, (read state room).1.length ≤ room
  ended : ∀ state room, 0 < room → (read state room).1 = [] → rest state = []

namespace Source

variable {α σ : Type}

/-- The source of a text that splits it into parts of given lengths, as far as there is room. -/
def splitting (length : Nat → Nat) (positive : ∀ call, 0 < length call) :
    Source α (Nat × List α) where
  read state room :=
    (state.2.take (min room (length state.1)), state.1 + 1,
      state.2.drop (min room (length state.1)))
  rest state := state.2
  rest_eq state room := (List.take_append_drop _ _).symm
  length_le state room := by
    rw [List.length_take]
    omega
  ended state room room_positive nothing := by
    have length_positive := positive state.1
    rcases List.take_eq_nil_iff.mp nothing with none | ended
    · omega
    · exact ended

variable (source : Source α σ)

theorem read_eq_nil_iff {state : σ} {room : Nat} (positive : 0 < room) :
    (source.read state room).1 = [] ↔ source.rest state = [] := by
  constructor
  · exact source.ended state room positive
  · intro ended
    have whole := source.rest_eq state room
    rw [ended] at whole
    exact (List.append_eq_nil_iff.mp whole.symm).1

end Source

/-- A digest that is computed part by part. -/
structure Digest (α δ : Type) where
  State : Type
  new : State
  update : State → List α → State
  finalize : State → δ
  /-- The digest of a whole text. -/
  digest : List α → δ
  finalize_foldl : ∀ parts : List (List α), finalize (parts.foldl update new) = digest parts.flatten

/-- The state that has seen a text, split in some way. -/
def Digest.Seen {α δ : Type} (D : Digest α δ) (text : List α) (state : D.State) : Prop :=
  ∃ parts : List (List α), parts.flatten = text ∧ state = parts.foldl D.update D.new

namespace Digest

/-- The digest that keeps the text until it is finalized. -/
def buffering {α δ : Type} (digest : List α → δ) : Digest α δ where
  State := List α
  new := []
  update seen part := seen ++ part
  finalize := digest
  digest
  finalize_foldl parts := by
    rw [List.foldl_append_eq_append, List.nil_append, List.map_id']

variable {α δ : Type} {D : Digest α δ} {text : List α} {state : D.State}

theorem seen_new : D.Seen [] D.new :=
  ⟨[], rfl, rfl⟩

theorem Seen.update (seen : D.Seen text state) (part : List α) :
    D.Seen (text ++ part) (D.update state part) := by
  obtain ⟨parts, whole, reached⟩ := seen
  refine ⟨parts ++ [part], ?_, ?_⟩
  · rw [List.flatten_append, whole, List.flatten_singleton]
  · rw [List.foldl_append, ← reached]
    rfl

theorem Seen.finalize (seen : D.Seen text state) : D.finalize state = D.digest text := by
  obtain ⟨parts, whole, reached⟩ := seen
  rw [reached, D.finalize_foldl, whole]

end Digest

section Bounded

variable {α δ ε : Type}

/-- How a copy of a text within a limit ends, and the output then. -/
def bounded (value : δ) (exceeded : ε) (limit : Nat) (output text : List α) :
    Except ε δ × List α :=
  (if text.length ≤ limit then .ok value else .error exceeded, output ++ text.take limit)

variable {value : δ} {exceeded : ε} {limit : Nat} {output text : List α}

theorem bounded_nil : bounded value exceeded limit output [] = (.ok value, output) := by
  have short : ([] : List α).length ≤ limit := Nat.zero_le limit
  rw [bounded, if_pos short, List.take_nil, List.append_nil]

theorem bounded_zero (nonempty : text ≠ []) :
    bounded value exceeded 0 output text = (.error exceeded, output) := by
  have long : ¬text.length ≤ 0 := not_le.mpr (List.length_pos_iff.mpr nonempty)
  rw [bounded, if_neg long, List.take_zero, List.append_nil]

theorem bounded_append (part : List α) (left : Nat) :
    bounded value exceeded (left + part.length) output (part ++ text) =
      bounded value exceeded left (output ++ part) text := by
  have length : (part ++ text).length ≤ left + part.length ↔ text.length ≤ left := by
    rw [List.length_append]
    omega
  have taken : (part ++ text).take (left + part.length) = part ++ text.take left := by
    rw [Nat.add_comm, List.take_length_add_append]
  rw [bounded, bounded, taken, ← List.append_assoc]
  simp only [length]

theorem bounded_mapError {φ : Type} (rename : ε → φ) :
    ((bounded value exceeded limit output text).1.mapError rename,
      (bounded value exceeded limit output text).2) =
        bounded value (rename exceeded) limit output text := by
  rw [bounded, bounded]
  split
  · rfl
  · rfl

/-- A copy of a text within a limit is exact: it succeeds when the text is no longer than the
limit, with the value and the whole text passed on, and otherwise fails in one way, with no more
passed on than the limit. -/
structure Exact (limit : Nat) (text : List α) (value : δ) (exceeded : ε)
    (copy : Except ε δ × List α) : Prop where
  succeeds_iff : (∃ result, copy.1 = .ok result) ↔ text.length ≤ limit
  whole : ∀ result, copy.1 = .ok result → result = value ∧ copy.2 = text
  refused : ∀ error, copy.1 = .error error →
    error = exceeded ∧ copy.2 <+: text ∧ copy.2.length ≤ limit

theorem exact_bounded : Exact limit text value exceeded (bounded value exceeded limit [] text) := by
  rw [bounded, List.nil_append]
  by_cases fits : text.length ≤ limit
  · rw [if_pos fits, List.take_of_length_le fits]
    refine ⟨iff_of_true ⟨value, rfl⟩ fits, ?_, ?_⟩
    · intro result returned
      cases returned
      exact ⟨rfl, rfl⟩
    · intro error failed
      cases failed
  · rw [if_neg fits]
    refine ⟨iff_of_false ?_ fits, ?_, ?_⟩
    · rintro ⟨result, returned⟩
      cases returned
    · intro result returned
      cases returned
    · intro error failed
      cases failed
      exact ⟨rfl, List.take_prefix limit text, List.length_take_le limit text⟩

end Bounded

end SplitReads
