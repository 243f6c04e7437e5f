import Mathlib.Data.List.Basic
import Mathlib.Data.List.Nodup
import Mathlib.Tactic

/-!
# Frames

An encoding is self-delimiting when its end can be told from its beginning: whatever follows, the
value and the rest can be read back.  Encodings of one width are, and encodings that end with a
symbol they do not contain.  A text behind a self-delimiting encoding of its length is a frame, and
frames are self-delimiting again.
-/

namespace Framing

section Delimiting

variable {α β : Type} {domain : α → Prop} {code : α → List β}

/-- An encoding of the values of a domain whose end is told by its beginning. -/
def SelfDelimiting (domain : α → Prop) (code : α → List β) : Prop :=
  ∀ ⦃left right : α⦄, domain left → domain right → ∀ ⦃rest rest' : List β⦄,
    code left ++ rest = code right ++ rest' → left = right ∧ rest = rest'

theorem SelfDelimiting.unique (delimiting : SelfDelimiting domain code) {left right : α}
    (first : domain left) (second : domain right) (same : code left = code right) : left = right :=
  (delimiting first second (by rw [same] : code left ++ [] = code right ++ [])).1

theorem selfDelimiting_of_width {width : Nat} (fixed : ∀ value, domain value →
    (code value).length = width) (injective : ∀ left right, domain left → domain right →
      code left = code right → left = right) : SelfDelimiting domain code := by
  intro left right first second rest rest' same
  obtain ⟨codes, rests⟩ := List.append_inj same ((fixed left first).trans (fixed right second).symm)
  exact ⟨injective left right first second codes, rests⟩

/-- Encodings that end with a symbol they do not contain. -/
theorem selfDelimiting_of_stop {stop : β} (free : ∀ value, domain value → stop ∉ code value)
    (injective : ∀ left right, domain left → domain right → code left = code right →
      left = right) : SelfDelimiting domain fun value => code value ++ [stop] := by
  intro left right first second rest rest' same
  have general : ∀ front back : List β, stop ∉ front → stop ∉ back →
      front ++ stop :: rest = back ++ stop :: rest' → front = back ∧ rest = rest' := by
    intro front
    induction front with
    | nil =>
        intro back _ without equal
        cases back with
        | nil => exact ⟨rfl, (List.cons.inj equal).2⟩
        | cons symbol back =>
            rw [(List.cons.inj equal).1] at without
            simp at without
    | cons symbol front ih =>
        intro back without without' equal
        cases back with
        | nil =>
            rw [← (List.cons.inj equal).1] at without
            simp at without
        | cons symbol' back =>
            obtain ⟨rfl, tails⟩ := List.cons.inj equal
            rw [List.mem_cons, not_or] at without without'
            obtain ⟨rfl, rests⟩ := ih back without.2 without'.2 tails
            exact ⟨rfl, rests⟩
  obtain ⟨codes, rests⟩ := general _ _ (free left first) (free right second) (by simpa using same)
  exact ⟨injective left right first second codes, rests⟩

end Delimiting

section Frames

variable {β : Type} {domain : Nat → Prop} {code : Nat → List β}

/-- A text behind its length. -/
def frame (code : Nat → List β) (text : List β) : List β := code text.length ++ text

theorem SelfDelimiting.frame (delimiting : SelfDelimiting domain code) :
    SelfDelimiting (fun text : List β => domain text.length) (frame code) := by
  intro left right first second rest rest' same
  simp only [Framing.frame, List.append_assoc] at same
  obtain ⟨lengths, same⟩ := delimiting first second same
  exact List.append_inj same lengths

variable {α : Type} {admits : α → Prop} {encode : α → List β}

/-- As many values one behind the other. -/
theorem SelfDelimiting.flatMap (delimiting : SelfDelimiting admits encode) {left right : List α}
    (count : left.length = right.length) (first : ∀ value ∈ left, admits value)
    (second : ∀ value ∈ right, admits value) {rest rest' : List β}
    (same : left.flatMap encode ++ rest = right.flatMap encode ++ rest') :
    left = right ∧ rest = rest' := by
  induction left generalizing right with
  | nil =>
      rw [List.length_nil, eq_comm, List.length_eq_zero_iff] at count
      subst count
      exact ⟨rfl, same⟩
  | cons value left ih =>
      cases right with
      | nil => simp at count
      | cons value' right =>
          simp only [List.flatMap_cons, List.append_assoc] at same
          obtain ⟨admitted, others⟩ := List.forall_mem_cons.mp first
          obtain ⟨admitted', others'⟩ := List.forall_mem_cons.mp second
          obtain ⟨rfl, remaining⟩ := delimiting admitted admitted' same
          obtain ⟨rfl, rests⟩ := ih (by simpa using count) others others' remaining
          exact ⟨rfl, rests⟩

end Frames

section BigEndian

/-- A number in so many octets, the most significant first. -/
def bigEndian : Nat → Nat → List UInt8
  | 0, _ => []
  | width + 1, value => bigEndian width (value / 256) ++ [UInt8.ofNat value]

/-- The number of octets. -/
def ofBigEndian (octets : List UInt8) : Nat :=
  octets.foldl (fun value octet => value * 256 + octet.toNat) 0

@[simp]
theorem length_bigEndian (width value : Nat) : (bigEndian width value).length = width := by
  induction width generalizing value with
  | zero => rfl
  | succ width ih => simp [bigEndian, ih]

/-- Reading the octets of a number gives what fits into them. -/
theorem ofBigEndian_bigEndian (width value : Nat) :
    ofBigEndian (bigEndian width value) = value % 256 ^ width := by
  induction width generalizing value with
  | zero => simp [bigEndian, ofBigEndian, Nat.mod_one]
  | succ width ih =>
      have octet : (UInt8.ofNat value).toNat = value % 256 := by simp
      have front : ofBigEndian (bigEndian width (value / 256)) = value / 256 % 256 ^ width :=
        ih (value / 256)
      unfold ofBigEndian at front ⊢
      rw [bigEndian, List.foldl_append, List.foldl_cons, List.foldl_nil, front, octet, pow_succ',
        Nat.mod_mul]
      omega

theorem ofBigEndian_of_lt {width value : Nat} (fits : value < 256 ^ width) :
    ofBigEndian (bigEndian width value) = value := by
  rw [ofBigEndian_bigEndian, Nat.mod_eq_of_lt fits]

/-- Octets of one width tell the number. -/
theorem selfDelimiting_bigEndian (width : Nat) :
    SelfDelimiting (fun value => value < 256 ^ width) (bigEndian width) := by
  refine selfDelimiting_of_width (fun value _ => length_bigEndian width value) ?_
  intro left right first second same
  rw [← ofBigEndian_of_lt first, same, ofBigEndian_of_lt second]

end BigEndian

end Framing
