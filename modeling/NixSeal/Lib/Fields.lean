import NixSeal.Lib.Framing

/-!
# Fields

Readers of what stands at the start of a text: so many items, a number of one width, and a frame
behind a number that tells its length.  A text cut into pieces of one width is the pieces joined.
-/

namespace Fields

section Readers

/-- So many items, and what follows them. -/
def readItems {α : Type} (count : Nat) (input : List α) : Option (List α × List α) :=
  if count ≤ input.length then some (input.take count, input.drop count) else none

/-- A number in so many octets, the most significant first. -/
def readNumber (width : Nat) (input : List UInt8) : Option (Nat × List UInt8) :=
  (readItems width input).map fun part => (Framing.ofBigEndian part.1, part.2)

/-- A text behind its length in so many octets. -/
def readFrame (width : Nat) (input : List UInt8) : Option (List UInt8 × List UInt8) :=
  (readNumber width input).bind fun part => readItems part.1 part.2

theorem readItems_append {α : Type} {count : Nat} {items : List α} (whole : items.length = count)
    (rest : List α) : readItems count (items ++ rest) = some (items, rest) := by
  subst whole
  rw [readItems, if_pos (by simp), List.take_left, List.drop_left]

theorem readNumber_append {width value : Nat} (fits : value < 256 ^ width) (rest : List UInt8) :
    readNumber width (Framing.bigEndian width value ++ rest) = some (value, rest) := by
  rw [readNumber, readItems_append (Framing.length_bigEndian width value), Option.map_some,
    Framing.ofBigEndian_of_lt fits]

theorem readFrame_append {width : Nat} {text : List UInt8} (fits : text.length < 256 ^ width)
    (rest : List UInt8) :
    readFrame width (Framing.bigEndian width text.length ++ text ++ rest) = some (text, rest) := by
  rw [readFrame, List.append_assoc, readNumber_append fits, Option.bind_some,
    readItems_append rfl]

end Readers

section Pieces

variable {α : Type} {width : Nat}

/-- Pieces of one width, as many as there can be, and a shorter one at the end. -/
def piecesOf (width : Nat) : Nat → List α → List (List α)
  | 0, _ => []
  | fuel + 1, items =>
      if items.isEmpty then [] else items.take width :: piecesOf width fuel (items.drop width)

/-- `chunks` of a slice, for a positive width. -/
def chunks (width : Nat) (items : List α) : List (List α) := piecesOf width items.length items

theorem flatten_piecesOf (positive : 0 < width) {fuel : Nat} {items : List α}
    (enough : items.length ≤ fuel) : (piecesOf width fuel items).flatten = items := by
  induction fuel generalizing items with
  | zero => rw [List.length_eq_zero_iff.mp (Nat.le_zero.mp enough)]; rfl
  | succ fuel ih =>
      rw [piecesOf]
      split
      · rename_i empty
        rw [List.isEmpty_iff.mp empty]
        rfl
      · have shorter : (items.drop width).length ≤ fuel := by
          rw [List.length_drop]
          omega
        rw [List.flatten_cons, ih shorter, List.take_append_drop]

theorem flatten_chunks (positive : 0 < width) (items : List α) :
    (chunks width items).flatten = items :=
  flatten_piecesOf positive le_rfl

/-- Pieces that end with a mark, without the mark. -/
theorem filter_flatMap_chunks [DecidableEq α] {mark : α} (positive : 0 < width) {items : List α}
    (free : mark ∉ items) :
    ((chunks width items).flatMap (· ++ [mark])).filter (· ≠ mark) = items := by
  have general : ∀ pieces : List (List α), (∀ piece ∈ pieces, mark ∉ piece) →
      (pieces.flatMap (· ++ [mark])).filter (· ≠ mark) = pieces.flatten := by
    intro pieces without
    induction pieces with
    | nil => rfl
    | cons piece rest ih =>
        obtain ⟨clean, others⟩ := List.forall_mem_cons.mp without
        have kept : piece.filter (· ≠ mark) = piece := by
          refine List.filter_eq_self.mpr fun item member => ?_
          simp only [ne_eq, decide_not, Bool.not_eq_true', decide_eq_false_iff_not]
          rintro rfl
          exact clean member
        rw [List.flatMap_cons, List.filter_append, ih others, List.filter_append, kept,
          List.flatten_cons]
        simp
  rw [general _ fun piece member inside => free ?_, flatten_chunks positive]
  rw [← flatten_chunks positive items]
  exact List.mem_flatten.mpr ⟨piece, member, inside⟩

end Pieces

end Fields
