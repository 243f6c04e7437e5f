import Mathlib.Data.List.Basic
import Mathlib.Tactic.IntervalCases

/-!
# Padded base64

The standard alphabet with canonical padding: every group of three octets becomes four
characters, the last group is completed with `=`, and a decoder rejects missing padding and
non-zero trailing bits.  The two functions are inverse on encoded text.
-/

namespace Base64

/-- The character of a six-bit digit. -/
def digitChar (digit : Nat) : Char :=
  if digit < 26 then Char.ofNat (65 + digit)
  else if digit < 52 then Char.ofNat (71 + digit)
  else if digit < 62 then Char.ofNat (digit - 4)
  else if digit = 62 then '+'
  else '/'

/-- The six-bit digit of a character, if it belongs to the alphabet. -/
def digitValue (char : Char) : Option Nat :=
  let code := char.toNat
  if 65 ≤ code ∧ code ≤ 90 then some (code - 65)
  else if 97 ≤ code ∧ code ≤ 122 then some (code - 71)
  else if 48 ≤ code ∧ code ≤ 57 then some (code + 4)
  else if char = '+' then some 62
  else if char = '/' then some 63
  else none

/-- Characters of an encoded octet string. -/
def encodeChars : List UInt8 → List Char
  | [] => []
  | [a] => [digitChar (a.toNat / 4), digitChar (a.toNat % 4 * 16), '=', '=']
  | [a, b] =>
      [digitChar (a.toNat / 4), digitChar (a.toNat % 4 * 16 + b.toNat / 16),
        digitChar (b.toNat % 16 * 4), '=']
  | a :: b :: c :: rest =>
      digitChar (a.toNat / 4) :: digitChar (a.toNat % 4 * 16 + b.toNat / 16) ::
        digitChar (b.toNat % 16 * 4 + c.toNat / 64) :: digitChar (c.toNat % 64) ::
          encodeChars rest

/-- One octet from two digits whose trailing bits vanish. -/
def decodeOne (x y : Char) : Option (List UInt8) := do
  let x ← digitValue x
  let y ← digitValue y
  if y % 16 = 0 then some [UInt8.ofNat (x * 4 + y / 16)] else none

/-- Two octets from three digits whose trailing bits vanish. -/
def decodeTwo (x y z : Char) : Option (List UInt8) := do
  let x ← digitValue x
  let y ← digitValue y
  let z ← digitValue z
  if z % 4 = 0 then
    some [UInt8.ofNat (x * 4 + y / 16), UInt8.ofNat (y % 16 * 16 + z / 4)]
  else none

/-- Three octets from four digits. -/
def decodeThree (x y z w : Char) : Option (List UInt8) := do
  let x ← digitValue x
  let y ← digitValue y
  let z ← digitValue z
  let w ← digitValue w
  some [UInt8.ofNat (x * 4 + y / 16), UInt8.ofNat (y % 16 * 16 + z / 4),
    UInt8.ofNat (z % 4 * 64 + w)]

/-- Octets of canonical encoded text. -/
def decodeChars : List Char → Option (List UInt8)
  | [] => some []
  | x :: y :: z :: w :: rest =>
      if w = '=' then
        if rest = [] then
          if z = '=' then decodeOne x y else decodeTwo x y z
        else none
      else do
        let group ← decodeThree x y z w
        let tail ← decodeChars rest
        some (group ++ tail)
  | _ => none

/-- Encoded text of an octet string. -/
def encode (bytes : List UInt8) : String := String.ofList (encodeChars bytes)

/-- Octets of encoded text, or nothing when the text is not canonical. -/
def decode (text : String) : Option (List UInt8) := decodeChars text.toList

theorem digitValue_digitChar : ∀ digit < 64, digitValue (digitChar digit) = some digit := by
  decide

theorem digitChar_ne_pad : ∀ digit < 64, digitChar digit ≠ '=' := by
  decide

private theorem ofNat_eq_of_toNat (byte : UInt8) {value : Nat} (equal : value = byte.toNat) :
    UInt8.ofNat value = byte := by
  rw [equal, UInt8.ofNat_toNat]

private theorem decodeOne_encoded (a : UInt8) :
    decodeOne (digitChar (a.toNat / 4)) (digitChar (a.toNat % 4 * 16)) = some [a] := by
  have bound := a.toNat_lt
  rw [decodeOne, digitValue_digitChar _ (by omega), digitValue_digitChar _ (by omega)]
  have trailing : a.toNat % 4 * 16 % 16 = 0 := by omega
  simp only [Option.bind_eq_bind, Option.bind_some, trailing, if_true]
  rw [ofNat_eq_of_toNat a (by omega)]

private theorem decodeTwo_encoded (a b : UInt8) :
    decodeTwo (digitChar (a.toNat / 4)) (digitChar (a.toNat % 4 * 16 + b.toNat / 16))
      (digitChar (b.toNat % 16 * 4)) = some [a, b] := by
  have boundA := a.toNat_lt
  have boundB := b.toNat_lt
  rw [decodeTwo, digitValue_digitChar _ (by omega), digitValue_digitChar _ (by omega),
    digitValue_digitChar _ (by omega)]
  have trailing : b.toNat % 16 * 4 % 4 = 0 := by omega
  simp only [Option.bind_eq_bind, Option.bind_some, trailing, if_true]
  rw [ofNat_eq_of_toNat a (by omega), ofNat_eq_of_toNat b (by omega)]

private theorem decodeThree_encoded (a b c : UInt8) :
    decodeThree (digitChar (a.toNat / 4)) (digitChar (a.toNat % 4 * 16 + b.toNat / 16))
      (digitChar (b.toNat % 16 * 4 + c.toNat / 64)) (digitChar (c.toNat % 64)) =
        some [a, b, c] := by
  have boundA := a.toNat_lt
  have boundB := b.toNat_lt
  have boundC := c.toNat_lt
  rw [decodeThree, digitValue_digitChar _ (by omega), digitValue_digitChar _ (by omega),
    digitValue_digitChar _ (by omega), digitValue_digitChar _ (by omega)]
  simp only [Option.bind_eq_bind, Option.bind_some]
  rw [ofNat_eq_of_toNat a (by omega), ofNat_eq_of_toNat b (by omega),
    ofNat_eq_of_toNat c (by omega)]

theorem decodeChars_encodeChars (bytes : List UInt8) :
    decodeChars (encodeChars bytes) = some bytes := by
  induction bytes using encodeChars.induct with
  | case1 => rfl
  | case2 a => simpa [encodeChars, decodeChars] using decodeOne_encoded a
  | case3 a b =>
      have bound := b.toNat_lt
      have digit : digitChar (b.toNat % 16 * 4) ≠ '=' := digitChar_ne_pad _ (by omega)
      simpa [encodeChars, decodeChars, digit] using decodeTwo_encoded a b
  | case4 a b c rest ih =>
      have digit : digitChar (c.toNat % 64) ≠ '=' := digitChar_ne_pad _ (by omega)
      rw [encodeChars, decodeChars, if_neg digit, decodeThree_encoded, ih]
      rfl

/-- Decoding inverts encoding. -/
@[simp]
theorem decode_encode (bytes : List UInt8) : decode (encode bytes) = some bytes := by
  rw [decode, encode, String.toList_ofList, decodeChars_encodeChars]

/-- Characters that may occur in encoded text. -/
def IsTextChar (char : Char) : Prop := char = '=' ∨ ∃ digit < 64, char = digitChar digit

theorem isTextChar_of_mem_encodeChars {bytes : List UInt8} {char : Char}
    (member : char ∈ encodeChars bytes) : IsTextChar char := by
  induction bytes using encodeChars.induct with
  | case1 => simp [encodeChars] at member
  | case2 a =>
      have bound := a.toNat_lt
      simp only [encodeChars, List.mem_cons, List.not_mem_nil, or_false] at member
      rcases member with rfl | rfl | rfl | rfl
      · exact Or.inr ⟨_, by omega, rfl⟩
      · exact Or.inr ⟨_, by omega, rfl⟩
      · exact Or.inl rfl
      · exact Or.inl rfl
  | case3 a b =>
      have boundA := a.toNat_lt
      have boundB := b.toNat_lt
      simp only [encodeChars, List.mem_cons, List.not_mem_nil, or_false] at member
      rcases member with rfl | rfl | rfl | rfl
      · exact Or.inr ⟨_, by omega, rfl⟩
      · exact Or.inr ⟨_, by omega, rfl⟩
      · exact Or.inr ⟨_, by omega, rfl⟩
      · exact Or.inl rfl
  | case4 a b c rest ih =>
      have boundA := a.toNat_lt
      have boundB := b.toNat_lt
      have boundC := c.toNat_lt
      simp only [encodeChars, List.mem_cons] at member
      rcases member with rfl | rfl | rfl | rfl | member
      · exact Or.inr ⟨_, by omega, rfl⟩
      · exact Or.inr ⟨_, by omega, rfl⟩
      · exact Or.inr ⟨_, by omega, rfl⟩
      · exact Or.inr ⟨_, by omega, rfl⟩
      · exact ih member

/-- Four characters for every group of three octets. -/
theorem length_encodeChars (bytes : List UInt8) :
    (encodeChars bytes).length = (bytes.length + 2) / 3 * 4 := by
  induction bytes using encodeChars.induct with
  | case1 => simp [encodeChars]
  | case2 a => simp [encodeChars]
  | case3 a b => simp [encodeChars]
  | case4 a b c rest ih =>
      simp only [encodeChars, List.length_cons, ih]
      omega

theorem length_encodeChars_le (bytes : List UInt8) :
    (encodeChars bytes).length ≤ 2 * bytes.length + 4 := by
  rw [length_encodeChars]
  omega

/-- Whole groups are encoded on their own. -/
theorem encodeChars_append {front : List UInt8} (whole : 3 ∣ front.length) (back : List UInt8) :
    encodeChars (front ++ back) = encodeChars front ++ encodeChars back := by
  induction front using encodeChars.induct with
  | case1 => rfl
  | case2 a =>
      rw [List.length_singleton] at whole
      omega
  | case3 a b =>
      rw [List.length_cons, List.length_singleton] at whole
      omega
  | case4 a b c rest ih =>
      have rest_whole : 3 ∣ rest.length := by
        simp only [List.length_cons] at whole
        omega
      simp only [List.cons_append, encodeChars, ih rest_whole]

theorem encodeChars_ne_nil {bytes : List UInt8} (nonempty : bytes ≠ []) :
    encodeChars bytes ≠ [] := by
  cases bytes using encodeChars.induct with
  | case1 => exact absurd rfl nonempty
  | case2 a => simp [encodeChars]
  | case3 a b => simp [encodeChars]
  | case4 a b c rest => simp [encodeChars]

/-! ## The URL-safe alphabet, without padding -/

/-- The character of the URL-safe alphabet. -/
def toUrlChar (char : Char) : Char :=
  if char = '+' then '-' else if char = '/' then '_' else char

/-- The character of the standard alphabet, unless it is none of the URL-safe one. -/
def ofUrlChar (char : Char) : Option Char :=
  if char = '-' then some '+'
  else if char = '_' then some '/'
  else if char = '+' ∨ char = '/' ∨ char = '=' then none
  else some char

/-- What completes a text of some length to whole groups. -/
def padding (length : Nat) : List Char :=
  List.replicate ((4 - length % 4) % 4) '='

/-- Octets of text in the standard alphabet that is not padded. -/
def decodeUnpadded (text : String) : Option (List UInt8) :=
  if '=' ∈ text.toList then none
  else decodeChars (text.toList ++ padding text.toList.length)

/-- Text of an octet string in the standard alphabet that is not padded. -/
def encodeUnpadded (bytes : List UInt8) : String :=
  String.ofList ((encodeChars bytes).filter (· ≠ '='))

/-- Unpadded text of an octet string. -/
def encodeUrl (bytes : List UInt8) : String :=
  String.ofList (((encodeChars bytes).filter (· ≠ '=')).map toUrlChar)

/-- Octets of unpadded text, or nothing when the text is not canonical. -/
def decodeUrl (text : String) : Option (List UInt8) := do
  let chars ← text.toList.mapM ofUrlChar
  decodeChars (chars ++ padding chars.length)

theorem filter_append_padding (bytes : List UInt8) :
    (encodeChars bytes).filter (· ≠ '=') ++
      padding ((encodeChars bytes).filter (· ≠ '=')).length = encodeChars bytes := by
  induction bytes using encodeChars.induct with
  | case1 => rfl
  | case2 a =>
      have bound := a.toNat_lt
      have first := digitChar_ne_pad (a.toNat / 4) (by omega)
      have second := digitChar_ne_pad (a.toNat % 4 * 16) (by omega)
      simp [encodeChars, padding, first, second, List.replicate]
  | case3 a b =>
      have boundA := a.toNat_lt
      have boundB := b.toNat_lt
      have first := digitChar_ne_pad (a.toNat / 4) (by omega)
      have second := digitChar_ne_pad (a.toNat % 4 * 16 + b.toNat / 16) (by omega)
      have third := digitChar_ne_pad (b.toNat % 16 * 4) (by omega)
      simp [encodeChars, padding, first, second, third]
  | case4 a b c rest ih =>
      have boundA := a.toNat_lt
      have boundB := b.toNat_lt
      have boundC := c.toNat_lt
      have first := digitChar_ne_pad (a.toNat / 4) (by omega)
      have second := digitChar_ne_pad (a.toNat % 4 * 16 + b.toNat / 16) (by omega)
      have third := digitChar_ne_pad (b.toNat % 16 * 4 + c.toNat / 64) (by omega)
      have fourth := digitChar_ne_pad (c.toNat % 64) (by omega)
      have shifted : ∀ length, padding (length + 4) = padding length := by
        intro length
        simp [padding]
      rw [encodeChars, List.filter_cons_of_pos (by simpa using first),
        List.filter_cons_of_pos (by simpa using second),
        List.filter_cons_of_pos (by simpa using third),
        List.filter_cons_of_pos (by simpa using fourth)]
      simp only [List.length_cons, shifted, List.cons_append, ih]

theorem ofUrlChar_toUrlChar {char : Char} (text : IsTextChar char) (digit : char ≠ '=') :
    ofUrlChar (toUrlChar char) = some char := by
  have digits : ∀ digit < 64, ofUrlChar (toUrlChar (digitChar digit)) = some (digitChar digit) := by
    decide
  rcases text with rfl | ⟨value, bound, rfl⟩
  · exact absurd rfl digit
  · exact digits value bound

@[simp]
theorem decodeUrl_encodeUrl (bytes : List UInt8) : decodeUrl (encodeUrl bytes) = some bytes := by
  have restored : (((encodeChars bytes).filter (· ≠ '=')).map toUrlChar).mapM ofUrlChar =
      some ((encodeChars bytes).filter (· ≠ '=')) := by
    rw [List.mapM_map]
    have each : ∀ chars : List Char, (∀ char ∈ chars, IsTextChar char ∧ char ≠ '=') →
        chars.mapM (ofUrlChar ∘ toUrlChar) = some chars := by
      intro chars
      induction chars with
      | nil => exact fun _ => rfl
      | cons char rest ih =>
          intro every
          obtain ⟨text, digit⟩ := every char List.mem_cons_self
          rw [List.mapM_cons, Function.comp_apply, ofUrlChar_toUrlChar text digit,
            ih fun other member => every other (List.mem_cons_of_mem _ member)]
          rfl
    refine each _ fun char member => ?_
    obtain ⟨inside, digit⟩ := List.mem_filter.mp member
    exact ⟨isTextChar_of_mem_encodeChars inside, by simpa using digit⟩
  unfold decodeUrl encodeUrl
  rw [String.toList_ofList, restored]
  change decodeChars _ = some bytes
  rw [filter_append_padding, decodeChars_encodeChars]

end Base64
