import Mathlib.Tactic

/-!
# Textual predicates on public values

The checks the crates make on strings, stated on characters.  A multi-byte UTF-8 sequence holds
no ASCII byte, so a test on ASCII bytes is the same test on characters; lengths are UTF-8 byte
lengths.
-/

namespace NixSeal

/-- Octet strings. -/
abbrev Bytes := List UInt8

/-- UTF-8 octets of a text (`str::as_bytes`). -/
def utf8 (text : String) : Bytes := text.toUTF8.data.toList

/-- `str::from_utf8`. -/
def fromUtf8 (bytes : Bytes) : Option String := String.fromUTF8? ⟨bytes.toArray⟩

theorem fromUtf8_utf8 (text : String) : fromUtf8 (utf8 text) = some text := by
  have valid : (⟨(utf8 text).toArray⟩ : ByteArray).IsValidUTF8 := text.isValidUTF8
  exact dif_pos valid

theorem utf8_of_fromUtf8 {bytes : Bytes} {text : String} (decoded : fromUtf8 bytes = some text) :
    utf8 text = bytes := by
  simp only [fromUtf8, String.fromUTF8?] at decoded
  split at decoded
  · cases decoded
    rfl
  · cases decoded

theorem utf8_injective : Function.Injective utf8 := by
  intro left right same
  have read := congrArg fromUtf8 same
  rwa [fromUtf8_utf8, fromUtf8_utf8, Option.some.injEq] at read

theorem length_utf8 (text : String) : (utf8 text).length = text.utf8ByteSize := by
  simp [utf8]

theorem utf8_append (front back : String) : utf8 (front ++ back) = utf8 front ++ utf8 back := by
  simp only [utf8, String.toUTF8, String.toByteArray_append, ByteArray.data_append,
    Array.toList_append]

theorem utf8_of_ascii {text : List Char} (ascii : ∀ char ∈ text, char.toNat < 0x80) :
    utf8 (String.ofList text) = text.map Char.toUInt8 := by
  induction text with
  | nil => rfl
  | cons char rest ih =>
      have small := ascii char List.mem_cons_self
      have value : char.val.toNat ≤ 0x7f := Nat.le_of_lt_succ small
      have encoded : utf8 (String.ofList [char]) = String.utf8EncodeChar char := by
        simp [utf8, List.utf8Encode_singleton]
      have first : utf8 (String.ofList [char]) = [char.toUInt8] := by
        rw [encoded, String.utf8EncodeChar]
        simp only [if_pos value]
        rfl
      rw [← List.singleton_append, String.ofList_append, utf8_append, first,
        ih fun other member => ascii other (List.mem_cons_of_mem _ member)]
      rfl

theorem toString_injective {left right : Nat} (same : toString left = toString right) :
    left = right := by
  have digits : Nat.toDigits 10 left = Nat.toDigits 10 right := by
    have texts := congrArg String.toList same
    simpa [Nat.toString_eq_repr, Nat.repr] using texts
  rw [← Nat.ofDigitChars_ten_toDigits (n := left), digits, Nat.ofDigitChars_ten_toDigits]

theorem toString_toList_ne_nil (number : Nat) : (toString number).toList ≠ [] := by
  rw [Nat.toString_eq_ofList_toDigits, String.toList_ofList]
  exact Nat.toDigits_ne_nil

theorem digit_of_mem_toString {number : Nat} {char : Char}
    (member : char ∈ (toString number).toList) : 48 ≤ char.toNat ∧ char.toNat ≤ 57 := by
  rw [Nat.toString_eq_ofList_toDigits, String.toList_ofList] at member
  have digit := Nat.isDigit_of_mem_toDigits (by decide) (by decide) member
  simp only [Char.isDigit, Bool.and_eq_true, decide_eq_true_eq] at digit
  exact ⟨digit.1, digit.2⟩

/-- `u8::is_ascii_control`. -/
def isAsciiControl (char : Char) : Bool := char.toNat < 0x20 || char.toNat == 0x7f

/-- `char::is_control`: the Unicode category `Cc`. -/
def isControl (char : Char) : Bool :=
  char.toNat < 0x20 || (0x7f ≤ char.toNat && char.toNat ≤ 0x9f)

/-- `is_ascii_lowercase`. -/
def isAsciiLowercase (char : Char) : Bool := 0x61 ≤ char.toNat && char.toNat ≤ 0x7a

/-- `is_ascii_digit`. -/
def isAsciiDigit (char : Char) : Bool := 0x30 ≤ char.toNat && char.toNat ≤ 0x39

/-- The Unicode property `White_Space`, as `str::trim` uses it. -/
def isWhitespace (char : Char) : Bool :=
  (0x09 ≤ char.toNat && char.toNat ≤ 0x0d) || char.toNat == 0x20 || char.toNat == 0x85 ||
    char.toNat == 0xa0 || char.toNat == 0x1680 ||
    (0x2000 ≤ char.toNat && char.toNat ≤ 0x200a) || char.toNat == 0x2028 ||
    char.toNat == 0x2029 || char.toNat == 0x202f || char.toNat == 0x205f || char.toNat == 0x3000

/-- `str::trim`. -/
def trim (value : String) : String :=
  String.ofList (((value.toList.dropWhile isWhitespace).reverse.dropWhile isWhitespace).reverse)

/-- Text without whitespace at its ends is its own trimmed form. -/
theorem trim_eq_self {value : String}
    (front : ∀ char ∈ value.toList.head?, isWhitespace char = false)
    (back : ∀ char ∈ value.toList.getLast?, isWhitespace char = false) : trim value = value := by
  have kept_front : value.toList.dropWhile isWhitespace = value.toList := by
    cases chars : value.toList with
    | nil => rfl
    | cons char rest => simp [front char (by simp [chars])]
  have kept_back : value.toList.reverse.dropWhile isWhitespace = value.toList.reverse := by
    cases chars : value.toList.reverse with
    | nil => rfl
    | cons char rest =>
        have last : value.toList.getLast? = some char := by
          rw [← List.head?_reverse, chars, List.head?_cons]
        simp [back char (by simp [last])]
  rw [trim, kept_front, kept_back, List.reverse_reverse, String.ofList_toList]

/-- `str::strip_prefix` with a literal. -/
def stripLiteral (literal value : String) : Option String :=
  if literal.toList <+: value.toList then
    some (String.ofList (value.toList.drop literal.toList.length))
  else none

@[simp]
theorem stripLiteral_append (literal body : String) :
    stripLiteral literal (literal ++ body) = some body := by
  simp [stripLiteral]

/-- `str::starts_with` with a literal. -/
def startsWith (literal value : String) : Bool := decide (literal.toList <+: value.toList)

/-- `str::contains` with a literal. -/
def containsText (literal value : String) : Bool := decide (literal.toList <:+: value.toList)

/-- `value.split('/')`. -/
def segments (value : String) : List (List Char) := value.toList.splitOn '/'

/-- Sixty-four lowercase hexadecimal digits: `is_digest` and `is_sha256` of the crates. -/
def isDigest (value : String) : Bool :=
  value.utf8ByteSize == 64 &&
    value.toList.all fun char => isAsciiDigit char || (0x61 ≤ char.toNat && char.toNat ≤ 0x66)

/-- A component of a Unix path, as `Path::components` yields it. -/
inductive PathComponent where
  /-- The leading separator. -/
  | rootDir
  /-- A leading `.`. -/
  | curDir
  /-- A `..`. -/
  | parentDir
  /-- A named component. -/
  | normal (name : List Char)
  deriving DecidableEq

/-- `Path::components`: repeated separators and inner `.` components disappear. -/
def pathComponents (value : String) : List PathComponent :=
  let parts := segments value
  let named := (parts.filter fun part => part != [] && part != ['.']).map fun part =>
    if part = ['.', '.'] then PathComponent.parentDir else PathComponent.normal part
  if value.toList.head? = some '/' then PathComponent.rootDir :: named
  else if parts.head? = some ['.'] then PathComponent.curDir :: named
  else named

/-- Whether a component is the root or a plain name. -/
def PathComponent.isRootOrNormal : PathComponent → Bool
  | .rootDir | .normal _ => true
  | .curDir | .parentDir => false

/-- `Path::is_absolute`. -/
def isAbsolute (value : String) : Bool := value.toList.head? == some '/'

end NixSeal
