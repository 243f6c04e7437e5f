import NixSeal.Runtime.Buffers

/-!
# Encoded values

What the encoders of templates write is what the decoder of logical collections reads.
-/

namespace NixSeal.Runtime

open Sink

variable {limit : Nat}

/-! ## Decoding -/

/-- `EXTERNAL_MIGRATION_MAX_PLAINTEXT_BYTES`. -/
def externalMigrationMaxPlaintextBytes : Nat := 64 * 1024 * 1024

/-- `CollectionEncoding`. -/
inductive CollectionEncoding where
  | utf8
  | base64
  | hex
  deriving DecidableEq, Repr

/-- `char::to_digit(16)`, of an octet. -/
def toDigit16 (octet : UInt8) : Option Nat :=
  let value := octet.toNat
  if 0x30 ≤ value ∧ value ≤ 0x39 then some (value - 0x30)
  else if 0x61 ≤ value ∧ value ≤ 0x66 then some (value - 0x61 + 10)
  else if 0x41 ≤ value ∧ value ≤ 0x46 then some (value - 0x41 + 10)
  else none

/-- One digit of a hexadecimal value. -/
def hexDigitValue (octet : UInt8) : Except String Nat :=
  match toDigit16 octet with
  | none => .error "logical collection hexadecimal value is malformed"
  | some digit => .ok digit

/-- The pairs of a hexadecimal value; `as_chunks` leaves out an incomplete one. -/
def decodePairs : Bytes → Except String Bytes
  | high :: low :: rest => do
      let high ← hexDigitValue high
      let low ← hexDigitValue low
      let value := high <<< 4 ||| low
      if value < 256 then do
        let decoded ← decodePairs rest
        .ok (UInt8.ofNat value :: decoded)
      else .error "invalid hexadecimal byte"
  | _ => .ok []

/-- The octets of a collection value, before their length is checked. -/
def collectionBytes (value : String) : CollectionEncoding → Except String Bytes
  | .utf8 => .ok (utf8 value)
  | .base64 =>
      match Base64.decode value <|> Base64.decodeUnpadded value with
      | none => .error "logical collection base64 value is malformed"
      | some bytes => .ok bytes
  | .hex =>
      if (utf8 value).length % 2 ≠ 0 then
        .error "logical collection hexadecimal value has odd length"
      else decodePairs (utf8 value)

/-- `decode_collection_value`. -/
def decodeCollectionValue (value : String) (encoding : CollectionEncoding) :
    Except String Bytes := do
  let bytes ← collectionBytes value encoding
  if externalMigrationMaxPlaintextBytes < bytes.length then
    .error "logical collection field exceeds the 64 MiB safety limit"
  else .ok bytes

/-! ## Encoded text -/

theorem utf8_encode (bytes : Bytes) : utf8 (Base64.encode bytes) = base64Octets bytes := by
  refine utf8_of_ascii fun char member => ?_
  have digits : ∀ digit < 64, (Base64.digitChar digit).toNat < 0x80 := by decide
  rcases Base64.isTextChar_of_mem_encodeChars member with rfl | ⟨digit, small, rfl⟩
  · decide
  · exact digits digit small

theorem hexDigitValue_hexDigit {nibble : Nat} (small : nibble < 16) :
    hexDigitValue (hexDigit nibble) = .ok nibble := by
  have every : ∀ nibble < 16, toDigit16 (hexDigit nibble) = some nibble := by decide
  rw [hexDigitValue, every nibble small]

theorem nibbles_eq (byte : UInt8) :
    (byte.toNat / 16) <<< 4 ||| byte.toNat % 16 = byte.toNat := by
  have low : byte.toNat % 16 < 2 ^ 4 := Nat.mod_lt _ (by decide)
  rw [← Nat.shiftLeft_add_eq_or_of_lt low, Nat.shiftLeft_eq]
  omega

theorem decodePairs_hexOctets (bytes : Bytes) : decodePairs (hexOctets bytes) = .ok bytes := by
  induction bytes with
  | nil => rfl
  | cons byte rest ih =>
      have small := byte.toNat_lt
      have high := @hexDigitValue_hexDigit (byte.toNat / 16) (by omega)
      have low := @hexDigitValue_hexDigit (byte.toNat % 16) (by omega)
      change decodePairs (hexDigit (byte.toNat / 16) :: hexDigit (byte.toNat % 16) ::
        hexOctets rest) = _
      simp only [decodePairs, high, low, Fallible.ok_bind, nibbles_eq, ih, if_pos small,
        UInt8.ofNat_toNat]

theorem exists_text_hexOctets (bytes : Bytes) : ∃ text, fromUtf8 (hexOctets bytes) = some text := by
  have digits : ∀ nibble < 16, (hexDigit nibble).toNat < 0x80 := by decide
  have valid : Utf8.Valid (hexOctets bytes) := by
    refine Utf8.valid_of_ascii fun octet member => ?_
    obtain ⟨byte, -, member⟩ := List.mem_flatMap.mp member
    have small := byte.toNat_lt
    rcases List.mem_pair.mp member with rfl | rfl
    · exact digits _ (by omega)
    · exact digits _ (by omega)
  exact Option.isSome_iff_exists.mp (Utf8.valid_iff_isSome.mp valid)

/-! ## Every chunking -/

/-- Some octets are a text that decodes to the secret. -/
def DecodesTo (encoding : CollectionEncoding) (octets secret : Bytes) : Prop :=
  ∃ text, fromUtf8 octets = some text ∧ decodeCollectionValue text encoding = .ok secret

section Decoding

variable {secret : Bytes}

theorem decodeCollectionValue_eq {text : String} {encoding : CollectionEncoding}
    (small : secret.length ≤ externalMigrationMaxPlaintextBytes)
    (decoded : collectionBytes text encoding = .ok secret) :
    decodeCollectionValue text encoding = .ok secret := by
  rw [decodeCollectionValue, decoded]
  exact if_neg (Nat.not_lt.mpr small)

theorem decodes_hexOctets (small : secret.length ≤ externalMigrationMaxPlaintextBytes) :
    DecodesTo .hex (hexOctets secret) secret := by
  obtain ⟨text, found⟩ := exists_text_hexOctets secret
  refine ⟨text, found, decodeCollectionValue_eq small ?_⟩
  have even : (hexOctets secret).length % 2 = 0 := by
    rw [length_hexOctets]
    omega
  rw [collectionBytes, utf8_of_fromUtf8 found, if_neg (by omega), decodePairs_hexOctets]

theorem decodes_encode (small : secret.length ≤ externalMigrationMaxPlaintextBytes) :
    DecodesTo .base64 (utf8 (Base64.encode secret)) secret := by
  refine ⟨Base64.encode secret, fromUtf8_utf8 _, decodeCollectionValue_eq small ?_⟩
  rw [collectionBytes, Base64.decode_encode]
  rfl

theorem decodes_utf8 (small : secret.length ≤ externalMigrationMaxPlaintextBytes)
    (valid : Utf8.Valid secret) : DecodesTo .utf8 secret secret := by
  obtain ⟨text, found⟩ := Option.isSome_iff_exists.mp (Utf8.valid_iff_isSome.mp valid)
  refine ⟨text, found, decodeCollectionValue_eq small ?_⟩
  rw [collectionBytes, utf8_of_fromUtf8 found]

end Decoding

theorem mapError_eq_ok {α ε φ : Type} {rename : ε → φ} {result : Except ε α} {value : α} :
    result.mapError rename = .ok value ↔ result = .ok value := by
  cases result <;> simp [Except.mapError]

theorem mapError_ne_panic {α : Type} {result : Except RuntimeError α} :
    result.mapError Stop.error ≠ .error .panic := by
  cases result <;> simp [Except.mapError]

/-- However a secret is split into reads, the encoders write its encoding, never leave their
buffers, and their output decodes to the secret. -/
theorem encoders_exact (reader : Reader) (takes : Takes) (secret : Bytes)
    (start final : LimitedWriter limit) :
    ((copyHexBuffered reader takes secret start = .ok final ↔
        final.written = start.written ++ hexOctets secret) ∧
      (copyBase64Buffered reader takes secret start = .ok final ↔
        final.written = start.written ++ utf8 (Base64.encode secret)) ∧
      (copyUtf8Buffered reader takes secret start = .ok final ↔
        Utf8.Valid secret ∧ final.written = start.written ++ secret)) ∧
    (copyHexBuffered reader takes secret start ≠ .error .panic ∧
      copyBase64Buffered reader takes secret start ≠ .error .panic ∧
      copyUtf8Buffered reader takes secret start ≠ .error .panic) ∧
    (secret.length ≤ 64 * 1024 * 1024 →
      DecodesTo .hex (hexOctets secret) secret ∧
      DecodesTo .base64 (utf8 (Base64.encode secret)) secret ∧
      (Utf8.Valid secret → DecodesTo .utf8 secret secret)) := by
  rw [copyHexBuffered_eq, copyBase64Buffered_eq, copyUtf8Buffered_eq, mapError_eq_ok,
    mapError_eq_ok, mapError_eq_ok, utf8_encode]
  refine ⟨⟨?_, ?_, ?_⟩, ⟨mapError_ne_panic, mapError_ne_panic, mapError_ne_panic⟩, ?_⟩
  · exact (copyHex_appends reader.toReads secret start final).trans (iff_of_eq (true_and _))
  · exact (copyBase64_appends reader.toReads (Nat.zero_le _) secret start final).trans
      (iff_of_eq (true_and _))
  · exact copyUtf8_appends reader.toReads (Nat.zero_le _) (fun _ => rfl) secret start final
  · intro small
    rw [← utf8_encode]
    exact ⟨decodes_hexOctets small, decodes_encode small, decodes_utf8 small⟩

end NixSeal.Runtime
