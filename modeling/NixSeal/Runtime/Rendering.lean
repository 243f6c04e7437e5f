import NixSeal.Lib.Base64
import NixSeal.Lib.Sink
import NixSeal.Lib.Utf8
import NixSeal.Policy.Target
import NixSeal.Runtime.Template

/-!
# Rendering a template

Activation decrypts the secrets into a generation and copies them from there, each under the
encoding of its placeholder.  The operator's command decrypts them straight into the output.  Both
go through the source with the same visitor and stop at the same size.
-/

namespace NixSeal.Runtime

open Sink Occurrence

def maxTemplateOutputBytes : Nat := 128 * 1024 * 1024

/-- `MAX_SECRET_BYTES` of the crypto crate. -/
def maxSecretBytes : Nat := 64 * 1024 * 1024

/-! ## Reading and writing -/

/-- How much one `read` returns: something that fits, unless the input is at its end. -/
structure Reads where
  count : Bytes → Nat → Nat
  count_le : ∀ rest capacity, count rest capacity ≤ min capacity rest.length
  count_pos : ∀ rest capacity, rest ≠ [] → 0 < capacity → 0 < count rest capacity

namespace Reads

variable (reads : Reads)

/-- As much as fits. -/
def whole : Reads where
  count rest capacity := min capacity rest.length
  count_le _ _ := le_refl _
  count_pos rest capacity nonempty positive := by
    have length := List.length_pos_iff.mpr nonempty
    omega

theorem eq_nil_of_count {rest : Bytes} {capacity : Nat} (positive : 0 < capacity)
    (ended : reads.count rest capacity = 0) : rest = [] := by
  by_contra nonempty
  have read := reads.count_pos rest capacity nonempty positive
  omega

theorem length_drop_lt {rest : Bytes} {capacity : Nat} (read : reads.count rest capacity ≠ 0) :
    (rest.drop (reads.count rest capacity)).length < rest.length := by
  have bound := reads.count_le rest capacity
  rw [List.length_drop]
  omega

end Reads

/-- `LimitedWriter`: what has been written stays within the limit. -/
structure LimitedWriter (limit : Nat) where
  written : Bytes
  within : written.length ≤ limit

instance (limit : Nat) : Sink (LimitedWriter limit) UInt8 where
  written := LimitedWriter.written
  written_injective := by
    rintro ⟨left, _⟩ ⟨right, _⟩ same
    cases same
    rfl
  exists_prefix final front back split := by
    have within := final.within
    rw [split, List.length_append] at within
    exact ⟨⟨front, by omega⟩, rfl⟩

namespace LimitedWriter

variable {limit : Nat}

/-- `LimitedWriter::new`. -/
def new (limit : Nat) : LimitedWriter limit := ⟨[], Nat.zero_le _⟩

/-- `template_write_all`. -/
def writeAll (writer : LimitedWriter limit) (bytes : Bytes) :
    Except RuntimeError (LimitedWriter limit) :=
  if fits : bytes.length ≤ limit - writer.written.length then
    .ok ⟨writer.written ++ bytes, by
      have within := writer.within
      rw [List.length_append]
      omega⟩
  else .error .limit

theorem writeAll_appends (bytes : Bytes) :
    Appends (fun writer : LimitedWriter limit => writer.writeAll bytes) True bytes := by
  intro start final
  have start_within := start.within
  have final_within := final.within
  change start.writeAll bytes = .ok final ↔ True ∧ final.written = start.written ++ bytes
  unfold writeAll
  split
  · rename_i fits
    obtain ⟨written, within⟩ := final
    simp [eq_comm]
  · rename_i long
    simp only [reduceCtorEq, true_and, false_iff]
    intro same
    rw [same, List.length_append] at final_within
    omega

end LimitedWriter

/-! ## Copying a secret -/

variable {limit : Nat}

/-- `copy_utf8`. -/
def copyUtf8 (reads : Reads) (carried rest : Bytes) (writer : LimitedWriter limit) :
    Except RuntimeError (LimitedWriter limit) :=
  let read := reads.count rest (8 * 1024 + 3 - carried.length)
  if _ended : read = 0 then
    if carried.length ≠ 0 then .error .templateEncoding else .ok writer
  else
    match Utf8.cut (carried ++ rest.take read) with
    | none => .error .templateEncoding
    | some (valid, incomplete) => do
        let writer ← writer.writeAll valid
        if incomplete.length > 3 then .error .templateEncoding
        else copyUtf8 reads incomplete (rest.drop read) writer
termination_by rest.length
decreasing_by exact reads.length_drop_lt _ended

/-- `Engine::encode_slice` with the standard engine. -/
def base64Octets (bytes : Bytes) : Bytes := (Base64.encodeChars bytes).map Char.toUInt8

/-- `copy_base64`. -/
def copyBase64 (reads : Reads) (carried rest : Bytes) (writer : LimitedWriter limit) :
    Except RuntimeError (LimitedWriter limit) :=
  let read := reads.count rest (8 * 1024 + 2 - carried.length)
  let input := carried ++ rest.take read
  let complete := if read = 0 then input.length else input.length / 3 * 3
  let encoded := base64Octets (input.take complete)
  if encoded.length > 11 * 1024 then .error .limit
  else do
    let writer ← writer.writeAll encoded
    if _ended : read = 0 then .ok writer
    else copyBase64 reads (input.drop complete) (rest.drop read) writer
termination_by rest.length
decreasing_by exact reads.length_drop_lt _ended

/-- A digit of the table `HEX`. -/
def hexDigit (nibble : Nat) : UInt8 :=
  if nibble < 10 then UInt8.ofNat (0x30 + nibble) else UInt8.ofNat (0x57 + nibble)

/-- Two digits for every octet. -/
def hexOctets (bytes : Bytes) : Bytes :=
  bytes.flatMap fun byte => [hexDigit (byte.toNat / 16), hexDigit (byte.toNat % 16)]

/-- `copy_hex`. -/
def copyHex (reads : Reads) (rest : Bytes) (writer : LimitedWriter limit) :
    Except RuntimeError (LimitedWriter limit) :=
  let read := reads.count rest (8 * 1024)
  if _ended : read = 0 then .ok writer
  else do
    let writer ← writer.writeAll (hexOctets (rest.take read))
    copyHex reads (rest.drop read) writer
termination_by rest.length
decreasing_by exact reads.length_drop_lt _ended

/-- `std::io::copy`, to any output. -/
def ioCopy {σ : Type} (reads : Reads) (write : σ → Bytes → Except RuntimeError σ) (rest : Bytes)
    (output : σ) : Except RuntimeError σ :=
  let read := reads.count rest (8 * 1024)
  if _ended : read = 0 then .ok output
  else do
    let output ← write output (rest.take read)
    ioCopy reads write (rest.drop read) output
termination_by rest.length
decreasing_by exact reads.length_drop_lt _ended

/-- `nix_seal_crypto::decrypt`, given the plaintext behind the ciphertext. -/
def decrypt {σ : Type} (reads : Reads) (write : σ → Bytes → Except RuntimeError σ)
    (plaintext : Bytes) (output : σ) : Except RuntimeError σ := do
  let output ← (ioCopy reads write (plaintext.take maxSecretBytes) output).mapError
    fun _ => .crypto
  if maxSecretBytes < plaintext.length then .error .crypto else .ok output

/-! ## The two renderings -/

/-- The visitor of `render_template_into`. -/
def renderPart (renderPlaceholder : PlaceholderSpec → LimitedWriter limit →
    Except RuntimeError (LimitedWriter limit)) (writer : LimitedWriter limit) :
    TemplatePart → Except RuntimeError (LimitedWriter limit)
  | .literal bytes => writer.writeAll bytes
  | .placeholder spec => renderPlaceholder spec writer

/-- `render_template_into`, with the whole output. -/
def renderTemplateInto (source : Bytes) (placeholders : Placeholders)
    (renderPlaceholder : PlaceholderSpec → LimitedWriter maxTemplateOutputBytes →
      Except RuntimeError (LimitedWriter maxTemplateOutputBytes)) : Except RuntimeError Bytes :=
  (visitTemplateSource (renderPart renderPlaceholder) source placeholders
    (LimitedWriter.new maxTemplateOutputBytes)).map LimitedWriter.written

/-- An uncommitted generation: the secrets decrypted into it. -/
structure Generation where
  files : Std.TreeMap Id Bytes

/-- A secret copied under the encoding of its placeholder. -/
def copySecret (reads : Reads) (secret : Bytes) (writer : LimitedWriter limit) :
    TemplateEncoding → Except RuntimeError (LimitedWriter limit)
  | .utf8 => copyUtf8 reads [] secret writer
  | .base64 => copyBase64 reads [] secret writer
  | .hex => copyHex reads secret writer

namespace Generation

/-- The callback of `Generation::render_template`. -/
def renderPlaceholder (reads : Reads) (generation : Generation) (spec : PlaceholderSpec)
    (writer : LimitedWriter limit) : Except RuntimeError (LimitedWriter limit) :=
  match generation.files[spec.secretId]? with
  | none => .error .io
  | some secret =>
      if secret.length > maxCiphertextBytes then .error .limit
      else copySecret reads secret writer spec.encoding

/-- A secret decrypted into a file of its own. -/
def store (reads : Reads) (plaintext : Id → Bytes) (generation : Generation) (secretId : Id) :
    Except RuntimeError Generation := do
  let bytes ← decrypt reads (fun written chunk => .ok (written ++ chunk)) (plaintext secretId) []
  .ok ⟨generation.files.insert secretId bytes⟩

end Generation

theorem copyUtf8_appends (reads : Reads) {carried : Bytes} (short : carried.length ≤ 3)
    (incomplete : Utf8.Valid carried → carried = []) (rest : Bytes) :
    Appends (fun writer : LimitedWriter limit => copyUtf8 reads carried rest writer)
      (Utf8.Valid (carried ++ rest)) (carried ++ rest) := by
  induction size : rest.length using Nat.strong_induction_on generalizing carried rest with
  | _ length ih =>
      have capacity : 0 < 8 * 1024 + 3 - carried.length := by omega
      by_cases ended : reads.count rest (8 * 1024 + 3 - carried.length) = 0
      · have unfolded : (fun writer : LimitedWriter limit => copyUtf8 reads carried rest writer) =
            fun writer => if carried.length ≠ 0 then .error .templateEncoding else .ok writer := by
          funext writer
          rw [copyUtf8, dif_pos ended]
        rw [unfolded, reads.eq_nil_of_count capacity ended, List.append_nil]
        refine (Appends.nothing.guard).congr ?_ fun valid => (incomplete valid).symm
        rw [not_not, List.length_eq_zero_iff, and_true]
        exact ⟨fun empty => by rw [empty]; exact Utf8.valid_nil, incomplete⟩
      · have read_split : carried ++ rest =
            carried ++ rest.take (reads.count rest (8 * 1024 + 3 - carried.length)) ++
              rest.drop (reads.count rest (8 * 1024 + 3 - carried.length)) := by
          rw [List.append_assoc, List.take_append_drop]
        cases found : Utf8.cut
            (carried ++ rest.take (reads.count rest (8 * 1024 + 3 - carried.length))) with
        | none =>
            have unfolded : (fun writer : LimitedWriter limit => copyUtf8 reads carried rest writer) =
                fun _ => .error .templateEncoding := by
              funext writer
              rw [copyUtf8, dif_neg ended, found]
            rw [unfolded, read_split]
            exact Appends.refused (Utf8.not_valid_of_cut_eq_none found _)
        | some parts =>
            obtain ⟨valid, left⟩ := parts
            have cut := Utf8.cut_eq_some found
            have unfolded : (fun writer : LimitedWriter limit => copyUtf8 reads carried rest writer) =
                fun writer => writer.writeAll valid >>= fun writer => copyUtf8 reads left
                  (rest.drop (reads.count rest (8 * 1024 + 3 - carried.length))) writer := by
              funext writer
              rw [copyUtf8, dif_neg ended, found]
              simp only [if_neg (Nat.not_lt.mpr cut.short)]
            have later := ih _ (size ▸ reads.length_drop_lt ended) cut.short cut.closed _ rfl
            rw [unfolded, read_split, cut.split, List.append_assoc]
            refine ((LimitedWriter.writeAll_appends valid).bind later).congr ?_ fun _ => rfl
            rw [true_and, Utf8.valid_append_iff cut.valid]

theorem length_base64Octets (bytes : Bytes) :
    (base64Octets bytes).length = (bytes.length + 2) / 3 * 4 := by
  rw [base64Octets, List.length_map, Base64.length_encodeChars]

theorem base64Octets_append {front : Bytes} (groups : 3 ∣ front.length) (back : Bytes) :
    base64Octets (front ++ back) = base64Octets front ++ base64Octets back := by
  rw [base64Octets, Base64.encodeChars_append groups, List.map_append]
  rfl

theorem copyBase64_appends (reads : Reads) {carried : Bytes} (short : carried.length ≤ 2)
    (rest : Bytes) :
    Appends (fun writer : LimitedWriter limit => copyBase64 reads carried rest writer) True
      (base64Octets (carried ++ rest)) := by
  induction size : rest.length using Nat.strong_induction_on generalizing carried rest with
  | _ length ih =>
      have capacity : 0 < 8 * 1024 + 2 - carried.length := by omega
      have bound := reads.count_le rest (8 * 1024 + 2 - carried.length)
      by_cases ended : reads.count rest (8 * 1024 + 2 - carried.length) = 0
      · have small : ¬(base64Octets carried).length > 11 * 1024 := by
          rw [length_base64Octets]
          omega
        have unfolded : (fun writer : LimitedWriter limit => copyBase64 reads carried rest writer) =
            fun writer => writer.writeAll (base64Octets carried) >>= Except.ok := by
          funext writer
          rw [copyBase64]
          simp only [ended, if_true, List.take_zero, List.append_nil, List.take_length,
            if_neg small, dite_true]
        rw [unfolded, reads.eq_nil_of_count capacity ended, List.append_nil]
        exact ((LimitedWriter.writeAll_appends _).bind Appends.nothing).congr (by simp)
          fun _ => List.append_nil _
      · have fits : (carried ++ rest.take
            (reads.count rest (8 * 1024 + 2 - carried.length))).length ≤ 8 * 1024 + 2 := by
          rw [List.length_append, List.length_take]
          omega
        generalize readEq : reads.count rest (8 * 1024 + 2 - carried.length) = read at *
        generalize inputEq : carried ++ rest.take read = input at *
        have small : ¬(base64Octets (input.take (input.length / 3 * 3))).length > 11 * 1024 := by
          rw [length_base64Octets, List.length_take]
          omega
        have unfolded : (fun writer : LimitedWriter limit => copyBase64 reads carried rest writer) =
            fun writer => writer.writeAll (base64Octets (input.take (input.length / 3 * 3))) >>=
              fun writer => copyBase64 reads (input.drop (input.length / 3 * 3)) (rest.drop read)
                writer := by
          funext writer
          rw [copyBase64]
          simp only [readEq, inputEq, if_neg ended, if_neg small, dif_neg ended]
        have left : (input.drop (input.length / 3 * 3)).length ≤ 2 := by
          rw [List.length_drop]
          omega
        have shorter : (rest.drop read).length < length := by
          rw [List.length_drop]
          omega
        have groups : 3 ∣ (input.take (input.length / 3 * 3)).length := by
          rw [List.length_take, Nat.min_eq_left (Nat.div_mul_le_self _ _)]
          exact Nat.dvd_mul_left 3 _
        have split : carried ++ rest = input.take (input.length / 3 * 3) ++
            (input.drop (input.length / 3 * 3) ++ rest.drop read) := by
          rw [← List.append_assoc, List.take_append_drop, ← inputEq, List.append_assoc,
            List.take_append_drop]
        rw [unfolded, split, base64Octets_append groups]
        exact ((LimitedWriter.writeAll_appends _).bind (ih _ shorter left _ rfl)).congr (by simp)
          fun _ => rfl

theorem hexOctets_append (front back : Bytes) :
    hexOctets (front ++ back) = hexOctets front ++ hexOctets back :=
  List.flatMap_append

/-- A copy appends two digits for every octet of the secret. -/
theorem copyHex_appends (reads : Reads) (rest : Bytes) :
    Appends (fun writer : LimitedWriter limit => copyHex reads rest writer) True
      (hexOctets rest) := by
  induction size : rest.length using Nat.strong_induction_on generalizing rest with
  | _ length ih =>
      by_cases ended : reads.count rest (8 * 1024) = 0
      · have unfolded : (fun writer : LimitedWriter limit => copyHex reads rest writer) =
            Except.ok := by
          funext writer
          rw [copyHex, dif_pos ended]
        rw [unfolded, reads.eq_nil_of_count (by decide) ended]
        exact Appends.nothing
      · have unfolded : (fun writer : LimitedWriter limit => copyHex reads rest writer) =
            fun writer => writer.writeAll (hexOctets (rest.take (reads.count rest (8 * 1024)))) >>=
              fun writer => copyHex reads (rest.drop (reads.count rest (8 * 1024))) writer := by
          funext writer
          rw [copyHex, dif_neg ended]
        have later := ih _ (size ▸ reads.length_drop_lt ended) _ rfl
        rw [unfolded]
        refine ((LimitedWriter.writeAll_appends _).bind later).congr (by simp) fun _ => ?_
        rw [← hexOctets_append, List.take_append_drop]

theorem ioCopy_appends {σ : Type} [Sink σ UInt8] (reads : Reads)
    {write : σ → Bytes → Except RuntimeError σ}
    (writes : ∀ chunk, Appends (fun output => write output chunk) True chunk) (rest : Bytes) :
    Appends (fun output => ioCopy reads write rest output) True rest := by
  induction size : rest.length using Nat.strong_induction_on generalizing rest with
  | _ length ih =>
      by_cases ended : reads.count rest (8 * 1024) = 0
      · have unfolded : (fun output => ioCopy reads write rest output) = Except.ok := by
          funext output
          rw [ioCopy, dif_pos ended]
        rw [unfolded, reads.eq_nil_of_count (by decide) ended]
        exact Appends.nothing
      · have unfolded : (fun output => ioCopy reads write rest output) =
            fun output => write output (rest.take (reads.count rest (8 * 1024))) >>=
              fun output => ioCopy reads write (rest.drop (reads.count rest (8 * 1024))) output := by
          funext output
          rw [ioCopy, dif_neg ended]
        have later := ih _ (size ▸ reads.length_drop_lt ended) _ rfl
        rw [unfolded]
        refine ((writes _).bind later).congr (by simp) fun _ => ?_
        rw [List.take_append_drop]

theorem decrypt_appends {σ : Type} [Sink σ UInt8] (reads : Reads)
    {write : σ → Bytes → Except RuntimeError σ}
    (writes : ∀ chunk, Appends (fun output => write output chunk) True chunk) (plaintext : Bytes) :
    Appends (fun output => decrypt reads write plaintext output)
      (plaintext.length ≤ maxSecretBytes) plaintext := by
  have copied : Appends (fun output : σ =>
      (ioCopy reads write (plaintext.take maxSecretBytes) output).mapError fun _ =>
        RuntimeError.crypto) True (plaintext.take maxSecretBytes) :=
    (ioCopy_appends reads writes _).mapError
  have checked : Appends (fun output : σ =>
      if maxSecretBytes < plaintext.length then .error RuntimeError.crypto else .ok output)
      (¬maxSecretBytes < plaintext.length ∧ True) [] :=
    Appends.nothing.guard
  refine (copied.bind checked).congr ?_ fun fits => ?_
  · simp
  · rw [List.take_of_length_le fits, List.append_nil]

/-! ## Expansions -/

/-- What a placeholder is replaced by during activation. -/
def TemplateEncoding.octets : TemplateEncoding → Bytes → Bytes
  | .utf8, secret => secret
  | .base64, secret => base64Octets secret
  | .hex, secret => hexOctets secret

/-- The secrets that activation inserts as they are. -/
def TemplateEncoding.Plain : TemplateEncoding → Bytes → Prop
  | .utf8, secret => Utf8.Valid secret
  | .base64, secret => secret = []
  | .hex, secret => secret = []

/-- The octets that stand for a part. -/
def TemplatePart.text (text : PlaceholderSpec → Bytes) : TemplatePart → Bytes
  | .literal bytes => bytes
  | .placeholder spec => text spec

section Visiting

variable {source : Bytes} {placeholders : Placeholders}

theorem mem_resolved_iff {found : List Piece} {parts : List TemplatePart}
    (resolved : found.mapM (Piece.resolve placeholders) = some parts) {part : TemplatePart} :
    part ∈ parts ↔ ∃ piece ∈ found, piece.resolve placeholders = some part := by
  induction found generalizing parts with
  | nil =>
      cases resolved
      simp
  | cons piece rest ih =>
      rw [List.mapM_cons] at resolved
      obtain ⟨first, resolved_first, resolved⟩ := Option.bind_eq_some_iff.mp resolved
      obtain ⟨others, resolved_others, same⟩ := Option.bind_eq_some_iff.mp resolved
      cases same
      simp [ih resolved_others, resolved_first, eq_comm]

end Visiting

/-! ## One template, two renderings -/

section Renderings

variable {template : Template} {source : Bytes} {plaintext : Id → Bytes}

/-- The secrets behind a template, all of them short enough to be decrypted. -/
def Decryptable (template : Template) (plaintext : Id → Bytes) : Prop :=
  ∀ (name : String) (placeholder : TemplatePlaceholder),
    template.placeholders[name]? = some placeholder →
      (plaintext placeholder.secret).length ≤ maxSecretBytes

end Renderings

namespace Sample

/-- A source that is one placeholder. -/
def source : String := "\x7b\x7bnix-seal:token\x7d\x7d"

/-- A template that inserts the sample secret under an encoding. -/
def template (encoding : NixSeal.TemplateEncoding) : Template where
  source := "app.conf"
  placeholders := Std.TreeMap.ofList [("token", TemplatePlaceholder.mk Policy.Sample.token encoding)]

/-- The sample plan with such a template. -/
def plan (encoding : NixSeal.TemplateEncoding) : Plan :=
  { Policy.Sample.plan with
    templates := Std.TreeMap.ofList [(Policy.Sample.fleet, template encoding)] }

theorem validate_plan (encoding : NixSeal.TemplateEncoding) :
    Policy.validate Policy.Sample.environment (plan encoding) = .ok () := by
  cases encoding with
  | utf8 => exact Policy.Sample.validate_of_identities rfl rfl rfl (by decide) (by decide +kernel)
  | base64 => exact Policy.Sample.validate_of_identities rfl rfl rfl (by decide) (by decide +kernel)
  | hex => exact Policy.Sample.validate_of_identities rfl rfl rfl (by decide) (by decide +kernel)

end Sample

end NixSeal.Runtime
