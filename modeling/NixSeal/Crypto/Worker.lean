import NixSeal.Crypto.Barrier
import NixSeal.Lib.ExactReads

/-!
# The frames between an operation and its worker

A request is written as a frame: magic, code, identity, recipients and payload.  The frames that a
worker decodes are exactly the frames of requests within the limits, the limits are those of the
writer, and a worker reads no further than the lengths in the frame say.
-/

namespace NixSeal.Crypto

open ExactReads Fallible

/-! ## The format -/

/-- The texts that fit into a field. -/
def FitsField (text : String) : Prop :=
  utf8 text ≠ [] ∧ (utf8 text).length ≤ maxPluginFieldBytes

/-- A field behind its length. -/
def fieldOctets (text : String) : Bytes := Manifest.beU32 (utf8 text).length ++ utf8 text

/-- An absent identity has length zero. -/
def identityOctets : Option String → Bytes
  | none => Manifest.beU32 0
  | some identity => fieldOctets identity

namespace PluginRequest

/-- The frame in front of the payload. -/
def head (request : PluginRequest) : Bytes :=
  pluginWorkerMagic ++ ([request.kind.code] ++ (identityOctets request.identity ++
    (Manifest.beU32 request.recipients.length ++ request.recipients.flatMap fieldOctets)))

/-- The frame of a request. -/
def octets (request : PluginRequest) : Bytes := request.head ++ request.payload

/-- The limits on the fields of a request. -/
structure Admissible (request : PluginRequest) : Prop where
  identity : ∀ identity ∈ request.identity, FitsField identity
  count : request.recipients.length ≤ maxPluginRecipients
  recipients : ∀ recipient ∈ request.recipients, FitsField recipient

end PluginRequest

/-! ## What is written -/

theorem writePluginField_eq_ok {text : String} {field : Bytes} :
    writePluginField (utf8 text) = .ok field ↔ FitsField text ∧ field = fieldOctets text := by
  rw [writePluginField, guard_eq_ok]
  simp only [Bool.or_eq_true, decide_eq_true_eq, not_or, not_lt, List.isEmpty_iff, FitsField,
    fieldOctets, Except.ok.injEq, ne_eq]
  exact and_congr_right fun _ => eq_comm

theorem writePluginIdentity_eq_ok {identity : Option String} {field : Bytes} :
    writePluginIdentity identity = .ok field ↔
      (∀ text ∈ identity, FitsField text) ∧ field = identityOctets identity := by
  cases identity with
  | none => simp [writePluginIdentity, identityOctets, eq_comm]
  | some identity => simp [writePluginIdentity, writePluginField_eq_ok, identityOctets]

theorem writePluginRecipients_eq_ok {recipients : List String} {fields : List Bytes} :
    recipients.mapM (fun recipient => writePluginField (utf8 recipient)) = .ok fields ↔
      (∀ recipient ∈ recipients, FitsField recipient) ∧ fields = recipients.map fieldOctets := by
  rw [mapM_eq_ok]
  constructor
  · intro pairs
    induction pairs with
    | nil => simp
    | cons first _ ih =>
        obtain ⟨fits, rfl⟩ := writePluginField_eq_ok.mp first
        obtain ⟨others, rfl⟩ := ih
        exact ⟨List.forall_mem_cons.mpr ⟨fits, others⟩, rfl⟩
  · rintro ⟨fits, rfl⟩
    induction recipients with
    | nil => exact .nil
    | cons recipient recipients ih =>
        obtain ⟨here, others⟩ := List.forall_mem_cons.mp fits
        exact .cons (writePluginField_eq_ok.mpr ⟨here, rfl⟩) (ih others)

/-- The writer accepts the requests within the limits, and writes their frames. -/
theorem writePluginRequest_eq_ok {request : PluginRequest} {frame : Bytes} :
    writePluginRequest request = .ok frame ↔
      request.Admissible ∧ request.payload.length ≤ request.kind.inputLimit ∧
        frame = request.octets := by
  have flattened : (request.recipients.map fieldOctets).flatten =
      request.recipients.flatMap fieldOctets := List.flatMap_def.symm
  rw [writePluginRequest, bind_eq_ok]
  simp only [writePluginIdentity_eq_ok, guard_eq_ok, bind_eq_ok, writePluginRecipients_eq_ok,
    Except.ok.injEq, not_lt]
  constructor
  · rintro ⟨identity, ⟨fits, rfl⟩, few, fields, ⟨others, rfl⟩, size, rfl⟩
    refine ⟨⟨fits, few, others⟩, size, ?_⟩
    simp [PluginRequest.octets, PluginRequest.head, flattened]
  · rintro ⟨⟨fits, few, others⟩, size, rfl⟩
    refine ⟨_, ⟨fits, rfl⟩, few, _, ⟨others, rfl⟩, size, ?_⟩
    simp [PluginRequest.octets, PluginRequest.head, flattened]

/-! ## What is read -/

theorem readExact_eq_ok {length : Nat} {input bytes rest : Bytes} :
    readExact length input = .ok (bytes, rest) ↔ bytes.length = length ∧ input = bytes ++ rest := by
  rw [readExact, guard_eq_ok]
  simp only [Except.ok.injEq, Prod.mk.injEq, not_lt]
  constructor
  · rintro ⟨enough, rfl, rfl⟩
    simp [enough]
  · rintro ⟨rfl, rfl⟩
    simp

theorem beU32_of_octets {bytes : Bytes} (four : bytes.length = 4) :
    bytes.foldl (fun value byte => value * 256 + byte.toNat) 0 < 2 ^ 32 ∧
      Manifest.beU32 (bytes.foldl (fun value byte => value * 256 + byte.toNat) 0) = bytes := by
  match bytes, four with
  | [first, second, third, fourth], _ =>
      have bounds := And.intro first.toNat_lt (And.intro second.toNat_lt
        (And.intro third.toNat_lt fourth.toNat_lt))
      simp only [List.foldl_cons, List.foldl_nil, Manifest.beU32]
      refine ⟨by omega, ?_⟩
      simp only [List.cons.injEq, ← UInt8.toNat_inj, UInt8.toNat_ofNat', and_true]
      omega

theorem readPluginU32_eq_ok {input rest : Bytes} {value : Nat} :
    readPluginU32 input = .ok (value, rest) ↔
      value < 2 ^ 32 ∧ input = Manifest.beU32 value ++ rest := by
  constructor
  · intro read
    obtain ⟨⟨bytes, later⟩, exact, returned⟩ := bind_eq_ok.mp read
    cases returned
    obtain ⟨four, rfl⟩ := readExact_eq_ok.mp exact
    obtain ⟨small, same⟩ := beU32_of_octets four
    exact ⟨small, by rw [same]⟩
  · rintro ⟨small, rfl⟩
    exact readPluginU32_beU32 small rest

theorem readPluginField_eq_ok_some {input rest : Bytes} {isOptional : Bool} {text : String} :
    readPluginField input isOptional = .ok (some text, rest) ↔
      FitsField text ∧ input = fieldOctets text ++ rest := by
  constructor
  · intro read
    obtain ⟨⟨length, later⟩, word, body⟩ := bind_eq_ok.mp read
    obtain ⟨-, rfl⟩ := readPluginU32_eq_ok.mp word
    dsimp only at body
    split at body
    · split at body <;> cases body
    · rename_i positive
      rw [guard_eq_ok, not_lt] at body
      obtain ⟨bounded, body⟩ := body
      obtain ⟨⟨bytes, last⟩, exact, decodes⟩ := bind_eq_ok.mp body
      obtain ⟨rfl, rfl⟩ := readExact_eq_ok.mp exact
      dsimp only at decodes
      split at decodes
      · cases decodes
      · rename_i decoded
        cases decodes
        have octets := utf8_of_fromUtf8 decoded
        subst octets
        exact ⟨⟨by simpa using positive, bounded⟩, by simp [fieldOctets]⟩
  · rintro ⟨⟨nonempty, bounded⟩, rfl⟩
    have written := writePluginField_eq_ok.mpr ⟨⟨nonempty, bounded⟩, rfl⟩
    exact readPluginField_writePluginField isOptional written rest

theorem readPluginField_eq_ok_none {input rest : Bytes} {isOptional : Bool} :
    readPluginField input isOptional = .ok (none, rest) ↔
      isOptional = true ∧ input = Manifest.beU32 0 ++ rest := by
  constructor
  · intro read
    obtain ⟨⟨length, later⟩, word, body⟩ := bind_eq_ok.mp read
    obtain ⟨-, rfl⟩ := readPluginU32_eq_ok.mp word
    dsimp only at body
    split at body
    · rename_i zero
      subst zero
      split at body
      · rename_i here
        cases body
        exact ⟨here, rfl⟩
      · cases body
    · rw [guard_eq_ok] at body
      obtain ⟨⟨bytes, last⟩, -, decodes⟩ := bind_eq_ok.mp body.2
      dsimp only at decodes
      split at decodes <;> cases decodes
  · rintro ⟨rfl, rfl⟩
    exact @readPluginField_writePluginIdentity none _ rfl rest

theorem readPluginIdentity_eq_ok {input rest : Bytes} {identity : Option String} :
    readPluginField input true = .ok (identity, rest) ↔
      (∀ text ∈ identity, FitsField text) ∧ input = identityOctets identity ++ rest := by
  cases identity with
  | none => simp [readPluginField_eq_ok_none, identityOctets]
  | some identity => simp [readPluginField_eq_ok_some, identityOctets]

theorem readPluginRecipients_eq_ok {count : Nat} {input rest : Bytes} {recipients : List String} :
    readPluginRecipients count input = .ok (recipients, rest) ↔
      recipients.length = count ∧ (∀ recipient ∈ recipients, FitsField recipient) ∧
        input = recipients.flatMap fieldOctets ++ rest := by
  induction count generalizing input recipients with
  | zero =>
      simp only [readPluginRecipients, Except.ok.injEq, Prod.mk.injEq, List.length_eq_zero_iff]
      constructor
      · rintro ⟨rfl, rfl⟩
        simp
      · rintro ⟨rfl, -, rfl⟩
        simp
  | succ count ih =>
      constructor
      · intro read
        obtain ⟨⟨field, later⟩, first, others⟩ := bind_eq_ok.mp read
        cases field with
        | none => cases others
        | some recipient =>
            obtain ⟨fits, rfl⟩ := readPluginField_eq_ok_some.mp first
            obtain ⟨⟨rest', last⟩, more, returned⟩ := bind_eq_ok.mp others
            cases returned
            obtain ⟨length, each, rfl⟩ := ih.mp more
            refine ⟨by simp [length], List.forall_mem_cons.mpr ⟨fits, each⟩, by simp⟩
      · rintro ⟨length, each, rfl⟩
        cases recipients with
        | nil => simp at length
        | cons recipient recipients =>
            obtain ⟨here, others⟩ := List.forall_mem_cons.mp each
            have first : readPluginField
                (fieldOctets recipient ++ (recipients.flatMap fieldOctets ++ rest)) false =
                .ok (some recipient, recipients.flatMap fieldOctets ++ rest) :=
              readPluginField_eq_ok_some.mpr ⟨here, rfl⟩
            have more := ih.mpr ⟨by simpa using length, others,
              (rfl : recipients.flatMap fieldOctets ++ rest = _)⟩
            rw [readPluginRecipients, List.flatMap_cons, List.append_assoc, first, ok_bind]
            dsimp only
            rw [more, ok_bind]

theorem operationOfCode_eq_ok {code : UInt8} {kind : OperationKind} :
    operationOfCode code = .ok kind ↔ code = kind.code := by
  constructor
  · intro known
    unfold operationOfCode at known
    split_ifs at known <;> cases known <;> assumption
  · rintro rfl
    exact operationOfCode_code kind

/-- The worker decodes exactly the frames of the requests within the limits. -/
theorem readPluginRequest_eq_ok {frame : Bytes} {request : PluginRequest} :
    readPluginRequest frame = .ok request ↔ request.Admissible ∧ frame = request.octets := by
  constructor
  · intro read
    obtain ⟨⟨magic, behindMagic⟩, first, afterMagic⟩ := bind_eq_ok.mp read
    obtain ⟨-, rfl⟩ := readExact_eq_ok.mp first
    rw [guard_eq_ok, not_not] at afterMagic
    obtain ⟨rfl, body⟩ := afterMagic
    obtain ⟨⟨code, behindCode⟩, second, afterCode⟩ := bind_eq_ok.mp body
    obtain ⟨one, rfl⟩ := readExact_eq_ok.mp second
    obtain ⟨octet, rfl⟩ := List.length_eq_one_iff.mp one
    obtain ⟨kind, known, afterKind⟩ := bind_eq_ok.mp afterCode
    obtain ⟨⟨identity, behindIdentity⟩, third, afterIdentity⟩ := bind_eq_ok.mp afterKind
    obtain ⟨fits, rfl⟩ := readPluginIdentity_eq_ok.mp third
    obtain ⟨⟨count, behindCount⟩, fourth, afterCount⟩ := bind_eq_ok.mp afterIdentity
    obtain ⟨-, rfl⟩ := readPluginU32_eq_ok.mp fourth
    rw [guard_eq_ok, not_lt] at afterCount
    obtain ⟨few, listed⟩ := afterCount
    obtain ⟨⟨recipients, payload⟩, fifth, returned⟩ := bind_eq_ok.mp listed
    obtain ⟨rfl, others, rfl⟩ := readPluginRecipients_eq_ok.mp fifth
    cases returned
    refine ⟨⟨fits, few, others⟩, ?_⟩
    have code : octet = kind.code := operationOfCode_eq_ok.mp known
    simp [PluginRequest.octets, PluginRequest.head, code]
  · rintro ⟨⟨fits, few, others⟩, rfl⟩
    have small : request.recipients.length < 2 ^ 32 := lt_of_le_of_lt few (by decide)
    rw [readPluginRequest, PluginRequest.octets, PluginRequest.head]
    simp only [List.append_assoc]
    rw [readExact_eq_ok.mpr ⟨rfl, rfl⟩, ok_bind]
    dsimp only
    have one : [request.kind.code].length = 1 := rfl
    rw [if_neg (not_not.mpr rfl), readExact_eq_ok.mpr ⟨one, rfl⟩, ok_bind]
    simp only [List.headD_cons, operationOfCode_code, ok_bind,
      readPluginIdentity_eq_ok.mpr ⟨fits, rfl⟩, readPluginU32_beU32 small,
      if_neg (not_lt.mpr few), readPluginRecipients_eq_ok.mpr ⟨rfl, others, rfl⟩]

/-! ## How far is read -/

/-- `read_plugin_u32`. -/
def pluginU32 : Reader UInt8 CryptoError Nat := do
  let bytes ← Reader.take 4
  pure (bytes.foldl (fun value byte => value * 256 + byte.toNat) 0)

/-- `read_plugin_field`. -/
def pluginField (isOptional : Bool) : Reader UInt8 CryptoError (Option String) := do
  let length ← pluginU32
  if length = 0 then (if isOptional then pure none else Reader.fail .plugin)
  else if maxPluginFieldBytes < length then Reader.fail .plugin
  else do
    let bytes ← Reader.take length
    match fromUtf8 bytes with
    | none => Reader.fail .plugin
    | some text => pure (some text)

/-- The loop over the recipients. -/
def pluginRecipients : Nat → Reader UInt8 CryptoError (List String)
  | 0 => pure []
  | count + 1 => do
      let field ← pluginField false
      match field with
      | none => Reader.fail .plugin
      | some recipient => do
          let recipients ← pluginRecipients count
          pure (recipient :: recipients)

/-- The fields behind the code. -/
def pluginFields : Reader UInt8 CryptoError (Option String × List String) := do
  let identity ← pluginField true
  let count ← pluginU32
  if maxPluginRecipients < count then Reader.fail .plugin
  else do
    let recipients ← pluginRecipients count
    pure (identity, recipients)

/-- The calls of `read_exact` before a worker starts. -/
def pluginRequest : Reader UInt8 CryptoError (OperationKind × Option String × List String) := do
  let magic ← Reader.take pluginWorkerMagic.length
  if magic ≠ pluginWorkerMagic then Reader.fail .plugin
  else do
    let code ← Reader.take 1
    match operationOfCode (code.headD 0) with
    | .error error => Reader.fail error
    | .ok kind => do
        let fields ← pluginFields
        pure (kind, fields)

theorem run_pluginU32 (input : Bytes) : pluginU32.run .plugin input = readPluginU32 input := by
  rw [pluginU32, Reader.run_bind, Reader.run_take, readPluginU32, readExact]
  split <;> rfl

theorem run_pluginField (isOptional : Bool) (input : Bytes) :
    (pluginField isOptional).run .plugin input = readPluginField input isOptional := by
  rw [pluginField, Reader.run_bind, run_pluginU32, readPluginField]
  cases readPluginU32 input with
  | error error => rfl
  | ok found =>
      simp only [ok_bind]
      split
      · split <;> rfl
      · split
        · rfl
        · rw [Reader.run_bind, Reader.run_take, readExact]
          split
          · rfl
          · simp only [ok_bind]
            cases fromUtf8 (found.2.take found.1) <;> rfl

theorem run_pluginRecipients (count : Nat) (input : Bytes) :
    (pluginRecipients count).run .plugin input = readPluginRecipients count input := by
  induction count generalizing input with
  | zero => rfl
  | succ count ih =>
      rw [pluginRecipients, Reader.run_bind, run_pluginField, readPluginRecipients]
      cases readPluginField input false with
      | error error => rfl
      | ok found =>
          obtain ⟨field, rest⟩ := found
          simp only [ok_bind]
          cases field with
          | none => rfl
          | some recipient =>
              dsimp only
              rw [Reader.run_bind, ih]
              cases readPluginRecipients count rest <;> rfl

/-- The calls find the request that the worker decodes. -/
theorem readPluginRequest_eq_run (frame : Bytes) :
    readPluginRequest frame = (pluginRequest.run .plugin frame).map fun found =>
      ⟨found.1.1, found.1.2.1, found.1.2.2, found.2⟩ := by
  have short : ∀ {length : Nat} {input : Bytes},
      (Reader.take length : Reader UInt8 CryptoError Bytes).run .plugin input =
        readExact length input := fun {_ _} => rfl
  rw [pluginRequest, Reader.run_bind, short, readPluginRequest]
  cases readExact pluginWorkerMagic.length frame with
  | error error => rfl
  | ok found =>
      obtain ⟨magic, behindMagic⟩ := found
      simp only [ok_bind]
      split
      · rfl
      · rw [Reader.run_bind, short]
        cases readExact 1 behindMagic with
        | error error => rfl
        | ok found =>
            obtain ⟨code, behindCode⟩ := found
            simp only [ok_bind]
            cases operationOfCode (code.headD 0) with
            | error error => rfl
            | ok kind =>
                simp only [ok_bind, pluginFields, Reader.run_bind, run_pluginField]
                cases readPluginField behindCode true with
                | error error => rfl
                | ok found =>
                    obtain ⟨identity, behindIdentity⟩ := found
                    simp only [ok_bind, run_pluginU32]
                    cases readPluginU32 behindIdentity with
                    | error error => rfl
                    | ok found =>
                        obtain ⟨count, behindCount⟩ := found
                        simp only [ok_bind]
                        split
                        · rfl
                        · simp only [Reader.run_bind, run_pluginRecipients]
                          cases readPluginRecipients count behindCount <;> rfl

/-- Words of four octets, each followed by nothing or by the field whose length it declares. -/
def WordsAsked (input : Bytes) (asks : List Nat) : Prop :=
  Declared 4 maxPluginFieldBytes
    (fun bytes : Bytes => bytes.foldl (fun value byte => value * 256 + byte.toNat) 0) input asks

theorem asked_pluginU32 (input : Bytes) : pluginU32.asked input = [4] :=
  Reader.asked_take_bind fun _ _ => rfl

theorem pluginU32_eq_ok {input rest : Bytes} {value : Nat}
    (found : pluginU32.run .plugin input = .ok (value, rest)) :
    value = (input.take 4).foldl (fun value byte => value * 256 + byte.toNat) 0 ∧
      rest = input.drop 4 := by
  rw [pluginU32, Reader.run_bind, Reader.run_take] at found
  split at found
  · cases found
  · cases found
    exact ⟨rfl, rfl⟩

theorem wordsAsked_pluginField (isOptional : Bool) (input : Bytes) :
    WordsAsked input ((pluginField isOptional).asked input) := by
  rw [pluginField]
  cases found : pluginU32.run .plugin input with
  | error error =>
      rw [Reader.asked_bind_error found, asked_pluginU32]
      exact .word .nil
  | ok read =>
      obtain ⟨length, rest⟩ := read
      obtain ⟨rfl, rfl⟩ := pluginU32_eq_ok found
      rw [Reader.asked_bind_ok found, asked_pluginU32, List.singleton_append]
      split
      · split <;> exact .word .nil
      · split
        · exact .word .nil
        · rename_i bounded
          rw [Reader.asked_take_bind fun symbols rest => by
            cases fromUtf8 symbols <;> rfl]
          exact .text (not_lt.mp bounded) .nil

/-- Words behind words, where the first reader ended. -/
theorem WordsAsked.bind {α β : Type} {reader : Reader UInt8 CryptoError α}
    {next : α → Reader UInt8 CryptoError β} {input : Bytes}
    (first : WordsAsked input (reader.asked input))
    (second : ∀ value rest, reader.run .plugin input = .ok (value, rest) →
      WordsAsked rest ((next value).asked rest)) :
    WordsAsked input ((reader >>= next).asked input) := by
  cases found : reader.run .plugin input with
  | error error => rwa [Reader.asked_bind_error found]
  | ok read =>
      obtain ⟨value, rest⟩ := read
      have later := second value rest found
      obtain ⟨-, rfl⟩ := Reader.run_eq_ok found
      rw [Reader.asked_bind_ok found]
      exact first.append later

theorem wordsAsked_pluginRecipients (count : Nat) (input : Bytes) :
    WordsAsked input ((pluginRecipients count).asked input) := by
  induction count generalizing input with
  | zero => exact .nil
  | succ count ih =>
      refine (wordsAsked_pluginField false input).bind fun field rest _ => ?_
      cases field with
      | none => exact .nil
      | some recipient => exact (ih rest).bind fun _ _ _ => .nil

theorem wordsAsked_pluginFields (input : Bytes) :
    WordsAsked input (pluginFields.asked input) := by
  refine (wordsAsked_pluginField true input).bind fun identity rest _ => ?_
  have word : WordsAsked rest (pluginU32.asked rest) := by
    rw [asked_pluginU32]
    exact .word .nil
  refine word.bind fun count rest _ => ?_
  split
  · exact .nil
  · exact (wordsAsked_pluginRecipients count rest).bind fun _ _ _ => .nil

/-- What a worker asks for before it starts: the magic, the code, and then words with their
fields. -/
def ReadsDeclared (frame : Bytes) (asks : List Nat) : Prop :=
  asks = [pluginWorkerMagic.length] ∨ ∃ words,
    asks = pluginWorkerMagic.length :: 1 :: words ∧
      WordsAsked (frame.drop (pluginWorkerMagic.length + 1)) words

theorem readsDeclared_pluginRequest (frame : Bytes) :
    ReadsDeclared frame (pluginRequest.asked frame) := by
  rw [pluginRequest]
  cases first : (Reader.take pluginWorkerMagic.length : Reader UInt8 CryptoError Bytes).run .plugin
      frame with
  | error error =>
      rw [Reader.asked_bind_error first, Reader.asked_take]
      exact .inl rfl
  | ok read =>
      obtain ⟨magic, behindMagic⟩ := read
      obtain ⟨-, rfl⟩ := Reader.run_eq_ok first
      rw [Reader.asked_bind_ok first, Reader.asked_take, List.sum_singleton, List.singleton_append]
      split
      · exact .inl rfl
      · set rest := frame.drop pluginWorkerMagic.length with rest_eq
        refine .inr ?_
        cases second : (Reader.take 1 : Reader UInt8 CryptoError Bytes).run .plugin rest with
        | error error =>
            rw [Reader.asked_bind_error second, Reader.asked_take]
            exact ⟨[], rfl, .nil⟩
        | ok read =>
            obtain ⟨code, behindCode⟩ := read
            obtain ⟨-, rfl⟩ := Reader.run_eq_ok second
            rw [Reader.asked_bind_ok second, Reader.asked_take, List.sum_singleton,
              List.singleton_append, rest_eq, List.drop_drop]
            refine ⟨_, rfl, ?_⟩
            split
            · exact .nil
            · exact (wordsAsked_pluginFields _).bind fun _ _ _ => .nil

/-- On the way a worker gets a request, it performs what the operation performs in the process. -/
theorem runPluginWorkerProtocol_octets (A : Age) {request : PluginRequest}
    (admissible : request.Admissible) :
    runPluginWorkerProtocol A request.octets = request.serve A := by
  rw [runPluginWorkerProtocol, readPluginRequest_eq_ok.mpr ⟨admissible, rfl⟩, ok_bind]

/-- What a call computes in the process. -/
def Call.runDirect (A : Age) : Call → Except CryptoError Bytes
  | .encrypt input recipients => encryptDirect A input recipients
  | .decrypt input identity => do
      let parsed ← parseIdentity A identity
      decryptWithIdentity A input parsed false
  | .decryptMigration input identity => do
      let parsed ← parseMigrationIdentity A identity
      decryptWithIdentity A input parsed true
  | .rekey input identity recipients => rekeyDirect A input identity recipients
  | .rekeyMigration input identity recipients => do
      let parsed ← parseMigrationIdentity A identity
      rekeyDirectWithIdentity A input parsed recipients true

theorem Call.serve_request (A : Age) (call : Call) : call.request.serve A = call.runDirect A := by
  cases call <;> rfl

theorem Call.run_eq (A : Age) (H : Host) (call : Call) :
    call.run A H = call.runDirect A ∨ call.run A H = runPluginOperation A H call.request := by
  cases call with
  | encrypt input recipients =>
      simp only [Call.run, Crypto.encrypt]
      split
      · exact .inr rfl
      · exact .inl rfl
  | decrypt input identity =>
      simp only [Call.run, Crypto.decrypt]
      split
      · exact .inr rfl
      · exact .inl rfl
  | decryptMigration input identity =>
      simp only [Call.run, Crypto.decryptMigration]
      split
      · exact .inr rfl
      · exact .inl rfl
  | rekey input identity recipients =>
      simp only [Call.run, Crypto.rekey]
      split
      · exact .inr rfl
      · exact .inl rfl
  | rekeyMigration input identity recipients =>
      simp only [Call.run, Crypto.rekeyMigration]
      split
      · exact .inr rfl
      · exact .inl rfl

/-- The framing of requests is exact: the writer accepts the requests within the limits and their
payload limit, the worker decodes exactly the frames of requests within the same limits and reads
only what their lengths declare, and it performs the call on the same data as the process does. -/
theorem worker_framing_exact :
    (∀ request : PluginRequest, request.Admissible →
      request.payload.length ≤ request.kind.inputLimit →
      ∃ frame, writePluginRequest request = .ok frame ∧ readPluginRequest frame = .ok request) ∧
    (∀ (request : PluginRequest) (frame : Bytes), writePluginRequest request = .ok frame ↔
      request.Admissible ∧ request.payload.length ≤ request.kind.inputLimit ∧
        frame = request.octets) ∧
    (∀ (frame : Bytes) (request : PluginRequest), readPluginRequest frame = .ok request ↔
      request.Admissible ∧ frame = request.octets) ∧
    (∀ frame, (readPluginRequest frame = (pluginRequest.run .plugin frame).map fun found =>
        ⟨found.1.1, found.1.2.1, found.1.2.2, found.2⟩) ∧
      ReadsDeclared frame (pluginRequest.asked frame) ∧
      ∀ request, readPluginRequest frame = .ok request →
        request.payload = frame.drop (pluginRequest.asked frame).sum) ∧
    ∀ (A : Age) (H : Host) (call : Call),
      (call.run A H = call.runDirect A ∨ call.run A H = runPluginOperation A H call.request) ∧
      ∀ frame, writePluginRequest call.request = .ok frame →
        runPluginWorkerProtocol A frame = call.runDirect A := by
  refine ⟨?_, fun request frame => writePluginRequest_eq_ok,
    fun frame request => readPluginRequest_eq_ok, ?_, ?_⟩
  · intro request admissible size
    exact ⟨request.octets, writePluginRequest_eq_ok.mpr ⟨admissible, size, rfl⟩,
      readPluginRequest_eq_ok.mpr ⟨admissible, rfl⟩⟩
  · intro frame
    refine ⟨readPluginRequest_eq_run frame, readsDeclared_pluginRequest frame, ?_⟩
    intro request read
    rw [readPluginRequest_eq_run] at read
    cases found : pluginRequest.run .plugin frame with
    | error error => rw [found] at read; cases read
    | ok result =>
        rw [found] at read
        cases read
        exact (Reader.run_eq_ok found).2
  · refine fun A H call => ⟨call.run_eq A H, fun frame written => ?_⟩
    obtain ⟨admissible, -, rfl⟩ := writePluginRequest_eq_ok.mp written
    rw [runPluginWorkerProtocol_octets A admissible, Call.serve_request]

end NixSeal.Crypto
