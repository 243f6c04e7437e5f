import NixSeal.Crypto.Header
import NixSeal.Generate.Outputs
import NixSeal.Lib.Fields
import NixSeal.Lib.Stateful
import NixSeal.Runtime.Generations

/-!
# Built-in generators

A built-in generator computes its values from random octets, public parameters and at most one
prompt.  `validate` and the generators check the declaration separately; this file compares the two
sets of rules.
-/

namespace NixSeal.Generate

open Runtime.Generations (u64FromStr)
open Policy (builtinGenerators argon2idParameter validate)
open Stateful (Action lift)

/-- Functions of the crates `getrandom`, `ed25519-dalek`, `x25519-dalek` and `argon2`. -/
structure Primitives where
  /-- `getrandom::fill` of a buffer, numbered by its calls. -/
  fill : Nat → (length : Nat) → Option (Vector UInt8 length)
  /-- `SigningKey::from_bytes` and `verifying_key`. -/
  verifyingKey : Vector UInt8 32 → Vector UInt8 32
  /-- `PublicKey::from` of `StaticSecret::from`. -/
  x25519Public : Vector UInt8 32 → Vector UInt8 32
  /-- Whether `Params::new` accepts a memory, a number of iterations and lanes and an output
  length. -/
  argon2Params : Nat → Nat → Nat → Nat → Bool
  /-- `hash_password_with_salt` of Argon2id 0x13 for such parameters, a password and a salt. -/
  argon2id : Nat → Nat → Nat → Nat → Bytes → Bytes → Option String

/-- The random source works, and Argon2id does within its documented bounds. -/
structure Primitives.Works (P : Primitives) : Prop where
  fill : ∀ call length, (P.fill call length).isSome
  argon2Params : ∀ memory iterations lanes length, 8 * lanes ≤ memory → memory < 2 ^ 32 →
    1 ≤ iterations → iterations < 2 ^ 32 → 1 ≤ lanes → lanes < 2 ^ 24 → 4 ≤ length →
    length < 2 ^ 32 → P.argon2Params memory iterations lanes length = true
  argon2id : ∀ memory iterations lanes length password salt,
    P.argon2Params memory iterations lanes length = true → 10 ≤ length → length ≤ 64 →
    password.length < 2 ^ 32 → 8 ≤ salt.length → salt.length ≤ 48 →
    (P.argon2id memory iterations lanes length password salt).isSome

/-- A computation of a built-in generator; the state counts the calls of the random source. -/
abbrev Draw : Type → Type := Action Nat GenerateError

/-- `random_bytes`. -/
def randomBytes (P : Primitives) (length : Nat) : Draw (Vector UInt8 length) :=
  if Crypto.maxSecretBytes < length then
    throw (.message "secret exceeds the 64 MiB safety limit")
  else do
    let call ← get
    set (call + 1)
    match P.fill call length with
    | none => throw (.message "operating-system random generation failed")
    | some bytes => pure bytes

/-! ## Parameters -/

/-- A generator that has one optional public parameter. -/
structure ParameterRule where
  name : String
  default : Nat
  lowest : Nat
  highest : Nat
  /-- The refusal of other parameters. -/
  unexpected : String
  /-- The refusal of what is no number. -/
  malformed : String
  /-- The refusal of other numbers. -/
  outside : String

/-- The value of the one parameter. -/
def ParameterRule.value (rule : ParameterRule) (generator : Generator) :
    Except GenerateError Nat :=
  if generator.parameters.keys.any (· ≠ rule.name) then .error (.message rule.unexpected)
  else
    match generator.parameters[rule.name]?.elim (some rule.default) u64FromStr with
    | none => .error (.message rule.malformed)
    | some value =>
        if !(rule.lowest ≤ value && value ≤ rule.highest) then .error (.message rule.outside)
        else .ok value

def bytesRule : ParameterRule where
  name := "bytes"
  default := 32
  lowest := 1
  highest := 1024 * 1024
  unexpected := "built-in random generators accept only the bytes parameter"
  malformed := "generator bytes parameter must be an unsigned integer"
  outside := "generator bytes parameter must be between 1 and 1048576"

def wordsRule : ParameterRule where
  name := "words"
  default := 16
  lowest := 12
  highest := 64
  unexpected := "builtin:passphrase accepts only the words parameter"
  malformed := "builtin:passphrase words must be an integer"
  outside := "builtin:passphrase words must be between 12 and 64"

/-- `generator_byte_length`. -/
def generatorByteLength : Generator → Except GenerateError Nat := bytesRule.value

/-- `generator_u32_parameter`. -/
def generatorU32Parameter (generator : Generator) (name : String) (default : Nat) :
    Except GenerateError Nat :=
  match generator.parameters[name]? with
  | none => .ok default
  | some value =>
      match Policy.u32FromStrRadix 10 value with
      | some number => .ok number
      | none =>
          .error (.message s!"builtin:argon2id-password-hash {name} must be an integer")

/-! ## Values -/

/-- `hex_digit`. -/
def hexDigit (value : UInt8) : UInt8 := (utf8 "0123456789abcdef").getD value.toNat 0

/-- The two digits of an octet. -/
def hexPair (byte : UInt8) : Bytes := [hexDigit (byte >>> 4), hexDigit (byte &&& 0x0f)]

/-- `hex_encode`, into a buffer of twice the length. -/
def hexEncode (input : Bytes) : Bytes := input.flatMap hexPair

/-- The value of `builtin:uuid` for sixteen random octets. -/
def uuidText (bytes : Vector UInt8 16) : Bytes :=
  let bytes := bytes.set 6 (bytes[6] &&& 0x0f ||| 0x40)
  let bytes := bytes.set 8 (bytes[8] &&& 0x3f ||| 0x80)
  bytes.toList.zipIdx.flatMap fun entry =>
    (if entry.2 ∈ [4, 6, 8, 10] then utf8 "-" else []) ++ hexPair entry.1

/-- `PASSPHRASE_WORDS`. -/
def passphraseWords : List String :=
  ["amber", "anchor", "april", "arch", "aspen", "atlas", "aurora", "bamboo", "beacon", "birch",
    "blue", "brisk", "canyon", "cedar", "cinder", "cobalt", "comet", "coral", "crystal", "dawn",
    "delta", "dune", "ember", "falcon", "fern", "fjord", "forest", "glacier", "harbor", "hazel",
    "island", "jade", "juniper", "lagoon", "lantern", "lilac", "maple", "meadow", "meteor", "mist",
    "moon", "moss", "oasis", "ocean", "olive", "opal", "orchid", "pearl", "pine", "prairie",
    "quartz", "raven", "river", "sable", "saffron", "sage", "shore", "silver", "solstice",
    "spruce", "stone", "sunset", "thunder", "willow"]

/-- The word that a random octet stands for. -/
def passphraseWord (byte : UInt8) : Bytes :=
  utf8 (passphraseWords.getD (byte &&& 0x3f).toNat "")

/-- `generate_passphrase`. -/
def generatePassphrase (P : Primitives) (generator : Generator) : Draw Bytes := do
  let words ← lift (wordsRule.value generator)
  let random ← randomBytes P words
  pure ((utf8 "-").intercalate (random.toList.map passphraseWord))

/-- The refusal of both key generators. -/
def refusesKeys (generator : Generator) : Bool :=
  !generator.parameters.isEmpty || generator.outputs.length != 1 ||
    1 < generator.publicOutputs.length

/-- The clamped scalar of RFC 7748. -/
def clamp (bytes : Vector UInt8 32) : Vector UInt8 32 where
  toArray :=
    ((bytes.toArray.modify 0 (· &&& 0b11111000)).modify 31 (· &&& 0b01111111)).modify 31
      (· ||| 0b01000000)
  size_toArray := by simp

/-- `derive_wireguard_public_key`. -/
def deriveWireguardPublicKey (P : Primitives) (scalar : Bytes) :
    Except GenerateError (Vector UInt8 32) :=
  if whole : scalar.length = 32 then .ok (P.x25519Public ⟨scalar.toArray, by simpa using whole⟩)
  else .error (.message "invalid WireGuard private key material")

/-- `generate_wireguard_values`. -/
def generateWireguardValues (P : Primitives) (generator : Generator) : Draw (Bytes × Bytes) :=
  if refusesKeys generator then
    throw (.message
      "builtin:wireguard-private-key accepts no parameters, exactly one secret output, and at most one public output")
  else do
    let input ← randomBytes P 32
    let scalar := clamp input
    let publicKey ← lift (deriveWireguardPublicKey P scalar.toList)
    pure (utf8 (Base64.encode scalar.toList), utf8 (Base64.encode publicKey.toList))

/-- `ssh_write_u32`. -/
def sshWriteU32 (output : Bytes) (value : Nat) : Bytes := output ++ Manifest.beU32 value

/-- `ssh_write_string`. -/
def sshWriteString (output value : Bytes) : Except GenerateError Bytes :=
  if 2 ^ 32 ≤ value.length then .error (.message "SSH private-key field exceeds 4 GiB")
  else .ok (sshWriteU32 output value.length ++ value)

/-- `u32::from_be_bytes`. -/
def fromBeBytes (bytes : Vector UInt8 4) : Nat := Framing.ofBigEndian bytes.toList

/-- The public blob of an Ed25519 key. -/
def sshPublicBlob (publicKey : Bytes) : Except GenerateError Bytes := do
  let blob ← sshWriteString [] (utf8 "ssh-ed25519")
  sshWriteString blob publicKey

/-- The private blob of an Ed25519 key, with its padding. -/
def sshPrivateBlob (check : Nat) (seed publicKey : Bytes) : Except GenerateError Bytes := do
  let blob := sshWriteU32 [] check
  let blob := sshWriteU32 blob check
  let blob ← sshWriteString blob (utf8 "ssh-ed25519")
  let blob ← sshWriteString blob publicKey
  let blob ← sshWriteString blob (seed ++ publicKey)
  let blob ← sshWriteString blob (utf8 "nix-seal")
  let padding := 8 - blob.length % 8
  .ok (blob ++ (List.range' 1 padding).map UInt8.ofNat)

/-- The container of an unencrypted key. -/
def sshContainer (publicBlob privateBlob : Bytes) : Except GenerateError Bytes := do
  let container := utf8 "openssh-key-v1\x00"
  let container ← sshWriteString container (utf8 "none")
  let container ← sshWriteString container (utf8 "none")
  let container ← sshWriteString container []
  let container := sshWriteU32 container 1
  let container ← sshWriteString container publicBlob
  sshWriteString container privateBlob

/-- `encode_slice` into a buffer of a length. -/
def encodeSlice (length : Nat) (bytes : Bytes) : Except GenerateError Bytes :=
  let encoded := utf8 (Base64.encode bytes)
  if length < encoded.length then
    .error (.message "could not encode generated SSH private key")
  else .ok encoded

/-- The text of a private key: lines of 70 characters between two markers. -/
def sshPrivateText (encoded : Bytes) : Bytes :=
  utf8 "-----BEGIN OPENSSH " ++ utf8 "PRIVATE KEY-----\n" ++
    (Fields.chunks 70 encoded).flatMap (· ++ utf8 "\n") ++
    (utf8 "-----END OPENSSH " ++ utf8 "PRIVATE KEY-----\n")

/-- `generate_ssh_ed25519_values`. -/
def generateSshEd25519Values (P : Primitives) (generator : Generator) : Draw (Bytes × Bytes) :=
  if refusesKeys generator then
    throw (.message
      "builtin:ssh-ed25519 accepts no parameters, exactly one secret output, and at most one public output")
  else do
    let seed ← randomBytes P 32
    let publicKey := P.verifyingKey seed
    let publicBlob ← lift (sshPublicBlob publicKey.toList)
    let check ← randomBytes P 4
    let privateBlob ← lift (sshPrivateBlob (fromBeBytes check) seed.toList publicKey.toList)
    let container ← lift (sshContainer publicBlob privateBlob)
    let encoded ← lift (encodeSlice ((container.length + 2) / 3 * 4) container)
    pure (sshPrivateText encoded,
      utf8 "ssh-ed25519 " ++ utf8 (Base64.encode publicBlob) ++ utf8 "\n")

/-- `generate_builtin_value`. -/
def generateBuiltinValue (P : Primitives) (generator : Generator) : Draw Bytes :=
  match generator.executable with
  | "builtin:random" => do
      let length ← lift (generatorByteLength generator)
      let bytes ← randomBytes P length
      pure bytes.toList
  | "builtin:hex" => do
      let length ← lift (generatorByteLength generator)
      let bytes ← randomBytes P length
      pure (hexEncode bytes.toList)
  | "builtin:base64" => do
      let length ← lift (generatorByteLength generator)
      let bytes ← randomBytes P length
      pure (utf8 (Base64.encode bytes.toList))
  | "builtin:token" => do
      let length ← lift (generatorByteLength generator)
      let bytes ← randomBytes P length
      pure (utf8 (Base64.encodeUrl bytes.toList))
  | "builtin:passphrase" => generatePassphrase P generator
  | "builtin:argon2id-password-hash" =>
      throw (.message
        "builtin:argon2id-password-hash requires its declared hidden password prompt")
  | "builtin:ssh-ed25519" => do
      let values ← generateSshEd25519Values P generator
      pure values.1
  | "builtin:wireguard-private-key" => do
      let values ← generateWireguardValues P generator
      pure values.1
  | "builtin:uuid" =>
      if !generator.parameters.isEmpty then
        throw (.message "builtin:uuid does not accept parameters")
      else do
        let bytes ← randomBytes P 16
        pure (uuidText bytes)
  | _ =>
      throw (.message
        "generator executable is unsupported; v1 accepts builtin:random, builtin:hex, builtin:base64, builtin:token, builtin:passphrase, builtin:argon2id-password-hash, builtin:ssh-ed25519, builtin:wireguard-private-key, or builtin:uuid")

/-- The refusal of a password-hash declaration. -/
def argon2idDeclaration : GenerateError :=
  .message
    "builtin:argon2id-password-hash requires one single-line hidden prompt and one secret output"

/-- The parameters of a password hash, in the order in which they are read. -/
def argon2idParameters (generator : Generator) : Except GenerateError (Nat × Nat × Nat) :=
  if generator.parameters.keys.any fun key =>
      !(["memory-kib", "iterations", "output-length"].contains key) then
    .error (.message
      "builtin:argon2id-password-hash accepts only memory-kib, iterations, and output-length parameters")
  else do
    let memoryKib ← generatorU32Parameter generator "memory-kib" 65536
    let iterations ← generatorU32Parameter generator "iterations" 3
    let outputLength ← generatorU32Parameter generator "output-length" 32
    if !(19456 ≤ memoryKib && memoryKib ≤ 524288) || !(2 ≤ iterations && iterations ≤ 10) ||
        !(16 ≤ outputLength && outputLength ≤ 64) then
      .error (.message
        "builtin:argon2id-password-hash parameters require memory-kib 19456..524288, iterations 2..10, and output-length 16..64")
    else .ok (memoryKib, iterations, outputLength)

/-- The part of `generate_argon2id_password_hash` from `Params::new` on. -/
def hashPassword (P : Primitives) (memoryKib iterations outputLength : Nat) (password : Bytes) :
    Draw Bytes :=
  if !P.argon2Params memoryKib iterations 1 outputLength then
    throw (.message "invalid bounded Argon2id parameters")
  else do
    let salt ← randomBytes P 16
    match P.argon2id memoryKib iterations 1 outputLength password
        (utf8 (Base64.encodeUnpadded salt.toList)) with
    | none => throw (.message "Argon2id password hashing failed")
    | some encoded => pure (utf8 encoded)

/-- `generate_argon2id_password_hash`. -/
def generateArgon2idPasswordHash (P : Primitives) (generator : Generator) (prompts : List Bytes) :
    Draw Bytes :=
  let hiddenLine := match generator.prompts with
    | [prompt] => prompt.mode = .hidden && !prompt.multiline && !prompt.persistent
    | _ => false
  match prompts with
  | [password] =>
      if generator.outputs.length ≠ 1 || !hiddenLine then throw argon2idDeclaration
      else if password.isEmpty || 1024 < password.length then
        throw (.message
          "builtin:argon2id-password-hash password input must be 1 to 1024 bytes")
      else do
        let parameters ← lift (argon2idParameters generator)
        hashPassword P parameters.1 parameters.2.1 parameters.2.2 password
  | _ => throw argon2idDeclaration

/-- The public value of a key pair, when it is declared. -/
def declaredPublic (generator : Generator) (value : Bytes) : List Bytes :=
  if generator.publicOutputs.isEmpty then [] else [value]

/-- `generate_generator_values` for a built-in generator. -/
def generateBuiltinValues (P : Primitives) (generator : Generator) (prompts : List Bytes) :
    Draw GeneratedValues :=
  if generator.executable = "builtin:argon2id-password-hash" then do
    let hash ← generateArgon2idPasswordHash P generator prompts
    pure ⟨[hash], []⟩
  else if !prompts.isEmpty then
    throw (.message "built-in generators do not accept prompts")
  else if !generator.secretDependencies.isEmpty then
    throw (.message "built-in generators do not accept secret dependencies")
  else if generator.executable = "builtin:ssh-ed25519" then do
    let pair ← generateSshEd25519Values P generator
    pure ⟨[pair.1], declaredPublic generator pair.2⟩
  else if generator.executable = "builtin:wireguard-private-key" then do
    let pair ← generateWireguardValues P generator
    pure ⟨[pair.1], declaredPublic generator pair.2⟩
  else do
    let secrets ← generator.outputs.mapM fun _ => generateBuiltinValue P generator
    pure ⟨secrets, []⟩

/-- What a built-in generator returns when the random source has been called some times. -/
def builtinOutcome (P : Primitives) (generator : Generator) (prompts : List Bytes) (calls : Nat) :
    Except GenerateError GeneratedValues :=
  (generateBuiltinValues P generator prompts calls).map Prod.fst

/-! ## What runs -/

section Runs

variable {P : Primitives} {generator : Generator}

/-- The parameter is absent or a number within its bounds, and there is no other. -/
def ParameterRule.Met (rule : ParameterRule) (generator : Generator) : Prop :=
  (∀ key ∈ generator.parameters, key = rule.name) ∧
    ∀ value, generator.parameters[rule.name]? = some value →
      ∃ number, u64FromStr value = some number ∧ rule.lowest ≤ number ∧ number ≤ rule.highest

theorem ParameterRule.value_eq_ok {rule : ParameterRule} {number : Nat} :
    rule.value generator = .ok number ↔
      (∀ key ∈ generator.parameters, key = rule.name) ∧
        generator.parameters[rule.name]?.elim (some rule.default) u64FromStr = some number ∧
        rule.lowest ≤ number ∧ number ≤ rule.highest := by
  have keys : generator.parameters.keys.any (· ≠ rule.name) = false ↔
      ∀ key ∈ generator.parameters, key = rule.name := by
    simp [Std.TreeMap.mem_keys]
  rw [ParameterRule.value, Fallible.guard_eq_ok, Bool.not_eq_true, keys]
  refine and_congr_right fun _ => ?_
  cases generator.parameters[rule.name]?.elim (some rule.default) u64FromStr with
  | none => simp
  | some found =>
      rw [Fallible.guard_eq_ok]
      simp only [Bool.not_eq_true', Bool.not_eq_false, Bool.and_eq_true, decide_eq_true_eq,
        Except.ok.injEq, Option.some.injEq]
      constructor
      · rintro ⟨bounds, rfl⟩
        exact ⟨rfl, bounds⟩
      · rintro ⟨rfl, bounds⟩
        exact ⟨bounds, rfl⟩

/-- A rule whose default is within its bounds is met exactly when it gives a value. -/
theorem ParameterRule.exists_value_iff {rule : ParameterRule} (generator : Generator)
    (sound : rule.lowest ≤ rule.default ∧ rule.default ≤ rule.highest) :
    (∃ number, rule.value generator = .ok number) ↔ rule.Met generator := by
  simp only [ParameterRule.value_eq_ok, exists_and_left]
  refine and_congr_right fun _ => ?_
  cases generator.parameters[rule.name]? with
  | none => simp [sound]
  | some value => simp

theorem randomBytes_runs (works : P.Works) (length : Nat) (small : length ≤ Crypto.maxSecretBytes) :
    Stateful.Runs (randomBytes P length) True := by
  intro calls
  obtain ⟨bytes, filled⟩ := Option.isSome_iff_exists.mp (works.fill calls length)
  refine iff_of_true ⟨(bytes, calls + 1), ?_⟩ trivial
  rw [randomBytes, if_neg (by omega), Stateful.get_bind, Stateful.set_bind, filled]
  rfl

/-- The generators of encoded random octets. -/
def octetGenerators : List String :=
  ["builtin:random", "builtin:hex", "builtin:base64", "builtin:token"]

theorem generateBuiltinValue_octets (P : Primitives)
    (octets : generator.executable ∈ octetGenerators) :
    ∃ encode : Bytes → Bytes, generateBuiltinValue P generator = (do
      let length ← lift (generatorByteLength generator)
      let bytes ← randomBytes P length
      pure (encode bytes.toList)) := by
  simp only [octetGenerators, List.mem_cons, List.not_mem_nil, or_false] at octets
  unfold generateBuiltinValue
  rcases octets with named | named | named | named
  · exact ⟨id, by simp only [named, id]⟩
  · exact ⟨hexEncode, by simp only [named]⟩
  · exact ⟨fun bytes => utf8 (Base64.encode bytes), by simp only [named]⟩
  · exact ⟨fun bytes => utf8 (Base64.encodeUrl bytes), by simp only [named]⟩

theorem generateBuiltinValue_octets_runs (works : P.Works)
    (octets : generator.executable ∈ octetGenerators) :
    Stateful.Runs (generateBuiltinValue P generator) (bytesRule.Met generator) := by
  obtain ⟨encode, same⟩ := generateBuiltinValue_octets P octets
  have length := Stateful.Runs.lift (σ := Nat) <| bytesRule.exists_value_iff generator (by decide)
  rw [same]
  refine length.andThen fun calls value middle read => ?_
  have bounds := (ParameterRule.value_eq_ok.mp (Stateful.lift_eq_ok.mp read).1).2.2.2
  have small : value ≤ Crypto.maxSecretBytes := bounds.trans (by decide)
  exact (randomBytes_runs works value small).seq fun _ => .pure _

theorem generatePassphrase_runs (works : P.Works) :
    Stateful.Runs (generatePassphrase P generator) (wordsRule.Met generator) := by
  have words := Stateful.Runs.lift (σ := Nat) <| wordsRule.exists_value_iff generator (by decide)
  refine words.andThen fun calls value middle read => ?_
  have bounds := (ParameterRule.value_eq_ok.mp (Stateful.lift_eq_ok.mp read).1).2.2.2
  have small : value ≤ Crypto.maxSecretBytes := bounds.trans (by decide)
  exact (randomBytes_runs works value small).seq fun _ => .pure _

theorem generateWireguardValues_runs (works : P.Works) :
    Stateful.Runs (generateWireguardValues P generator) (refusesKeys generator = false) := by
  have derives : ∀ scalar : Vector UInt8 32,
      deriveWireguardPublicKey P scalar.toList = .ok (P.x25519Public scalar) := by
    intro scalar
    rw [deriveWireguardPublicKey, dif_pos Vector.length_toList]
    rfl
  have body := (randomBytes_runs works 32 (by decide)).seq fun input =>
    (Stateful.Runs.lift (iff_of_true ⟨_, derives (clamp input)⟩ trivial)).seq fun publicKey =>
      .pure (utf8 (Base64.encode (clamp input).toList), utf8 (Base64.encode publicKey.toList))
  refine body.guard.congr ?_
  simp

/-! ## The fields of a key -/

/-- A string of the SSH wire format. -/
def sshString (value : Bytes) : Bytes := Manifest.beU32 value.length ++ value

theorem sshWriteString_eq (output : Bytes) {value : Bytes} (small : value.length < 2 ^ 32) :
    sshWriteString output value = .ok (output ++ sshString value) := by
  rw [sshWriteString, if_neg (by omega), sshWriteU32, sshString, List.append_assoc]

theorem sshPublicBlob_eq {publicKey : Bytes} (small : publicKey.length < 2 ^ 32) :
    sshPublicBlob publicKey = .ok (sshString (utf8 "ssh-ed25519") ++ sshString publicKey) := by
  rw [sshPublicBlob, sshWriteString_eq _ (by decide), Fallible.ok_bind, sshWriteString_eq _ small,
    List.nil_append]

/-- The fields of a private blob. -/
def privateFields (check : Nat) (seed publicKey : Bytes) : Bytes :=
  Manifest.beU32 check ++ Manifest.beU32 check ++ sshString (utf8 "ssh-ed25519") ++
    sshString publicKey ++ sshString (seed ++ publicKey) ++ sshString (utf8 "nix-seal")

/-- The fields of a container. -/
def containerFields (publicBlob privateBlob : Bytes) : Bytes :=
  utf8 "openssh-key-v1\x00" ++ sshString (utf8 "none") ++ sshString (utf8 "none") ++ sshString [] ++
    Manifest.beU32 1 ++ sshString publicBlob ++ sshString privateBlob

theorem length_sshString (value : Bytes) : (sshString value).length = 4 + value.length := by
  rw [sshString, List.length_append]
  rfl

theorem length_privateFields (check : Nat) {seed publicKey : Bytes} (seed_length : seed.length = 32)
    (key_length : publicKey.length = 32) : (privateFields check seed publicKey).length = 139 := by
  have word : (Manifest.beU32 check).length = 4 := rfl
  have name : (utf8 "ssh-ed25519").length = 11 := by decide
  have comment : (utf8 "nix-seal").length = 8 := by decide
  simp only [privateFields, List.length_append, length_sshString, word, name, comment, seed_length,
    key_length]

/-- The fields of a private blob are followed by five octets that count them. -/
theorem sshPrivateBlob_eq (check : Nat) {seed publicKey : Bytes} (seed_length : seed.length = 32)
    (key_length : publicKey.length = 32) :
    sshPrivateBlob check seed publicKey =
      .ok (privateFields check seed publicKey ++ [1, 2, 3, 4, 5]) := by
  have small : (seed ++ publicKey).length < 2 ^ 32 := by
    rw [List.length_append, seed_length, key_length]
    decide
  have length := length_privateFields check seed_length key_length
  simp only [privateFields] at length ⊢
  rw [sshPrivateBlob, sshWriteString_eq _ (by decide), Fallible.ok_bind,
    sshWriteString_eq _ (by omega), Fallible.ok_bind, sshWriteString_eq _ small, Fallible.ok_bind,
    sshWriteString_eq _ (by decide), Fallible.ok_bind]
  simp only [sshWriteU32, List.nil_append, length]
  rfl

theorem sshContainer_eq {publicBlob privateBlob : Bytes} (publicSmall : publicBlob.length < 2 ^ 32)
    (privateSmall : privateBlob.length < 2 ^ 32) :
    sshContainer publicBlob privateBlob = .ok (containerFields publicBlob privateBlob) := by
  rw [sshContainer, sshWriteString_eq _ (by decide), Fallible.ok_bind,
    sshWriteString_eq _ (by decide), Fallible.ok_bind, sshWriteString_eq _ (by decide),
    Fallible.ok_bind]
  simp only [sshWriteU32]
  rw [sshWriteString_eq _ publicSmall, Fallible.ok_bind, sshWriteString_eq _ privateSmall]
  rfl

theorem ascii_of_mem_encodeChars {bytes : Bytes} {char : Char}
    (member : char ∈ Base64.encodeChars bytes) : char.toNat < 0x80 := by
  have digits : ∀ digit < 64, (Base64.digitChar digit).toNat < 0x80 := by decide
  rcases Base64.isTextChar_of_mem_encodeChars member with rfl | ⟨digit, small, rfl⟩
  · decide
  · exact digits digit small

theorem length_utf8_encode (bytes : Bytes) :
    (utf8 (Base64.encode bytes)).length = (bytes.length + 2) / 3 * 4 := by
  rw [Base64.encode, utf8_of_ascii fun char => ascii_of_mem_encodeChars, List.length_map,
    Base64.length_encodeChars]

theorem encodeSlice_eq (bytes : Bytes) :
    encodeSlice ((bytes.length + 2) / 3 * 4) bytes = .ok (utf8 (Base64.encode bytes)) := by
  rw [encodeSlice, if_neg (by rw [length_utf8_encode]; omega)]

/-- The container of a key. -/
def keyContainer (check : Nat) (seed publicKey : Vector UInt8 32) : Bytes :=
  containerFields (sshString (utf8 "ssh-ed25519") ++ sshString publicKey.toList)
    (privateFields check seed.toList publicKey.toList ++ [1, 2, 3, 4, 5])

/-- A seed and a check value are drawn, and the rest is computed from them. -/
theorem generateSshEd25519Values_eq (P : Primitives) (generator : Generator) :
    generateSshEd25519Values P generator =
      if refusesKeys generator then
        throw (.message
          "builtin:ssh-ed25519 accepts no parameters, exactly one secret output, and at most one public output")
      else (do
        let seed ← randomBytes P 32
        let check ← randomBytes P 4
        pure (sshPrivateText (utf8 (Base64.encode
            (keyContainer (fromBeBytes check) seed (P.verifyingKey seed)))),
          utf8 (Manifest.sshEd25519Line (P.verifyingKey seed)) ++ utf8 "\n")) := by
  have lifted : ∀ {α β : Type} {computation : Except GenerateError α} {value : α}
      {next : α → Draw β}, computation = .ok value →
      (lift computation >>= next : Draw β) = next value := by
    rintro α β _ value next rfl
    rfl
  have key_length : ∀ seed, (P.verifyingKey seed).toList.length = 32 := fun _ => Vector.length_toList
  have public_length : ∀ seed : Vector UInt8 32, (sshString (utf8 "ssh-ed25519") ++
      sshString (P.verifyingKey seed).toList).length < 2 ^ 32 := by
    intro seed
    have name : (utf8 "ssh-ed25519").length = 11 := by decide
    rw [List.length_append, length_sshString, length_sshString, key_length, name]
    decide
  unfold generateSshEd25519Values
  refine if_congr Iff.rfl rfl (bind_congr fun seed => ?_)
  rw [lifted (sshPublicBlob_eq (by rw [key_length]; decide))]
  refine bind_congr fun check => ?_
  have seed_length : seed.toList.length = 32 := Vector.length_toList
  have private_length : (privateFields (fromBeBytes check) seed.toList
      (P.verifyingKey seed).toList ++ [1, 2, 3, 4, 5]).length < 2 ^ 32 := by
    rw [List.length_append, length_privateFields _ seed_length (key_length seed)]
    decide
  rw [lifted (sshPrivateBlob_eq _ seed_length (key_length seed)),
    lifted (sshContainer_eq (public_length seed) private_length), lifted (encodeSlice_eq _)]
  have line : utf8 "ssh-ed25519 " ++ utf8 (Base64.encode (sshString (utf8 "ssh-ed25519") ++
      sshString (P.verifyingKey seed).toList)) =
      utf8 (Manifest.sshEd25519Line (P.verifyingKey seed)) := by
    rw [Manifest.sshEd25519Line, utf8_append, Manifest.sshEd25519Blob, sshString, sshString,
      key_length]
    rfl
  rw [line]
  rfl

theorem generateSshEd25519Values_runs (works : P.Works) :
    Stateful.Runs (generateSshEd25519Values P generator) (refusesKeys generator = false) := by
  rw [generateSshEd25519Values_eq]
  have body := (randomBytes_runs works 32 (by decide)).seq fun seed =>
    (randomBytes_runs works 4 (by decide)).seq fun check =>
      .pure (sshPrivateText (utf8 (Base64.encode
          (keyContainer (fromBeBytes check) seed (P.verifyingKey seed)))),
        utf8 (Manifest.sshEd25519Line (P.verifyingKey seed)) ++ utf8 "\n")
  refine body.guard.congr ?_
  simp

/-! ## Password hashes -/

theorem generatorU32Parameter_of_argon2idParameter {name : String} {default number : Nat}
    (read : argon2idParameter generator name default = .ok number) :
    generatorU32Parameter generator name default = .ok number := by
  revert read
  unfold argon2idParameter generatorU32Parameter
  cases generator.parameters[name]? with
  | none => exact fun read => congrArg _ (Except.ok.inj read)
  | some value =>
      cases parsed : Policy.u32FromStrRadix 10 value with
      | none =>
          intro read
          simp only [parsed] at read
          cases read
      | some found =>
          intro read
          simp only [parsed] at read ⊢
          exact congrArg _ (Except.ok.inj read)

/-- What the validation of a password hash establishes. -/
structure AcceptedPassword (generator : Generator) (prompt : GeneratorPrompt)
    (memoryKib iterations outputLength : Nat) : Prop where
  outputs : generator.outputs.length = 1
  prompts : generator.prompts = [prompt]
  hidden : prompt.mode = .hidden
  line : prompt.multiline = false
  parameters : argon2idParameters generator = .ok (memoryKib, iterations, outputLength)
  memory : 19456 ≤ memoryKib ∧ memoryKib ≤ 524288
  iterations : 2 ≤ iterations ∧ iterations ≤ 10
  outputLength : 16 ≤ outputLength ∧ outputLength ≤ 64

theorem acceptedPassword_of_validate {id : Id}
    (checked : Policy.validateArgon2idPasswordHashGenerator id generator = .ok ()) :
    ∃ prompt memoryKib iterations outputLength,
      AcceptedPassword generator prompt memoryKib iterations outputLength := by
  unfold Policy.validateArgon2idPasswordHashGenerator at checked
  rw [Fallible.guard_eq_ok] at checked
  obtain ⟨declared, checked⟩ := checked
  obtain ⟨memoryKib, memory, checked⟩ := Fallible.bind_eq_ok.mp checked
  obtain ⟨iterations, rounds, checked⟩ := Fallible.bind_eq_ok.mp checked
  obtain ⟨outputLength, output, checked⟩ := Fallible.bind_eq_ok.mp checked
  rw [Fallible.guard_eq_ok] at checked
  have inside := checked.1
  simp only [Bool.or_eq_true, not_or, decide_eq_true_eq, not_not, Bool.not_eq_true',
    Bool.not_eq_false, Bool.not_eq_true] at declared
  obtain ⟨⟨outputs, hiddenLine⟩, keys⟩ := declared
  have parameters : argon2idParameters generator = .ok (memoryKib, iterations, outputLength) := by
    rw [argon2idParameters, if_neg (by rw [keys]; decide),
      generatorU32Parameter_of_argon2idParameter memory, Fallible.ok_bind,
      generatorU32Parameter_of_argon2idParameter rounds, Fallible.ok_bind,
      generatorU32Parameter_of_argon2idParameter output, Fallible.ok_bind, if_neg inside]
  simp only [Bool.or_eq_true, not_or, Bool.not_eq_true', Bool.not_eq_false, Bool.and_eq_true,
    decide_eq_true_eq] at inside
  obtain ⟨⟨memory_bounds, iteration_bounds⟩, output_bounds⟩ := inside
  cases prompts : generator.prompts with
  | nil => simp [prompts] at hiddenLine
  | cons prompt others =>
      cases others with
      | cons second rest => simp [prompts] at hiddenLine
      | nil =>
          simp only [prompts, Bool.and_eq_true, decide_eq_true_eq, Bool.not_eq_true'] at hiddenLine
          exact ⟨prompt, memoryKib, iterations, outputLength,
            { outputs, prompts, parameters
              hidden := hiddenLine.1
              line := hiddenLine.2
              memory := memory_bounds
              iterations := iteration_bounds
              outputLength := output_bounds }⟩

theorem length_encodeUnpadded {bytes : Bytes} (length : bytes.length = 16) :
    8 ≤ (utf8 (Base64.encodeUnpadded bytes)).length ∧
      (utf8 (Base64.encodeUnpadded bytes)).length ≤ 48 := by
  have whole := congrArg List.length (Base64.filter_append_padding bytes)
  rw [List.length_append, Base64.length_encodeChars, Base64.padding, List.length_replicate,
    length] at whole
  rw [Base64.encodeUnpadded, utf8_of_ascii fun char member =>
    ascii_of_mem_encodeChars (List.mem_filter.mp member).1, List.length_map]
  omega

theorem hashPassword_runs (works : P.Works) {prompt : GeneratorPrompt}
    {memoryKib iterations outputLength : Nat}
    (accepted : AcceptedPassword generator prompt memoryKib iterations outputLength)
    {password : Bytes} (short : password.length ≤ 1024) :
    Stateful.Runs (hashPassword P memoryKib iterations outputLength password) True := by
  obtain ⟨memory_low, memory_high⟩ := accepted.memory
  obtain ⟨iterations_low, iterations_high⟩ := accepted.iterations
  obtain ⟨output_low, output_high⟩ := accepted.outputLength
  have valid : P.argon2Params memoryKib iterations 1 outputLength = true :=
    works.argon2Params _ _ _ _ (by omega) (by omega) (by omega) (by omega) le_rfl (by decide)
      (by omega) (by omega)
  refine Stateful.Runs.pass (by simp [valid]) ?_
  refine (randomBytes_runs works 16 (by decide)).seq fun salt => ?_
  obtain ⟨salt_low, salt_high⟩ := length_encodeUnpadded (Vector.length_toList : salt.toList.length = 16)
  obtain ⟨encoded, hashed⟩ := Option.isSome_iff_exists.mp
    (works.argon2id _ _ _ _ password _ valid (by omega) output_high (by omega) salt_low salt_high)
  simp only [hashed]
  exact .pure _

/-- An accepted password hash is refused exactly when its prompt is remembered. -/
theorem generateArgon2idPasswordHash_runs (works : P.Works) {prompt : GeneratorPrompt}
    {memoryKib iterations outputLength : Nat}
    (accepted : AcceptedPassword generator prompt memoryKib iterations outputLength)
    {password : Bytes} (bounds : 1 ≤ password.length ∧ password.length ≤ 1024) :
    Stateful.Runs (generateArgon2idPasswordHash P generator [password])
      (prompt.persistent = false) := by
  have sized : ¬(password.isEmpty || decide (1024 < password.length)) = true := by
    rw [Bool.or_eq_true, decide_eq_true_eq, List.isEmpty_iff, ← List.length_eq_zero_iff]
    omega
  have body : Stateful.Runs (lift (argon2idParameters generator) >>= fun parameters =>
      hashPassword P parameters.1 parameters.2.1 parameters.2.2 password : Draw Bytes) True := by
    refine (Stateful.Runs.lift (iff_of_true ⟨_, accepted.parameters⟩ trivial)).andThen ?_
    intro calls parameters middle lifted
    have same := (Stateful.lift_eq_ok.mp lifted).1
    rw [accepted.parameters] at same
    obtain rfl := Except.ok.inj same
    exact hashPassword_runs works accepted bounds.2
  refine (Stateful.Runs.pass sized body).guard.congr ?_
  simp [accepted.outputs, accepted.prompts, accepted.hidden, accepted.line]

end Runs

/-! ## What `validate` has checked -/

/-- The generators of key pairs. -/
def keyGenerators : List String := ["builtin:ssh-ed25519", "builtin:wireguard-private-key"]

/-- What `validate` establishes about a built-in generator. -/
structure AcceptedBuiltin (generator : Generator) : Prop where
  dependencies : generator.secretDependencies = []
  outputs : generator.outputs ≠ []
  /-- Only a key pair has a public output. -/
  publicOutputs : generator.executable ∉ keyGenerators → generator.publicOutputs = []
  keyPair : generator.executable ∈ keyGenerators →
    generator.outputs.length = 1 ∧ generator.publicOutputs.length ≤ 1
  password : generator.executable = "builtin:argon2id-password-hash" →
    ∃ prompt memoryKib iterations outputLength,
      AcceptedPassword generator prompt memoryKib iterations outputLength

theorem optional_eq_ok {ε β : Type} {needed : Prop} [Decidable needed] {check : Except ε Unit}
    {next : Unit → Except ε β} {result : β} :
    (if needed then check >>= next else Except.ok () >>= next) = .ok result ↔
      (needed → check = .ok ()) ∧ next () = .ok result := by
  by_cases holds : needed
  · rw [if_pos holds, Fallible.bind_eq_ok]
    exact ⟨fun ⟨_, checked, rest⟩ => ⟨fun _ => checked, rest⟩,
      fun ⟨checked, rest⟩ => ⟨(), checked holds, rest⟩⟩
  · rw [if_neg holds, Fallible.ok_bind]
    exact (and_iff_right fun needs => absurd needs holds).symm

theorem acceptedBuiltin_of_execution {id : Id} {generator : Generator}
    (checked : Policy.validateGeneratorExecution id generator = .ok ())
    (some_output : ¬(generator.outputs.isEmpty && generator.publicOutputs.isEmpty) = true)
    (builtin : generator.executable ∈ builtinGenerators) : AcceptedBuiltin generator := by
  have known : builtinGenerators.contains generator.executable = true :=
    List.contains_iff_mem.mpr builtin
  have derives : (decide (generator.executable = "builtin:ssh-ed25519") ||
      decide (generator.executable = "builtin:wireguard-private-key")) = true ↔
        generator.executable ∈ keyGenerators := by
    simp [keyGenerators]
  unfold Policy.validateGeneratorExecution at checked
  rw [Fallible.guard_eq_ok, Fallible.guard_eq_ok, Fallible.guard_eq_ok] at checked
  obtain ⟨password, checked⟩ := optional_eq_ok.mp checked.2.2.2
  rw [Fallible.guard_eq_ok, Fallible.guard_eq_ok, Fallible.guard_eq_ok] at checked
  obtain ⟨dependencies, publicOutputs, keyPair, -⟩ := checked
  simp only [known, Bool.true_and, Bool.and_eq_true, derives, not_and, Bool.not_eq_true',
    List.isEmpty_iff, Bool.or_eq_true, not_or, bne_iff_ne, beq_iff_eq, decide_eq_true_eq, not_not,
    not_lt, ← Bool.not_eq_true] at dependencies publicOutputs keyPair
  have none_public : generator.executable ∉ keyGenerators → generator.publicOutputs = [] := by
    intro other
    by_contra declared
    exact publicOutputs declared fun pair => absurd pair.1 other
  refine
    { dependencies := dependencies
      outputs := ?_
      publicOutputs := none_public
      keyPair := keyPair
      password := ?_ }
  · intro empty
    by_cases pair : generator.executable ∈ keyGenerators
    · have one := (keyPair pair).1
      rw [empty] at one
      cases one
    · rw [empty, none_public pair] at some_output
      exact some_output rfl
  · intro named
    exact acceptedPassword_of_validate (password named)

theorem acceptedBuiltin {E : Policy.Environment} {plan : Plan} {id : Id} {generator : Generator}
    (accepted : validate E plan = .ok ()) (stored : plan.generators[id]? = some generator)
    (builtin : generator.executable ∈ builtinGenerators) : AcceptedBuiltin generator := by
  obtain ⟨scan, scanned, -⟩ :=
    Fallible.bind_eq_ok.mp (Policy.acceptedPlan_of_validate accepted).generators
  obtain ⟨before, after, checked⟩ := Fallible.step_of_foldlM_eq_ok scanned
    (Std.TreeMap.mem_toList_iff_getElem?_eq_some.mpr stored)
  simp only [Policy.validateGenerator, Fallible.guard_eq_ok] at checked
  obtain ⟨⟨⟩, execution, checked⟩ := Fallible.bind_eq_ok.mp checked.2
  obtain ⟨prompts, -, checked⟩ := Fallible.bind_eq_ok.mp checked
  rw [Fallible.guard_eq_ok] at checked
  exact acceptedBuiltin_of_execution execution checked.1 builtin

/-! ## When an accepted declaration runs -/

/-- What the generators require and `validate` leaves open. -/
structure Runnable (generator : Generator) : Prop where
  /-- A password is never remembered. -/
  password : generator.executable = "builtin:argon2id-password-hash" →
    ∀ prompt ∈ generator.prompts, prompt.persistent = false
  unprompted : generator.executable ≠ "builtin:argon2id-password-hash" → generator.prompts = []
  octets : generator.executable ∈ octetGenerators → bytesRule.Met generator
  words : generator.executable = "builtin:passphrase" → wordsRule.Met generator
  plain : generator.executable ∈ "builtin:uuid" :: keyGenerators →
    generator.parameters.isEmpty = true

theorem generateUuid_runs {P : Primitives} {generator : Generator} (works : P.Works)
    (named : generator.executable = "builtin:uuid") :
    Stateful.Runs (generateBuiltinValue P generator) (generator.parameters.isEmpty = true) := by
  have drawn := (randomBytes_runs works 16 (by decide)).seq fun bytes => .pure (uuidText bytes)
  unfold generateBuiltinValue
  simp only [named]
  refine drawn.guard.congr ?_
  simp

/-- The number of values is the number of outputs. -/
def Complete (generator : Generator) (values : GeneratedValues) : Prop :=
  values.secrets.length = generator.outputs.length ∧
    values.publicValues.length = generator.publicOutputs.length

theorem length_declaredPublic {generator : Generator} (value : Bytes)
    (few : generator.publicOutputs.length ≤ 1) :
    (declaredPublic generator value).length = generator.publicOutputs.length := by
  unfold declaredPublic
  cases outputs : generator.publicOutputs with
  | nil => rfl
  | cons first rest =>
      rw [outputs, List.length_cons] at few
      simp only [List.isEmpty_cons, List.length_cons]
      exact (Nat.le_antisymm few (Nat.le_add_left 1 _)).symm

section Values

variable {P : Primitives} {generator : Generator} {prompts : List Bytes}

theorem generateBuiltinValues_complete (accepted : AcceptedBuiltin generator) {calls : Nat}
    {result : GeneratedValues × Nat}
    (returned : generateBuiltinValues P generator prompts calls = .ok result) :
    Complete generator result.1 := by
  unfold generateBuiltinValues at returned
  split at returned
  · rename_i named
    obtain ⟨hash, middle, -, returned⟩ := Stateful.bind_eq_ok.mp returned
    rw [Stateful.pure_apply] at returned
    obtain ⟨prompt, memoryKib, iterations, outputLength, password⟩ := accepted.password named
    have none_public : generator.publicOutputs = [] :=
      accepted.publicOutputs (by rw [named]; decide)
    cases returned
    exact ⟨password.outputs.symm, by rw [none_public]; rfl⟩
  · rw [Stateful.guard_eq_ok, Stateful.guard_eq_ok] at returned
    obtain ⟨-, -, returned⟩ := returned
    split at returned
    · rename_i named
      obtain ⟨one, few⟩ := accepted.keyPair (by rw [named]; decide)
      obtain ⟨pair, middle, -, returned⟩ := Stateful.bind_eq_ok.mp returned
      rw [Stateful.pure_apply] at returned
      cases returned
      exact ⟨one.symm, length_declaredPublic _ few⟩
    · split at returned
      · rename_i named
        obtain ⟨one, few⟩ := accepted.keyPair (by rw [named]; decide)
        obtain ⟨pair, middle, -, returned⟩ := Stateful.bind_eq_ok.mp returned
        rw [Stateful.pure_apply] at returned
        cases returned
        exact ⟨one.symm, length_declaredPublic _ few⟩
      · rename_i other_ssh other_wireguard
        have none_public : generator.publicOutputs = [] := by
          refine accepted.publicOutputs ?_
          simp [keyGenerators, other_ssh, other_wireguard]
        obtain ⟨secrets, middle, mapped, returned⟩ := Stateful.bind_eq_ok.mp returned
        rw [Stateful.pure_apply] at returned
        cases returned
        exact ⟨Stateful.length_of_mapM mapped, by rw [none_public]; rfl⟩

theorem runnable_iff : Runnable generator ↔
    (generator.executable = "builtin:argon2id-password-hash" →
      ∀ prompt ∈ generator.prompts, prompt.persistent = false) ∧
    (generator.executable ≠ "builtin:argon2id-password-hash" → generator.prompts = []) ∧
    (generator.executable ∈ octetGenerators → bytesRule.Met generator) ∧
    (generator.executable = "builtin:passphrase" → wordsRule.Met generator) ∧
    (generator.executable ∈ "builtin:uuid" :: keyGenerators →
      generator.parameters.isEmpty = true) :=
  ⟨fun runnable => ⟨runnable.password, runnable.unprompted, runnable.octets, runnable.words,
      runnable.plain⟩,
    fun ⟨password, unprompted, octets, words, plain⟩ =>
      ⟨password, unprompted, octets, words, plain⟩⟩

theorem generateBuiltinValues_password (works : P.Works) (accepted : AcceptedBuiltin generator)
    (named : generator.executable = "builtin:argon2id-password-hash")
    (answered : List.Forall₂ (fun (_ : GeneratorPrompt) response =>
      1 ≤ response.length ∧ response.length ≤ 1024) generator.prompts prompts) :
    Stateful.Runs (generateBuiltinValues P generator prompts) (Runnable generator) := by
  obtain ⟨prompt, memoryKib, iterations, outputLength, password⟩ := accepted.password named
  rw [password.prompts, List.forall₂_cons_left_iff] at answered
  obtain ⟨response, rest, bounds, nothing, rfl⟩ := answered
  obtain rfl := List.forall₂_nil_left_iff.mp nothing
  have hashed := generateArgon2idPasswordHash_runs works password bounds
  unfold generateBuiltinValues
  rw [if_pos named]
  refine (hashed.andThen fun _ hash _ _ => .pure (⟨[hash], []⟩ : GeneratedValues)).congr ?_
  rw [runnable_iff, named, password.prompts]
  simp [octetGenerators, keyGenerators]

/-- An accepted generator of another kind runs when nothing is prompted for and its values are
computed. -/
theorem generateBuiltinValues_other {condition : Prop} (accepted : AcceptedBuiltin generator)
    (other : generator.executable ≠ "builtin:argon2id-password-hash")
    (length : prompts.length = generator.prompts.length)
    (secret : generator.executable ∉ keyGenerators →
      Stateful.Runs (generateBuiltinValue P generator) condition)
    (ssh : generator.executable = "builtin:ssh-ed25519" →
      Stateful.Runs (generateSshEd25519Values P generator) condition)
    (wireguard : generator.executable = "builtin:wireguard-private-key" →
      Stateful.Runs (generateWireguardValues P generator) condition) :
    Stateful.Runs (generateBuiltinValues P generator prompts)
      (generator.prompts = [] ∧ condition) := by
  have prompted : ¬(!prompts.isEmpty) = true ↔ generator.prompts = [] := by
    rw [Bool.not_eq_true', Bool.not_eq_false, List.isEmpty_iff, ← List.length_eq_zero_iff, length,
      List.length_eq_zero_iff]
  have independent : ¬(!generator.secretDependencies.isEmpty) = true := by
    simp [accepted.dependencies]
  have values : Stateful.Runs (if generator.executable = "builtin:ssh-ed25519" then do
      let pair ← generateSshEd25519Values P generator
      pure ⟨[pair.1], declaredPublic generator pair.2⟩
    else if generator.executable = "builtin:wireguard-private-key" then do
      let pair ← generateWireguardValues P generator
      pure ⟨[pair.1], declaredPublic generator pair.2⟩
    else do
      let secrets ← generator.outputs.mapM fun _ => generateBuiltinValue P generator
      pure ⟨secrets, []⟩ : Draw GeneratedValues) condition := by
    split
    · rename_i named
      exact (ssh named).andThen fun _ _ _ _ => .pure _
    · split
      · rename_i named
        exact (wireguard named).andThen fun _ _ _ _ => .pure _
      · rename_i other_ssh other_wireguard
        have single : generator.executable ∉ keyGenerators := by
          simp [keyGenerators, other_ssh, other_wireguard]
        have mapped := Stateful.Runs.mapM accepted.outputs fun (_ : Id) _ => secret single
        exact mapped.andThen fun _ _ _ _ => .pure _
  unfold generateBuiltinValues
  rw [if_neg other]
  exact (Stateful.Runs.pass independent values).guard.congr (by rw [prompted])

theorem refusesKeys_eq_false (accepted : AcceptedBuiltin generator)
    (pair : generator.executable ∈ keyGenerators) :
    refusesKeys generator = false ↔ generator.parameters.isEmpty = true := by
  obtain ⟨one, few⟩ := accepted.keyPair pair
  simp [refusesKeys, one, few]

/-- An accepted built-in generator runs exactly when its declaration is runnable. -/
theorem generateBuiltinValues_runs (works : P.Works) (accepted : AcceptedBuiltin generator)
    (builtin : generator.executable ∈ builtinGenerators)
    (answered : List.Forall₂ (fun (_ : GeneratorPrompt) response =>
      1 ≤ response.length ∧ response.length ≤ 1024) generator.prompts prompts) :
    Stateful.Runs (generateBuiltinValues P generator prompts) (Runnable generator) := by
  by_cases password : generator.executable = "builtin:argon2id-password-hash"
  · exact generateBuiltinValues_password works accepted password answered
  have length := answered.length_eq.symm
  have ssh : generator.executable = "builtin:ssh-ed25519" →
      Stateful.Runs (generateSshEd25519Values P generator)
        (generator.parameters.isEmpty = true) := fun named =>
    (generateSshEd25519Values_runs works).congr
      (refusesKeys_eq_false accepted (by rw [named]; decide))
  have wireguard : generator.executable = "builtin:wireguard-private-key" →
      Stateful.Runs (generateWireguardValues P generator)
        (generator.parameters.isEmpty = true) := fun named =>
    (generateWireguardValues_runs works).congr
      (refusesKeys_eq_false accepted (by rw [named]; decide))
  by_cases plain : generator.executable ∈ "builtin:uuid" :: keyGenerators
  · have secret : generator.executable ∉ keyGenerators →
        Stateful.Runs (generateBuiltinValue P generator)
          (generator.parameters.isEmpty = true) := fun single =>
      generateUuid_runs works ((List.mem_cons.mp plain).resolve_right single)
    refine (generateBuiltinValues_other accepted password length secret ssh wireguard).congr ?_
    have apart : generator.executable ∉ octetGenerators ∧
        generator.executable ≠ "builtin:passphrase" := by
      simp only [keyGenerators, List.mem_cons, List.not_mem_nil, or_false] at plain
      rcases plain with named | named | named
      all_goals
        rw [named]
        decide
    rw [runnable_iff]
    simp [password, plain, apart.1, apart.2]
  · obtain ⟨uuid, single⟩ := not_or.mp (List.mem_cons.not.mp plain)
    have no_ssh : generator.executable ≠ "builtin:ssh-ed25519" := by
      rintro named
      exact single (by rw [named]; decide)
    have no_wireguard : generator.executable ≠ "builtin:wireguard-private-key" := by
      rintro named
      exact single (by rw [named]; decide)
    by_cases octets : generator.executable ∈ octetGenerators
    · refine (generateBuiltinValues_other accepted password length
        (fun _ => generateBuiltinValue_octets_runs works octets) (fun named => absurd named no_ssh)
        fun named => absurd named no_wireguard).congr ?_
      have apart : generator.executable ≠ "builtin:passphrase" := by
        rintro named
        rw [named] at octets
        exact absurd octets (by decide)
      rw [runnable_iff]
      simp [password, plain, octets, apart]
    · have named : generator.executable = "builtin:passphrase" := by
        simp only [builtinGenerators, octetGenerators, List.mem_cons, List.not_mem_nil,
          or_false] at builtin octets
        tauto
      have secret : Stateful.Runs (generateBuiltinValue P generator) (wordsRule.Met generator) := by
        have same : generateBuiltinValue P generator = generatePassphrase P generator := by
          unfold generateBuiltinValue
          simp only [named]
        rw [same]
        exact generatePassphrase_runs works
      refine (generateBuiltinValues_other accepted password length (fun _ => secret)
        (fun named => absurd named no_ssh) fun named => absurd named no_wireguard).congr ?_
      rw [runnable_iff, named]
      simp [octetGenerators, keyGenerators]

end Values

/-- A built-in generator of an accepted plan never returns another number of values than it
declares, and it returns exactly when its declaration is runnable. -/
theorem accepted_builtin_runs_iff {E : Policy.Environment} {plan : Plan} {id : Id}
    {generator : Generator} {P : Primitives} {prompts : List Bytes}
    (accepted : validate E plan = .ok ()) (stored : plan.generators[id]? = some generator)
    (builtin : generator.executable ∈ builtinGenerators) (works : P.Works)
    (answered : List.Forall₂ (fun (_ : GeneratorPrompt) response =>
      1 ≤ response.length ∧ response.length ≤ 1024) generator.prompts prompts)
    (run : GeneratorRun) (calls : Nat) :
    let returned := generateGeneratorValues generator
      { run with builtin := builtinOutcome P generator prompts calls }
    (∀ values, returned = .ok values → Complete generator values) ∧
      ((∃ values, returned = .ok values) ↔ Runnable generator) := by
  have facts := acceptedBuiltin accepted stored builtin
  have runs := generateBuiltinValues_runs works facts builtin answered calls
  have begins : startsWith "builtin:" generator.executable = true := by
    simp only [builtinGenerators, List.mem_cons, List.not_mem_nil, or_false] at builtin
    rcases builtin with named | named | named | named | named | named | named | named | named
    all_goals
      rw [named]
      decide
  simp only [generateGeneratorValues, if_pos begins, builtinOutcome]
  cases outcome : generateBuiltinValues P generator prompts calls with
  | error failure =>
      rw [outcome] at runs
      have refused : ¬∃ result, (.error failure : Except GenerateError (GeneratedValues × Nat)) =
          .ok result := by simp
      exact ⟨nofun, iff_of_false (fun ⟨_, returned⟩ => by cases returned) (runs.not.mp refused)⟩
  | ok result =>
      rw [outcome] at runs
      refine ⟨fun values returned => ?_, iff_of_true ⟨result.1, rfl⟩ (runs.mp ⟨result, rfl⟩)⟩
      obtain rfl := Except.ok.inj returned
      exact generateBuiltinValues_complete facts outcome

namespace Sample

/-- Functions of the other crates, with constant keys and hashes. -/
def primitives : Primitives where
  fill := fun _ length => some (Vector.replicate length 0)
  verifyingKey := fun _ => Vector.replicate 32 1
  x25519Public := fun _ => Vector.replicate 32 2
  argon2Params := fun memory iterations lanes length =>
    8 * lanes ≤ memory && 1 ≤ iterations && 1 ≤ lanes && 4 ≤ length
  argon2id := fun _ _ _ _ _ _ => some "$argon2id$v=19$m=65536,t=3,p=1$AAAAAAAAAAA$AAAAAAAAAAA"

theorem primitives_work : primitives.Works where
  fill := fun _ _ => rfl
  argon2Params := by
    intro memory iterations lanes length first _ second _ third _ fourth _
    simp [primitives, first, second, third, fourth]
  argon2id := fun _ _ _ _ _ _ _ _ _ _ _ _ => rfl

/-- A generator of hexadecimal octets for the sample secret. -/
def hexGenerator : Generator where
  executable := "builtin:hex"
  outputs := [Policy.Sample.token]
  parameters := Std.TreeMap.ofList [("bytes", "48")]

/-- A prompt that is remembered. -/
def remembered : GeneratorPrompt where
  id := Policy.Sample.token
  mode := .hidden
  message := "Password"
  persistent := true

/-- A password hash whose prompt is remembered. -/
def rememberedPassword : Generator where
  executable := "builtin:argon2id-password-hash"
  outputs := [Policy.Sample.token]
  prompts := [remembered]

/-- The sample plan with one generator. -/
def planWith (generator : Generator) : Plan :=
  { Policy.Sample.plan with
    generators := Std.TreeMap.ofList [(Policy.Sample.admin, generator)] }

end Sample

theorem accepted_builtin_runs_hex :
    (∀ calls (run : GeneratorRun), ∃ values, generateGeneratorValues Sample.hexGenerator
      { run with builtin := builtinOutcome Sample.primitives Sample.hexGenerator [] calls } =
        .ok values) ∧
      ∀ calls (run : GeneratorRun) values, generateGeneratorValues Sample.rememberedPassword
        { run with
          builtin := builtinOutcome Sample.primitives Sample.rememberedPassword [[1]] calls } ≠
            .ok values := by
  have hex_accepted : validate Policy.Sample.environment (Sample.planWith Sample.hexGenerator) =
      .ok () := Policy.Sample.validate_of_identities rfl rfl rfl (by decide) (by decide +kernel)
  have password_accepted : validate Policy.Sample.environment
      (Sample.planWith Sample.rememberedPassword) = .ok () :=
    Policy.Sample.validate_of_identities rfl rfl rfl (by decide) (by decide +kernel)
  have hex_stored : (Sample.planWith Sample.hexGenerator).generators[Policy.Sample.admin]? =
      some Sample.hexGenerator := rfl
  have password_stored :
      (Sample.planWith Sample.rememberedPassword).generators[Policy.Sample.admin]? =
        some Sample.rememberedPassword := rfl
  constructor
  · intro calls run
    refine (accepted_builtin_runs_iff hex_accepted hex_stored (by decide) Sample.primitives_work
      .nil run calls).2.mpr ?_
    refine runnable_iff.mpr ⟨fun named => absurd named (by decide), fun _ => rfl, fun _ => ?_,
      fun named => absurd named (by decide), fun named => absurd named (by decide)⟩
    have keys : Sample.hexGenerator.parameters.keys = ["bytes"] := by decide
    refine ⟨fun key member => ?_, fun value stored => ⟨48, ?_, by decide, by decide⟩⟩
    · have listed := Std.TreeMap.mem_keys.mpr member
      rw [keys] at listed
      exact List.mem_singleton.mp listed
    · have known : Sample.hexGenerator.parameters["bytes"]? = some "48" := by decide
      have same : value = "48" := Option.some.inj (stored.symm.trans known)
      rw [same]
      decide
  · intro calls run values returned
    have answered : List.Forall₂ (fun (_ : GeneratorPrompt) (response : Bytes) =>
        1 ≤ response.length ∧ response.length ≤ 1024)
        Sample.rememberedPassword.prompts [[1]] := .cons (by decide) .nil
    have runnable := (accepted_builtin_runs_iff password_accepted password_stored (by decide)
      Sample.primitives_work answered run calls).2.mp ⟨values, returned⟩
    have forgotten := runnable.password rfl _ List.mem_cons_self
    cases forgotten

end NixSeal.Generate
