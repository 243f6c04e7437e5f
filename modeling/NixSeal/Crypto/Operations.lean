import NixSeal.Crypto.Header
import NixSeal.Manifest.Keys

/-!
# Encryption, decryption and rekeying

The public operations of the crypto crate, with the worker process that runs age plugins.  An
operation with a plugin recipient or a plugin identity writes a request to a worker, which is the
same program; any other operation runs in the process itself.  The age crate is a parameter.
-/

namespace NixSeal.Crypto

open Fallible

/-! ## The age crate -/

/-- `age::ssh::Identity`. -/
inductive SshIdentity where
  | unencrypted (rsa : Bool) (key : String)
  | encrypted (rsa : Bool)
  | unsupported
  deriving DecidableEq

/-- A parsed plugin recipient or identity: the name of its plugin, and its text. -/
structure PluginKey where
  plugin : String
  text : String
  deriving DecidableEq

/-- What `parse_recipient` makes of a text. -/
inductive AgeRecipient where
  | x25519 (key : String)
  | plugin (key : PluginKey)
  | ssh (rsa : Bool) (key : String)
  deriving DecidableEq

/-- What `parse_identity` makes of a text. -/
inductive AgeIdentity where
  | x25519 (key : String)
  | plugin (key : PluginKey)
  | ssh (identity : SshIdentity)
  deriving DecidableEq

/-- The functions of the age crate. -/
structure Age where
  x25519Recipient : String → Option String
  pluginRecipient : String → Option PluginKey
  /-- `age::ssh::Recipient` from text, with a flag for RSA. -/
  sshRecipient : String → Option (Bool × String)
  x25519Identity : String → Option String
  pluginIdentity : String → Option PluginKey
  /-- `age::ssh::Identity::from_buffer`. -/
  sshIdentity : String → Option SshIdentity
  /-- `age::ssh::Recipient::try_from` an identity, with a flag for RSA. -/
  sshRecipientOf : SshIdentity → Option (Bool × String)
  /-- Whether the binary of a plugin is found. -/
  available : String → Bool
  /-- `Encryptor::with_recipients` and `wrap_output`, and the ciphertext of a whole plaintext. -/
  encryptor : List AgeRecipient → Option (Bytes → Option Bytes)
  /-- `Decryptor::new` and `decrypt`, and the plaintext of the whole stream. -/
  decryptor : AgeIdentity → Bytes → Except CryptoError Bytes

/-- What the age crate documents: a text is a key of one kind, and an unencrypted RSA identity has
an RSA recipient. -/
structure Age.Documented (A : Age) : Prop where
  recipient : ∀ text rsa key, A.sshRecipient text = some (rsa, key) →
    A.x25519Recipient text = none ∧ A.pluginRecipient text = none
  identity : ∀ text identity, A.sshIdentity text = some identity →
    A.x25519Identity (trim text) = none ∧ A.pluginIdentity (trim text) = none
  recipientOf : ∀ rsa key other text, A.sshRecipientOf (.unencrypted rsa key) =
    some (other, text) → other = rsa

/-! ## Keys -/

/-- `is_plugin_recipient`. -/
def isPluginRecipient (A : Age) (value : String) : Bool := (A.pluginRecipient value).isSome

/-- `is_plugin_identity`. -/
def isPluginIdentity (A : Age) (value : String) : Bool := (A.pluginIdentity (trim value)).isSome

/-- `parse_recipient`. -/
def parseRecipient (A : Age) (value : String) : Except CryptoError AgeRecipient :=
  match A.x25519Recipient value with
  | some key => .ok (.x25519 key)
  | none =>
      match A.pluginRecipient value with
      | some key => if A.available key.plugin then .ok (.plugin key) else .error .plugin
      | none =>
          match A.sshRecipient value with
          | none => .error .recipient
          | some (rsa, key) => if rsa then .error .recipient else .ok (.ssh rsa key)

/-- `parse_plugin_identity`. -/
def parsePluginIdentity (A : Age) (identity : String) : Except CryptoError AgeIdentity :=
  match A.pluginIdentity (trim identity) with
  | none => .error .identity
  | some key => if A.available key.plugin then .ok (.plugin key) else .error .plugin

/-- `parse_ssh_identity`. -/
def parseSshIdentity (A : Age) (identity : String) : Except CryptoError SshIdentity :=
  match A.sshIdentity identity with
  | none => .error .identity
  | some parsed => .ok parsed

/-- Whether an OpenSSH identity is protected by a passphrase. -/
def SshIdentity.isEncrypted : SshIdentity → Bool
  | .encrypted _ => true
  | _ => false

/-- `parse_identity`. -/
def parseIdentity (A : Age) (identity : String) : Except CryptoError AgeIdentity :=
  match A.x25519Identity (trim identity) with
  | some key => .ok (.x25519 key)
  | none =>
      if isPluginIdentity A identity then parsePluginIdentity A identity
      else do
        let parsed ← parseSshIdentity A identity
        if parsed.isEncrypted then .error .identity
        else
          match A.sshRecipientOf parsed with
          | none => .error .identity
          | some (rsa, _) => if rsa then .error .identity else .ok (.ssh parsed)

/-- `parse_migration_identity`. -/
def parseMigrationIdentity (A : Age) (identity : String) : Except CryptoError AgeIdentity :=
  match A.x25519Identity (trim identity) with
  | some key => .ok (.x25519 key)
  | none =>
      if isPluginIdentity A identity then parsePluginIdentity A identity
      else do
        let parsed ← parseSshIdentity A identity
        if parsed.isEncrypted then .error .identity else .ok (.ssh parsed)

/-! ## Operations in the process -/

/-- The encryption of a bounded stream. -/
def encryptTo (A : Age) (input : Bytes) (recipients : List AgeRecipient) :
    Except CryptoError Bytes :=
  match A.encryptor recipients with
  | none => .error .encrypt
  | some writer =>
      if maxSecretBytes < input.length then .error .inputTooLarge
      else
        match writer input with
        | none => .error .encrypt
        | some ciphertext => .ok ciphertext

/-- `encrypt_direct`. -/
def encryptDirect (A : Age) (input : Bytes) (recipients : List String) :
    Except CryptoError Bytes := do
  let parsed ← recipients.mapM (parseRecipient A)
  if parsed.isEmpty then .error .recipient else encryptTo A input parsed

/-- `decrypt_with_identity`. -/
def decryptWithIdentity (A : Age) (input : Bytes) (identity : AgeIdentity)
    (allowLegacySshRsaStanzas : Bool) : Except CryptoError Bytes := do
  let prepared ← prepareCiphertext input allowLegacySshRsaStanzas
  let plaintext ← A.decryptor identity prepared
  if maxSecretBytes < plaintext.length then .error .inputTooLarge else .ok plaintext

/-- `rekey_direct_with_identity`. -/
def rekeyDirectWithIdentity (A : Age) (input : Bytes) (identity : AgeIdentity)
    (recipients : List String) (allowLegacySshRsaStanzas : Bool) : Except CryptoError Bytes := do
  let parsed ← recipients.mapM (parseRecipient A)
  if parsed.isEmpty then .error .recipient
  else do
    let prepared ← prepareCiphertext input allowLegacySshRsaStanzas
    let plaintext ← A.decryptor identity prepared
    encryptTo A plaintext parsed

/-- `rekey_direct`. -/
def rekeyDirect (A : Age) (input : Bytes) (identity : String) (recipients : List String) :
    Except CryptoError Bytes := do
  let parsed ← parseIdentity A identity
  rekeyDirectWithIdentity A input parsed recipients false

/-! ## Requests to the worker -/

/-- The operations that a worker runs. -/
inductive OperationKind where
  | encrypt
  | decrypt
  | rekey
  | rekeyMigration
  | decryptMigration
  deriving DecidableEq

/-- `PluginOperation`, with its input. -/
structure PluginRequest where
  kind : OperationKind
  identity : Option String
  recipients : List String
  payload : Bytes
  deriving DecidableEq

/-- `PluginOperation::code`. -/
def OperationKind.code : OperationKind → UInt8
  | .encrypt => 1
  | .decrypt => 2
  | .rekey => 3
  | .rekeyMigration => 4
  | .decryptMigration => 5

/-- `MAX_PLUGIN_FIELD_BYTES`. -/
def maxPluginFieldBytes : Nat := 64 * 1024

/-- `MAX_PLUGIN_RECIPIENTS`. -/
def maxPluginRecipients : Nat := 256

/-- `MAX_PLUGIN_CIPHERTEXT_BYTES`. -/
def maxPluginCiphertextBytes : Nat := maxSecretBytes + 2 * 1024 * 1024

/-- `PluginOperation::input_limit`. -/
def OperationKind.inputLimit : OperationKind → Nat
  | .encrypt => maxSecretBytes
  | _ => maxPluginCiphertextBytes

/-- `PluginOperation::output_limit`. -/
def OperationKind.outputLimit : OperationKind → Nat
  | .decrypt | .decryptMigration => maxSecretBytes
  | _ => maxPluginCiphertextBytes

/-- `PLUGIN_WORKER_MAGIC`. -/
def pluginWorkerMagic : Bytes := utf8 "nix-seal-age-plugin-worker-v1\n"

/-- `write_plugin_field`. -/
def writePluginField (value : Bytes) : Except CryptoError Bytes :=
  if value.isEmpty || decide (maxPluginFieldBytes < value.length) then .error .plugin
  else .ok (Manifest.beU32 value.length ++ value)

/-- The field of the identity. -/
def writePluginIdentity : Option String → Except CryptoError Bytes
  | none => .ok (Manifest.beU32 0)
  | some identity => writePluginField (utf8 identity)

/-- `write_plugin_request`. -/
def writePluginRequest (request : PluginRequest) : Except CryptoError Bytes := do
  let identity ← writePluginIdentity request.identity
  if maxPluginRecipients < request.recipients.length then .error .plugin
  else do
    let recipients ← request.recipients.mapM fun recipient => writePluginField (utf8 recipient)
    if request.kind.inputLimit < request.payload.length then .error .inputTooLarge
    else .ok (pluginWorkerMagic ++ [request.kind.code] ++ identity ++
      Manifest.beU32 request.recipients.length ++ recipients.flatten ++ request.payload)

/-- `read_exact`. -/
def readExact (length : Nat) (input : Bytes) : Except CryptoError (Bytes × Bytes) :=
  if input.length < length then .error .plugin else .ok (input.take length, input.drop length)

/-- `read_plugin_u32`. -/
def readPluginU32 (input : Bytes) : Except CryptoError (Nat × Bytes) := do
  let (bytes, rest) ← readExact 4 input
  .ok (bytes.foldl (fun value byte => value * 256 + byte.toNat) 0, rest)

/-- `read_plugin_field`. -/
def readPluginField (input : Bytes) (isOptional : Bool) :
    Except CryptoError (Option String × Bytes) := do
  let (length, rest) ← readPluginU32 input
  if length = 0 then (if isOptional then .ok (none, rest) else .error .plugin)
  else if maxPluginFieldBytes < length then .error .plugin
  else do
    let (bytes, rest) ← readExact length rest
    match fromUtf8 bytes with
    | none => .error .plugin
    | some text => .ok (some text, rest)

/-- The loop over the recipients. -/
def readPluginRecipients : Nat → Bytes → Except CryptoError (List String × Bytes)
  | 0, input => .ok ([], input)
  | count + 1, input => do
      let (field, rest) ← readPluginField input false
      match field with
      | none => .error .plugin
      | some recipient => do
          let (recipients, rest) ← readPluginRecipients count rest
          .ok (recipient :: recipients, rest)

/-- The operation of a code. -/
def operationOfCode (code : UInt8) : Except CryptoError OperationKind :=
  if code = 1 then .ok .encrypt
  else if code = 2 then .ok .decrypt
  else if code = 3 then .ok .rekey
  else if code = 4 then .ok .rekeyMigration
  else if code = 5 then .ok .decryptMigration
  else .error .plugin

/-- The request that a worker reads before it starts. -/
def readPluginRequest (frame : Bytes) : Except CryptoError PluginRequest := do
  let (magic, rest) ← readExact pluginWorkerMagic.length frame
  if magic ≠ pluginWorkerMagic then .error .plugin
  else do
    let (code, rest) ← readExact 1 rest
    let kind ← operationOfCode (code.headD 0)
    let (identity, rest) ← readPluginField rest true
    let (count, rest) ← readPluginU32 rest
    if maxPluginRecipients < count then .error .plugin
    else do
      let (recipients, payload) ← readPluginRecipients count rest
      .ok { kind, identity, recipients, payload }

/-- The dispatch of a worker on the code of a request. -/
def PluginRequest.serve (A : Age) (request : PluginRequest) : Except CryptoError Bytes :=
  match request.kind with
  | .encrypt => encryptDirect A request.payload request.recipients
  | .decrypt =>
      match request.identity with
      | none => .error .plugin
      | some identity => do
          let parsed ← parseIdentity A identity
          decryptWithIdentity A request.payload parsed false
  | .rekey =>
      match request.identity with
      | none => .error .plugin
      | some identity => rekeyDirect A request.payload identity request.recipients
  | .rekeyMigration =>
      match request.identity with
      | none => .error .plugin
      | some identity => do
          let parsed ← parseMigrationIdentity A identity
          rekeyDirectWithIdentity A request.payload parsed request.recipients true
  | .decryptMigration =>
      match request.identity with
      | none => .error .plugin
      | some identity => do
          let parsed ← parseMigrationIdentity A identity
          decryptWithIdentity A request.payload parsed true

/-- `run_plugin_worker_protocol`. -/
def runPluginWorkerProtocol (A : Age) (frame : Bytes) : Except CryptoError Bytes := do
  let request ← readPluginRequest frame
  request.serve A

/-! ## Public operations -/

/-- The system that starts workers. -/
structure Host where
  /-- Whether `PATH` is set. -/
  path : Bool
  /-- The directory of the binary of a plugin below the Nix store. -/
  locate : String → Option String
  /-- `join_paths` of the directories. -/
  joins : List String → Bool
  /-- Everything up to the pipes of the worker. -/
  launch : Except CryptoError Unit
  /-- The plugins that the worker finds. -/
  workerAvailable : String → Bool
  /-- Whether the worker ended in time and both pipes were copied. -/
  completed : Bool

/-- The plugins that an operation names. -/
def pluginNames (A : Age) (request : PluginRequest) : Std.TreeSet String :=
  Std.TreeSet.ofList (request.recipients.filterMap (fun recipient =>
      (A.pluginRecipient recipient).map PluginKey.plugin) ++
    (request.identity.bind fun identity =>
      (A.pluginIdentity (trim identity)).map PluginKey.plugin).toList)

/-- `plugin_binary_directories`. -/
def pluginBinaryDirectories (A : Age) (H : Host) (request : PluginRequest) :
    Except CryptoError Unit :=
  if !H.path then .error .plugin
  else
    let names := (pluginNames A request).toList
    if names.isEmpty then .error .plugin
    else
      match names.mapM H.locate with
      | none => .error .plugin
      | some directories =>
          if H.joins (Std.TreeSet.ofList directories).toList then .ok () else .error .plugin

/-- `run_plugin_operation`; the worker is the same program, which finds other plugins. -/
def runPluginOperation (A : Age) (H : Host) (request : PluginRequest) :
    Except CryptoError Bytes := do
  pluginBinaryDirectories A H request
  H.launch
  let frame ← (writePluginRequest request).mapError fun _ => .plugin
  let output ← (runPluginWorkerProtocol { A with available := H.workerAvailable } frame).mapError
    fun _ => .plugin
  if request.kind.outputLimit < output.length then .error .plugin
  else if H.completed then .ok output
  else .error .plugin

/-- `encrypt`. -/
def encrypt (A : Age) (H : Host) (input : Bytes) (recipients : List String) :
    Except CryptoError Bytes :=
  if recipients.any (isPluginRecipient A) then
    runPluginOperation A H ⟨.encrypt, none, recipients, input⟩
  else encryptDirect A input recipients

/-- `decrypt`. -/
def decrypt (A : Age) (H : Host) (input : Bytes) (identity : String) :
    Except CryptoError Bytes :=
  if isPluginIdentity A identity then
    runPluginOperation A H ⟨.decrypt, some identity, [], input⟩
  else do
    let parsed ← parseIdentity A identity
    decryptWithIdentity A input parsed false

/-- `decrypt_migration`. -/
def decryptMigration (A : Age) (H : Host) (input : Bytes) (identity : String) :
    Except CryptoError Bytes :=
  if isPluginIdentity A identity then
    runPluginOperation A H ⟨.decryptMigration, some identity, [], input⟩
  else do
    let parsed ← parseMigrationIdentity A identity
    decryptWithIdentity A input parsed true

/-- `rekey`. -/
def rekey (A : Age) (H : Host) (input : Bytes) (identity : String) (recipients : List String) :
    Except CryptoError Bytes :=
  if isPluginIdentity A identity || recipients.any (isPluginRecipient A) then
    runPluginOperation A H ⟨.rekey, some identity, recipients, input⟩
  else rekeyDirect A input identity recipients

/-- `rekey_migration`. -/
def rekeyMigration (A : Age) (H : Host) (input : Bytes) (identity : String)
    (recipients : List String) : Except CryptoError Bytes :=
  if isPluginIdentity A identity || recipients.any (isPluginRecipient A) then
    runPluginOperation A H ⟨.rekeyMigration, some identity, recipients, input⟩
  else do
    let parsed ← parseMigrationIdentity A identity
    rekeyDirectWithIdentity A input parsed recipients true

end NixSeal.Crypto
