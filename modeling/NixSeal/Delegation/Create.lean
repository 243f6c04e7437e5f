import NixSeal.Authoring.Basic
import NixSeal.Lib.Faulty
import NixSeal.Manifest.Capability
import NixSeal.Policy.Recipients

/-!
# Delegated creation of a pending secret

`run_delegated_issue` signs a capability for one secret of a bootstrap plan, `run_delegated_create`
checks it against the plan and the clock and writes the ciphertext, and `run_bootstrap_complete`
does both in one process.  Files and standard input are octets; what the JSON, hash and age crates
compute is a parameter.
-/

namespace NixSeal.Delegation

open Faulty Program Manifest Policy Authoring

/-- Functions of external crates that the commands call. -/
structure Tools where
  policy : Policy.Environment
  codec : CapabilityCodec
  /-- `serde_json::from_slice` of a plan. -/
  planFromJson : Bytes → Option Plan
  /-- `serde_json::to_vec_pretty` of a signed capability. -/
  capabilityToJson : SignedDelegatedCreateCapability → Option Bytes
  /-- `serde_json::from_slice` of a signed capability. -/
  capabilityFromJson : Bytes → Option SignedDelegatedCreateCapability
  /-- `serde_jcs::to_vec` of the document that lists a set of recipients. -/
  recipientSetToJcs : List String → Option Bytes
  /-- SHA-256 in lowercase hexadecimal. -/
  sha256Hex : Bytes → String
  /-- `recipient_fingerprint`. -/
  recipientFingerprint : String → Option String
  /-- `encrypt` for recipients, with the randomness it draws. -/
  encrypt : Nat → List String → Bytes → Option Bytes

/-- Signature and hash primitives. -/
abbrev Tools.keys (T : Tools) : Primitives := T.policy.keys

/-- Seconds since the epoch, as `SystemTime` counts them in 64 signed bits. -/
structure UnixSeconds where
  value : UInt64
  signed : value.toNat < 2 ^ 63

/-- Failures of the commands. -/
inductive CommandError where
  | bail (message : String)
  /-- A failure to write JSON. -/
  | json
  | capability (error : CapabilityError)
  | manifest (error : ManifestError)
  | policy (error : PolicyError)
  | authoring (error : AuthoringError)
  deriving DecidableEq

/-! ## Plans -/

/-- `read_json_bounded`. -/
def readJsonBounded {α : Type} (parse : Bytes → Option α) (file : Bytes) : Except CommandError α :=
  if 2 * 1024 * 1024 < file.length then
    .error (.bail "public metadata file exceeds the 2 MiB safety limit")
  else
    match parse file with
    | none => .error (.bail "invalid strict artifact JSON")
    | some value => .ok value

def bootstrapCreatePlanSchema : String := "nix-seal.bootstrap-create-plan.v1"

def bootstrapSourceHash : String :=
  "0000000000000000000000000000000000000000000000000000000000000000"

/-- One turn of `validate_plan_identity_material`. -/
def checkIdentityMaterial (T : Tools) (trusted : TrustedKeys T.keys) (entry : Id × Identity) :
    Except CommandError (TrustedKeys T.keys) :=
  match entry.2.kind with
  | .signer | .authorizer =>
      match trusted.insertEncoded entry.2.publicValue with
      | .ok (extended, _) => .ok extended
      | .error _ =>
          .error (.bail s!"signing identity {entry.1} is malformed or duplicated")
  | .plugin =>
      if (T.recipientFingerprint entry.2.publicValue).isNone then
        .error (.bail s!"plugin identity {entry.1} has a malformed recipient")
      else .ok trusted
  | .administrator | .target | .recovery =>
      if (T.recipientFingerprint entry.2.publicValue).isNone then
        .error (.bail s!"recipient identity {entry.1} is malformed")
      else .ok trusted

/-- `validate_plan_identity_material`. -/
def validatePlanIdentityMaterial (T : Tools) (plan : Plan) : Except CommandError Unit := do
  let _ ← plan.identities.toList.foldlM (checkIdentityMaterial T) .empty
  .ok ()

/-- `read_bootstrap_create_plan`. -/
def readBootstrapCreatePlan (T : Tools) (file : Bytes) : Except CommandError Plan := do
  let plan ← readJsonBounded T.planFromJson file
  if plan.schema ≠ bootstrapCreatePlanSchema ∨ plan.secrets.isEmpty then
    .error (.bail "expected a nonempty nix-seal.bootstrap-create-plan.v1 plan")
  else if plan.secrets.toList.any fun entry =>
      entry.2.sourceCiphertextHash ≠ bootstrapSourceHash then
    .error (.bail "bootstrap-create plans require the all-zero pending ciphertext hash")
  else do
    (validate T.policy { plan with schema := planSchema }).mapError .policy
    validatePlanIdentityMaterial T { plan with schema := planSchema }
    .ok { plan with schema := bootstrapCreatePlanSchema }

/-- `bootstrap_recipients`. -/
def bootstrapRecipients (T : Tools) (plan : Plan) (secret : Id) :
    Except CommandError (List String) := do
  let policy ← (secretRecipients T.policy { plan with schema := planSchema } secret).mapError
    .policy
  .ok (Std.TreeSet.ofList policy.recipients.values).toList

/-- The text of a document, or the failure to write it. -/
def serialized (text : Option Bytes) : Except CommandError Bytes :=
  match text with
  | none => .error .json
  | some bytes => .ok bytes

/-- `recipient_set_hash`. -/
def recipientSetHash (T : Tools) (recipients : List String) : Except CommandError String := do
  let payload ← serialized (T.recipientSetToJcs recipients)
  .ok (T.keys.blake3Hex (utf8 "nix-seal delegated recipient set v1\x00" ++ payload))

/-- One turn of `delegated_authorizer_keys`. -/
def addAuthorizer (T : Tools) (trusted : TrustedKeys T.keys) (entry : Id × Identity) :
    Except CommandError (TrustedKeys T.keys) :=
  if entry.2.kind = .authorizer then do
    let inserted ← (trusted.insertEncoded entry.2.publicValue).mapError .manifest
    .ok inserted.1
  else .ok trusted

/-- `delegated_authorizer_keys`. -/
def delegatedAuthorizerKeys (T : Tools) (plan : Plan) :
    Except CommandError (TrustedKeys T.keys) := do
  let trusted ← plan.identities.toList.foldlM (addAuthorizer T) .empty
  if trusted.keys.isEmpty then
    .error (.bail "bootstrap plan declares no delegated authorizer identity")
  else .ok trusted

/-- The test of `ensure_bootstrap_authorizer` on the key it has read. -/
def ensureBootstrapAuthorizer (T : Tools) (plan : Plan) (key : ApprovalSigningKey T.keys) :
    Except CommandError Unit :=
  if plan.identities.toList.any fun entry =>
      entry.2.kind = .authorizer && key.matchesPublicKey entry.2.publicValue then
    .ok ()
  else .error (.bail "authorizer key is not authorized by the bootstrap plan")

/-- A secret of a bootstrap plan. -/
def pendingSecret (plan : Plan) (id : Id) (missing : String) : Except CommandError Secret :=
  match plan.secrets[id]? with
  | none => .error (.bail missing)
  | some secret => .ok secret

/-! ## Issuing -/

/-- The arguments, the clock and the randomness of one `run_delegated_issue`. -/
structure IssueCall (T : Tools) where
  bootstrapPlan : Bytes
  secret : Id
  plaintextSha256 : String
  plaintextBytes : UInt64
  expiresInSeconds : UInt64
  /-- `read_signing_key`. -/
  authorizerKey : Except CommandError (ApprovalSigningKey T.keys)
  now : UnixSeconds
  nonce : Vector UInt8 32

/-- The capability of an issue, for a source, a plan hash and a recipient set. -/
def IssueCall.capability {T : Tools} (call : IssueCall T) (source hash recipientSet : String) :
    DelegatedCreateCapability where
  schema := delegatedCreateCapabilitySchema
  operation := "create"
  capabilityId := Base64.encodeUrl call.nonce.toList
  bootstrapPlanHash := hash
  secretId := call.secret
  source := source
  recipientSetHash := recipientSet
  plaintextSha256 := call.plaintextSha256
  maxPlaintextBytes := call.plaintextBytes
  issuedAt := call.now.value
  notBefore := call.now.value
  expiresAt := call.now.value + call.expiresInSeconds

/-- `run_delegated_issue`, up to the file it writes. -/
def runDelegatedIssue (T : Tools) (call : IssueCall T) : Except CommandError Bytes :=
  if call.expiresInSeconds = 0 ∨ 900 < call.expiresInSeconds then
    .error (.bail "--expires-in-seconds must be between 1 and 900")
  else if call.plaintextBytes = 0 ∨ maxDelegatedPlaintextBytes < call.plaintextBytes then
    .error (.bail "--plaintext-bytes must be between 1 and 65536 for delegated creation")
  else do
    let plan ← readBootstrapCreatePlan T call.bootstrapPlan
    let secret ← pendingSecret plan call.secret "secret is absent from bootstrap plan"
    let recipients ← bootstrapRecipients T plan call.secret
    let key ← call.authorizerKey
    ensureBootstrapAuthorizer T plan key
    if 2 ^ 64 ≤ call.now.value.toNat + call.expiresInSeconds.toNat then
      .error (.bail "capability expiry overflow")
    else do
      let hash ← (planHash T.policy plan).mapError .policy
      let recipientSet ← recipientSetHash T recipients
      let signed ← (signDelegatedCreateCapability T.keys T.codec
        (call.capability secret.source hash recipientSet) key).mapError .capability
      let text ← serialized (T.capabilityToJson signed)
      .ok (text ++ utf8 "\n")

/-! ## Creating -/

/-- The canonical ciphertexts of a repository, by the components of their paths. -/
abbrev Repository : Type := List PathComponent → Option Bytes

/-- The file-system steps of a creation. -/
inductive CreateStep where
  /-- The repository root is looked up. -/
  | root
  | lock
  /-- The parent directories are looked up or created. -/
  | parents
  /-- A parent is looked at: it must be a directory. -/
  | directory
  | stage
  | persist
  | sync
  deriving DecidableEq, Repr

abbrev Creation (α : Type) : Type := Program CreateStep Repository CommandError α

/-- The path of `resolve_destination`. -/
def resolveDestination (relative : String) : Except CommandError (List PathComponent) :=
  if isAbsolute relative || (pathComponents relative).any (fun component =>
      match component with
      | .normal _ => false
      | _ => true) || (pathComponents relative).isEmpty then
    .error (.authoring .unsafePath)
  else .ok (pathComponents relative)

/-- The ciphertext, or the failure of the encryption. -/
def staged (ciphertext : Option Bytes) : Except CommandError Bytes :=
  match ciphertext with
  | none => .error (.authoring .crypto)
  | some bytes => .ok bytes

/-- `write_secret_create_delegated`. -/
def writeSecretCreateDelegated (T : Tools) (randomness : Nat) (relative : String) (input : Bytes)
    (recipients : List String) : Creation Unit := do
  Program.step .lock (.authoring .io) id
  let destination ← lift (resolveDestination relative)
  Program.step .parents (.authoring .io) id
  Program.step .directory (.authoring .unsafePath) id
  let repository ← read
  require (repository destination = none) (CommandError.authoring .destinationState)
  Program.step .stage (.authoring .io) id
  let ciphertext ← lift (staged (T.encrypt randomness recipients input))
  let repository ← read
  require (repository destination = none) (CommandError.authoring .io)
  Program.step .persist (.authoring .io) fun repository =>
    Function.update repository destination (some ciphertext)
  Program.step .sync (.authoring .durabilityUnknown) id

/-- `write_bootstrap_secret`. -/
def writeBootstrapSecret (T : Tools) (randomness : Nat) (plan : Plan) (secretId : Id)
    (input : Bytes) : Creation Unit := do
  let secret ← lift (pendingSecret plan secretId "secret is absent from bootstrap plan")
  let recipients ← lift (bootstrapRecipients T plan secretId)
  Program.step .root (.bail "repository root must exist") id
  writeSecretCreateDelegated T randomness secret.source input recipients

/-- The arguments, the clock and the randomness of one `run_delegated_create`. -/
structure CreateCall where
  bootstrapPlan : Bytes
  capability : Bytes
  stdin : Bytes
  now : UnixSeconds
  randomness : Nat

/-- A capability that was accepted, with its plan and its input. -/
structure Authorization where
  plan : Plan
  capability : DelegatedCreateCapability
  input : Bytes

/-- The input of a delegated creation. -/
def readDelegatedInput (T : Tools) (capability : DelegatedCreateCapability) (stdin : Bytes) :
    Except CommandError Bytes :=
  if 2 ^ 64 ≤ capability.maxPlaintextBytes.toNat + 1 then
    .error (.bail "delegated plaintext limit is invalid")
  else
    let input := stdin.take (capability.maxPlaintextBytes.toNat + 1)
    if input.isEmpty || capability.maxPlaintextBytes.toNat < input.length then
      .error (.bail "delegated plaintext is empty or exceeds the authorized byte limit")
    else if T.sha256Hex input ≠ capability.plaintextSha256 then
      .error (.bail "delegated plaintext does not match the signed SHA-256 commitment")
    else .ok input

/-- `run_delegated_create`, up to the write. -/
def authorizeCreate (T : Tools) (call : CreateCall) : Except CommandError Authorization := do
  let plan ← readBootstrapCreatePlan T call.bootstrapPlan
  let signed ← readJsonBounded T.capabilityFromJson call.capability
  let trusted ← delegatedAuthorizerKeys T plan
  let capability ← (verifyDelegatedCreateCapability T.keys T.codec signed trusted call.now.value
    300).mapError .capability
  let hash ← (planHash T.policy plan).mapError .policy
  if capability.bootstrapPlanHash ≠ hash then
    .error (.bail "capability is bound to a different bootstrap plan")
  else do
    let secret ← pendingSecret plan capability.secretId
      "capability secret is absent from bootstrap plan"
    let recipients ← bootstrapRecipients T plan capability.secretId
    let recipientSet ← recipientSetHash T recipients
    if capability.source ≠ secret.source ∨ capability.recipientSetHash ≠ recipientSet then
      .error (.bail "capability does not match the plan-derived destination or recipients")
    else do
      let input ← readDelegatedInput T capability call.stdin
      .ok ⟨plan, capability, input⟩

/-- `run_delegated_create`. -/
def runDelegatedCreate (T : Tools) (call : CreateCall) : Creation Unit := do
  let authorization ← lift (authorizeCreate T call)
  writeBootstrapSecret T call.randomness authorization.plan authorization.capability.secretId
    authorization.input

/-! ## Bootstrap completion -/

def possessionProofSshNamespace : String := "nix-seal-key-possession-v1"

/-- `prove_possession`. -/
def provePossession (P : Primitives) (key : ApprovalSigningKey P) (challenge : Bytes) :
    Except ManifestError Unit :=
  if challenge.isEmpty ∨ maxPayloadBytes < challenge.length then .error .limit
  else do
    let entry ← key.signWithNamespace challenge possessionProofSshNamespace
    let encoded ← key.encodePublic
    let publicKey ← parsePublicKey P encoded
    verifySignatureEntry P entry publicKey challenge possessionProofSshNamespace

/-- `resolve_pending_secret`. -/
def resolvePendingSecret (plan : Plan) (requested : Id) : Except CommandError Id :=
  if plan.secrets.contains requested then .ok requested
  else
    match plan.secrets.keys.filter fun id =>
        ("/" ++ requested.value).toList <:+ id.value.toList with
    | [] => .error (.bail "secret is absent from bootstrap plan")
    | [selected] => .ok selected
    | _ => .error (.bail "local secret name is ambiguous; use its complete canonical ID")

/-- The arguments and the randomness of one `run_bootstrap_complete`. -/
structure CompleteCall (T : Tools) where
  bootstrapPlan : Bytes
  secret : Id
  authorizerKey : Except CommandError (ApprovalSigningKey T.keys)
  nonce : Vector UInt8 32
  /-- What is read from the terminal or from standard input. -/
  input : Except CommandError Bytes
  randomness : Nat

/-- The octets that `run_bootstrap_complete` has signed. -/
def possessionChallenge (hash : String) (secret : Id) (nonce : Vector UInt8 32) : Bytes :=
  utf8 "nix-seal bootstrap completion possession v1\x00" ++ utf8 hash ++ [0] ++ utf8 secret.value ++
    [0] ++ nonce.toList

/-- The size test on the plaintext of a completion. -/
def checkBootstrapPlaintext (input : Bytes) : Except CommandError Unit :=
  if input.isEmpty ∨ 64 * 1024 < input.length then
    .error (.bail "bootstrap plaintext is empty or exceeds the 65536 byte limit")
  else .ok ()

/-- `run_bootstrap_complete`. -/
def runBootstrapComplete (T : Tools) (call : CompleteCall T) : Creation Unit := do
  let plan ← lift (readBootstrapCreatePlan T call.bootstrapPlan)
  let secret ← lift (resolvePendingSecret plan call.secret)
  let key ← lift call.authorizerKey
  lift (ensureBootstrapAuthorizer T plan key)
  let hash ← lift ((planHash T.policy plan).mapError .policy)
  lift ((provePossession T.keys key (possessionChallenge hash secret call.nonce)).mapError .manifest)
  let input ← lift call.input
  lift (checkBootstrapPlaintext input)
  writeBootstrapSecret T call.randomness plan secret input

end NixSeal.Delegation
