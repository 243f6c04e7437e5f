import NixSeal.Lib.Fallible
import NixSeal.Selection.Inspect

/-!
# Authentication before decryption

`prepare_artifacts` opens and authenticates every artifact of an activation before any of them is
decrypted.  A source is what its normalized path names.
-/

namespace NixSeal.Runtime

open Manifest Policy Cache

/-- `RuntimeError`, without the payloads of its sources. -/
inductive RuntimeError where
  | io
  | unsafeSource
  | invalidDestination
  | compatibilityPath
  | limit
  | envelope
  | invalidSpec
  | templateSyntax
  | templateEncoding
  | unknownAccount
  | serviceAction (unit : String)
  | serviceTimeout (unit : String)
  | pendingPostSwitch
  | manifest (error : ManifestError)
  | crypto
  deriving DecidableEq

def maxCiphertextBytes : Nat := 70 * 1024 * 1024
def maxEnvelopeBytes : Nat := 2 * 1024 * 1024

/-- A file that activation reads. -/
structure Source where
  file : Except IoKind Leaf
  /-- Whether its path is below `/nix/store`. -/
  inStore : Bool

/-- `is_immutable_nix_store_source`. -/
def isImmutableNixStoreSource (inStore : Bool) (status : Status) : Bool :=
  inStore && status.owner == 0 && status.mode &&& 0o222 == 0

/-- `open_regular_nofollow`, with what can be read from the opened file. -/
def openRegularNofollow (source : Source) : Except RuntimeError Bytes :=
  match source.file with
  | .error _ => .error .io
  | .ok (.file status bytes) =>
      if status.links ≠ 1 ∧ isImmutableNixStoreSource source.inStore status = false then
        .error .unsafeSource
      else .ok bytes
  | .ok _ => .error .unsafeSource

/-- `read_bounded`. -/
def readBounded (bytes : Bytes) (limit : Nat) : Except RuntimeError Bytes :=
  if limit < bytes.length then .error .limit else .ok bytes

/-- `hash_bounded`. -/
def hashBounded (T : Selection.Tools) (bytes : Bytes) (limit : Nat) : Except RuntimeError String :=
  if limit < bytes.length then .error .limit else .ok (T.cache.digest bytes)

/-- The envelope in a document, or its failure. -/
def requireEnvelope : Option SignedEnvelope → Except RuntimeError SignedEnvelope
  | none => .error .envelope
  | some envelope => .ok envelope

/-- `ActivationArtifact`. -/
structure ActivationArtifact where
  ciphertext : Source
  envelope : Source
  secretId : Id
  sourceCiphertextHash : String
  artifactPolicyHash : String
  artifactGeneration : UInt64
  approvalSigners : Std.TreeMap Id String
  approvalThreshold : Nat
  mode : Nat
  owner : String
  group : String
  compatibilitySymlink : Option String

/-- The fields of an `ActivationRequest` that authentication reads. -/
structure ActivationRequest where
  runtimeRoot : String
  targetId : Id
  recipientFingerprint : String
  toolVersion : String
  now : UInt64
  allowedClockSkew : UInt64
  artifacts : List ActivationArtifact

/-- The accounts of the system. -/
structure Accounts where
  user : String → Option Nat
  group : String → Option Nat

/-- `PreparedArtifact`. -/
structure PreparedArtifact where
  ciphertext : Bytes
  secretId : Id
  mode : Nat
  uid : Nat
  gid : Nat
  compatibilitySymlink : Option String

/-- What `prepare_artifacts` has collected. -/
structure Preparation where
  prepared : List PreparedArtifact
  secretIds : Std.TreeSet Id
  outputIds : Std.TreeSet String
  compatibilityPaths : Std.TreeSet String

/-- `validate_mode`. -/
def validateMode (mode : Nat) : Except RuntimeError Unit :=
  if mode = 0 ∨ 0o700 < mode ∨ mode &&& 0o077 ≠ 0 then .error .invalidDestination else .ok ()

/-- `valid_compatibility_path`. -/
def validCompatibilityPath (path runtimeRoot : String) : Bool :=
  validCompatibilitySymlink path && !(pathComponents runtimeRoot).isPrefixOf (pathComponents path)

/-- The number of an account, or the failure to find it. -/
def resolveAccount : Option Nat → Except RuntimeError Nat
  | none => .error .unknownAccount
  | some number => .ok number

/-- What an envelope of an artifact must be bound to. -/
def expectedBinding (request : ActivationRequest) (artifact : ActivationArtifact)
    (artifactHash : String) : ExpectedBinding where
  toolVersion := request.toolVersion
  artifactPolicyHash := artifact.artifactPolicyHash
  sourceCiphertextHash := artifact.sourceCiphertextHash
  artifactCiphertextHash := artifactHash
  targetId := request.targetId
  secretId := artifact.secretId
  recipientFingerprint := request.recipientFingerprint
  artifactGeneration := artifact.artifactGeneration
  now := request.now
  allowedClockSkew := request.allowedClockSkew

/-- The part of a turn of `prepare_artifacts` from the first opened file to `verify`. -/
def authenticate (T : Selection.Tools) (request : ActivationRequest)
    (artifact : ActivationArtifact) : Except RuntimeError Bytes := do
  let ciphertext ← openRegularNofollow artifact.ciphertext
  let artifactHash ← hashBounded T ciphertext maxCiphertextBytes
  let envelopeFile ← openRegularNofollow artifact.envelope
  let envelopeBytes ← readBounded envelopeFile maxEnvelopeBytes
  let envelope ← requireEnvelope (T.envelopeFromJson envelopeBytes)
  let trusted ← (Selection.trustSigners T.keys artifact.approvalSigners).mapError .manifest
  let _ ← (verify T.keys envelope trusted artifact.approvalThreshold
    (expectedBinding request artifact artifactHash)).mapError .manifest
  .ok ciphertext

theorem authenticate_eq_ok {T : Selection.Tools} {request : ActivationRequest}
    {artifact : ActivationArtifact} {ciphertext envelopeBytes : Bytes} {envelope : SignedEnvelope}
    {trusted : TrustedKeys T.keys} {verified : VerifiedManifest}
    (opened : openRegularNofollow artifact.ciphertext = .ok ciphertext)
    (short : ciphertext.length ≤ maxCiphertextBytes)
    (openedEnvelope : openRegularNofollow artifact.envelope = .ok envelopeBytes)
    (shortEnvelope : envelopeBytes.length ≤ maxEnvelopeBytes)
    (parsed : T.envelopeFromJson envelopeBytes = some envelope)
    (trusts : Selection.trustSigners T.keys artifact.approvalSigners = .ok trusted)
    (accepted : verify T.keys envelope trusted artifact.approvalThreshold
      (expectedBinding request artifact (T.cache.digest ciphertext)) = .ok verified) :
    authenticate T request artifact = .ok ciphertext := by
  have hashed : hashBounded T ciphertext maxCiphertextBytes = .ok (T.cache.digest ciphertext) :=
    if_neg (Nat.not_lt.mpr short)
  have read : readBounded envelopeBytes maxEnvelopeBytes = .ok envelopeBytes :=
    if_neg (Nat.not_lt.mpr shortEnvelope)
  simp only [authenticate, opened, hashed, openedEnvelope, read, parsed, requireEnvelope, trusts,
    accepted, Except.mapError, Fallible.ok_bind]

/-- The paths that a compatibility link joins. -/
def insertCompatibilityPath (request : ActivationRequest) (paths : Std.TreeSet String) :
    Option String → Except RuntimeError (Std.TreeSet String)
  | none => .ok paths
  | some path =>
      if !validCompatibilityPath path request.runtimeRoot || paths.contains path then
        .error .compatibilityPath
      else .ok (paths.insert path)

/-- One turn of `prepare_artifacts`. -/
def prepareArtifact (T : Selection.Tools) (accounts : Accounts) (request : ActivationRequest)
    (state : Preparation) (artifact : ActivationArtifact) : Except RuntimeError Preparation := do
  validateMode artifact.mode
  if state.secretIds.contains artifact.secretId || state.outputIds.contains artifact.secretId.value then
    .error .invalidSpec
  else do
    let paths ← insertCompatibilityPath request state.compatibilityPaths
      artifact.compatibilitySymlink
    let uid ← resolveAccount (accounts.user artifact.owner)
    let gid ← resolveAccount (accounts.group artifact.group)
    let ciphertext ← authenticate T request artifact
    .ok
      { prepared := state.prepared ++ [⟨ciphertext, artifact.secretId, artifact.mode, uid, gid,
          artifact.compatibilitySymlink⟩]
        secretIds := state.secretIds.insert artifact.secretId
        outputIds := state.outputIds.insert artifact.secretId.value
        compatibilityPaths := paths }

/-- `prepare_artifacts`. -/
def prepareArtifacts (T : Selection.Tools) (accounts : Accounts) (request : ActivationRequest) :
    Except RuntimeError Preparation :=
  request.artifacts.foldlM (prepareArtifact T accounts request) ⟨[], {}, {}, {}⟩

end NixSeal.Runtime
