import NixSeal.Core.Plan
import NixSeal.Lib.Base64

/-!
# Approval keys

Manifest and envelope types, the functions of the external signature, hash and JSON crates as
parameters, and the key encodings built on them.  A verification key holds one Ed25519 point in
two representations, native and OpenSSH, which agree by construction; a trust set maps each
stable key identifier to the key it belongs to.
-/

namespace NixSeal

namespace Manifest

/-- Public metadata bound to one target ciphertext (`TargetManifestV3`). -/
structure TargetManifest where
  /-- Must equal `artifactSchema`. -/
  schema : String
  /-- Version of the tool that produced the artifact. -/
  toolVersion : String
  /-- Hash of the canonical plan. -/
  planHash : String
  /-- Hash of the deterministic target policy. -/
  targetPolicyHash : String
  /-- Hash of the secret-specific artifact policy. -/
  artifactPolicyHash : String
  /-- Hash of the canonical administrator ciphertext. -/
  sourceCiphertextHash : String
  /-- Hash of the transported target ciphertext. -/
  artifactCiphertextHash : String
  /-- Bound target. -/
  targetId : Id
  /-- Bound secret. -/
  secretId : Id
  /-- Fingerprint of the intended target recipient. -/
  recipientFingerprint : String
  /-- Monotonically selected artifact generation. -/
  artifactGeneration : UInt64
  /-- Issue time in Unix seconds. -/
  issuedAt : UInt64
  /-- Optional expiry time in Unix seconds. -/
  expiresAt : Option UInt64
  deriving DecidableEq

/-- Signature representation carried by an approval envelope. -/
inductive ApprovalSignatureAlgorithm where
  /-- Compact native Ed25519 representation. -/
  | ed25519V1
  /-- OpenSSH Ed25519 `sshsig` under the nix-seal namespace. -/
  | sshEd25519SshsigV1
  deriving DecidableEq

/-- One signature entry of an envelope. -/
structure EnvelopeSignature where
  /-- Wire identifier of the signing key. -/
  keyId : String
  /-- Signature encoding. -/
  algorithm : ApprovalSignatureAlgorithm
  /-- Base64 native signature or PEM `sshsig`. -/
  signature : String
  deriving DecidableEq

/-- DSSE envelope with a canonical manifest payload (`SignedEnvelopeV1`). -/
structure SignedEnvelope where
  /-- Exact DSSE payload type. -/
  payloadType : String
  /-- Base64 canonical manifest JSON. -/
  payload : String
  /-- Approval signatures. -/
  signatures : List EnvelopeSignature
  deriving DecidableEq

/-- Redacted manifest and signature failures. -/
inductive ManifestError where
  /-- Random generation failed. -/
  | random
  /-- Private key input is malformed. -/
  | privateKeyFormat
  /-- Public key input is malformed. -/
  | publicKeyFormat
  /-- JSON or canonicalization failed. -/
  | json
  /-- Payload has the wrong type or schema. -/
  | version
  /-- Payload exceeds the public metadata safety bound. -/
  | limit
  /-- Timing metadata is invalid. -/
  | time
  /-- A local expected binding differs from the signed value. -/
  | binding
  /-- Threshold is invalid or unmet. -/
  | threshold
  /-- Duplicate signer. -/
  | duplicateSigner
  /-- A signer outside the explicit trust set. -/
  | untrustedSigner
  /-- The same public key was configured more than once. -/
  | duplicateTrustedKey
  /-- A signature is malformed or invalid. -/
  | invalidSignature
  /-- The SSH agent socket cannot be used. -/
  | agentUnavailable
  /-- The SSH agent rejected the request. -/
  | agentRejected
  /-- The SSH agent response is invalid. -/
  | agentProtocol
  deriving DecidableEq

/-- The 32 octets of a compressed Ed25519 point. -/
abbrev KeyBytes := Vector UInt8 32

/-- Public key data of an OpenSSH key. -/
inductive SshKeyData where
  /-- An `ssh-ed25519` key. -/
  | ed25519 (point : KeyBytes)
  /-- A key of another algorithm. -/
  | other (algorithm : String)
  deriving DecidableEq

/-- OpenSSH public key with its comment. -/
structure SshPublicKey where
  /-- Algorithm and key octets. -/
  keyData : SshKeyData
  /-- Free-text comment. -/
  comment : String
  deriving DecidableEq

/-- Functions of the crates `blake3`, `ed25519-dalek`, `ssh-key`, `serde_jcs` and `serde_json`
and of a local SSH agent, which the manifest code calls. -/
structure Primitives where
  /-- Native Ed25519 signing keys. -/
  SigningKey : Type
  /-- OpenSSH private keys. -/
  SshPrivateKey : Type
  /-- Raw signatures returned by an SSH agent. -/
  SshSignature : Type
  /-- OpenSSH `sshsig` envelopes. -/
  SshSig : Type
  /-- Lowercase hexadecimal BLAKE3 digest. -/
  blake3Hex : Bytes → String
  /-- `VerifyingKey::from_bytes` accepts the octets. -/
  isPoint : KeyBytes → Bool
  /-- `SigningKey::verifying_key`. -/
  verifyingKey : SigningKey → KeyBytes
  /-- `SigningKey::sign`. -/
  sign : SigningKey → Bytes → Vector UInt8 64
  /-- `VerifyingKey::verify_strict`. -/
  verifyStrict : KeyBytes → Bytes → Vector UInt8 64 → Bool
  /-- `PublicKey::from_openssh`. -/
  fromOpenssh : String → Option SshPublicKey
  /-- `PublicKey::to_openssh`. -/
  toOpenssh : SshPublicKey → Option String
  /-- `PrivateKey::public_key`. -/
  sshPublicKey : SshPrivateKey → SshPublicKey
  /-- `PrivateKey::sign` with SHA-512. -/
  sshSign : SshPrivateKey → String → Bytes → Option SshSig
  /-- `SshSig::signed_data` with SHA-512. -/
  signedData : String → Bytes → Option Bytes
  /-- `PublicKey::to_bytes`. -/
  sshKeyBlob : SshPublicKey → Option Bytes
  /-- `ssh_agent_sign` on a socket, key blob and data. -/
  agentSign : String → Bytes → Bytes → Except ManifestError SshSignature
  /-- The agent signature has algorithm `ssh-ed25519`. -/
  signatureIsEd25519 : SshSignature → Bool
  /-- `SshSig::new` with SHA-512. -/
  newSshSig : SshKeyData → String → SshSignature → Option SshSig
  /-- `SshSig::to_pem`. -/
  toPem : SshSig → Option String
  /-- `SshSig::from_pem`. -/
  fromPem : String → Option SshSig
  /-- The `sshsig` has algorithm `ssh-ed25519`. -/
  sshSigIsEd25519 : SshSig → Bool
  /-- `PublicKey::verify` under a namespace. -/
  sshVerify : SshPublicKey → String → Bytes → SshSig → Bool
  /-- `serde_jcs::to_vec` of a manifest. -/
  manifestToJcs : TargetManifest → Option Bytes
  /-- `serde_json::from_slice` of a manifest. -/
  manifestFromJson : Bytes → Option TargetManifest

/-- Exact artifact schema. -/
def artifactSchema : String := "nix-seal.artifact.v3"

/-- DSSE payload type of target manifests. -/
def payloadTypeText : String := "application/vnd.nix-seal.target-manifest.v3+json"

/-- Public verification-key tag used in plans and files. -/
def publicKeyTag : String := "nix-seal-ed25519-v1:"

/-- Largest accepted payload. -/
def maxPayloadBytes : Nat := 1024 * 1024

/-- Largest accepted number of signatures. -/
def maxSignatures : Nat := 256

/-- Largest accepted signature text. -/
def maxSignatureBytes : Nat := 32 * 1024

/-- OpenSSH signature namespace of artifact approvals. -/
def sshSignatureNamespace : String := "nix-seal-artifact-v3"

/-- Big-endian octets of a 32-bit length. -/
def beU32 (value : Nat) : Bytes :=
  [UInt8.ofNat (value / 2 ^ 24), UInt8.ofNat (value / 2 ^ 16), UInt8.ofNat (value / 2 ^ 8),
    UInt8.ofNat value]

/-- Stable identifier of native key octets (`native_key_id`). -/
def nativeKeyId (P : Primitives) (key : KeyBytes) : String :=
  "ed25519:" ++ P.blake3Hex (utf8 "nix-seal.ed25519-key-id.v1\x00" ++ key.toList)

/-- OpenSSH wire blob of an Ed25519 key. -/
def sshEd25519Blob (key : KeyBytes) : Bytes :=
  beU32 11 ++ utf8 "ssh-ed25519" ++ beU32 32 ++ key.toList

/-- OpenSSH public line of an Ed25519 key, without a comment. -/
def sshEd25519Line (key : KeyBytes) : String :=
  "ssh-ed25519 " ++ Base64.encode (sshEd25519Blob key)

/-- Wire identifier of an OpenSSH key from its octets (`legacy_ssh_key_id_bytes`). -/
def legacySshKeyIdBytes (P : Primitives) (key : KeyBytes) : String :=
  "ssh-ed25519:" ++
    P.blake3Hex (utf8 "nix-seal.ssh-ed25519-key-id.v1\x00" ++ utf8 (sshEd25519Line key))

/-- Wire identifier of an OpenSSH key (`legacy_ssh_key_id`). -/
def legacySshKeyId (P : Primitives) (key : SshPublicKey) : Except ManifestError String :=
  match key.keyData with
  | .ed25519 point => .ok (legacySshKeyIdBytes P point)
  | .other _ => .error .publicKeyFormat

/-- One approval verification key in both representations. -/
structure VerificationKey where
  /-- Native Ed25519 octets. -/
  native : KeyBytes
  /-- OpenSSH representation. -/
  ssh : SshPublicKey
  /-- Both representations hold the same octets. -/
  same : ssh.keyData = .ed25519 native

namespace VerificationKey

/-- Stable, encoding-independent key identifier. -/
def keyId (P : Primitives) (key : VerificationKey) : String := nativeKeyId P key.native

/-- Whether an envelope entry names this key by either wire identifier. -/
def acceptsWireId (P : Primitives) (key : VerificationKey) (wireId : String) :
    Except ManifestError Bool :=
  if wireId = nativeKeyId P key.native then .ok true
  else do
    let legacy ← legacySshKeyId P key.ssh
    .ok (decide (wireId = legacy))

/-- `accepts_wire_id(..).unwrap_or(false)`. -/
def matchesWireId (P : Primitives) (key : VerificationKey) (wireId : String) : Bool :=
  match key.acceptsWireId P wireId with
  | .ok accepted => accepted
  | .error _ => false

theorem matchesWireId_iff (P : Primitives) (key : VerificationKey) (wireId : String) :
    key.matchesWireId P wireId = true ↔
      wireId = nativeKeyId P key.native ∨ wireId = legacySshKeyIdBytes P key.native := by
  by_cases native : wireId = nativeKeyId P key.native
  · simp [matchesWireId, acceptsWireId, native]
  · simp [matchesWireId, acceptsWireId, native, legacySshKeyId, key.same, bind, Except.bind]

end VerificationKey

/-- Fixed-width view of an octet string (`try_into` of a slice). -/
def toFixed (width : Nat) (bytes : Bytes) : Option (Vector UInt8 width) :=
  if length : bytes.length = width then some ⟨bytes.toArray, by simpa using length⟩ else none

@[simp]
theorem toFixed_toList {width : Nat} (value : Vector UInt8 width) :
    toFixed width value.toList = some value := by
  simp [toFixed, Vector.toArray_toList]

/-- `parse_public_key`: a tagged native key or an OpenSSH Ed25519 public key. -/
def parsePublicKey (P : Primitives) (encoded : String) : Except ManifestError VerificationKey :=
  let value := trim encoded
  match stripLiteral publicKeyTag value with
  | some body =>
      match (Base64.decode body).bind (toFixed 32) with
      | some native =>
          if P.isPoint native then .ok ⟨native, ⟨.ed25519 native, ""⟩, rfl⟩
          else .error .publicKeyFormat
      | none => .error .publicKeyFormat
  | none =>
      match P.fromOpenssh value with
      | some ⟨.ed25519 native, comment⟩ =>
          if P.isPoint native then .ok ⟨native, ⟨.ed25519 native, comment⟩, rfl⟩
          else .error .publicKeyFormat
      | _ => .error .publicKeyFormat

/-- `validate_public_key`. -/
def validatePublicKey (P : Primitives) (encoded : String) : Except ManifestError Unit := do
  let _ ← parsePublicKey P encoded
  .ok ()

/-- `public_key_id`. -/
def publicKeyId (P : Primitives) (encoded : String) : Except ManifestError String := do
  let key ← parsePublicKey P encoded
  .ok (key.keyId P)

/-- `encode_public_key`. -/
def encodePublicKey (key : KeyBytes) : String := publicKeyTag ++ Base64.encode key.toList

/-- `u8::is_ascii_whitespace`. -/
def isAsciiWhitespace (char : Char) : Bool :=
  char == ' ' || char == '\t' || char == '\n' || char == '\x0c' || char == '\r'

/-- `split_ascii_whitespace`. -/
def asciiFields (text : String) : List (List Char) :=
  (text.toList.splitOnP isAsciiWhitespace).filter fun field => field != []

/-- `normalize_ssh_public_key`: the algorithm and body fields only. -/
def normalizeSshPublicKey (P : Primitives) (key : SshPublicKey) : Except ManifestError String :=
  match P.toOpenssh key with
  | none => .error .publicKeyFormat
  | some encoded =>
      match asciiFields encoded with
      | algorithm :: body :: _ =>
          if algorithm = "ssh-ed25519".toList then
            .ok (String.ofList algorithm ++ " " ++ String.ofList body)
          else .error .publicKeyFormat
      | _ => .error .publicKeyFormat

/-- Explicit set of trusted approval keys, each stored under its own stable identifier. -/
structure TrustedKeys (P : Primitives) where
  /-- Keys by stable identifier. -/
  keys : Std.TreeMap String VerificationKey
  /-- Every key is stored under its own identifier. -/
  keyed : ∀ (id : String) (key : VerificationKey), keys[id]? = some key → id = key.keyId P

namespace TrustedKeys

variable {P : Primitives}

/-- The empty trust set. -/
def empty : TrustedKeys P := ⟨{}, by simp⟩

/-- Adds one key under its identifier. -/
def add (trusted : TrustedKeys P) (key : VerificationKey) : TrustedKeys P :=
  ⟨trusted.keys.insert (key.keyId P) key, by
    intro id found member
    rw [Std.TreeMap.getElem?_insert] at member
    split at member
    · rename_i equal
      rw [← Std.LawfulEqOrd.eq_of_compare equal, ← Option.some.inj member]
    · exact trusted.keyed id found member⟩

/-- Parses and inserts one public key, rejecting duplicates. -/
def insertEncoded (trusted : TrustedKeys P) (encoded : String) :
    Except ManifestError (TrustedKeys P × String) := do
  let key ← parsePublicKey P encoded
  if trusted.keys.contains (key.keyId P) then .error .duplicateTrustedKey
  else .ok (trusted.add key, key.keyId P)

/-- Number of distinct trusted keys. -/
def len (trusted : TrustedKeys P) : Nat := trusted.keys.size

/-- Trusted keys in identifier order. -/
def values (trusted : TrustedKeys P) : List VerificationKey := trusted.keys.toList.map Prod.snd

/-- A key belongs to the trust set. -/
def Trusts (trusted : TrustedKeys P) (key : VerificationKey) : Prop :=
  trusted.keys[key.keyId P]? = some key

theorem mem_values_iff (trusted : TrustedKeys P) (key : VerificationKey) :
    key ∈ trusted.values ↔ trusted.Trusts key := by
  rw [values, List.mem_map]
  constructor
  · rintro ⟨⟨id, found⟩, member, rfl⟩
    have stored := Std.TreeMap.mem_toList_iff_getElem?_eq_some.mp member
    have id_eq := trusted.keyed id found stored
    exact id_eq ▸ stored
  · intro member
    exact ⟨(key.keyId P, key), Std.TreeMap.mem_toList_iff_getElem?_eq_some.mpr member, rfl⟩

end TrustedKeys

/-- Private approval key. -/
inductive ApprovalSigningKey (P : Primitives) where
  /-- Native Ed25519 signing key. -/
  | ed25519 (key : P.SigningKey)
  /-- OpenSSH Ed25519 signing key. -/
  | sshEd25519 (key : P.SshPrivateKey)
  /-- Ed25519 key behind a local SSH agent. -/
  | sshAgentEd25519 (publicKey : SshPublicKey) (socket : String)

namespace ApprovalSigningKey

variable {P : Primitives}

/-- `encode_public`. -/
def encodePublic : ApprovalSigningKey P → Except ManifestError String
  | .ed25519 key => .ok (encodePublicKey (P.verifyingKey key))
  | .sshEd25519 key => normalizeSshPublicKey P (P.sshPublicKey key)
  | .sshAgentEd25519 publicKey _ => normalizeSshPublicKey P publicKey

/-- Shared tail of both OpenSSH branches: PEM text, size limit and wire identifier. -/
def sshEntry (publicKey : SshPublicKey) (signature : P.SshSig) :
    Except ManifestError EnvelopeSignature := do
  match P.toPem signature with
  | none => .error .invalidSignature
  | some text =>
      if text.utf8ByteSize > maxSignatureBytes then .error .limit
      else do
        let keyId ← legacySshKeyId P publicKey
        .ok { keyId, algorithm := .sshEd25519SshsigV1, signature := text }

/-- `sign_with_namespace`. -/
def signWithNamespace (key : ApprovalSigningKey P) (message : Bytes) (sshNamespace : String) :
    Except ManifestError EnvelopeSignature :=
  match key with
  | .ed25519 key =>
      .ok
        { keyId := nativeKeyId P (P.verifyingKey key)
          algorithm := .ed25519V1
          signature := Base64.encode (P.sign key message).toList }
  | .sshEd25519 key =>
      match P.sshSign key sshNamespace message with
      | none => .error .invalidSignature
      | some signature => sshEntry (P.sshPublicKey key) signature
  | .sshAgentEd25519 publicKey socket =>
      match P.signedData sshNamespace message, P.sshKeyBlob publicKey with
      | some data, some blob => do
          let signature ← P.agentSign socket blob data
          if !P.signatureIsEd25519 signature then .error .agentProtocol
          else
            match P.newSshSig publicKey.keyData sshNamespace signature with
            | none => .error .invalidSignature
            | some sshsig => sshEntry publicKey sshsig
      | _, _ => .error .invalidSignature

/-- `sign` under the artifact namespace. -/
def sign (key : ApprovalSigningKey P) (message : Bytes) : Except ManifestError EnvelopeSignature :=
  key.signWithNamespace message sshSignatureNamespace

end ApprovalSigningKey
end Manifest
end NixSeal
