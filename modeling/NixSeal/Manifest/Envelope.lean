import NixSeal.Manifest.Keys

/-!
# Approval envelopes

Signing, extending and verifying DSSE envelopes over canonical target manifests.
-/

namespace NixSeal
namespace Manifest

/-- Public binding expected by an activation or verification caller. -/
structure ExpectedBinding where
  /-- Expected producer tool version. -/
  toolVersion : String
  /-- Expected secret-specific artifact policy hash. -/
  artifactPolicyHash : String
  /-- Expected canonical source hash. -/
  sourceCiphertextHash : String
  /-- Hash calculated from the transported artifact. -/
  artifactCiphertextHash : String
  /-- Locally configured target. -/
  targetId : Id
  /-- Locally configured secret. -/
  secretId : Id
  /-- Locally configured recipient fingerprint. -/
  recipientFingerprint : String
  /-- Exact expected generation. -/
  artifactGeneration : UInt64
  /-- Current wall-clock time in Unix seconds. -/
  now : UInt64
  /-- Maximum accepted clock lead for the issue time. -/
  allowedClockSkew : UInt64

/-- An authenticated manifest and its distinct valid signers. -/
structure VerifiedManifest where
  /-- Authenticated payload. -/
  manifest : TargetManifest
  /-- Stable identifiers of the trusted keys that supplied valid signatures. -/
  signers : Std.TreeSet String

/-- DSSE pre-authentication encoding; lengths are 64-bit `usize` values. -/
def pae (payloadType payload : Bytes) : Except ManifestError Bytes :=
  let typeLen := utf8 (toString payloadType.length)
  let payloadLen := utf8 (toString payload.length)
  if 10 + typeLen.length + payloadType.length + payloadLen.length + payload.length < 2 ^ 64 then
    .ok (utf8 "DSSEv1 " ++ typeLen ++ utf8 " " ++ payloadType ++ utf8 " " ++ payloadLen ++
      utf8 " " ++ payload)
  else .error .limit

/-- `validate_manifest_structure`. -/
def validateManifestStructure (manifest : TargetManifest) : Except ManifestError Unit :=
  if manifest.schema ≠ artifactSchema ∨ manifest.toolVersion.toList.isEmpty then .error .version
  else if !isDigest manifest.planHash || !isDigest manifest.targetPolicyHash ||
      !isDigest manifest.artifactPolicyHash || !isDigest manifest.sourceCiphertextHash ||
      !isDigest manifest.artifactCiphertextHash || !isDigest manifest.recipientFingerprint ||
      manifest.artifactGeneration == 0 then
    .error .binding
  else if manifest.expiresAt.any fun expiry => expiry ≤ manifest.issuedAt then .error .time
  else .ok ()

/-- `validate_expected`: timing first, then the eight bound fields. -/
def validateExpected (manifest : TargetManifest) (expected : ExpectedBinding) :
    Except ManifestError Unit :=
  let latestIssued := expected.now.toNat + expected.allowedClockSkew.toNat
  if 2 ^ 64 ≤ latestIssued then .error .time
  else if latestIssued < manifest.issuedAt.toNat ||
      manifest.expiresAt.any fun expiry => expiry ≤ expected.now then
    .error .time
  else if manifest.toolVersion ≠ expected.toolVersion ∨
      manifest.artifactPolicyHash ≠ expected.artifactPolicyHash ∨
      manifest.sourceCiphertextHash ≠ expected.sourceCiphertextHash ∨
      manifest.artifactCiphertextHash ≠ expected.artifactCiphertextHash ∨
      manifest.targetId ≠ expected.targetId ∨
      manifest.secretId ≠ expected.secretId ∨
      manifest.recipientFingerprint ≠ expected.recipientFingerprint ∨
      manifest.artifactGeneration ≠ expected.artifactGeneration then
    .error .binding
  else .ok ()

variable (P : Primitives)

/-- `decode_envelope`: manifest, payload octets and the signed message. -/
def decodeEnvelope (envelope : SignedEnvelope) :
    Except ManifestError (TargetManifest × Bytes × Bytes) :=
  if envelope.payloadType ≠ payloadTypeText then .error .version
  else if maxSignatures < envelope.signatures.length then .error .limit
  else if envelope.signatures.any fun entry =>
      entry.keyId.toList.isEmpty || maxSignatureBytes < entry.signature.utf8ByteSize then
    .error .limit
  else
    match Base64.decode envelope.payload with
    | none => .error .json
    | some payload =>
        if maxPayloadBytes < payload.length then .error .limit
        else
          match P.manifestFromJson payload with
          | none => .error .json
          | some manifest => do
              validateManifestStructure manifest
              if P.manifestToJcs manifest ≠ some payload then .error .json
              else do
                let message ← pae (utf8 envelope.payloadType) payload
                .ok (manifest, payload, message)

/-- `verify_signature_entry`. -/
def verifySignatureEntry (entry : EnvelopeSignature) (key : VerificationKey) (message : Bytes)
    (sshNamespace : String) : Except ManifestError Unit :=
  match entry.algorithm with
  | .ed25519V1 =>
      match (Base64.decode entry.signature).bind (toFixed 64) with
      | none => .error .invalidSignature
      | some signature =>
          if P.verifyStrict key.native message signature then .ok () else .error .invalidSignature
  | .sshEd25519SshsigV1 =>
      match P.fromPem entry.signature with
      | none => .error .invalidSignature
      | some signature =>
          if !P.sshSigIsEd25519 signature then .error .invalidSignature
          else if P.sshVerify key.ssh sshNamespace message signature then .ok ()
          else .error .invalidSignature

/-- Creates an envelope with one signature (`sign_manifest`). -/
def signManifest (manifest : TargetManifest) (key : ApprovalSigningKey P) :
    Except ManifestError SignedEnvelope := do
  validateManifestStructure manifest
  match P.manifestToJcs manifest with
  | none => .error .json
  | some payload =>
      if maxPayloadBytes < payload.length then .error .limit
      else do
        let message ← pae (utf8 payloadTypeText) payload
        let entry ← key.sign message
        .ok
          { payloadType := payloadTypeText
            payload := Base64.encode payload
            signatures := [entry] }

/-- The extended envelope of `add_signature`, or the reason for refusing it. -/
def extendEnvelope (envelope : SignedEnvelope) (key : ApprovalSigningKey P) :
    Except ManifestError SignedEnvelope := do
  let (_, payload, message) ← decodeEnvelope P envelope
  if maxSignatures ≤ envelope.signatures.length then .error .limit
  else do
    let entry ← key.sign message
    let encoded ← key.encodePublic
    let publicKey ← parsePublicKey P encoded
    if envelope.signatures.any fun present => publicKey.matchesWireId P present.keyId then
      .error .duplicateSigner
    else
      .ok
        { envelope with
          signatures := envelope.signatures ++ [entry]
          payload := Base64.encode payload }

/-- `add_signature` on a mutable envelope: a refusal leaves the envelope as it was. -/
def addSignature (envelope : SignedEnvelope) (key : ApprovalSigningKey P) :
    SignedEnvelope × Except ManifestError Unit :=
  match extendEnvelope P envelope key with
  | .ok extended => (extended, .ok ())
  | .error error => (envelope, .error error)

/-- The signature loop of `verify`. -/
def verifyEntries (trusted : TrustedKeys P) (message : Bytes) :
    List EnvelopeSignature → Std.TreeSet String → Except ManifestError (Std.TreeSet String)
  | [], signers => .ok signers
  | entry :: rest, signers =>
      match trusted.values.find? fun key => key.matchesWireId P entry.keyId with
      | none => .error .untrustedSigner
      | some key =>
          if signers.contains (key.keyId P) then .error .duplicateSigner
          else do
            verifySignatureEntry P entry key message sshSignatureNamespace
            verifyEntries trusted message rest (signers.insert (key.keyId P))

/-- Verifies strict bindings, timing, trust, distinct signatures, and threshold. -/
def verify (envelope : SignedEnvelope) (trusted : TrustedKeys P) (threshold : Nat)
    (expected : ExpectedBinding) : Except ManifestError VerifiedManifest :=
  if threshold = 0 ∨ trusted.len < threshold ∨ envelope.signatures = [] then .error .threshold
  else do
    let (manifest, _, message) ← decodeEnvelope P envelope
    validateExpected manifest expected
    let signers ← verifyEntries P trusted message envelope.signatures {}
    if signers.size < threshold then .error .threshold
    else .ok { manifest, signers }

/-- Parses a canonical manifest without asserting signature trust (`inspect_unverified`). -/
def inspectUnverified (envelope : SignedEnvelope) : Except ManifestError TargetManifest := do
  let (manifest, _, _) ← decodeEnvelope P envelope
  .ok manifest

end Manifest
end NixSeal
