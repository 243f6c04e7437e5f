import NixSeal.Cache.Read
import NixSeal.Manifest.Envelope
import NixSeal.Policy.Projection

/-!
# Selection of activation artifacts

`inspect_activation_artifacts` looks through the records of a cache and keeps, for every secret of
a phase, the verified artifact of the highest generation.
-/

namespace NixSeal.Selection

open Manifest Policy Cache

/-- Exact schema of an artifact policy. -/
def secretArtifactPolicySchema : String := "nix-seal.secret-artifact-policy.v1"

/-- `CARGO_PKG_VERSION`. -/
def toolVersion : String := "0.1.0-alpha.1"

/-- `SecretArtifactPolicyV1`. -/
structure SecretArtifactPolicy where
  schema : String
  targetId : Id
  targetKind : TargetKind
  system : String
  username : Option String
  recipientIdentity : Id
  recipient : String
  secretId : Id
  secret : TargetSecretPolicy

/-- Functions of external crates that the commands call. -/
structure Tools where
  policy : Policy.Environment
  cache : Cache.Environment
  /-- `serde_json::from_slice` of an envelope. -/
  envelopeFromJson : Bytes → Option SignedEnvelope
  /-- `serde_jcs::to_vec` of an artifact policy. -/
  artifactPolicyToJcs : SecretArtifactPolicy → Option Bytes
  /-- The identifiers that a JSON document has under `targetId` and `secretId`. -/
  legacyIds : Bytes → Option (Id × Id)

/-- Signature and hash primitives. -/
abbrev Tools.keys (T : Tools) : Primitives := T.policy.keys

/-- The texts of `ManifestError`. -/
def ManifestError.message : ManifestError → String
  | .random => "operating-system random generation failed"
  | .privateKeyFormat => "invalid private approval key"
  | .publicKeyFormat => "invalid public approval key"
  | .json => "invalid artifact envelope JSON"
  | .version => "unsupported artifact envelope version"
  | .limit => "artifact manifest exceeds safety limits"
  | .time => "artifact approval is expired or not yet valid"
  | .binding => "artifact binding does not match local policy"
  | .threshold => "artifact approval threshold is not satisfied"
  | .duplicateSigner => "artifact contains duplicate signer IDs"
  | .untrustedSigner => "artifact contains an untrusted signer"
  | .duplicateTrustedKey => "duplicate trusted approval key"
  | .invalidSignature => "artifact contains an invalid signature"
  | .agentUnavailable => "SSH agent is unavailable"
  | .agentRejected => "SSH agent rejected the signing request"
  | .agentProtocol => "SSH agent protocol response is invalid"

/-- Failures of an inspection. -/
inductive InspectionError where
  | cache (error : CacheError)
  /-- The recipient of the target is malformed. -/
  | recipient
  | policy (error : PolicyError)
  | manifest (error : ManifestError)
  | bail (message : String)

/-! ## Policies of artifacts -/

/-- `recipient_fingerprint`. -/
def recipientFingerprint (T : Tools) (recipient : String) : Option String := do
  let normalized ← normalizeRecipient T.policy recipient
  some (T.keys.blake3Hex (utf8 "nix-seal.age-recipient-fingerprint.v1\x00" ++ utf8 normalized))

/-- `secret_artifact_policy`. -/
def secretArtifactPolicy (policy : TargetPolicy) (secretId : Id) :
    Except PolicyError SecretArtifactPolicy :=
  match policy.secrets[secretId]? with
  | none =>
      .error (.violation <|
        s!"secret artifact policy references secret {secretId} that is not authorized for " ++
          s!"target {policy.targetId}")
  | some secret =>
      .ok
        { schema := secretArtifactPolicySchema
          targetId := policy.targetId
          targetKind := policy.targetKind
          system := policy.system
          username := policy.username
          recipientIdentity := policy.recipientIdentity
          recipient := policy.recipient
          secretId := secretId
          secret := secret }

/-- The digest of a canonical document, or the failure to write it. -/
def domainHash (T : Tools) (context : String) : Option Bytes → Except PolicyError String
  | none => .error .json
  | some bytes => .ok (T.policy.deriveKeyHex context bytes)

/-- `secret_artifact_policy_hash`. -/
def secretArtifactPolicyHash (T : Tools) (policy : TargetPolicy) (secretId : Id) :
    Except PolicyError String := do
  let projected ← secretArtifactPolicy policy secretId
  domainHash T "nix-seal secret artifact policy hash v1" (T.artifactPolicyToJcs projected)

/-- One turn of a loop that trusts encoded keys. -/
def trustEncoded {P : Primitives} (trusted : TrustedKeys P) (encoded : String) :
    Except ManifestError (TrustedKeys P) := do
  let inserted ← trusted.insertEncoded encoded
  .ok inserted.1

/-- The keys of the signers of an approval policy. -/
def trustSigners (P : Primitives) (signers : Std.TreeMap Id String) :
    Except ManifestError (TrustedKeys P) :=
  (signers.toList.map Prod.snd).foldlM trustEncoded .empty

/-! ## Inspection -/

/-- `DiscoveredActivationArtifact`; paths are relative to the cache root. -/
structure DiscoveredActivationArtifact where
  ciphertext : List String
  envelope : List String
  generation : UInt64
  deriving DecidableEq

/-- What the loop has found so far. -/
structure Findings where
  rejected : Std.TreeMap Id (Std.TreeSet String)
  selected : Std.TreeMap Id DiscoveredActivationArtifact

def Findings.reject (findings : Findings) (secretId : Id) (reason : String) : Findings :=
  { findings with
    rejected := findings.rejected.insert secretId
      ((findings.rejected.getD secretId {}).insert reason) }

/-- The arguments of an inspection, with the fingerprint it computes. -/
structure Question where
  policy : TargetPolicy
  phase : ActivationPhase
  now : UInt64
  allowedClockSkew : UInt64
  fingerprint : String

/-- `legacy_artifact_diagnostic`. -/
def legacyArtifactDiagnostic (T : Tools) (envelope : SignedEnvelope) : Option (Id × Id) :=
  if envelope.payloadType ≠ "application/vnd.nix-seal.target-manifest.v2+json" then none
  else do
    let payload ← Base64.decode envelope.payload
    T.legacyIds payload

/-- The diagnosis of an envelope that is not a current manifest. -/
def rejectLegacy (T : Tools) (question : Question) (envelope : SignedEnvelope)
    (findings : Findings) : Findings :=
  match legacyArtifactDiagnostic T envelope with
  | none => findings
  | some (targetId, secretId) =>
      if targetId = question.policy.targetId ∧
          (question.policy.secrets[secretId]?.any fun secret => secret.phase = question.phase) then
        findings.reject secretId <|
          "candidate uses legacy artifact format v2; update nix-seal on both machines and rerun " ++
            "prepare --execute"
      else findings

/-- Why a manifest is not about the current policy of its secret. -/
def bindingMismatch (question : Question) (secret : TargetSecretPolicy) (policyHash : String)
    (manifest : TargetManifest) : Option String :=
  if manifest.artifactPolicyHash ≠ policyHash then
    some <| "candidate refers to a different secret policy; prepare artifacts for this " ++
      "configuration"
  else if manifest.sourceCiphertextHash ≠ secret.sourceCiphertextHash then
    some "candidate refers to different source ciphertext"
  else if manifest.recipientFingerprint ≠ question.fingerprint then
    some "candidate refers to a different recipient"
  else none

/-- The address of an artifact under the current policy of its secret. -/
def candidateAddress (question : Question) (secret : TargetSecretPolicy) (policyHash : String)
    (secretId : Id) (generation : UInt64) : ArtifactAddress where
  artifactPolicyHash := policyHash
  sourceCiphertextHash := secret.sourceCiphertextHash
  recipientFingerprint := question.fingerprint
  targetId := question.policy.targetId.value
  secretId := secretId.value
  artifactGeneration := generation

/-- What the envelope of a record must be bound to. -/
def candidateBinding (question : Question) (secret : TargetSecretPolicy) (policyHash : String)
    (record : ArtifactRecord) (secretId : Id) (generation : UInt64) : ExpectedBinding where
  toolVersion := toolVersion
  artifactPolicyHash := policyHash
  sourceCiphertextHash := secret.sourceCiphertextHash
  artifactCiphertextHash := record.artifactCiphertextHash
  targetId := question.policy.targetId
  secretId := secretId
  recipientFingerprint := question.fingerprint
  artifactGeneration := generation
  now := question.now
  allowedClockSkew := question.allowedClockSkew

/-- Keeps a verified candidate when none of its secret is as recent. -/
def select (findings : Findings) (secretId : Id) (candidate : DiscoveredActivationArtifact) :
    Except InspectionError Findings :=
  match findings.selected[secretId]? with
  | none => .ok { findings with selected := findings.selected.insert secretId candidate }
  | some existing =>
      if existing.generation = candidate.generation then
        .error (.bail s!"multiple equally recent verified artifacts exist for {secretId}")
      else if existing.generation > candidate.generation then .ok findings
      else .ok { findings with selected := findings.selected.insert secretId candidate }

/-- The artifact of a record. -/
def discovered (record : ArtifactRecord) (generation : UInt64) : DiscoveredActivationArtifact where
  ciphertext := record.ciphertextPath
  envelope := record.envelopePath
  generation := generation

/-- The part of a turn after the address was matched. -/
def verifyCandidate (T : Tools) (question : Question) (findings : Findings)
    (record : ArtifactRecord) (envelope : SignedEnvelope) (manifest : TargetManifest)
    (secret : TargetSecretPolicy) (policyHash : String) : Except InspectionError Findings := do
  let trusted ← (trustSigners T.keys secret.approval.signers).mapError .manifest
  match verify T.keys envelope trusted secret.approval.threshold.toNat
      (candidateBinding question secret policyHash record manifest.secretId
        manifest.artifactGeneration) with
  | .error error =>
      .ok (findings.reject manifest.secretId
        s!"candidate rejected: {ManifestError.message error}")
  | .ok _ => select findings manifest.secretId (discovered record manifest.artifactGeneration)

/-- The part of a turn after the secret was found. -/
def inspectCandidate (T : Tools) (question : Question) (findings : Findings)
    (record : ArtifactRecord) (envelope : SignedEnvelope) (manifest : TargetManifest)
    (secret : TargetSecretPolicy) : Except InspectionError Findings := do
  let policyHash ← (secretArtifactPolicyHash T question.policy manifest.secretId).mapError .policy
  match bindingMismatch question secret policyHash manifest with
  | some reason => .ok (findings.reject manifest.secretId reason)
  | none =>
      let address := candidateAddress question secret policyHash manifest.secretId
        manifest.artifactGeneration
      match address.validate with
      | .error _ => .ok findings
      | .ok () =>
          if (address.key T.cache).toOption ≠ some record.key then
            .ok (findings.reject manifest.secretId
              "candidate cache address does not match its binding")
          else verifyCandidate T question findings record envelope manifest secret policyHash

/-- One turn of the loop of `inspect_activation_artifacts`. -/
def inspectRecord (T : Tools) (question : Question) (findings : Findings)
    (record : ArtifactRecord) : Except InspectionError Findings :=
  match T.envelopeFromJson record.envelope with
  | none => .ok findings
  | some envelope =>
      match inspectUnverified T.keys envelope with
      | .error _ => .ok (rejectLegacy T question envelope findings)
      | .ok manifest =>
          match question.policy.secrets[manifest.secretId]? with
          | none => .ok findings
          | some secret =>
              if secret.phase ≠ question.phase ∨ manifest.targetId ≠ question.policy.targetId then
                .ok findings
              else inspectCandidate T question findings record envelope manifest secret

/-- `MissingArtifact`. -/
structure MissingArtifact where
  secretId : Id
  reasons : Std.TreeSet String

/-- `Report`, without the path of the cache. -/
structure Report where
  target : Id
  phase : ActivationPhase
  required : Nat
  verified : Nat
  missing : List MissingArtifact

/-- `Inspection`. -/
structure Inspection where
  report : Report
  selected : Std.TreeMap Id DiscoveredActivationArtifact

/-- The entry of a secret in the list of missing artifacts. -/
def missingArtifact (phase : ActivationPhase) (findings : Findings)
    (entry : Id × TargetSecretPolicy) : Option MissingArtifact :=
  if entry.2.phase = phase ∧ !findings.selected.contains entry.1 then
    some ⟨entry.1, findings.rejected.getD entry.1 (Std.TreeSet.ofList
      ["no matching verified artifact; prepare and install this target's artifacts"])⟩
  else none

/-- The fingerprint of a recipient, or its failure. -/
def requireFingerprint : Option String → Except InspectionError String
  | none => .error .recipient
  | some fingerprint => .ok fingerprint

/-- `inspect_activation_artifacts`, on the records that the cache returned. -/
def inspectActivationArtifacts (T : Tools) (stored : Except CacheError (List ArtifactRecord))
    (policy : TargetPolicy) (phase : ActivationPhase) (now allowedClockSkew : UInt64) :
    Except InspectionError Inspection := do
  let records ← stored.mapError .cache
  let fingerprint ← requireFingerprint (recipientFingerprint T policy.recipient)
  let findings ← records.foldlM
    (inspectRecord T ⟨policy, phase, now, allowedClockSkew, fingerprint⟩) ⟨{}, {}⟩
  .ok
    { report :=
        { target := policy.targetId
          phase := phase
          required := (policy.secrets.toList.filter fun entry => entry.2.phase = phase).length
          verified := findings.selected.size
          missing := policy.secrets.toList.filterMap (missingArtifact phase findings) }
      selected := findings.selected }

end NixSeal.Selection
