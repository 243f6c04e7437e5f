import NixSeal.Policy.Validate

/-!
# Projections of a validated plan

The policy one target may activate and the canonical recipients of one secret.
-/

namespace NixSeal
namespace Policy

/-- Exact schema of a target policy. -/
def targetPolicySchema : String := "nix-seal.target-policy.v1"

/-- Exact schema of a recipient set. -/
def secretRecipientsSchema : String := "nix-seal.secret-recipients.v1"

/-- Distinct trusted approval keys and threshold of one target artifact. -/
structure TargetApprovalPolicy where
  /-- Required number of distinct valid signers. -/
  threshold : UInt16
  /-- Signer identities and their encoded public verification keys. -/
  signers : Std.TreeMap Id String

/-- Exact target-specific policy of one secret. -/
structure TargetSecretPolicy where
  /-- Canonical repository source path. -/
  source : String
  /-- Pinned hash of the canonical ciphertext. -/
  sourceCiphertextHash : String
  /-- Ciphertext delivery model. -/
  delivery : DeliveryMode
  /-- Required activation phase. -/
  phase : ActivationPhase
  /-- Runtime settings. -/
  runtime : RuntimeSettings
  /-- Approval rule. -/
  approval : TargetApprovalPolicy

/-- Target-specific runtime template policy. -/
structure TargetTemplatePolicy where
  /-- Public template source path. -/
  source : String
  /-- Activation phase of every referenced secret. -/
  phase : ActivationPhase
  /-- Placeholder bindings. -/
  placeholders : Std.TreeMap String TemplatePlaceholder
  /-- Runtime settings. -/
  runtime : RuntimeSettings

/-- Canonical public policy that one target is allowed to activate. -/
structure TargetPolicy where
  /-- Must equal `targetPolicySchema`. -/
  schema : String
  /-- Hash of the canonical plan. -/
  planHash : String
  /-- Selected target. -/
  targetId : Id
  /-- Integration type. -/
  targetKind : TargetKind
  /-- Nix system. -/
  system : String
  /-- Optional Home Manager user. -/
  username : Option String
  /-- Identity with the target recipient. -/
  recipientIdentity : Id
  /-- Public recipient. -/
  recipient : String
  /-- Post-switch command policy. -/
  serviceActions : Option TargetServiceActions
  /-- Authorized secrets. -/
  secrets : Std.TreeMap Id TargetSecretPolicy
  /-- Templates whose secrets are all authorized. -/
  templates : Std.TreeMap Id TargetTemplatePolicy

/-- Canonical recipients of one ciphertext source. -/
structure SecretRecipients where
  /-- Must equal `secretRecipientsSchema`. -/
  schema : String
  /-- Hash of the canonical plan. -/
  planHash : String
  /-- Selected secret. -/
  secretId : Id
  /-- Ciphertext delivery model. -/
  delivery : DeliveryMode
  /-- Identities and their public recipients. -/
  recipients : Std.TreeMap Id String

/-- `plan_hash`. -/
def planHash (E : Environment) (plan : Plan) : Except PolicyError String :=
  match E.planToJcs plan with
  | some bytes => .ok (E.deriveKeyHex "nix-seal plan hash v1" bytes)
  | none => .error .json

/-- Adds one signer to a target approval policy. -/
def addApprovalSigner (plan : Plan) (signers : Std.TreeMap Id String) (signerId : Id) :
    Except PolicyError (Std.TreeMap Id String) :=
  match plan.identities[signerId]? with
  | none => .error (.violation s!"missing signer identity {signerId}")
  | some identity =>
      if identity.kind ≠ .signer then
        .error (.violation s!"approval identity {signerId} is not a signer")
      else .ok (signers.insert signerId identity.publicValue)

/-- Threshold and signers of an explicit policy, or one of all signers by default. -/
def approvalRule (plan : Plan) (policyId : Option Id) : Except PolicyError (UInt16 × List Id) :=
  match policyId with
  | some policyId =>
      match plan.approvalPolicies[policyId]? with
      | none => .error (.violation s!"missing approval policy {policyId}")
      | some policy => .ok (policy.threshold, policy.signers)
  | none =>
      .ok (1, plan.identities.toList.filterMap fun entry =>
        if entry.2.kind = .signer then some entry.1 else none)

/-- `target_approval_policy`. -/
def targetApprovalPolicy (plan : Plan) (policyId : Option Id) :
    Except PolicyError TargetApprovalPolicy := do
  let (threshold, signerIds) ← approvalRule plan policyId
  let signers ← signerIds.foldlM (addApprovalSigner plan) {}
  if threshold = 0 ∨ signers.size < threshold.toNat then
    .error (.violation "target approval policy has an impossible threshold")
  else .ok { threshold, signers }

/-- Adds one secret to a target policy when the target consumes it. -/
def addTargetSecret (plan : Plan) (targetId : Id) (secrets : Std.TreeMap Id TargetSecretPolicy)
    (entry : Id × Secret) : Except PolicyError (Std.TreeMap Id TargetSecretPolicy) :=
  let secret := entry.2
  if targetIsConsumer plan secret targetId then do
    let approval ← targetApprovalPolicy plan secret.approvalPolicy
    .ok (secrets.insert entry.1
      { source := secret.source
        sourceCiphertextHash := secret.sourceCiphertextHash
        delivery := secret.delivery
        phase := secret.phase
        runtime := secret.runtimeForTarget targetId
        approval })
  else .ok secrets

/-- Adds one template to a target policy when all its secrets are authorized. -/
def addTargetTemplate (plan : Plan) (secrets : Std.TreeMap Id TargetSecretPolicy)
    (templates : Std.TreeMap Id TargetTemplatePolicy) (entry : Id × Template) :
    Except PolicyError (Std.TreeMap Id TargetTemplatePolicy) :=
  let template := entry.2
  if template.placeholders.toList.all fun placeholder =>
      secrets.contains placeholder.2.secret then do
    let phase ← templatePhase plan entry.1 template
    .ok (templates.insert entry.1
      { source := template.source
        phase
        placeholders := template.placeholders
        runtime := template.runtime })
  else .ok templates

/-- `target_policy`. -/
def targetPolicy (E : Environment) (plan : Plan) (targetId : Id) :
    Except PolicyError TargetPolicy := do
  validate E plan
  match plan.targets[targetId]? with
  | none => .error (.violation s!"target policy references missing target {targetId}")
  | some target =>
      match plan.identities[target.identity]? with
      | none =>
          .error (.violation s!"target {targetId} references missing identity {target.identity}")
      | some identity => do
          let secrets ← plan.secrets.toList.foldlM (addTargetSecret plan targetId) {}
          let templates ← plan.templates.toList.foldlM (addTargetTemplate plan secrets) {}
          let hash ← planHash E plan
          .ok
            { schema := targetPolicySchema
              planHash := hash
              targetId
              targetKind := target.kind
              system := target.system
              username := target.username
              recipientIdentity := target.identity
              recipient := identity.publicValue
              serviceActions := target.serviceActions
              secrets
              templates }

/-- Identities that administer a secret: explicit ones, or every administrator and recovery
identity. -/
def administratorIds (plan : Plan) (secret : Secret) : Except PolicyError (List Id) :=
  if secret.administrators.isEmpty then
    .ok (plan.identities.toList.filterMap fun entry =>
      if IdentityKind.isAdministrator entry.2.kind then some entry.1 else none)
  else do
    let leaves ← expandGroupLeaves plan secret.administrators
    .ok leaves.toList

/-- Adds one administrator to the recipients. -/
def addAdministrator (plan : Plan) (recipients : Std.TreeMap Id String) (identityId : Id) :
    Except PolicyError (Std.TreeMap Id String) :=
  match plan.identities[identityId]? with
  | none =>
      .error (.violation
        s!"administrator reference {identityId} does not resolve to an identity")
  | some identity =>
      if !IdentityKind.isAdministrator identity.kind then
        .error (.violation
          s!"administrator reference {identityId} has an incompatible identity kind")
      else .ok (recipients.insert identityId identity.publicValue)

/-- Adds one identity to the recipients when it is a recovery identity. -/
def addRecovery (recipients : Std.TreeMap Id String) (entry : Id × Identity) :
    Std.TreeMap Id String :=
  if entry.2.kind = .recovery then recipients.insert entry.1 entry.2.publicValue else recipients

/-- Adds the identity of one direct consumer to the recipients. -/
def addDirectConsumer (plan : Plan) (recipients : Std.TreeMap Id String) (targetId : Id) :
    Except PolicyError (Std.TreeMap Id String) :=
  match plan.targets[targetId]? with
  | none =>
      .error (.violation
        s!"direct consumer reference {targetId} does not resolve to a target")
  | some target =>
      match plan.identities[target.identity]? with
      | none =>
          .error (.violation s!"target {targetId} references missing identity {target.identity}")
      | some identity => .ok (recipients.insert target.identity identity.publicValue)

/-- Adds the identities of all direct consumers when the secret is delivered directly. -/
def addDirectConsumers (plan : Plan) (secret : Secret) (recipients : Std.TreeMap Id String) :
    Except PolicyError (Std.TreeMap Id String) :=
  if secret.delivery = .direct then do
    let targets ← selectedConsumerTargets plan secret
    targets.toList.foldlM (addDirectConsumer plan) recipients
  else .ok recipients

/-- `secret_recipients`. -/
def secretRecipients (E : Environment) (plan : Plan) (secretId : Id) :
    Except PolicyError SecretRecipients := do
  validate E plan
  match plan.secrets[secretId]? with
  | none => .error (.violation s!"recipient policy references missing secret {secretId}")
  | some secret => do
      let administrators ← administratorIds plan secret
      let recipients ← administrators.foldlM (addAdministrator plan) {}
      let recipients := plan.identities.toList.foldl addRecovery recipients
      let recipients ← addDirectConsumers plan secret recipients
      if recipients.isEmpty then
        .error (.violation s!"secret {secretId} has no canonical encryption recipients")
      else do
        let hash ← planHash E plan
        .ok
          { schema := secretRecipientsSchema
            planHash := hash
            secretId
            delivery := secret.delivery
            recipients }

end Policy
end NixSeal
