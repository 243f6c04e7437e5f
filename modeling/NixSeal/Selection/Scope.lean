import NixSeal.Selection.Activation

/-!
# Artifacts are bound to the scope of their secret

The digest that binds the artifacts of a secret for a target is a function of what two plans may
agree on although they differ elsewhere: the scope of the secret for the target.  Plans with one
scope select one artifact.
-/

namespace NixSeal.Selection

open Manifest Policy Cache

/-! ## Scopes -/

/-- What a plan says about a target that its artifacts are bound to. -/
structure TargetScope where
  kind : TargetKind
  system : String
  username : Option String
  identity : Id
  recipient : String
  deriving DecidableEq

/-- The scope of a target. -/
def targetScope (plan : Plan) (targetId : Id) : Option TargetScope := do
  let target ← plan.targets[targetId]?
  let identity ← plan.identities[target.identity]?
  some ⟨target.kind, target.system, target.username, target.identity, identity.publicValue⟩

/-- The number of approvals that a rule asks for; one by default. -/
def approvalThreshold (plan : Plan) : Option Id → Option UInt16
  | some policyId => plan.approvalPolicies[policyId]?.map ApprovalPolicy.threshold
  | none => some 1

/-- A rule names an identity: a listed one, or any signer of the plan by default. -/
def NamesSigner (plan : Plan) (rule : Option Id) (id : Id) : Prop :=
  match rule with
  | some policyId => ∃ policy, plan.approvalPolicies[policyId]? = some policy ∧ id ∈ policy.signers
  | none => ∃ identity, plan.identities[id]? = some identity ∧ identity.kind = .signer

/-- What a plan says about a secret that the artifacts of a target are bound to. -/
structure SecretScope where
  source : String
  sourceCiphertextHash : String
  delivery : DeliveryMode
  phase : ActivationPhase
  runtime : RuntimeSettings
  threshold : UInt16
  deriving DecidableEq

/-- The scope of a secret for a target, without its signers. -/
def secretScope (plan : Plan) (targetId secretId : Id) : Option SecretScope := do
  let secret ← plan.secrets[secretId]?
  let threshold ← approvalThreshold plan secret.approvalPolicy
  some ⟨secret.source, secret.sourceCiphertextHash, secret.delivery, secret.phase,
    secret.runtimeForTarget targetId, threshold⟩

/-- A signer may approve the artifacts of a secret with a key. -/
def MayApprove (plan : Plan) (secretId id : Id) (text : String) : Prop :=
  ∃ secret identity, plan.secrets[secretId]? = some secret ∧
    NamesSigner plan secret.approvalPolicy id ∧ plan.identities[id]? = some identity ∧
    identity.publicValue = text

/-- Two plans agree on everything that the artifacts of a secret for a target are bound to. -/
structure SameScope (left right : Plan) (targetId secretId : Id) : Prop where
  target : targetScope left targetId = targetScope right targetId
  secret : secretScope left targetId secretId = secretScope right targetId secretId
  signers : ∀ id text, MayApprove left secretId id text ↔ MayApprove right secretId id text

/-! ## The scope in a projection -/

section Projection

variable {E : Policy.Environment} {plan : Plan} {targetId : Id} {policy : TargetPolicy}

theorem getElem?_of_foldlM_addApprovalSigner {signerIds : List Id} {signers : Std.TreeMap Id String}
    (folded : signerIds.foldlM (addApprovalSigner plan) {} = .ok signers) :
    ∀ id text, signers[id]? = some text ↔
      id ∈ signerIds ∧ ∃ identity, plan.identities[id]? = some identity ∧
        identity.publicValue = text := by
  refine Fallible.foldlM_eq_ok_induction folded (fun done (signers : Std.TreeMap Id String) =>
    ∀ id text, signers[id]? = some text ↔ id ∈ done ∧ ∃ identity,
      plan.identities[id]? = some identity ∧ identity.publicValue = text) (by simp) ?_
  intro done signerId signers next _ stepped holds id text
  unfold addApprovalSigner at stepped
  cases found : plan.identities[signerId]? with
  | none => simp [found] at stepped
  | some identity =>
      simp only [found, Fallible.guard_eq_ok, not_not, Except.ok.injEq] at stepped
      obtain ⟨-, rfl⟩ := stepped
      rw [Ordered.getElem?_insert_eq, List.mem_append, List.mem_singleton]
      by_cases same : signerId = id
      · subst same
        simp [found]
      · rw [if_neg same, holds]
        simp [Ne.symm same]

theorem targetApprovalPolicy_scope {rule : Option Id} {approval : TargetApprovalPolicy}
    (approved : targetApprovalPolicy plan rule = .ok approval) :
    approvalThreshold plan rule = some approval.threshold ∧
      ∀ id text, approval.signers[id]? = some text ↔
        NamesSigner plan rule id ∧ ∃ identity, plan.identities[id]? = some identity ∧
          identity.publicValue = text := by
  obtain ⟨⟨threshold, signerIds⟩, ruled, approved⟩ := Fallible.bind_eq_ok.mp approved
  obtain ⟨signers, folded, approved⟩ := Fallible.bind_eq_ok.mp approved
  rw [Fallible.guard_eq_ok] at approved
  cases approved.2
  have held := getElem?_of_foldlM_addApprovalSigner folded
  cases rule with
  | none =>
      simp only [approvalRule, Except.ok.injEq, Prod.mk.injEq] at ruled
      obtain ⟨rfl, rfl⟩ := ruled
      refine ⟨rfl, fun id text => (held id text).trans (and_congr_left fun _ => ?_)⟩
      simp [NamesSigner, List.mem_filterMap, Std.TreeMap.mem_toList_iff_getElem?_eq_some]
  | some policyId =>
      simp only [approvalRule] at ruled
      cases stored : plan.approvalPolicies[policyId]? with
      | none => simp [stored] at ruled
      | some rule =>
          simp only [stored, Except.ok.injEq, Prod.mk.injEq] at ruled
          obtain ⟨rfl, rfl⟩ := ruled
          refine ⟨by simp [approvalThreshold, stored], fun id text => ?_⟩
          rw [held]
          simp [NamesSigner, stored]

/-- The policy of a target holds the scopes of the plan. -/
structure Scoped (plan : Plan) (targetId : Id) (policy : TargetPolicy) : Prop where
  named : policy.targetId = targetId
  target : targetScope plan targetId = some
    ⟨policy.targetKind, policy.system, policy.username, policy.recipientIdentity, policy.recipient⟩
  secrets : ∀ (id : Id) (secret : TargetSecretPolicy), policy.secrets[id]? = some secret →
    secretScope plan targetId id = some ⟨secret.source, secret.sourceCiphertextHash,
      secret.delivery, secret.phase, secret.runtime, secret.approval.threshold⟩ ∧
    ∀ signer text, secret.approval.signers[signer]? = some text ↔ MayApprove plan id signer text

theorem scoped_of_targetPolicy (projected : targetPolicy E plan targetId = .ok policy) :
    Scoped plan targetId policy := by
  obtain ⟨⟨⟩, -, projected⟩ := Fallible.bind_eq_ok.mp projected
  cases found : plan.targets[targetId]? with
  | none => simp [found] at projected
  | some target =>
      simp only [found] at projected
      cases named : plan.identities[target.identity]? with
      | none => simp [named] at projected
      | some identity =>
          simp only [named] at projected
          obtain ⟨secrets, folded, projected⟩ := Fallible.bind_eq_ok.mp projected
          obtain ⟨templates, -, projected⟩ := Fallible.bind_eq_ok.mp projected
          obtain ⟨hash, -, projected⟩ := Fallible.bind_eq_ok.mp projected
          cases projected
          refine ⟨rfl, by simp [targetScope, found, named], ?_⟩
          refine Fallible.foldlM_eq_ok_induction folded (fun _ (secrets : Std.TreeMap Id
            TargetSecretPolicy) => ∀ (id : Id) (secret : TargetSecretPolicy),
              secrets[id]? = some secret → secretScope plan targetId id = some ⟨secret.source,
                secret.sourceCiphertextHash, secret.delivery, secret.phase, secret.runtime,
                secret.approval.threshold⟩ ∧ ∀ signer text,
                  secret.approval.signers[signer]? = some text ↔ MayApprove plan id signer text)
            (by simp) ?_
          rintro done ⟨planned, secret⟩ secrets next member stepped holds id projected stored
          have planned_stored := Std.TreeMap.mem_toList_iff_getElem?_eq_some.mp member
          simp only [addTargetSecret] at stepped
          split at stepped
          · obtain ⟨approval, approved, returned⟩ := Fallible.bind_eq_ok.mp stepped
            cases returned
            rw [Ordered.getElem?_insert_eq] at stored
            split at stored
            · rename_i same
              subst same
              cases stored
              obtain ⟨threshold, signers⟩ := targetApprovalPolicy_scope approved
              refine ⟨by simp [secretScope, planned_stored, threshold], fun signer text => ?_⟩
              rw [signers]
              simp [MayApprove, planned_stored]
            · exact holds id projected stored
          · cases stepped
            exact holds id projected stored

end Projection

/-! ## Digests -/

variable {T : Tools}

/-- The values of an artifact policy, with its signers in order. -/
def SecretArtifactPolicy.values (policy : SecretArtifactPolicy) :
    (String × Id × Id) × TargetScope × SecretScope × List (Id × String) :=
  ((policy.schema, policy.targetId, policy.secretId),
    ⟨policy.targetKind, policy.system, policy.username, policy.recipientIdentity,
      policy.recipient⟩,
    ⟨policy.secret.source, policy.secret.sourceCiphertextHash, policy.secret.delivery,
      policy.secret.phase, policy.secret.runtime, policy.secret.approval.threshold⟩,
    policy.secret.approval.signers.toList)

/-- Canonical JSON of an artifact policy is a text for its values, and the digests of two texts
are different. -/
structure Canonical (T : Tools) : Prop where
  written : ∀ policy, (T.artifactPolicyToJcs policy).isSome = true
  values : ∀ left right,
    T.artifactPolicyToJcs left = T.artifactPolicyToJcs right ↔ left.values = right.values
  apart : Function.Injective (T.policy.deriveKeyHex "nix-seal secret artifact policy hash v1")

theorem toList_eq_iff {left right : Std.TreeMap Id String} :
    left.toList = right.toList ↔
      ∀ (id : Id) (text : String), left[id]? = some text ↔ right[id]? = some text := by
  constructor
  · intro same id text
    rw [← Std.TreeMap.mem_toList_iff_getElem?_eq_some, same,
      Std.TreeMap.mem_toList_iff_getElem?_eq_some]
  · intro same
    exact (Std.TreeMap.Equiv.of_forall_constGet?_eq fun id => Option.ext (same id)).toList_eq

theorem secretArtifactPolicyHash_eq_iff (canonical : Canonical T) {left right : TargetPolicy}
    {secretId : Id} {leftSecret rightSecret : TargetSecretPolicy}
    (left_stored : left.secrets[secretId]? = some leftSecret)
    (right_stored : right.secrets[secretId]? = some rightSecret) :
    secretArtifactPolicyHash T left secretId = secretArtifactPolicyHash T right secretId ↔
      ∃ leftPolicy rightPolicy, secretArtifactPolicy left secretId = .ok leftPolicy ∧
        secretArtifactPolicy right secretId = .ok rightPolicy ∧
        leftPolicy.values = rightPolicy.values := by
  have hashed : ∀ {policy : TargetPolicy} {secret : TargetSecretPolicy},
      policy.secrets[secretId]? = some secret → ∃ document bytes,
        secretArtifactPolicy policy secretId = .ok document ∧
        T.artifactPolicyToJcs document = some bytes ∧
        secretArtifactPolicyHash T policy secretId =
          .ok (T.policy.deriveKeyHex "nix-seal secret artifact policy hash v1" bytes) := by
    intro policy secret stored
    have projected : ∃ document, secretArtifactPolicy policy secretId = .ok document := by
      simp [secretArtifactPolicy, stored]
    obtain ⟨document, projected⟩ := projected
    obtain ⟨bytes, written⟩ := Option.isSome_iff_exists.mp (canonical.written document)
    refine ⟨document, bytes, projected, written, ?_⟩
    rw [secretArtifactPolicyHash, projected, Fallible.ok_bind, written]
    rfl
  obtain ⟨leftPolicy, leftBytes, left_projected, left_written, left_hash⟩ := hashed left_stored
  obtain ⟨rightPolicy, rightBytes, right_projected, right_written, right_hash⟩ :=
    hashed right_stored
  have texts : leftBytes = rightBytes ↔ leftPolicy.values = rightPolicy.values := by
    rw [← canonical.values, left_written, right_written, Option.some.injEq]
  rw [left_hash, right_hash, Except.ok.injEq, canonical.apart.eq_iff, texts]
  constructor
  · intro same
    exact ⟨leftPolicy, rightPolicy, left_projected, right_projected, same⟩
  · rintro ⟨_, _, left_projected', right_projected', same⟩
    rw [left_projected] at left_projected'
    rw [right_projected] at right_projected'
    cases left_projected'
    cases right_projected'
    exact same

section TwoPlans

variable {left right : Plan} {targetId secretId : Id} {leftPolicy rightPolicy : TargetPolicy}
  {leftSecret rightSecret : TargetSecretPolicy}

/-- What two projections of one scope have in common. -/
structure Agree (leftPolicy rightPolicy : TargetPolicy)
    (leftSecret rightSecret : TargetSecretPolicy) : Prop where
  named : leftPolicy.targetId = rightPolicy.targetId
  kind : leftPolicy.targetKind = rightPolicy.targetKind
  system : leftPolicy.system = rightPolicy.system
  username : leftPolicy.username = rightPolicy.username
  identity : leftPolicy.recipientIdentity = rightPolicy.recipientIdentity
  recipient : leftPolicy.recipient = rightPolicy.recipient
  source : leftSecret.source = rightSecret.source
  sourceCiphertextHash : leftSecret.sourceCiphertextHash = rightSecret.sourceCiphertextHash
  delivery : leftSecret.delivery = rightSecret.delivery
  phase : leftSecret.phase = rightSecret.phase
  runtime : leftSecret.runtime = rightSecret.runtime
  threshold : leftSecret.approval.threshold = rightSecret.approval.threshold
  signers : leftSecret.approval.signers.toList = rightSecret.approval.signers.toList

/-- Projections agree on a secret exactly when the plans do. -/
theorem agree_iff (left_scoped : Scoped left targetId leftPolicy)
    (right_scoped : Scoped right targetId rightPolicy)
    (left_stored : leftPolicy.secrets[secretId]? = some leftSecret)
    (right_stored : rightPolicy.secrets[secretId]? = some rightSecret) :
    Agree leftPolicy rightPolicy leftSecret rightSecret ↔
      SameScope left right targetId secretId := by
  obtain ⟨left_secret, left_signers⟩ := left_scoped.secrets _ _ left_stored
  obtain ⟨right_secret, right_signers⟩ := right_scoped.secrets _ _ right_stored
  constructor
  · intro agree
    refine ⟨?_, ?_, fun id text => ?_⟩
    · rw [left_scoped.target, right_scoped.target, agree.kind, agree.system, agree.username,
        agree.identity, agree.recipient]
    · rw [left_secret, right_secret, agree.source, agree.sourceCiphertextHash, agree.delivery,
        agree.phase, agree.runtime, agree.threshold]
    · rw [← left_signers, ← right_signers]
      exact toList_eq_iff.mp agree.signers id text
  · rintro ⟨target, secret, signers⟩
    rw [left_scoped.target, right_scoped.target] at target
    rw [left_secret, right_secret] at secret
    simp only [Option.some.injEq, TargetScope.mk.injEq] at target
    simp only [Option.some.injEq, SecretScope.mk.injEq] at secret
    obtain ⟨kind, system, username, identity, recipient⟩ := target
    obtain ⟨source, hash, delivery, phase, runtime, threshold⟩ := secret
    refine ⟨left_scoped.named.trans right_scoped.named.symm, kind, system, username, identity,
      recipient, source, hash, delivery, phase, runtime, threshold, toList_eq_iff.mpr ?_⟩
    intro id text
    rw [left_signers, right_signers]
    exact signers id text

/-- The digests of two projections are equal exactly when they agree. -/
theorem Agree.hash_iff (canonical : Canonical T) (named : leftPolicy.targetId = rightPolicy.targetId)
    (left_stored : leftPolicy.secrets[secretId]? = some leftSecret)
    (right_stored : rightPolicy.secrets[secretId]? = some rightSecret) :
    secretArtifactPolicyHash T leftPolicy secretId =
        secretArtifactPolicyHash T rightPolicy secretId ↔
      Agree leftPolicy rightPolicy leftSecret rightSecret := by
  rw [secretArtifactPolicyHash_eq_iff canonical left_stored right_stored]
  simp only [secretArtifactPolicy, left_stored, right_stored, Except.ok.injEq, exists_and_left,
    exists_eq_left', SecretArtifactPolicy.values, Prod.mk.injEq, TargetScope.mk.injEq,
    SecretScope.mk.injEq, true_and, and_true, named]
  constructor
  · rintro ⟨⟨kind, system, username, identity, recipient⟩, ⟨source, hash, delivery, phase, runtime,
      threshold⟩, signers⟩
    exact ⟨named, kind, system, username, identity, recipient, source, hash, delivery, phase,
      runtime, threshold, signers⟩
  · intro agree
    exact ⟨⟨agree.kind, agree.system, agree.username, agree.identity, agree.recipient⟩,
      ⟨agree.source, agree.sourceCiphertextHash, agree.delivery, agree.phase, agree.runtime,
        agree.threshold⟩, agree.signers⟩

theorem Agree.symm (agree : Agree leftPolicy rightPolicy leftSecret rightSecret) :
    Agree rightPolicy leftPolicy rightSecret leftSecret :=
  ⟨agree.named.symm, agree.kind.symm, agree.system.symm, agree.username.symm, agree.identity.symm,
    agree.recipient.symm, agree.source.symm, agree.sourceCiphertextHash.symm, agree.delivery.symm,
    agree.phase.symm, agree.runtime.symm, agree.threshold.symm, agree.signers.symm⟩

/-- A candidate under one of two projections that agree is one under the other. -/
theorem Agree.verifies (agree : Agree leftPolicy rightPolicy leftSecret rightSecret)
    (left_stored : leftPolicy.secrets[secretId]? = some leftSecret)
    (right_stored : rightPolicy.secrets[secretId]? = some rightSecret)
    (hashes : secretArtifactPolicyHash T leftPolicy secretId =
      secretArtifactPolicyHash T rightPolicy secretId)
    {phase : ActivationPhase} {now allowedClockSkew : UInt64} {fingerprint : String}
    {record : ArtifactRecord} {generation : UInt64}
    (verifies : Verifies T ⟨leftPolicy, phase, now, allowedClockSkew, fingerprint⟩ record secretId
      generation) :
    Verifies T ⟨rightPolicy, phase, now, allowedClockSkew, fingerprint⟩ record secretId
      generation := by
  obtain ⟨secret, envelope, policyHash, trusted, verified, stored, phased, parsed, hashed, addressed,
    trusts, accepted⟩ := verifies
  rw [left_stored] at stored
  cases stored
  refine ⟨rightSecret, envelope, policyHash, trusted, verified, right_stored,
    agree.phase.symm.trans phased, parsed, hashes.symm.trans hashed, ?_, ?_, ?_⟩
  · simpa [candidateAddress, agree.named, agree.sourceCiphertextHash] using addressed
  · simpa [trustSigners, agree.signers] using trusts
  · simpa [candidateBinding, agree.named, agree.sourceCiphertextHash, agree.threshold] using
      accepted

end TwoPlans

/-- The digest that binds the artifacts of a secret for a target is the same under two plans exactly
when these agree on the scope, and then they select one artifact from every cache. -/
theorem artifact_scope_exact (canonical : Canonical T) {left right : Plan} {targetId secretId : Id}
    {leftPolicy rightPolicy : TargetPolicy}
    (left_projected : targetPolicy T.policy left targetId = .ok leftPolicy)
    (right_projected : targetPolicy T.policy right targetId = .ok rightPolicy)
    (left_authorized : secretId ∈ leftPolicy.secrets)
    (right_authorized : secretId ∈ rightPolicy.secrets) :
    (secretArtifactPolicyHash T leftPolicy secretId =
        secretArtifactPolicyHash T rightPolicy secretId ↔
      SameScope left right targetId secretId) ∧
    (SameScope left right targetId secretId →
      ∀ (stored : Except CacheError (List ArtifactRecord)),
        (∀ records, stored = .ok records → (records.map ArtifactRecord.key).Nodup) →
        ∀ (phase : ActivationPhase) (now allowedClockSkew : UInt64),
          (inspectActivationArtifacts T stored leftPolicy phase now allowedClockSkew).map
              (fun inspection => inspection.selected[secretId]?) =
            (inspectActivationArtifacts T stored rightPolicy phase now allowedClockSkew).map
              (fun inspection => inspection.selected[secretId]?)) := by
  rw [Std.TreeMap.mem_iff_isSome_getElem?, Option.isSome_iff_exists] at left_authorized
  rw [Std.TreeMap.mem_iff_isSome_getElem?, Option.isSome_iff_exists] at right_authorized
  obtain ⟨leftSecret, left_stored⟩ := left_authorized
  obtain ⟨rightSecret, right_stored⟩ := right_authorized
  have left_scoped := scoped_of_targetPolicy left_projected
  have right_scoped := scoped_of_targetPolicy right_projected
  have scope_iff := agree_iff left_scoped right_scoped left_stored right_stored
  have hash_iff := Agree.hash_iff canonical (left_scoped.named.trans right_scoped.named.symm)
    left_stored right_stored
  refine ⟨hash_iff.trans scope_iff, ?_⟩
  intro same stored distinct phase now allowedClockSkew
  have agree := scope_iff.mpr same
  have hashes := hash_iff.mpr agree
  cases stored with
  | error failure => rfl
  | ok records =>
      have left_answerable := answerable_of_targetPolicy canonical.written left_projected
      have right_answerable := answerable_of_targetPolicy canonical.written right_projected
      obtain ⟨fingerprint, left_fingerprinted⟩ := left_answerable.fingerprint
      have right_fingerprinted := left_fingerprinted
      rw [agree.recipient] at right_fingerprinted
      obtain ⟨first, left_returned, left_kept⟩ := inspectActivationArtifacts_kept
        ⟨leftPolicy, phase, now, allowedClockSkew, fingerprint⟩ left_answerable left_fingerprinted
        (distinct records rfl)
      obtain ⟨second, right_returned, right_kept⟩ := inspectActivationArtifacts_kept
        ⟨rightPolicy, phase, now, allowedClockSkew, fingerprint⟩ right_answerable
        right_fingerprinted (distinct records rfl)
      rw [left_returned, right_returned, Except.map, Except.map, Except.ok.injEq]
      refine Option.ext fun found => ?_
      rw [left_kept.isNewest (distinct records rfl), right_kept.isNewest (distinct records rfl)]
      have candidates : ∀ record generation,
          Verifies T ⟨leftPolicy, phase, now, allowedClockSkew, fingerprint⟩ record secretId
              generation ↔
            Verifies T ⟨rightPolicy, phase, now, allowedClockSkew, fingerprint⟩ record secretId
              generation := by
        intro record generation
        exact ⟨agree.verifies left_stored right_stored hashes,
          agree.symm.verifies right_stored left_stored hashes.symm⟩
      simp only [IsNewest, candidates]

namespace Sample

open Manifest.Sample (hexText)
open Policy.Sample (host token hostTarget)

/-- A text for a list of texts. -/
def listText (texts : List String) : String :=
  String.ofList (texts.flatMap fun text => (hexText (utf8 text)).toList ++ [','])

theorem comma_not_mem_hexText (bytes : Bytes) : ',' ∉ (hexText bytes).toList := by
  have digits : ∀ value < 256, ',' ∉ Manifest.Sample.hexDigits (UInt8.ofNat value) := by
    decide +kernel
  rw [hexText, String.toList_ofList, List.mem_flatMap]
  rintro ⟨octet, -, member⟩
  have octets := digits octet.toNat octet.toNat_lt
  rw [UInt8.ofNat_toNat] at octets
  exact octets member

theorem append_comma_inj {left right rest others : List Char} (left_plain : ',' ∉ left)
    (right_plain : ',' ∉ right) (same : left ++ ',' :: rest = right ++ ',' :: others) :
    left = right ∧ rest = others := by
  have front : ∀ {text more : List Char}, ',' ∉ text →
      (text ++ ',' :: more).takeWhile (· != ',') = text := by
    intro text more plain
    rw [List.takeWhile_append_of_pos]
    · simp
    · intro char member
      rw [bne_iff_ne]
      rintro rfl
      exact plain member
  have fronts := congrArg (List.takeWhile (· != ',')) same
  rw [front left_plain, front right_plain] at fronts
  subst fronts
  exact ⟨rfl, (List.cons.inj (List.append_cancel_left same)).2⟩

theorem listText_injective : Function.Injective listText := by
  intro left right same
  have same := String.ofList_injective same
  induction left generalizing right with
  | nil =>
      cases right with
      | nil => rfl
      | cons text rest => simp at same
  | cons text rest ih =>
      cases right with
      | nil => simp at same
      | cons other others =>
          simp only [List.flatMap_cons, List.append_assoc, List.singleton_append] at same
          obtain ⟨texts, rests⟩ := append_comma_inj (comma_not_mem_hexText _)
            (comma_not_mem_hexText _) same
          have texts := Manifest.Sample.hexText_injective (String.toList_injective texts)
          rw [utf8_injective texts, ih (congrArg String.ofList rests) rests]

def kindText : TargetKind → String
  | .nixOs => "nixOs"
  | .darwin => "darwin"
  | .homeManager => "homeManager"

def deliveryText : DeliveryMode → String
  | .rekeyed => "rekeyed"
  | .direct => "direct"

def phaseText : ActivationPhase → String
  | .partitioning => "partitioning"
  | .users => "users"
  | .activation => "activation"
  | .services => "services"

theorem kindText_injective : Function.Injective kindText := by
  intro left right same
  cases left <;> cases right <;> simp_all [kindText]

theorem deliveryText_injective : Function.Injective deliveryText := by
  intro left right same
  cases left <;> cases right <;> simp_all [deliveryText]

theorem phaseText_injective : Function.Injective phaseText := by
  intro left right same
  cases left <;> cases right <;> simp_all [phaseText]

/-- A text for the runtime settings of a secret. -/
def runtimeText (runtime : RuntimeSettings) : String :=
  listText [runtime.owner, runtime.group, runtime.mode, listText runtime.restartUnits,
    listText runtime.reloadUnits, listText runtime.compatibilitySymlink.toList]

/-- A text for the values of an artifact policy. -/
def valuesText (values : (String × Id × Id) × TargetScope × SecretScope × List (Id × String)) :
    String :=
  let ((schema, targetId, secretId), target, secret, signers) := values
  listText [schema, targetId.value, secretId.value, kindText target.kind, target.system,
    listText target.username.toList, target.identity.value, target.recipient, secret.source,
    secret.sourceCiphertextHash, deliveryText secret.delivery, phaseText secret.phase,
    runtimeText secret.runtime, listText (List.replicate secret.threshold.toNat ""),
    listText (signers.map fun signer => listText [signer.1.value, signer.2])]

theorem optionList_injective {α : Type} : Function.Injective (Option.toList : Option α → List α) := by
  intro left right same
  cases left with
  | none =>
      cases right with
      | none => rfl
      | some value => cases same
  | some value =>
      cases right with
      | none => cases same
      | some other => rw [(List.cons.inj same).1]

theorem runtimeText_injective : Function.Injective runtimeText := by
  rintro ⟨owner, group, mode, restart, reload, symlink⟩ ⟨owner', group', mode', restart', reload',
    symlink'⟩ same
  have same := listText_injective same
  simp only [List.cons.injEq, listText_injective.eq_iff, and_true] at same
  obtain ⟨rfl, rfl, rfl, rfl, rfl, links⟩ := same
  rw [optionList_injective links]

theorem valuesText_injective : Function.Injective valuesText := by
  rintro ⟨⟨schema, targetId, secretId⟩, target, secret, signers⟩
    ⟨⟨schema', targetId', secretId'⟩, target', secret', signers'⟩ same
  have same := listText_injective same
  simp only [List.cons.injEq, listText_injective.eq_iff, and_true] at same
  obtain ⟨rfl, target_id, secret_id, kind, system, username, identity, recipient, source, hash,
    delivery, phase, runtime, threshold, signer_texts⟩ := same
  have thresholds : secret.threshold = secret'.threshold := by
    have lengths := congrArg List.length threshold
    rw [List.length_replicate, List.length_replicate] at lengths
    exact UInt16.toNat_inj.mp lengths
  have signers_eq : signers = signers' := by
    refine Function.Injective.list_map ?_ signer_texts
    rintro ⟨id, text⟩ ⟨other, otherText⟩ pair
    have pair := listText_injective pair
    simp only [List.cons.injEq, and_true] at pair
    rw [Id.ext_value pair.1, pair.2]
  have targets : target = target' := by
    cases target
    cases target'
    exact TargetScope.mk.injEq .. ▸ ⟨kindText_injective kind, system, optionList_injective username,
      Id.ext_value identity, recipient⟩
  have secrets : secret = secret' := by
    cases secret
    cases secret'
    exact SecretScope.mk.injEq .. ▸ ⟨source, hash, deliveryText_injective delivery,
      phaseText_injective phase, runtimeText_injective runtime, thresholds⟩
  rw [Id.ext_value target_id, Id.ext_value secret_id, signers_eq, targets, secrets]

/-- The document of the sample secret. -/
def document : SecretArtifactPolicy where
  schema := secretArtifactPolicySchema
  targetId := host
  targetKind := .nixOs
  system := "x86_64-linux"
  username := none
  recipientIdentity := hostTarget.identity
  recipient := Policy.Sample.hostRecipient
  secretId := token
  secret := secretPolicy

/-- Canonical JSON of the sample document. -/
def documentText : String := String.ofList (artifactPolicyPattern.toList.map Policy.Sample.spell)

/-- Canonical JSON of the sample document; other documents have texts of their own. -/
def artifactPolicyText (policy : SecretArtifactPolicy) : String :=
  if policy.values = document.values then documentText
  else documentText ++ valuesText policy.values

/-- Tools whose digests do not collide. -/
def distinctTools : Tools :=
  { tools with
    policy := { Policy.Sample.environment with keys := keys }
    artifactPolicyToJcs := fun policy => some (utf8 (artifactPolicyText policy)) }

theorem artifactPolicyText_inj {left right : SecretArtifactPolicy} :
    artifactPolicyText left = artifactPolicyText right ↔ left.values = right.values := by
  have longer : ∀ (text : String) values, text ≠ text ++ valuesText values := by
    intro text values same
    have empty : valuesText values = listText [] := by
      rw [← String.append_right_inj text, ← same]
      exact (String.append_empty (s := text)).symm
    exact List.cons_ne_nil _ _ (listText_injective empty)
  constructor
  · intro same
    unfold artifactPolicyText at same
    split at same
    · rename_i sample
      split at same
      · rename_i sample'
        exact sample.trans sample'.symm
      · exact absurd same (longer _ _)
    · split at same
      · exact absurd same.symm (longer _ _)
      · exact valuesText_injective ((String.append_right_inj _).mp same)
  · intro same
    rw [artifactPolicyText, artifactPolicyText, same]

theorem canonical : Canonical distinctTools where
  written _ := rfl
  values left right := by
    have written : ∀ policy, distinctTools.artifactPolicyToJcs policy =
        some (utf8 (artifactPolicyText policy)) := fun _ => rfl
    rw [written, written, Option.some.injEq, utf8_injective.eq_iff,
      artifactPolicyText_inj]
  apart := by
    intro left right same
    exact List.append_cancel_left (Manifest.Sample.hexText_injective same)

/-- The sample plan with a tag at its target. -/
def taggedPlan : Plan :=
  { Policy.Sample.plan with
    targets := Std.TreeMap.ofList [(host, { hostTarget with tags := ["edge"] })] }

theorem validate_distinct : validate distinctTools.policy Policy.Sample.plan = .ok () :=
  Policy.Sample.validate_of_identities rfl rfl rfl (by decide) (by decide +kernel)

theorem validate_tagged : validate distinctTools.policy taggedPlan = .ok () :=
  Policy.Sample.validate_of_identities rfl rfl rfl (by decide) (by decide +kernel)

theorem sameScope_tagged : SameScope Policy.Sample.plan taggedPlan host token where
  target := by decide
  secret := by decide
  signers _ _ := Iff.rfl

end Sample

theorem artifact_scope_exact_tag :
    ∃ left right,
      targetPolicy Sample.distinctTools.policy Policy.Sample.plan Policy.Sample.host = .ok left ∧
        targetPolicy Sample.distinctTools.policy Sample.taggedPlan Policy.Sample.host = .ok right ∧
        secretArtifactPolicyHash Sample.distinctTools left Policy.Sample.token =
          secretArtifactPolicyHash Sample.distinctTools right Policy.Sample.token := by
  obtain ⟨left, left_projected, left_secrets, -⟩ := targetPolicy_exact Sample.validate_distinct rfl
    (show Policy.Sample.plan.targets[Policy.Sample.host]? = some Policy.Sample.hostTarget by decide)
  obtain ⟨right, right_projected, right_secrets, -⟩ := targetPolicy_exact Sample.validate_tagged rfl
    (show Sample.taggedPlan.targets[Policy.Sample.host]? =
      some { Policy.Sample.hostTarget with tags := ["edge"] } by decide)
  have fleet : ∀ plan : Plan,
      plan.groups[Policy.Sample.fleet]? = some (Group.mk [Policy.Sample.host]) →
      Reaches plan [Policy.Sample.fleet] Policy.Sample.host := by
    intro plan stored
    exact ⟨Policy.Sample.fleet, List.mem_singleton_self _,
      Relation.ReflTransGen.single ⟨_, stored, List.mem_singleton_self _⟩⟩
  refine ⟨left, right, left_projected, right_projected, ?_⟩
  refine (artifact_scope_exact Sample.canonical left_projected right_projected ?_ ?_).1.mpr
    Sample.sameScope_tagged
  · exact (left_secrets _).mpr ⟨Policy.Sample.tokenSecret, rfl, .inl (fleet _ (by decide))⟩
  · exact (right_secrets _).mpr ⟨Policy.Sample.tokenSecret, rfl, .inl (fleet _ (by decide))⟩

end NixSeal.Selection
