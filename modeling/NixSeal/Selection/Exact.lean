import NixSeal.Manifest.Soundness
import NixSeal.Policy.Accepted
import NixSeal.Selection.Inspect

/-!
# The selection is exact

For the policy of a target in an accepted plan the inspection always returns, and it selects for
every secret the verified artifact of the highest generation, whatever else the cache holds and in
whatever order it is listed.
-/

namespace NixSeal.Selection

open Manifest Policy Cache

/-! ## Signers of an accepted plan -/

section Signers

variable {E : Policy.Environment} {plan : Plan}

theorem registered_of_validate (accepted : validate E plan = .ok ()) :
    ∃ registered, plan.identities.toList.foldlM (registerSigner E) {} = .ok registered := by
  unfold validate at accepted
  obtain ⟨⟨⟩, -, accepted⟩ := Fallible.bind_eq_ok.mp accepted
  rw [Fallible.guard_eq_ok] at accepted
  obtain ⟨⟨⟩, -, accepted⟩ := Fallible.bind_eq_ok.mp accepted.2
  obtain ⟨⟨⟩, -, accepted⟩ := Fallible.bind_eq_ok.mp accepted
  rw [Fallible.guard_eq_ok] at accepted
  obtain ⟨⟨⟩, -, accepted⟩ := Fallible.bind_eq_ok.mp accepted.2
  obtain ⟨registered, folded, -⟩ := Fallible.bind_eq_ok.mp accepted
  exact ⟨registered, folded⟩

theorem registerSigner_eq_ok {signers next : Std.TreeMap String Id} {entry : Id × Identity}
    (stepped : registerSigner E signers entry = .ok next) :
    (IdentityKind.isVerifier entry.2.kind = true ∧ ∃ keyId,
      publicKeyId E.keys entry.2.publicValue = .ok keyId ∧ signers[keyId]? = none ∧
        next = signers.insert keyId entry.1) ∨
    IdentityKind.isVerifier entry.2.kind = false ∧ next = signers := by
  unfold registerSigner at stepped
  cases verifier : IdentityKind.isVerifier entry.2.kind with
  | false =>
      simp only [verifier, Bool.false_eq_true, if_false, Except.ok.injEq] at stepped
      exact .inr ⟨rfl, stepped.symm⟩
  | true =>
      simp only [verifier, if_true] at stepped
      cases known : publicKeyId E.keys entry.2.publicValue with
      | error failure => simp [known] at stepped
      | ok keyId =>
          simp only [known] at stepped
          cases present : signers[keyId]? with
          | some previous => simp [present] at stepped
          | none =>
              simp only [present, Except.ok.injEq] at stepped
              exact .inl ⟨rfl, keyId, rfl, present, stepped.symm⟩

theorem registered_key {entries : List (Id × Identity)} {registered : Std.TreeMap String Id}
    (folded : entries.foldlM (registerSigner E) {} = .ok registered) :
    ∀ entry ∈ entries, IdentityKind.isVerifier entry.2.kind = true → ∃ keyId,
      publicKeyId E.keys entry.2.publicValue = .ok keyId ∧
        registered[keyId]? = some entry.1 := by
  refine Fallible.foldlM_eq_ok_induction folded (fun done signers => ∀ entry ∈ done,
    IdentityKind.isVerifier entry.2.kind = true → ∃ keyId,
      publicKeyId E.keys entry.2.publicValue = .ok keyId ∧ signers[keyId]? = some entry.1) ?_ ?_
  · intro entry member
    cases member
  · intro done item signers next _ stepped holds entry member verifier
    rcases registerSigner_eq_ok stepped with ⟨-, keyId, known, fresh, rfl⟩ | ⟨other, rfl⟩
    · rcases List.mem_append.mp member with early | last
      · obtain ⟨earlier, known', stored⟩ := holds entry early verifier
        refine ⟨earlier, known', ?_⟩
        rw [Std.TreeMap.getElem?_insert, if_neg]
        · exact stored
        · intro same
          rw [Std.LawfulEqOrd.eq_of_compare same, stored] at fresh
          cases fresh
      · cases List.mem_singleton.mp last
        exact ⟨keyId, known, Std.TreeMap.getElem?_insert_self⟩
    · rcases List.mem_append.mp member with early | last
      · exact holds entry early verifier
      · cases List.mem_singleton.mp last
        rw [other] at verifier
        cases verifier

theorem foldlM_trustEncoded {P : Primitives} {registered : Std.TreeMap String Id}
    {entries : List (Id × String)}
    (keyed : ∀ entry ∈ entries, ∃ key, parsePublicKey P entry.2 = .ok key ∧
      registered[key.keyId P]? = some entry.1)
    (distinct : (entries.map Prod.fst).Nodup) {trusted : TrustedKeys P}
    (fresh : ∀ keyId id, registered[keyId]? = some id → id ∈ entries.map Prod.fst →
      keyId ∉ trusted.keys) :
    ∃ result, (entries.map Prod.snd).foldlM trustEncoded trusted = .ok result := by
  induction entries generalizing trusted with
  | nil => exact ⟨trusted, rfl⟩
  | cons entry rest ih =>
      obtain ⟨key, parsed, stored⟩ := keyed entry (by simp)
      rw [List.map_cons, List.nodup_cons] at distinct
      have unused : key.keyId P ∉ trusted.keys := fresh _ _ stored (by simp)
      have added : trustEncoded trusted entry.2 = .ok (trusted.add key) := by
        have inserted : trusted.insertEncoded entry.2 = .ok (trusted.add key, key.keyId P) :=
          insertEncoded_eq_ok.mpr ⟨key, parsed, unused, rfl, rfl⟩
        simp [trustEncoded, inserted]
      have still : ∀ keyId id, registered[keyId]? = some id → id ∈ rest.map Prod.fst →
          keyId ∉ (trusted.add key).keys := by
        intro keyId id known member inside
        rcases Std.TreeMap.mem_insert.mp inside with same | early
        · rw [← Std.LawfulEqOrd.eq_of_compare same, stored] at known
          cases known
          exact distinct.1 member
        · exact fresh keyId id known (by simp [member]) early
      obtain ⟨result, folded⟩ := ih (fun other member => keyed other (by simp [member]))
        distinct.2 still
      refine ⟨result, ?_⟩
      rw [List.map_cons, List.foldlM_cons, added]
      exact folded

theorem trustSigners_ok (accepted : validate E plan = .ok ()) {signers : Std.TreeMap Id String}
    (known : ∀ (id : Id) (text : String), signers[id]? = some text →
      ∃ identity : Identity, plan.identities[id]? = some identity ∧ identity.kind = .signer ∧
        identity.publicValue = text) :
    ∃ trusted, trustSigners E.keys signers = .ok trusted := by
  obtain ⟨registered, folded⟩ := registered_of_validate accepted
  have keyed : ∀ entry ∈ signers.toList, ∃ key, parsePublicKey E.keys entry.2 = .ok key ∧
      registered[key.keyId E.keys]? = some entry.1 := by
    intro entry member
    have stored := Std.TreeMap.mem_toList_iff_getElem?_eq_some.mp member
    obtain ⟨identity, found, kind, text⟩ := known entry.1 entry.2 stored
    obtain ⟨keyId, identified, bound⟩ := registered_key folded (entry.1, identity)
      (Std.TreeMap.mem_toList_iff_getElem?_eq_some.mpr found)
      (by simp [kind, IdentityKind.isVerifier])
    obtain ⟨key, parsed, returned⟩ := Fallible.bind_eq_ok.mp identified
    cases returned
    exact ⟨key, text ▸ parsed, bound⟩
  refine foldlM_trustEncoded keyed ?_ ?_
  · rw [Std.TreeMap.map_fst_toList_eq_keys]
    exact Std.TreeMap.nodup_keys
  · intro keyId id _ _ inside
    simp [TrustedKeys.empty] at inside

theorem signer_of_targetApprovalPolicy {rule : Option Id} {approval : TargetApprovalPolicy}
    (approved : targetApprovalPolicy plan rule = .ok approval) :
    ∀ (id : Id) (text : String), approval.signers[id]? = some text →
      ∃ identity : Identity, plan.identities[id]? = some identity ∧ identity.kind = .signer ∧
        identity.publicValue = text := by
  obtain ⟨⟨threshold, signerIds⟩, -, approved⟩ := Fallible.bind_eq_ok.mp approved
  obtain ⟨signers, folded, approved⟩ := Fallible.bind_eq_ok.mp approved
  rw [Fallible.guard_eq_ok] at approved
  cases approved.2
  refine Fallible.foldlM_eq_ok_induction folded (fun _ signers => ∀ (id : Id) (text : String),
    signers[id]? = some text → ∃ identity : Identity, plan.identities[id]? = some identity ∧
      identity.kind = .signer ∧ identity.publicValue = text) ?_ ?_
  · intro id text stored
    rw [Std.TreeMap.getElem?_emptyc] at stored
    cases stored
  · intro done signerId signers next _ stepped holds id text stored
    unfold addApprovalSigner at stepped
    cases found : plan.identities[signerId]? with
    | none => simp [found] at stepped
    | some identity =>
        simp only [found, Fallible.guard_eq_ok, not_not, Except.ok.injEq] at stepped
        obtain ⟨kind, rfl⟩ := stepped
        rw [Std.TreeMap.getElem?_insert] at stored
        split at stored
        · rename_i same
          cases stored
          exact ⟨identity, Std.LawfulEqOrd.eq_of_compare same ▸ found, kind, rfl⟩
        · exact holds id text stored

/-- What the policy of a target takes from the plan. -/
structure Projected (E : Policy.Environment) (plan : Plan) (targetId : Id) (policy : TargetPolicy) :
    Prop where
  accepted : validate E plan = .ok ()
  target : policy.targetId = targetId
  recipient : ∃ (target : Target) (identity : Identity), plan.targets[targetId]? = some target ∧
    plan.identities[target.identity]? = some identity ∧ policy.recipient = identity.publicValue
  secrets : ∀ (id : Id) (secret : TargetSecretPolicy), policy.secrets[id]? = some secret →
    ∃ planned : Secret, plan.secrets[id]? = some planned ∧ secret.source = planned.source ∧
      secret.sourceCiphertextHash = planned.sourceCiphertextHash ∧
      targetApprovalPolicy plan planned.approvalPolicy = .ok secret.approval

theorem projected_of_targetPolicy {targetId : Id} {policy : TargetPolicy}
    (projected : targetPolicy E plan targetId = .ok policy) :
    Projected E plan targetId policy := by
  obtain ⟨⟨⟩, accepted, projected⟩ := Fallible.bind_eq_ok.mp projected
  cases found : plan.targets[targetId]? with
  | none => simp [found] at projected
  | some target =>
      simp only [found] at projected
      cases named : plan.identities[target.identity]? with
      | none => simp [named] at projected
      | some identity =>
          simp only [named] at projected
          obtain ⟨secrets, folded, projected⟩ := Fallible.bind_eq_ok.mp projected
          obtain ⟨templates, -, projected⟩ := Fallible.bind_eq_ok.mp projected
          obtain ⟨hash, -, projected⟩ := Fallible.bind_eq_ok.mp projected
          cases projected
          refine ⟨accepted, rfl, ⟨target, identity, found, named, rfl⟩, ?_⟩
          refine Fallible.foldlM_eq_ok_induction folded (fun _ secrets => ∀ (id : Id)
            (secret : TargetSecretPolicy), secrets[id]? = some secret → ∃ planned : Secret,
              plan.secrets[id]? = some planned ∧ secret.source = planned.source ∧
                secret.sourceCiphertextHash = planned.sourceCiphertextHash ∧
                targetApprovalPolicy plan planned.approvalPolicy = .ok secret.approval) ?_ ?_
          · intro id secret stored
            rw [Std.TreeMap.getElem?_emptyc] at stored
            cases stored
          · intro done entry secrets next member stepped holds id secret stored
            simp only [addTargetSecret] at stepped
            split at stepped
            · obtain ⟨approval, approved, returned⟩ := Fallible.bind_eq_ok.mp stepped
              cases returned
              rw [Std.TreeMap.getElem?_insert] at stored
              split at stored
              · rename_i same
                cases stored
                have planned := Std.TreeMap.mem_toList_iff_getElem?_eq_some.mp member
                rw [Std.LawfulEqOrd.eq_of_compare same] at planned
                exact ⟨entry.2, planned, rfl, rfl, approved⟩
              · exact holds id secret stored
            · cases stepped
              exact holds id secret stored

end Signers

/-! ## Questions that can be answered -/

variable {T : Tools}

/-- Everything an inspection computes from the policy exists. -/
structure Answerable (T : Tools) (policy : TargetPolicy) : Prop where
  fingerprint : ∃ fingerprint, recipientFingerprint T policy.recipient = some fingerprint
  hashed : ∀ (id : Id) (secret : TargetSecretPolicy), policy.secrets[id]? = some secret →
    ∃ hash, secretArtifactPolicyHash T policy id = .ok hash
  trusted : ∀ (id : Id) (secret : TargetSecretPolicy), policy.secrets[id]? = some secret →
    ∃ trusted, trustSigners T.keys secret.approval.signers = .ok trusted

theorem answerable_of_targetPolicy
    (encodes : ∀ policy, (T.artifactPolicyToJcs policy).isSome = true) {plan : Plan} {targetId : Id}
    {policy : TargetPolicy} (projected : targetPolicy T.policy plan targetId = .ok policy) :
    Answerable T policy := by
  have facts := projected_of_targetPolicy projected
  have accepted := acceptedPlan_of_validate facts.accepted
  refine ⟨?_, ?_, ?_⟩
  · obtain ⟨target, identity, found, named, recipient⟩ := facts.recipient
    obtain ⟨⟨⟩, -, checked⟩ := Fallible.bind_eq_ok.mp (accepted.targets _ _ found)
    simp only [named, Fallible.guard_eq_ok, not_not] at checked
    have valid := accepted.identities _ _ named
    simp only [validateIdentityKey, checked.1, IdentityKind.isRecipient, Bool.true_and,
      Fallible.guard_eq_ok] at valid
    have normal := valid.1
    rw [Option.isNone_iff_eq_none, ← Ne, Option.ne_none_iff_exists'] at normal
    obtain ⟨normalized, normal⟩ := normal
    refine ⟨T.keys.blake3Hex (utf8 "nix-seal.age-recipient-fingerprint.v1\x00" ++ utf8 normalized),
      ?_⟩
    simp [recipientFingerprint, recipient, normal]
  · intro id secret stored
    obtain ⟨bytes, encoded⟩ := Option.isSome_iff_exists.mp (encodes
      { schema := secretArtifactPolicySchema
        targetId := policy.targetId
        targetKind := policy.targetKind
        system := policy.system
        username := policy.username
        recipientIdentity := policy.recipientIdentity
        recipient := policy.recipient
        secretId := id
        secret := secret })
    refine ⟨T.policy.deriveKeyHex "nix-seal secret artifact policy hash v1" bytes, ?_⟩
    simp [secretArtifactPolicyHash, secretArtifactPolicy, stored, encoded, domainHash]
  · intro id secret stored
    obtain ⟨planned, -, -, -, approved⟩ := facts.secrets id secret stored
    exact trustSigners_ok facts.accepted (signer_of_targetApprovalPolicy approved)

/-! ## What a record is a candidate for -/

/-- The address and the envelope of a record are those of an artifact of a secret: the address is
derived from the current policy, and the envelope verifies against it. -/
def Verifies (T : Tools) (question : Question) (record : ArtifactRecord) (secretId : Id)
    (generation : UInt64) : Prop :=
  ∃ secret envelope policyHash trusted verified,
    question.policy.secrets[secretId]? = some secret ∧ secret.phase = question.phase ∧
    T.envelopeFromJson record.envelope = some envelope ∧
    secretArtifactPolicyHash T question.policy secretId = .ok policyHash ∧
    (candidateAddress question secret policyHash secretId generation).key T.cache =
      .ok record.key ∧
    trustSigners T.keys secret.approval.signers = .ok trusted ∧
    verify T.keys envelope trusted secret.approval.threshold.toNat
      (candidateBinding question secret policyHash record secretId generation) = .ok verified

/-- The manifest of a verified candidate is bound to its address. -/
theorem Verifies.manifest {question : Question} {record : ArtifactRecord} {secretId : Id}
    {generation : UInt64} (verifies : Verifies T question record secretId generation) :
    ∃ secret envelope policyHash manifest, question.policy.secrets[secretId]? = some secret ∧
      secret.phase = question.phase ∧
      secretArtifactPolicyHash T question.policy secretId = .ok policyHash ∧
      (candidateAddress question secret policyHash secretId generation).key T.cache =
        .ok record.key ∧
      T.envelopeFromJson record.envelope = some envelope ∧
      inspectUnverified T.keys envelope = .ok manifest ∧
      Bound manifest (candidateBinding question secret policyHash record secretId generation) := by
  obtain ⟨secret, envelope, policyHash, trusted, verified, stored, phase, parsed, hashed, addressed,
    -, accepted⟩ := verifies
  obtain ⟨-, payload, message, decoded, bound, -⟩ := verify_ok_iff.mp accepted
  exact ⟨secret, envelope, policyHash, verified.manifest, stored, phase, hashed, addressed, parsed,
    inspectUnverified_of_decoded decoded, bound⟩

/-- A record is a candidate only for what its manifest names. -/
theorem Verifies.named {question : Question} {record : ArtifactRecord} {secretId : Id}
    {generation : UInt64} (verifies : Verifies T question record secretId generation)
    {envelope : SignedEnvelope} {manifest : TargetManifest}
    (parsed : T.envelopeFromJson record.envelope = some envelope)
    (inspected : inspectUnverified T.keys envelope = .ok manifest) :
    secretId = manifest.secretId ∧ generation = manifest.artifactGeneration := by
  obtain ⟨_, _, _, _, -, -, -, -, parsed', inspected', bound⟩ := verifies.manifest
  rw [parsed] at parsed'
  cases parsed'
  rw [inspected] at inspected'
  cases inspected'
  exact ⟨bound.secretId.symm, bound.artifactGeneration.symm⟩

theorem Verifies.unique {question : Question} {record : ArtifactRecord} {left right : Id}
    {generation other : UInt64} (first : Verifies T question record left generation)
    (second : Verifies T question record right other) : left = right ∧ generation = other := by
  obtain ⟨_, _, _, _, -, -, -, -, parsed, inspected, -⟩ := first.manifest
  obtain ⟨rfl, rfl⟩ := first.named parsed inspected
  obtain ⟨rfl, rfl⟩ := second.named parsed inspected
  exact ⟨rfl, rfl⟩

/-- Two verified candidates of one generation have one address. -/
theorem Verifies.key_eq {question : Question} {record other : ArtifactRecord} {secretId : Id}
    {generation : UInt64} (first : Verifies T question record secretId generation)
    (second : Verifies T question other secretId generation) : record.key = other.key := by
  obtain ⟨secret, -, policyHash, -, -, stored, -, -, hashed, addressed, -⟩ := first
  obtain ⟨secret', -, policyHash', -, -, stored', -, -, hashed', addressed', -⟩ := second
  rw [stored] at stored'
  cases stored'
  rw [hashed] at hashed'
  cases hashed'
  exact Except.ok.inj (addressed.symm.trans addressed')

/-! ## One turn -/

theorem rejectLegacy_selected (question : Question) (envelope : SignedEnvelope)
    (findings : Findings) :
    (rejectLegacy T question envelope findings).selected = findings.selected := by
  unfold rejectLegacy
  split
  · rfl
  · split
    · rfl
    · rfl

theorem bindingMismatch_eq_none_iff {question : Question} {secret : TargetSecretPolicy}
    {policyHash : String} {manifest : TargetManifest} :
    bindingMismatch question secret policyHash manifest = none ↔
      manifest.artifactPolicyHash = policyHash ∧
        manifest.sourceCiphertextHash = secret.sourceCiphertextHash ∧
        manifest.recipientFingerprint = question.fingerprint := by
  unfold bindingMismatch
  split
  · simp [*]
  · split
    · simp [*]
    · split
      · simp [*]
      · simp_all

theorem validate_of_key {env : Cache.Environment} {address : ArtifactAddress} {key : String}
    (addressed : address.key env = .ok key) : address.validate = .ok () := by
  obtain ⟨⟨⟩, valid, -⟩ := Fallible.bind_eq_ok.mp addressed
  exact valid

theorem inspectCandidate_cases {question : Question} (answerable : Answerable T question.policy)
    (findings : Findings) {record : ArtifactRecord} {envelope : SignedEnvelope}
    {manifest : TargetManifest} {secret : TargetSecretPolicy}
    (parsed : T.envelopeFromJson record.envelope = some envelope)
    (inspected : inspectUnverified T.keys envelope = .ok manifest)
    (stored : question.policy.secrets[manifest.secretId]? = some secret)
    (phase : secret.phase = question.phase) :
    (Verifies T question record manifest.secretId manifest.artifactGeneration ∧
      inspectCandidate T question findings record envelope manifest secret =
        select findings manifest.secretId (discovered record manifest.artifactGeneration)) ∨
    ¬Verifies T question record manifest.secretId manifest.artifactGeneration ∧
      ∃ next, inspectCandidate T question findings record envelope manifest secret = .ok next ∧
        next.selected = findings.selected := by
  obtain ⟨policyHash, hashed⟩ := answerable.hashed _ secret stored
  obtain ⟨trusted, trusts⟩ := answerable.trusted _ secret stored
  have facts : Verifies T question record manifest.secretId manifest.artifactGeneration →
      bindingMismatch question secret policyHash manifest = none ∧
        (candidateAddress question secret policyHash manifest.secretId
          manifest.artifactGeneration).key T.cache = .ok record.key := by
    intro verifies
    obtain ⟨secret', envelope', policyHash', manifest', stored', -, hashed', addressed, parsed',
      inspected', bound⟩ := verifies.manifest
    rw [stored] at stored'
    cases stored'
    rw [hashed] at hashed'
    cases hashed'
    rw [parsed] at parsed'
    cases parsed'
    rw [inspected] at inspected'
    cases inspected'
    exact ⟨bindingMismatch_eq_none_iff.mpr
      ⟨bound.artifactPolicyHash, bound.sourceCiphertextHash, bound.recipientFingerprint⟩, addressed⟩
  simp only [inspectCandidate, hashed, Except.mapError, Fallible.ok_bind]
  cases mismatch : bindingMismatch question secret policyHash manifest with
  | some reason =>
      refine .inr ⟨fun verifies => ?_, _, rfl, rfl⟩
      rw [mismatch] at facts
      cases (facts verifies).1
  | none =>
      simp only
      cases valid : (candidateAddress question secret policyHash manifest.secretId
          manifest.artifactGeneration).validate with
      | error failure =>
          refine .inr ⟨fun verifies => ?_, _, rfl, rfl⟩
          rw [validate_of_key (facts verifies).2] at valid
          cases valid
      | ok done =>
          simp only
          split
          · rename_i other
            refine .inr ⟨fun verifies => other ?_, _, rfl, rfl⟩
            rw [(facts verifies).2]
            rfl
          · rename_i same
            have addressed : (candidateAddress question secret policyHash manifest.secretId
                manifest.artifactGeneration).key T.cache = .ok record.key := by
              rw [ne_eq, not_not] at same
              cases computed : (candidateAddress question secret policyHash manifest.secretId
                  manifest.artifactGeneration).key T.cache with
              | error failure => simp [computed, Except.toOption] at same
              | ok key =>
                  rw [computed] at same
                  exact congrArg Except.ok (Option.some.inj same)
            simp only [verifyCandidate, trusts, Except.mapError, Fallible.ok_bind]
            cases accepted : verify T.keys envelope trusted secret.approval.threshold.toNat
                (candidateBinding question secret policyHash record manifest.secretId
                  manifest.artifactGeneration) with
            | error failure =>
                refine .inr ⟨fun verifies => ?_, _, rfl, rfl⟩
                obtain ⟨secret', envelope', policyHash', trusted', verified, stored', -, parsed',
                  hashed', -, trusts', accepted'⟩ := verifies
                rw [stored] at stored'
                cases stored'
                rw [parsed] at parsed'
                cases parsed'
                rw [hashed] at hashed'
                cases hashed'
                rw [trusts] at trusts'
                cases trusts'
                rw [accepted] at accepted'
                cases accepted'
            | ok verified =>
                exact .inl ⟨⟨secret, envelope, policyHash, trusted, verified, stored, phase, parsed,
                  hashed, addressed, trusts, accepted⟩, rfl⟩

/-- A turn either passes the record over or offers it as a candidate. -/
theorem inspectRecord_cases {question : Question} (answerable : Answerable T question.policy)
    (findings : Findings) (record : ArtifactRecord) :
    (∃ secretId generation, Verifies T question record secretId generation ∧
      inspectRecord T question findings record =
        select findings secretId (discovered record generation)) ∨
    (∀ secretId generation, ¬Verifies T question record secretId generation) ∧
      ∃ next, inspectRecord T question findings record = .ok next ∧
        next.selected = findings.selected := by
  cases parsed : T.envelopeFromJson record.envelope with
  | none =>
      refine .inr ⟨fun secretId generation verifies => ?_, findings, ?_, rfl⟩
      · obtain ⟨_, _, _, _, -, -, -, -, parsed', -⟩ := verifies.manifest
        rw [parsed] at parsed'
        cases parsed'
      · simp only [inspectRecord, parsed]
  | some envelope =>
      cases inspected : inspectUnverified T.keys envelope with
      | error failure =>
          refine .inr ⟨fun secretId generation verifies => ?_, rejectLegacy T question envelope
            findings, ?_, rejectLegacy_selected question envelope findings⟩
          · obtain ⟨_, _, _, _, -, -, -, -, parsed', inspected', -⟩ := verifies.manifest
            rw [parsed] at parsed'
            cases parsed'
            rw [inspected] at inspected'
            cases inspected'
          · simp only [inspectRecord, parsed, inspected]
      | ok manifest =>
          have named : ∀ {secretId generation}, Verifies T question record secretId generation →
              Verifies T question record manifest.secretId manifest.artifactGeneration := by
            intro secretId generation verifies
            obtain ⟨rfl, rfl⟩ := verifies.named parsed inspected
            exact verifies
          simp only [inspectRecord, parsed, inspected]
          cases stored : question.policy.secrets[manifest.secretId]? with
          | none =>
              refine .inr ⟨fun secretId generation verifies => ?_, findings, rfl, rfl⟩
              obtain ⟨_, _, _, _, stored', -⟩ := (named verifies).manifest
              rw [stored] at stored'
              cases stored'
          | some secret =>
              simp only
              split
              · rename_i other
                refine .inr ⟨fun secretId generation verifies => ?_, findings, rfl, rfl⟩
                obtain ⟨secret', envelope', _, _, stored', phase, -, -, parsed', inspected', bound⟩ :=
                  (named verifies).manifest
                rw [stored] at stored'
                cases stored'
                rw [parsed] at parsed'
                cases parsed'
                rw [inspected] at inspected'
                cases inspected'
                exact other.elim (fun different => different phase)
                  fun different => different bound.targetId
              · rename_i relevant
                rw [not_or, not_not] at relevant
                rcases inspectCandidate_cases answerable findings parsed inspected stored relevant.1
                  with offered | ⟨refused, passed⟩
                · exact .inl ⟨_, _, offered⟩
                · exact .inr ⟨fun secretId generation verifies => refused (named verifies), passed⟩

/-! ## The whole loop -/

/-- The newest of the verified candidates of a secret, among some records. -/
def IsNewest (T : Tools) (question : Question) (records : List ArtifactRecord) (secretId : Id)
    (found : DiscoveredActivationArtifact) : Prop :=
  ∃ record ∈ records, ∃ generation, Verifies T question record secretId generation ∧
    found = discovered record generation ∧
    ∀ other ∈ records, ∀ older, Verifies T question other secretId older → older ≤ generation

/-- Records that do not verify have no influence on what is newest. -/
theorem isNewest_congr {question : Question} {records more : List ArtifactRecord}
    (same : ∀ record, (∃ secretId generation, Verifies T question record secretId generation) →
      (record ∈ more ↔ record ∈ records)) (secretId : Id) (found : DiscoveredActivationArtifact) :
    IsNewest T question more secretId found ↔ IsNewest T question records secretId found := by
  constructor
  · rintro ⟨record, member, generation, verifies, rfl, newest⟩
    refine ⟨record, (same record ⟨_, _, verifies⟩).mp member, generation, verifies, rfl, ?_⟩
    intro other listed older verified
    exact newest other ((same other ⟨_, _, verified⟩).mpr listed) older verified
  · rintro ⟨record, member, generation, verifies, rfl, newest⟩
    refine ⟨record, (same record ⟨_, _, verifies⟩).mpr member, generation, verifies, rfl, ?_⟩
    intro other listed older verified
    exact newest other ((same other ⟨_, _, verified⟩).mp listed) older verified

theorem select_eq {findings : Findings} {secretId : Id} {candidate : DiscoveredActivationArtifact}
    (distinct : ∀ existing, findings.selected[secretId]? = some existing →
      existing.generation ≠ candidate.generation) :
    ∃ next, select findings secretId candidate = .ok next ∧
      (∀ other, other ≠ secretId → next.selected[other]? = findings.selected[other]?) ∧
      ((∃ existing, findings.selected[secretId]? = some existing ∧
          candidate.generation < existing.generation ∧
          next.selected[secretId]? = some existing) ∨
        (∀ existing, findings.selected[secretId]? = some existing →
          existing.generation < candidate.generation) ∧
          next.selected[secretId]? = some candidate) := by
  have inserted : ∀ other, other ≠ secretId →
      (findings.selected.insert secretId candidate)[other]? = findings.selected[other]? := by
    intro other different
    rw [Std.TreeMap.getElem?_insert, if_neg]
    intro same
    exact different (Std.LawfulEqOrd.eq_of_compare same).symm
  unfold select
  cases present : findings.selected[secretId]? with
  | none =>
      refine ⟨_, rfl, inserted, .inr ⟨?_, Std.TreeMap.getElem?_insert_self⟩⟩
      intro existing impossible
      cases impossible
  | some existing =>
      simp only [if_neg (distinct existing present)]
      split
      · rename_i newer
        exact ⟨findings, rfl, fun _ _ => rfl, .inl ⟨existing, rfl, newer, present⟩⟩
      · rename_i older
        refine ⟨_, rfl, inserted, .inr ⟨?_, Std.TreeMap.getElem?_insert_self⟩⟩
        intro found same
        cases same
        exact UInt64.lt_of_le_of_ne (UInt64.not_lt.mp older) (distinct existing present)

/-- What holds after some records: the selected artifacts are verified candidates, and no verified
candidate is newer. -/
structure Kept (T : Tools) (question : Question) (done : List ArtifactRecord)
    (selected : Std.TreeMap Id DiscoveredActivationArtifact) : Prop where
  sound : ∀ (secretId : Id) (found : DiscoveredActivationArtifact),
    selected[secretId]? = some found → ∃ record ∈ done, ∃ generation,
      Verifies T question record secretId generation ∧ found = discovered record generation
  newest : ∀ (secretId : Id) (generation : UInt64), ∀ record ∈ done,
    Verifies T question record secretId generation → ∃ found : DiscoveredActivationArtifact,
      selected[secretId]? = some found ∧ generation ≤ found.generation

/-- A record that is passed over changes nothing. -/
theorem Kept.skip {question : Question} {done : List ArtifactRecord} {record : ArtifactRecord}
    {selected : Std.TreeMap Id DiscoveredActivationArtifact}
    (kept : Kept T question done selected)
    (refused : ∀ secretId generation, ¬Verifies T question record secretId generation) :
    Kept T question (done ++ [record]) selected where
  sound secretId found present := by
    obtain ⟨other, member, rest⟩ := kept.sound secretId found present
    exact ⟨other, List.mem_append_left _ member, rest⟩
  newest secretId generation other member verifies := by
    rcases List.mem_append.mp member with early | last
    · exact kept.newest secretId generation other early verifies
    · cases List.mem_singleton.mp last
      exact absurd verifies (refused secretId generation)

/-- A candidate is compared with what was selected for its secret. -/
theorem Kept.select {question : Question} {done : List ArtifactRecord} {record : ArtifactRecord}
    {findings : Findings} (kept : Kept T question done findings.selected) {secretId : Id}
    {generation : UInt64} (verifies : Verifies T question record secretId generation)
    (fresh : record.key ∉ done.map ArtifactRecord.key) :
    ∃ next, select findings secretId (discovered record generation) = .ok next ∧
      Kept T question (done ++ [record]) next.selected := by
  have distinct : ∀ existing, findings.selected[secretId]? = some existing →
      existing.generation ≠ (discovered record generation).generation := by
    rintro existing present same
    obtain ⟨other, member, older, verified, rfl⟩ := kept.sound secretId existing present
    have same : older = generation := same
    subst same
    exact fresh (List.mem_map.mpr ⟨other, member, verified.key_eq verifies⟩)
  obtain ⟨next, selected, others, chosen⟩ := select_eq distinct
  refine ⟨next, selected, ?_, ?_⟩
  · intro other found present
    by_cases same : other = secretId
    · subst same
      rcases chosen with ⟨existing, before, -, stays⟩ | ⟨-, taken⟩
      · rw [stays] at present
        cases present
        obtain ⟨earlier, member, rest⟩ := kept.sound other found before
        exact ⟨earlier, List.mem_append_left _ member, rest⟩
      · rw [taken] at present
        cases present
        exact ⟨record, by simp, generation, verifies, rfl⟩
    · rw [others other same] at present
      obtain ⟨earlier, member, rest⟩ := kept.sound other found present
      exact ⟨earlier, List.mem_append_left _ member, rest⟩
  · intro other older candidate member verified
    by_cases same : other = secretId
    · subst same
      rcases List.mem_append.mp member with early | last
      · obtain ⟨existing, present, below⟩ := kept.newest other older candidate early verified
        rcases chosen with ⟨found, before, -, stays⟩ | ⟨older_than, taken⟩
        · rw [present] at before
          cases before
          exact ⟨existing, stays, below⟩
        · exact ⟨_, taken, UInt64.le_trans below (UInt64.le_of_lt (older_than existing present))⟩
      · cases List.mem_singleton.mp last
        obtain ⟨-, rfl⟩ := verified.unique verifies
        rcases chosen with ⟨found, -, newer, stays⟩ | ⟨-, taken⟩
        · exact ⟨found, stays, UInt64.le_of_lt newer⟩
        · exact ⟨_, taken, UInt64.le_refl _⟩
    · rw [others other same]
      rcases List.mem_append.mp member with early | last
      · exact kept.newest other older candidate early verified
      · cases List.mem_singleton.mp last
        exact absurd (verified.unique verifies).1 same

/-- The selected artifacts are the newest verified candidates. -/
theorem Kept.isNewest {question : Question} {records : List ArtifactRecord}
    {selected : Std.TreeMap Id DiscoveredActivationArtifact}
    (kept : Kept T question records selected)
    (distinct : (records.map ArtifactRecord.key).Nodup) (secretId : Id)
    (found : DiscoveredActivationArtifact) :
    selected[secretId]? = some found ↔ IsNewest T question records secretId found := by
  constructor
  · intro present
    obtain ⟨record, member, generation, verifies, rfl⟩ := kept.sound secretId found present
    refine ⟨record, member, generation, verifies, rfl, fun other listed older verified => ?_⟩
    obtain ⟨newest, present', below⟩ := kept.newest secretId older other listed verified
    rw [present] at present'
    cases present'
    exact below
  · rintro ⟨record, member, generation, verifies, rfl, newest⟩
    obtain ⟨found, present, below⟩ := kept.newest secretId generation record member verifies
    obtain ⟨other, listed, latest, verified, rfl⟩ := kept.sound secretId found present
    have same : latest = generation := UInt64.le_antisymm (newest other listed latest verified) below
    subst same
    have one : other = record :=
      List.inj_on_of_nodup_map distinct listed member (verified.key_eq verifies)
    rw [← one]
    exact present

theorem foldlM_inspectRecord (question : Question) (answerable : Answerable T question.policy)
    {records : List ArtifactRecord} (distinct : (records.map ArtifactRecord.key).Nodup) :
    ∃ findings, records.foldlM (inspectRecord T question) ⟨{}, {}⟩ = .ok findings ∧
      Kept T question records findings.selected := by
  refine Fallible.foldlM_split
    (fun done (findings : Findings) => Kept T question done findings.selected) ?_ ?_
  · refine ⟨fun secretId found present => ?_, fun secretId generation record member => ?_⟩
    · rw [Std.TreeMap.getElem?_emptyc] at present
      cases present
    · cases member
  · intro done record rest findings split kept
    have fresh : record.key ∉ done.map ArtifactRecord.key := by
      rw [split, List.map_append, List.map_cons, List.nodup_middle, List.nodup_cons,
        List.mem_append, not_or] at distinct
      exact distinct.1.1
    rcases inspectRecord_cases answerable findings record with
      ⟨secretId, generation, verifies, offered⟩ | ⟨refused, next, passed, same⟩
    · rw [offered]
      exact kept.select verifies fresh
    · exact ⟨next, passed, same ▸ kept.skip refused⟩

/-- The inspection of an answerable question returns. -/
theorem inspectActivationArtifacts_kept (question : Question)
    (answerable : Answerable T question.policy)
    (fingerprinted : recipientFingerprint T question.policy.recipient = some question.fingerprint)
    {records : List ArtifactRecord} (distinct : (records.map ArtifactRecord.key).Nodup) :
    ∃ inspection, inspectActivationArtifacts T (.ok records) question.policy question.phase
        question.now question.allowedClockSkew = .ok inspection ∧
      Kept T question records inspection.selected := by
  obtain ⟨findings, folded, kept⟩ := foldlM_inspectRecord question answerable distinct
  simp only [inspectActivationArtifacts, Except.mapError, Fallible.ok_bind, fingerprinted,
    requireFingerprint, folded]
  exact ⟨_, rfl, kept⟩

end NixSeal.Selection
