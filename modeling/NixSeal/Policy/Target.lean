import NixSeal.Lib.Ordered
import NixSeal.Manifest.Completeness
import NixSeal.Policy.Authorization

/-!
# Target policies are exact

For an accepted plan the projection to one target always exists, and it holds exactly the
authorized secrets and the templates made of them.
-/

namespace NixSeal
namespace Policy

section Projection

variable {E : Environment} {plan : Plan}

theorem foldlM_addApprovalSigner {signerIds : List Id}
    (known : ∀ id ∈ signerIds, (plan.identities[id]?.map Identity.kind) = some .signer) :
    ∃ signers, signerIds.foldlM (addApprovalSigner plan) {} = .ok signers ∧
      ∀ id, id ∈ signers ↔ id ∈ signerIds := by
  refine Fallible.foldlM_induction (fun done signers => ∀ id, id ∈ signers ↔ id ∈ done) ?_ ?_
  · simp
  · intro done signerId signers listed members
    obtain ⟨identity, stored, kind⟩ := Option.map_eq_some_iff.mp (known signerId listed)
    refine ⟨signers.insert signerId identity.publicValue, ?_, ?_⟩
    · simp [addApprovalSigner, stored, kind]
    · intro id
      rw [Std.TreeMap.mem_insert, Std.LawfulEqCmp.compare_eq_iff_eq, members, List.mem_append,
        List.mem_singleton, or_comm, @eq_comm _ signerId]

/-- An accepted explicit approval policy can be met. -/
theorem targetApprovalPolicy_explicit (accepted : AcceptedPlan E plan) {policyId : Id}
    (present : policyId ∈ plan.approvalPolicies) :
    ∃ approval, targetApprovalPolicy plan (some policyId) = .ok approval := by
  rw [Std.TreeMap.mem_iff_isSome_getElem?, Option.isSome_iff_exists] at present
  obtain ⟨policy, stored⟩ := present
  have approval := accepted.approvals policyId policy stored
  simp only [validateApproval, Fallible.guard_eq_ok, not_or, not_lt] at approval
  obtain ⟨⟨positive, distinct⟩, signers_known⟩ := approval
  have known : ∀ signer ∈ policy.signers,
      (plan.identities[signer]?.map Identity.kind) = some .signer := by
    intro signer listed
    have member : signer ∈ (Std.TreeSet.ofList policy.signers).toList := by
      rw [Std.TreeSet.mem_toList, Std.TreeSet.mem_ofList]
      simpa using listed
    have check := Fallible.forM_eq_ok.mp signers_known signer member
    rw [Fallible.guard_eq_ok, not_not] at check
    exact check.1
  obtain ⟨signers, collected, members⟩ := foldlM_addApprovalSigner known
  have enough : policy.threshold.toNat ≤ signers.size := by
    refine distinct.trans (size_le_of_subset ?_)
    intro signer member
    rw [Std.TreeSet.mem_ofList] at member
    exact (members signer).mpr (by simpa using member)
  refine ⟨⟨policy.threshold, signers⟩, ?_⟩
  simp [targetApprovalPolicy, approvalRule, stored, collected, positive, Nat.not_lt.mpr enough]

/-- Without an explicit policy one of the plan's signers suffices. -/
theorem targetApprovalPolicy_default {signerId : Id} {identity : Identity}
    (stored : plan.identities[signerId]? = some identity) (kind : identity.kind = .signer) :
    ∃ approval, targetApprovalPolicy plan none = .ok approval := by
  let signerIds := plan.identities.toList.filterMap fun entry =>
    if entry.2.kind = .signer then some entry.1 else none
  have signer_iff : ∀ signer, signer ∈ signerIds ↔
      (plan.identities[signer]?.map Identity.kind) = some .signer := by
    intro signer
    simp only [signerIds, List.mem_filterMap, Prod.exists,
      Std.TreeMap.mem_toList_iff_getElem?_eq_some, Option.map_eq_some_iff]
    constructor
    · rintro ⟨other, found, stored, selected⟩
      split at selected
      · rename_i kind
        cases selected
        exact ⟨found, stored, kind⟩
      · cases selected
    · rintro ⟨found, stored, kind⟩
      exact ⟨signer, found, stored, by simp [kind]⟩
  obtain ⟨signers, collected, members⟩ :=
    foldlM_addApprovalSigner fun signer listed => (signer_iff signer).mp listed
  have signer : signerId ∈ signers := by
    rw [members, signer_iff, stored]
    simp [kind]
  have nonempty : signers.size ≠ 0 := by
    intro empty
    have isEmpty : signers.isEmpty = true := by
      rw [Std.TreeMap.isEmpty_eq_size_eq_zero, empty]
      rfl
    exact Std.TreeMap.isEmpty_iff_forall_not_mem.mp isEmpty _ signer
  refine ⟨⟨1, signers⟩, ?_⟩
  change ((.ok (1, signerIds) : Except PolicyError (UInt16 × List Id)) >>= _) = _
  simp [collected, nonempty]

/-- The approval rule of an accepted secret can be met. -/
theorem targetApprovalPolicy_ok (accepted : AcceptedPlan E plan) {id : Id} {secret : Secret}
    (accepted_secret : AcceptedSecret plan id secret) :
    ∃ approval, targetApprovalPolicy plan secret.approvalPolicy = .ok approval := by
  have checked := accepted_secret.approval
  unfold validateSecretApproval at checked
  cases rule : secret.approvalPolicy with
  | some policyId =>
      simp only [rule, Fallible.guard_eq_ok, Bool.not_eq_true', Bool.not_eq_false] at checked
      exact targetApprovalPolicy_explicit accepted (Std.TreeMap.contains_iff_mem.mp checked.1)
  | none =>
      simp only [rule, Fallible.guard_eq_ok, Bool.not_eq_true', Bool.not_eq_false] at checked
      obtain ⟨entry, listed, kind⟩ := List.any_eq_true.mp checked.1
      exact targetApprovalPolicy_default (Std.TreeMap.mem_toList_iff_getElem?_eq_some.mp listed)
        (by simpa using kind)

theorem templatePhase_ok (accepted : AcceptedPlan E plan) {id : Id} {template : Template}
    (stored : plan.templates[id]? = some template) :
    ∃ phase, templatePhase plan id template = .ok phase := by
  have checked := accepted.templates id template stored
  simp only [validateTemplate, Fallible.guard_eq_ok] at checked
  obtain ⟨⟨⟩, -, checked⟩ := Fallible.bind_eq_ok.mp checked.2.2
  obtain ⟨phase, phased, -⟩ := Fallible.bind_eq_ok.mp checked
  exact ⟨phase, phased⟩

theorem foldlM_kept {α β : Type} {entries : Std.TreeMap Id α}
    {step : Std.TreeMap Id β → Id × α → Except PolicyError (Std.TreeMap Id β)}
    (keep : Id × α → Prop)
    (kept : ∀ state entry, entry ∈ entries.toList → keep entry →
      ∃ value, step state entry = .ok (state.insert entry.1 value))
    (skipped : ∀ state entry, ¬keep entry → step state entry = .ok state) :
    ∃ result : Std.TreeMap Id β, entries.toList.foldlM step {} = Except.ok result ∧
      ∀ id, id ∈ result ↔ ∃ value, entries[id]? = some value ∧ keep (id, value) := by
  simp only [← Std.TreeMap.mem_toList_iff_getElem?_eq_some]
  refine Fallible.foldlM_induction
    (fun done result => ∀ id, id ∈ result ↔ ∃ value, (id, value) ∈ done ∧ keep (id, value)) ?_ ?_
  · simp
  · rintro done ⟨id, value⟩ state listed members
    have extended : ∀ other, (∃ found, (other, found) ∈ done ++ [(id, value)] ∧
        keep (other, found)) ↔ (∃ found, (other, found) ∈ done ∧ keep (other, found)) ∨
          (other = id ∧ keep (id, value)) := by
      intro other
      simp only [List.mem_append, List.mem_singleton, Prod.mk.injEq, or_and_right, exists_or]
      refine or_congr Iff.rfl ?_
      constructor
      · rintro ⟨found, ⟨rfl, rfl⟩, keeps⟩
        exact ⟨rfl, keeps⟩
      · rintro ⟨rfl, keeps⟩
        exact ⟨value, ⟨rfl, rfl⟩, keeps⟩
    by_cases keeps : keep (id, value)
    · obtain ⟨inserted, stepped⟩ := kept state (id, value) listed keeps
      refine ⟨_, stepped, ?_⟩
      intro other
      rw [extended, Std.TreeMap.mem_insert, Std.LawfulEqCmp.compare_eq_iff_eq, members,
        @eq_comm _ id, and_iff_left keeps, or_comm]
    · refine ⟨state, skipped state (id, value) keeps, ?_⟩
      intro other
      rw [extended, members]
      simp [keeps]

/-- The secrets of a target policy are the ones the target consumes. -/
theorem foldlM_addTargetSecret (accepted : AcceptedPlan E plan) (targetId : Id) :
    ∃ secrets, plan.secrets.toList.foldlM (addTargetSecret plan targetId) {} = .ok secrets ∧
      ∀ id, id ∈ secrets ↔ ∃ secret, plan.secrets[id]? = some secret ∧
        targetIsConsumer plan secret targetId = true := by
  refine foldlM_kept (fun entry : Id × Secret => targetIsConsumer plan entry.2 targetId = true) ?_ ?_
  · rintro state ⟨id, secret⟩ listed consumer
    have stored := Std.TreeMap.mem_toList_iff_getElem?_eq_some.mp listed
    obtain ⟨approval, approved⟩ := targetApprovalPolicy_ok accepted (accepted.secret stored)
    exact ⟨_, by rw [addTargetSecret, if_pos consumer, approved, Fallible.ok_bind]⟩
  · intro state entry consumer
    rw [addTargetSecret, if_neg consumer]

theorem foldlM_addTargetTemplate (accepted : AcceptedPlan E plan)
    (secrets : Std.TreeMap Id TargetSecretPolicy) :
    ∃ templates, plan.templates.toList.foldlM (addTargetTemplate plan secrets) {} =
        .ok templates ∧
      ∀ id, id ∈ templates ↔ ∃ template, plan.templates[id]? = some template ∧
        (template.placeholders.toList.all fun placeholder =>
          secrets.contains placeholder.2.secret) = true := by
  refine foldlM_kept (fun entry : Id × Template => (entry.2.placeholders.toList.all fun placeholder =>
    secrets.contains placeholder.2.secret) = true) ?_ ?_
  · rintro state ⟨id, template⟩ listed complete
    have stored := Std.TreeMap.mem_toList_iff_getElem?_eq_some.mp listed
    obtain ⟨phase, phased⟩ := templatePhase_ok accepted stored
    exact ⟨_, by rw [addTargetTemplate, if_pos complete, phased, Fallible.ok_bind]⟩
  · intro state entry incomplete
    rw [addTargetTemplate, if_neg incomplete]

theorem AcceptedSecret.not_authorized {id : Id} {secret : Secret}
    (accepted : AcceptedSecret plan id secret) (repositoryOnly : secret.repositoryOnly = true)
    (targetId : Id) (target : Target) : ¬Authorized plan secret targetId target := by
  have checked := accepted.repositoryOnly
  simp only [validateRepositoryOnlySecret, repositoryOnly, Fallible.guard_eq_ok] at checked
  have unused : secret.consumers = [] ∧ secret.selectors = {} := by
    simpa using checked.1
  rintro (reached | ⟨selective, -⟩)
  · obtain ⟨root, listed, -⟩ := reached
    rw [unused.1] at listed
    cases listed
  · exact selective unused.2

/-- The policy of a target of an accepted plan exists. -/
theorem targetPolicy_ok (accepted : validate E plan = .ok ())
    (encodes : (E.planToJcs plan).isSome = true) {targetId : Id} {target : Target}
    (found : plan.targets[targetId]? = some target) :
    ∃ policy, targetPolicy E plan targetId = .ok policy ∧
      (∀ secretId, secretId ∈ policy.secrets ↔
        ∃ secret, plan.secrets[secretId]? = some secret ∧
          targetIsConsumer plan secret targetId = true) ∧
      ∀ templateId, templateId ∈ policy.templates ↔
        ∃ template, plan.templates[templateId]? = some template ∧
          ∀ (name : String) (placeholder : TemplatePlaceholder),
            template.placeholders[name]? = some placeholder →
              placeholder.secret ∈ policy.secrets := by
  have facts := acceptedPlan_of_validate accepted
  obtain ⟨identity, stored_identity, -⟩ := facts.target_identity found
  obtain ⟨secrets, collected, secret_members⟩ := foldlM_addTargetSecret facts targetId
  obtain ⟨templates, assembled, template_members⟩ := foldlM_addTargetTemplate facts secrets
  obtain ⟨bytes, encoded⟩ := Option.isSome_iff_exists.mp encodes
  let policy : TargetPolicy :=
    { schema := targetPolicySchema
      planHash := E.deriveKeyHex "nix-seal plan hash v1" bytes
      targetId
      targetKind := target.kind
      system := target.system
      username := target.username
      recipientIdentity := target.identity
      recipient := identity.publicValue
      serviceActions := target.serviceActions
      secrets
      templates }
  refine ⟨policy, ?_, secret_members, ?_⟩
  · rw [targetPolicy, accepted, Fallible.ok_bind]
    simp only [found, stored_identity, collected, assembled, Fallible.ok_bind, planHash, encoded,
      policy]
  · intro templateId
    rw [template_members]
    refine exists_congr fun template => and_congr_right fun _ => ?_
    simp [List.all_eq_true, Std.TreeMap.mem_toList_iff_getElem?_eq_some, policy]

/-- The consumers of an accepted secret are selected, and a target is one of them exactly when it
is authorized. -/
theorem AcceptedPlan.selects (facts : AcceptedPlan E plan) {secretId targetId : Id}
    {secret : Secret} {target : Target} (stored : plan.secrets[secretId]? = some secret)
    (found : plan.targets[targetId]? = some target) :
    ∃ selected, selectedConsumerTargets plan secret = .ok selected ∧
      (targetIsConsumer plan secret targetId = true ↔ targetId ∈ selected) ∧
      (targetId ∈ selected ↔ Authorized plan secret targetId target) := by
  have known : targetId ∈ plan.targets := by
    rw [Std.TreeMap.mem_iff_isSome_getElem?, found]
    rfl
  have no_group := facts.target_not_group known
  obtain ⟨administrators, selected, checks⟩ := (facts.secret stored).checkedRecipients
  exact ⟨selected, checks.selection, targetIsConsumer_iff checks.selection found no_group,
    mem_selectedConsumerTargets checks.selection found no_group⟩

/-- The policy of a target of an accepted plan exists; it holds exactly the secrets authorized for
the target and the templates all of whose secrets it holds. -/
theorem targetPolicy_exact (accepted : validate E plan = .ok ())
    (encodes : (E.planToJcs plan).isSome = true) {targetId : Id} {target : Target}
    (found : plan.targets[targetId]? = some target) :
    ∃ policy, targetPolicy E plan targetId = .ok policy ∧
      (∀ secretId, secretId ∈ policy.secrets ↔
        ∃ secret, plan.secrets[secretId]? = some secret ∧
          Authorized plan secret targetId target) ∧
      (∀ (secretId : Id) (secret : Secret), plan.secrets[secretId]? = some secret →
        (targetIsConsumer plan secret targetId = true ↔
          ∃ selected, selectedConsumerTargets plan secret = .ok selected ∧
            targetId ∈ selected)) ∧
      (∀ templateId, templateId ∈ policy.templates ↔
        ∃ template, plan.templates[templateId]? = some template ∧
          ∀ (name : String) (placeholder : TemplatePlaceholder),
            template.placeholders[name]? = some placeholder →
              placeholder.secret ∈ policy.secrets) ∧
      (∀ (secretId : Id) (secret : Secret), plan.secrets[secretId]? = some secret →
        secret.repositoryOnly = true → secretId ∉ policy.secrets) := by
  have facts := acceptedPlan_of_validate accepted
  obtain ⟨policy, projected, secret_members, template_members⟩ :=
    targetPolicy_ok accepted encodes found
  have authorized_iff : ∀ secretId, secretId ∈ policy.secrets ↔
      ∃ secret, plan.secrets[secretId]? = some secret ∧
        Authorized plan secret targetId target := by
    intro secretId
    rw [secret_members]
    refine exists_congr fun secret => and_congr_right fun stored => ?_
    obtain ⟨selected, -, consumer, authorized⟩ := facts.selects stored found
    rw [consumer, authorized]
  refine ⟨policy, projected, authorized_iff, ?_, template_members, ?_⟩
  · intro secretId secret stored
    obtain ⟨selected, selection, consumer, -⟩ := facts.selects stored found
    rw [consumer, selection]
    simp
  · intro secretId secret stored repositoryOnly member
    obtain ⟨other, stored_other, authorized⟩ := (authorized_iff secretId).mp member
    rw [stored] at stored_other
    cases stored_other
    exact (facts.secret stored).not_authorized repositoryOnly targetId target authorized

/-- A loop over a collection that inserts a value for some entries reads like a lookup. -/
theorem getElem?_of_foldlM {α β : Type} {entries : Std.TreeMap Id α} {result : Std.TreeMap Id β}
    {step : Std.TreeMap Id β → Id × α → Except PolicyError (Std.TreeMap Id β)}
    (value : Id × α → Option β)
    (turn : ∀ state entry next, step state entry = .ok next →
      next = (value entry).elim state (state.insert entry.1))
    (folded : entries.toList.foldlM step {} = Except.ok result) (id : Id) :
    result[id]? = entries[id]?.bind fun found => value (id, found) := by
  have looked : ∀ id projected, result[id]? = some projected ↔
      ∃ found, (id, found) ∈ entries.toList ∧ value (id, found) = some projected := by
    suffices both : (∀ entry ∈ entries.toList, entry ∈ entries.toList) ∧
        ∀ id projected, result[id]? = some projected ↔
          ∃ found, (id, found) ∈ entries.toList ∧ value (id, found) = some projected by
      exact both.2
    refine Fallible.foldlM_eq_ok_induction folded
      (fun done (state : Std.TreeMap Id β) => (∀ entry ∈ done, entry ∈ entries.toList) ∧
        ∀ id projected, state[id]? = some projected ↔
          ∃ found, (id, found) ∈ done ∧ value (id, found) = some projected) (by simp) ?_
    rintro done ⟨key, stored⟩ state next listed stepped ⟨known, looked⟩
    have extended : ∀ entry ∈ done ++ [(key, stored)], entry ∈ entries.toList := by
      intro entry member
      rcases List.mem_append.mp member with member | same
      · exact known entry member
      · exact List.mem_singleton.mp same ▸ listed
    have single : ∀ found, (key, found) ∈ done ++ [(key, stored)] ↔ found = stored := by
      intro found
      constructor
      · intro member
        have other := Std.TreeMap.mem_toList_iff_getElem?_eq_some.mp (extended _ member)
        rw [Std.TreeMap.mem_toList_iff_getElem?_eq_some.mp listed] at other
        exact (Option.some.inj other).symm
      · rintro rfl
        exact List.mem_append_right _ (List.mem_singleton_self _)
    refine ⟨extended, fun id projected => ?_⟩
    rw [turn state (key, stored) next stepped]
    by_cases same : key = id
    · subst same
      simp only [single, exists_eq_left]
      cases inserted : value (key, stored) with
      | some fresh => simp
      | none =>
          rw [Option.elim_none, looked]
          refine iff_of_false ?_ nofun
          rintro ⟨found, member, projected⟩
          rw [(single found).mp (List.mem_append_left _ member), inserted] at projected
          cases projected
    · have before : ∀ found, (id, found) ∈ done ++ [(key, stored)] ↔ (id, found) ∈ done := by
        intro found
        simp [Ne.symm same]
      simp only [before]
      cases value (key, stored) with
      | none => exact looked id projected
      | some fresh => rw [Option.elim_some, Ordered.getElem?_insert_eq, if_neg same, looked]
  refine Option.ext fun projected => ?_
  rw [looked, Option.bind_eq_some_iff]
  simp only [Std.TreeMap.mem_toList_iff_getElem?_eq_some]

/-- What the policy of a target holds for a secret. -/
def projectedSecret (plan : Plan) (targetId : Id) (secret : Secret) : Option TargetSecretPolicy :=
  if targetIsConsumer plan secret targetId then
    (targetApprovalPolicy plan secret.approvalPolicy).toOption.map fun approval =>
      { source := secret.source
        sourceCiphertextHash := secret.sourceCiphertextHash
        delivery := secret.delivery
        phase := secret.phase
        runtime := secret.runtimeForTarget targetId
        approval }
  else none

/-- What the policy of a target holds for a template when some secrets are authorized. -/
def projectedTemplate (plan : Plan) (secrets : Std.TreeMap Id TargetSecretPolicy) (id : Id)
    (template : Template) : Option TargetTemplatePolicy :=
  if template.placeholders.toList.all fun placeholder =>
      secrets.contains placeholder.2.secret then
    (templatePhase plan id template).toOption.map fun phase =>
      { source := template.source
        phase
        placeholders := template.placeholders
        runtime := template.runtime }
  else none

/-- The policy of a target, entry by entry. -/
structure Projection (E : Environment) (plan : Plan) (targetId : Id) (policy : TargetPolicy) :
    Prop where
  accepted : validate E plan = .ok ()
  target : ∃ (target : Target) (identity : Identity), plan.targets[targetId]? = some target ∧
    plan.identities[target.identity]? = some identity ∧ policy.targetId = targetId ∧
    policy.targetKind = target.kind ∧ policy.system = target.system ∧
    policy.username = target.username ∧ policy.recipientIdentity = target.identity ∧
    policy.recipient = identity.publicValue ∧ policy.serviceActions = target.serviceActions
  secrets : ∀ id : Id, policy.secrets[id]? =
    plan.secrets[id]?.bind fun secret => projectedSecret plan targetId secret
  templates : ∀ id : Id, policy.templates[id]? =
    plan.templates[id]?.bind fun template => projectedTemplate plan policy.secrets id template

theorem projection_of_targetPolicy {targetId : Id} {policy : TargetPolicy}
    (projected : targetPolicy E plan targetId = .ok policy) : Projection E plan targetId policy := by
  obtain ⟨⟨⟩, accepted, projected⟩ := Fallible.bind_eq_ok.mp projected
  cases found : plan.targets[targetId]? with
  | none => simp [found] at projected
  | some target =>
      simp only [found] at projected
      cases named : plan.identities[target.identity]? with
      | none => simp [named] at projected
      | some identity =>
          simp only [named] at projected
          obtain ⟨secrets, collected, projected⟩ := Fallible.bind_eq_ok.mp projected
          obtain ⟨templates, assembled, projected⟩ := Fallible.bind_eq_ok.mp projected
          obtain ⟨hash, -, projected⟩ := Fallible.bind_eq_ok.mp projected
          cases projected
          refine
            { accepted
              target := ⟨target, identity, found, named, rfl, rfl, rfl, rfl, rfl, rfl, rfl⟩
              secrets := getElem?_of_foldlM
                (fun entry => projectedSecret plan targetId entry.2) ?_ collected
              templates := getElem?_of_foldlM
                (fun entry => projectedTemplate plan secrets entry.1 entry.2) ?_ assembled }
          · intro state entry next stepped
            simp only [addTargetSecret] at stepped
            simp only [projectedSecret]
            split at stepped
            · obtain ⟨approval, approved, returned⟩ := Fallible.bind_eq_ok.mp stepped
              cases returned
              simp [*, Except.toOption]
            · cases stepped
              simp [*]
          · intro state entry next stepped
            simp only [addTargetTemplate] at stepped
            simp only [projectedTemplate]
            split at stepped
            · obtain ⟨phase, phased, returned⟩ := Fallible.bind_eq_ok.mp stepped
              cases returned
              simp [*, Except.toOption]
            · cases stepped
              simp [*]

end Projection

namespace Sample

/-- Public recipient of the sample administrator. -/
def adminRecipient : String := "age1ql3z7hjy54pw3hyww5ayyfg7zqgvc7w3j2elw8zmrj2kg5sfn9aqmcac8p"

/-- Public recipient of the sample target. -/
def hostRecipient : String := "age1lggyhqrw2nlhcxprm67z43rta597azn8gknawjehu9d9dl0jq3yqqvfafg"

/-- Canonical JSON of the sample plan, with quotes and braces spelled by `spell`. -/
def planPattern : String :=
  "('approvalPolicies':(),'backends':(),'generators':(),'groups':('fleet':('members':['host']" ++
    ")),'identities':('admin':('kind':'administrator','public':'age1ql3z7hjy54pw3hyww5ayyfg7zqg" ++
    "vc7w3j2elw8zmrj2kg5sfn9aqmcac8p'),'host-key':('kind':'target','public':'age1lggyhqrw2nlhcx" ++
    "prm67z43rta597azn8gknawjehu9d9dl0jq3yqqvfafg'),'signer':('kind':'signer','public':'nix-sea" ++
    "l-ed25519-v1:11qYAYKxCrfVS/7TyWQHOg7hcvPapiMlrwIaaPcHURo=')),'schema':'nix-seal.plan.v2','" ++
    "secrets':('token':('administrators':[],'approvalPolicy':null,'consumers':['fleet'],'delive" ++
    "ry':'rekeyed','lifecycle':('classification':null,'contact':null,'createdAt':null,'expiresA" ++
    "t':null,'incidentReference':null,'purpose':null,'rotateAfterDays':null,'rotatedAt':null),'" ++
    "phase':'activation','repositoryOnly':false,'runtime':('group':'root','mode':'0400','owner'" ++
    ":'root','reloadUnits':[],'restartUnits':[]),'runtimeOverrides':(),'selectors':('configurat" ++
    "ions':[],'environments':[],'groups':[],'kinds':[],'systems':[],'tags':[],'targets':[],'use" ++
    "rnames':[]),'source':'token.age','sourceCiphertextHash':'a5a5a5a5a5a5a5a5a5a5a5a5a5a5a5a5a" ++
    "5a5a5a5a5a5a5a5a5a5a5a5a5a5a5a5')),'targets':('host':('configuration':null,'environment':n" ++
    "ull,'identity':'host-key','kind':'nixOs','system':'x86_64-linux','tags':[],'username':null" ++
    ")),'templates':())"

/-- Quotes and braces of the plan text. -/
def spell (char : Char) : Char :=
  if char = '\'' then '"' else if char = '(' then '\x7b' else if char = ')' then '\x7d' else char

/-- An environment that knows the two sample recipients and the sample plan. -/
def environment : Environment where
  keys := Manifest.Sample.primitives
  x25519Recipient := fun text =>
    if text = adminRecipient ∨ text = hostRecipient then some text else none
  pluginRecipient := fun _ => none
  sshRecipient := fun _ => none
  timestamp := fun _ => none
  debugText := fun text => "\"" ++ text ++ "\""
  planToJcs := fun _ => some (utf8 (String.ofList (planPattern.toList.map spell)))
  deriveKeyHex := fun context bytes => Manifest.Sample.hexText (utf8 context ++ bytes)

/-- Identifier of the sample target. -/
def host : Id := Manifest.Sample.host

/-- The sample target. -/
def hostTarget : Target where
  kind := .nixOs
  system := "x86_64-linux"
  identity := ⟨"host-key", by decide⟩

/-- Identifier of the sample administrator. -/
def admin : Id := ⟨"admin", by decide⟩

/-- Identifier of the sample group. -/
def fleet : Id := ⟨"fleet", by decide⟩

/-- Identifier of the sample signer. -/
def signer : Id := ⟨"signer", by decide⟩

/-- Identifier of the sample secret. -/
def token : Id := Manifest.Sample.token

/-- The sample secret, for the fleet. -/
def tokenSecret : Secret where
  source := "token.age"
  sourceCiphertextHash := Manifest.Sample.digest
  consumers := [fleet]

/-- The sample identities. -/
def identities : List (Id × Identity) :=
  [(admin, ⟨.administrator, adminRecipient⟩),
    (⟨"host-key", by decide⟩, ⟨.target, hostRecipient⟩),
    (signer, ⟨.signer, Manifest.encodePublicKey Manifest.Sample.nativeKey⟩)]

/-- A host in a fleet, and one secret for the fleet. -/
def plan : Plan where
  identities := Std.TreeMap.ofList identities
  groups := Std.TreeMap.ofList [(fleet, Group.mk [host])]
  targets := Std.TreeMap.ofList [(host, hostTarget)]
  secrets := Std.TreeMap.ofList [(token, tokenSecret)]

theorem admitted_encodePublicKey (key : Manifest.KeyBytes) :
    (Manifest.encodePublicKey key).toList.isEmpty = false ∧
      ¬(Manifest.encodePublicKey key).utf8ByteSize > 16 * 1024 := by
  refine ⟨by simp [Manifest.encodePublicKey, Manifest.publicKeyTag], ?_⟩
  have octets := Manifest.utf8ByteSize_le (Manifest.encodePublicKey key)
  have body := Base64.length_encodeChars_le key.toList
  have tag : Manifest.publicKeyTag.length = 20 := by decide
  simp only [Manifest.encodePublicKey, String.length_append, Base64.encode, String.length_ofList,
    Vector.length_toList, tag] at octets body ⊢
  omega

theorem admitted_adminRecipient :
    adminRecipient.toList.isEmpty = false ∧ ¬adminRecipient.utf8ByteSize > 16 * 1024 := by
  decide

theorem admitted_hostRecipient :
    hostRecipient.toList.isEmpty = false ∧ ¬hostRecipient.utf8ByteSize > 16 * 1024 := by
  decide

theorem toList_identities : (Std.TreeMap.ofList identities).toList = identities :=
  rfl

section Identities

variable {E : Environment} {candidate : Plan}

theorem validateIdentityKey_of_verifier {kind : IdentityKind} {text : String}
    {publicKey : Manifest.VerificationKey} (verifier : IdentityKind.isRecipient kind = false)
    (parsed : Manifest.parsePublicKey E.keys text = .ok publicKey) (id : Id) :
    validateIdentityKey E id ⟨kind, text⟩ = .ok () := by
  simp [validateIdentityKey, verifier, Manifest.validatePublicKey, parsed, Except.isOk,
    Except.toBool]

theorem registerSigner_of_fresh {signers : Std.TreeMap String Id} {id : Id} {kind : IdentityKind}
    {text keyId : String} (verifier : IdentityKind.isVerifier kind = true)
    (known : Manifest.publicKeyId E.keys text = .ok keyId) (fresh : signers[keyId]? = none) :
    registerSigner E signers (id, ⟨kind, text⟩) = .ok (signers.insert keyId id) := by
  simp [registerSigner, verifier, known, fresh]

theorem validateIdentityKey_identities
    (recipients : E.x25519Recipient = environment.x25519Recipient)
    (point : E.keys.isPoint Manifest.Sample.nativeKey = true) :
    ∀ entry ∈ identities, validateIdentityKey E entry.1 entry.2 = .ok () := by
  have recipient : ∀ text, text = adminRecipient ∨ text = hostRecipient →
      normalizeRecipient E text = some text := by
    intro text known
    simp only [normalizeRecipient, normalizeRecipientInner, recipients, environment, if_pos known]
  intro entry member
  simp only [identities, List.mem_cons, List.not_mem_nil, or_false] at member
  rcases member with rfl | rfl | rfl
  · simp [validateIdentityKey, recipient, IdentityKind.isVerifier]
  · simp [validateIdentityKey, recipient, IdentityKind.isVerifier]
  · exact validateIdentityKey_of_verifier rfl (Manifest.parsePublicKey_encodePublicKey point) _

theorem registers_identities (point : E.keys.isPoint Manifest.Sample.nativeKey = true) :
    ∃ registered, identities.foldlM (registerSigner E) {} = .ok registered := by
  have known : Manifest.publicKeyId E.keys (Manifest.encodePublicKey Manifest.Sample.nativeKey) =
      .ok (Manifest.nativeKeyId E.keys Manifest.Sample.nativeKey) := by
    rw [Manifest.publicKeyId, Manifest.parsePublicKey_encodePublicKey point]
    rfl
  have administrator : registerSigner E {} (admin, ⟨.administrator, adminRecipient⟩) = .ok {} := rfl
  have target : registerSigner E {} (⟨"host-key", by decide⟩, ⟨.target, hostRecipient⟩) =
      .ok {} := rfl
  rw [identities, List.foldlM_cons, administrator, Fallible.ok_bind, List.foldlM_cons, target,
    Fallible.ok_bind, List.foldlM_cons, registerSigner_of_fresh rfl known (by simp), Fallible.ok_bind]
  exact ⟨_, rfl⟩

/-- A plan with the identities of the sample plan is accepted when its other parts are. -/
theorem validate_of_identities (listed : candidate.identities = Std.TreeMap.ofList identities)
    (recipients : E.x25519Recipient = environment.x25519Recipient)
    (point : E.keys.isPoint Manifest.Sample.nativeKey = true)
    (counted : ([candidate.identities.size, candidate.groups.size, candidate.targets.size,
      candidate.secrets.size, candidate.generators.size, candidate.templates.size,
      candidate.approvalPolicies.size, candidate.backends.size].any fun count => 10000 < count) =
        false)
    (rest : (do
      ensureSchema candidate
      validateAuthorizationNamespace candidate
      validateGroupGraph candidate
      candidate.targets.toList.forM fun entry => validateTargetIdentity candidate entry.1 entry.2
      validateSecrets E candidate
      validateTemplates E candidate
      candidate.approvalPolicies.toList.forM fun entry => validateApproval candidate entry.1 entry.2
      validateGeneratorGraph candidate) = .ok ()) :
    validate E candidate = .ok () := by
  have bounded : (identities.any fun entry =>
      entry.2.publicValue.toList.isEmpty || entry.2.publicValue.utf8ByteSize > 16 * 1024) =
        false := by
    rw [List.any_eq_false]
    intro entry member
    have admitted : entry.2.publicValue.toList.isEmpty = false ∧
        ¬entry.2.publicValue.utf8ByteSize > 16 * 1024 := by
      simp only [identities, List.mem_cons, List.not_mem_nil, or_false] at member
      rcases member with rfl | rfl | rfl
      · exact admitted_adminRecipient
      · exact admitted_hostRecipient
      · exact admitted_encodePublicKey Manifest.Sample.nativeKey
    simp [admitted]
  have keyed : (identities.forM fun entry => validateIdentityKey E entry.1 entry.2) = .ok () :=
    Fallible.forM_eq_ok.mpr (validateIdentityKey_identities recipients point)
  obtain ⟨registered, registers⟩ := registers_identities point
  obtain ⟨_, schema, rest⟩ := Fallible.bind_eq_ok.mp rest
  obtain ⟨_, namespaces, rest⟩ := Fallible.bind_eq_ok.mp rest
  obtain ⟨_, groups, rest⟩ := Fallible.bind_eq_ok.mp rest
  rw [validate, schema, Fallible.ok_bind, counted, if_neg Bool.false_ne_true, namespaces,
    Fallible.ok_bind, groups, Fallible.ok_bind, listed, toList_identities, bounded,
    if_neg Bool.false_ne_true, keyed, Fallible.ok_bind, registers, Fallible.ok_bind]
  exact rest

end Identities

theorem validate_plan : validate environment plan = .ok () :=
  validate_of_identities rfl rfl rfl (by decide) (by decide +kernel)

end Sample

theorem targetPolicy_exact_fleet_host :
    ∃ policy, targetPolicy Sample.environment Sample.plan Sample.host = .ok policy ∧
      Sample.token ∈ policy.secrets := by
  have found : Sample.plan.targets[Sample.host]? = some Sample.hostTarget := by decide
  have group : Sample.plan.groups[Sample.fleet]? = some ⟨[Sample.host]⟩ := by decide
  obtain ⟨policy, projected, secrets, -⟩ := targetPolicy_exact Sample.validate_plan rfl found
  refine ⟨policy, projected, (secrets Sample.token).mpr ⟨Sample.tokenSecret, rfl, Or.inl ?_⟩⟩
  exact ⟨Sample.fleet, List.mem_singleton_self _,
    Relation.ReflTransGen.single ⟨⟨[Sample.host]⟩, group, List.mem_singleton_self _⟩⟩

end Policy
end NixSeal
