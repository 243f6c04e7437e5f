import NixSeal.Lib.Fallible
import NixSeal.Policy.Validate

/-!
# Accepted plans

What `validate` establishes, read off once: every check held for every object of the plan.
-/

namespace NixSeal
namespace Policy

/-- Every check of `validate` held. -/
structure AcceptedPlan (E : Environment) (plan : Plan) : Prop where
  /-- The schema is current. -/
  schema : plan.schema = planSchema
  /-- Identities, groups and targets share no identifier. -/
  namespaces : validateAuthorizationNamespace plan = .ok ()
  /-- The group graph is accepted. -/
  groups : validateGroupGraph plan = .ok ()
  /-- Every identity has a usable public value. -/
  identities : ∀ id identity, plan.identities[id]? = some identity →
    validateIdentityKey E id identity = .ok ()
  /-- Every target has a target identity. -/
  targets : ∀ id target, plan.targets[id]? = some target →
    validateTargetIdentity plan id target = .ok ()
  /-- Every secret is accepted after the sources before it. -/
  secrets : ∀ id secret, plan.secrets[id]? = some secret →
    ∃ before after, validateSecret E plan before (id, secret) = .ok after
  /-- Every template is accepted. -/
  templates : ∀ id template, plan.templates[id]? = some template →
    validateTemplate E plan id template = .ok ()
  /-- Every approval policy is accepted. -/
  approvals : ∀ id policy, plan.approvalPolicies[id]? = some policy →
    validateApproval plan id policy = .ok ()
  /-- The generator graph is accepted. -/
  generators : validateGeneratorGraph plan = .ok ()

theorem forM_entries {α : Type} {entries : Std.TreeMap Id α}
    {check : Id × α → Except PolicyError Unit} (checked : entries.toList.forM check = .ok ())
    {id : Id} {value : α} (stored : entries[id]? = some value) : check (id, value) = .ok () :=
  Fallible.forM_eq_ok.mp checked (id, value)
    (Std.TreeMap.mem_toList_iff_getElem?_eq_some.mpr stored)

theorem acceptedPlan_of_validate {E : Environment} {plan : Plan}
    (accepted : validate E plan = .ok ()) : AcceptedPlan E plan := by
  unfold validate at accepted
  obtain ⟨⟨⟩, schema, accepted⟩ := Fallible.bind_eq_ok.mp accepted
  rw [Fallible.guard_eq_ok] at accepted
  obtain ⟨⟨⟩, namespaces, accepted⟩ := Fallible.bind_eq_ok.mp accepted.2
  obtain ⟨⟨⟩, groups, accepted⟩ := Fallible.bind_eq_ok.mp accepted
  rw [Fallible.guard_eq_ok] at accepted
  obtain ⟨⟨⟩, identities, accepted⟩ := Fallible.bind_eq_ok.mp accepted.2
  obtain ⟨signers, -, accepted⟩ := Fallible.bind_eq_ok.mp accepted
  obtain ⟨⟨⟩, targets, accepted⟩ := Fallible.bind_eq_ok.mp accepted
  obtain ⟨⟨⟩, secrets, accepted⟩ := Fallible.bind_eq_ok.mp accepted
  obtain ⟨⟨⟩, templates, accepted⟩ := Fallible.bind_eq_ok.mp accepted
  obtain ⟨⟨⟩, approvals, generators⟩ := Fallible.bind_eq_ok.mp accepted
  obtain ⟨sources, secrets, -⟩ := Fallible.bind_eq_ok.mp secrets
  exact
    { schema := by
        by_contra other
        simp [ensureSchema, other] at schema
      namespaces := namespaces
      groups := groups
      identities := fun id identity stored => forM_entries identities stored
      targets := fun id target stored => forM_entries targets stored
      secrets := fun id secret stored =>
        Fallible.step_of_foldlM_eq_ok secrets
          (Std.TreeMap.mem_toList_iff_getElem?_eq_some.mpr stored)
      templates := fun id template stored => forM_entries templates stored
      approvals := fun id policy stored => forM_entries approvals stored
      generators := generators }

theorem not_mem_of_checkDisjoint {α β : Type} {leftName rightName : String}
    {left : Std.TreeMap Id α} {right : Std.TreeMap Id β}
    (disjoint : checkDisjoint leftName left rightName right = .ok ()) {id : Id}
    (member : id ∈ left) : id ∉ right := by
  unfold checkDisjoint at disjoint
  split at disjoint
  · cases disjoint
  · rename_i none_shared
    have unshared := List.find?_eq_none.mp none_shared id (Std.TreeMap.mem_keys.mpr member)
    simpa using unshared

/-- The checks of `validate_secrets` on one secret that do not depend on other secrets. -/
structure AcceptedSecret (plan : Plan) (id : Id) (secret : Secret) : Prop where
  /-- Selectors are accepted. -/
  selectors : validateTargetSelectors plan id secret = .ok ()
  /-- A repository-only secret has no consumers. -/
  repositoryOnly : validateRepositoryOnlySecret id secret = .ok ()
  /-- The recipient checks hold. -/
  recipients : validateSecretRecipients plan id secret = .ok ()
  /-- The approval check holds. -/
  approval : validateSecretApproval plan id secret = .ok ()

/-- What the checks of `validate_generator_graph` establish about one generator. -/
structure AcceptedGenerator (plan : Plan) (generator : Generator) : Prop where
  /-- Every secret output is a secret of the plan. -/
  outputs : ∀ output ∈ generator.outputs, output ∈ plan.secrets
  /-- The counts are bounded. -/
  counts : generator.outputs.length ≤ 10000 ∧ generator.publicOutputs.length ≤ 10000
  /-- An output may hold at least one byte. -/
  capacity : 1 ≤ generator.maxOutputBytes.toNat

theorem outputs_of_validateGeneratorOutputs {plan : Plan} {generatorId : Id}
    {generator : Generator} {sources : Std.TreeSet String} {declared final : DeclaredOutputs}
    (checked : validateGeneratorOutputs plan generatorId generator sources declared = .ok final) :
    ∀ output ∈ generator.outputs, output ∈ plan.secrets := by
  intro output member
  obtain ⟨_, scanned, -⟩ := Fallible.bind_eq_ok.mp checked
  obtain ⟨before, after, stepped⟩ := Fallible.step_of_foldlM_eq_ok scanned member
  rw [Fallible.guard_eq_ok] at stepped
  simp only [Bool.or_eq_true, not_or, Bool.not_eq_true', Bool.not_eq_false] at stepped
  exact Std.TreeMap.contains_iff_mem.mp stepped.1.1.1

theorem capacity_of_validateGeneratorExecution {generatorId : Id} {generator : Generator}
    (checked : validateGeneratorExecution generatorId generator = .ok ()) :
    1 ≤ generator.maxOutputBytes.toNat := by
  unfold validateGeneratorExecution at checked
  rw [Fallible.guard_eq_ok, Fallible.guard_eq_ok, Fallible.guard_eq_ok] at checked
  have constrained := checked.2.2.1
  simp only [Bool.or_eq_true, not_or] at constrained
  have positive : generator.maxOutputBytes ≠ 0 := by
    intro zero
    simp [zero] at constrained
  rw [ne_eq, ← UInt64.toNat_inj] at positive
  exact Nat.one_le_iff_ne_zero.mpr positive

namespace AcceptedPlan

variable {E : Environment} {plan : Plan}

theorem generator (accepted : AcceptedPlan E plan) {id : Id} {generator : Generator}
    (stored : plan.generators[id]? = some generator) : AcceptedGenerator plan generator := by
  obtain ⟨scan, scanned, -⟩ := Fallible.bind_eq_ok.mp accepted.generators
  obtain ⟨before, after, checked⟩ := Fallible.step_of_foldlM_eq_ok scanned
    (Std.TreeMap.mem_toList_iff_getElem?_eq_some.mpr stored)
  simp only [validateGenerator, Fallible.guard_eq_ok] at checked
  obtain ⟨counts, checked⟩ := checked
  obtain ⟨⟨⟩, execution, checked⟩ := Fallible.bind_eq_ok.mp checked
  obtain ⟨prompts, -, checked⟩ := Fallible.bind_eq_ok.mp checked
  rw [Fallible.guard_eq_ok] at checked
  obtain ⟨outputs, declared, -⟩ := Fallible.bind_eq_ok.mp checked.2
  simp only [Bool.or_eq_true, decide_eq_true_eq, not_or, not_lt] at counts
  exact ⟨outputs_of_validateGeneratorOutputs declared, ⟨counts.1.2, counts.2⟩,
    capacity_of_validateGeneratorExecution execution⟩

theorem secret (accepted : AcceptedPlan E plan) {id : Id} {secret : Secret}
    (stored : plan.secrets[id]? = some secret) : AcceptedSecret plan id secret := by
  obtain ⟨before, after, checked⟩ := accepted.secrets id secret stored
  simp only [validateSecret, Fallible.guard_eq_ok] at checked
  obtain ⟨⟨⟩, -, checked⟩ := Fallible.bind_eq_ok.mp checked.2.2.2
  obtain ⟨⟨⟩, -, checked⟩ := Fallible.bind_eq_ok.mp checked
  obtain ⟨⟨⟩, selectors, checked⟩ := Fallible.bind_eq_ok.mp checked
  obtain ⟨⟨⟩, repositoryOnly, checked⟩ := Fallible.bind_eq_ok.mp checked
  obtain ⟨⟨⟩, recipients, checked⟩ := Fallible.bind_eq_ok.mp checked
  obtain ⟨⟨⟩, approval, -⟩ := Fallible.bind_eq_ok.mp checked
  exact ⟨selectors, repositoryOnly, recipients, approval⟩

theorem target_not_group (accepted : AcceptedPlan E plan) {id : Id} (target : id ∈ plan.targets) :
    id ∉ plan.groups := by
  obtain ⟨⟨⟩, -, checked⟩ := Fallible.bind_eq_ok.mp accepted.namespaces
  obtain ⟨⟨⟩, -, disjoint⟩ := Fallible.bind_eq_ok.mp checked
  exact fun group => not_mem_of_checkDisjoint disjoint group target

theorem target_identity (accepted : AcceptedPlan E plan) {id : Id} {target : Target}
    (stored : plan.targets[id]? = some target) :
    ∃ identity, plan.identities[target.identity]? = some identity ∧ identity.kind = .target := by
  obtain ⟨⟨⟩, -, checked⟩ := Fallible.bind_eq_ok.mp (accepted.targets id target stored)
  split at checked
  · cases checked
  · rename_i identity found
    rw [Fallible.guard_eq_ok, not_not] at checked
    exact ⟨identity, found, checked.1⟩

end AcceptedPlan
end Policy
end NixSeal
