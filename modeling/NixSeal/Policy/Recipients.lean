import NixSeal.Policy.Target

/-!
# Canonical recipients are exact

For an accepted plan the recipients of every secret exist, are never empty, and are exactly its
administrators, the recovery identities and, for direct delivery, its authorized targets.
-/

namespace NixSeal
namespace Policy

section Recipients

variable {E : Environment} {plan : Plan}

/-- A recipient map lists exactly some identities, each with its public value. -/
def Publishes (plan : Plan) (recipients : Std.TreeMap Id String) (members : Id → Prop) : Prop :=
  ∀ (id : Id) (value : String), recipients[id]? = some value ↔
    members id ∧ ∃ identity, plan.identities[id]? = some identity ∧ identity.publicValue = value

theorem Publishes.insert {recipients : Std.TreeMap Id String} {members : Id → Prop}
    (publishes : Publishes plan recipients members) {id : Id} {identity : Identity}
    (stored : plan.identities[id]? = some identity) :
    Publishes plan (recipients.insert id identity.publicValue)
      fun other => members other ∨ other = id := by
  intro other value
  rw [Std.TreeMap.getElem?_insert]
  by_cases same : id = other
  · subst same
    simp [stored]
  · have different : compare id other ≠ .eq := fun equal =>
      same (Std.LawfulEqCmp.eq_of_compare equal)
    rw [if_neg different, publishes]
    have back : ¬other = id := fun equal => same equal.symm
    simp [back]

theorem Publishes.congr {recipients : Std.TreeMap Id String} {members others : Id → Prop}
    (publishes : Publishes plan recipients members) (same : ∀ id, members id ↔ others id) :
    Publishes plan recipients others := by
  intro id value
  rw [publishes, same]

theorem Publishes.empty (plan : Plan) : Publishes plan {} fun _ => False := by
  intro id value
  simp

theorem foldlM_addAdministrator {administrators : List Id}
    (administer : ∀ id ∈ administrators, Administers plan id) :
    ∃ recipients, administrators.foldlM (addAdministrator plan) {} = .ok recipients ∧
      Publishes plan recipients fun id => id ∈ administrators := by
  refine Fallible.foldlM_induction
    (fun done recipients => Publishes plan recipients fun id => id ∈ done) ?_ ?_
  · exact (Publishes.empty plan).congr (by simp)
  · intro done id recipients listed publishes
    obtain ⟨identity, stored, kind⟩ := administer id listed
    refine ⟨recipients.insert id identity.publicValue, ?_, ?_⟩
    · simp [addAdministrator, stored, kind]
    · exact (publishes.insert stored).congr (by simp)

/-- An identity is a recovery identity. -/
def Recovers (plan : Plan) (id : Id) : Prop :=
  ∃ identity, plan.identities[id]? = some identity ∧ identity.kind = .recovery

theorem foldl_addRecovery {recipients : Std.TreeMap Id String} {members : Id → Prop}
    (publishes : Publishes plan recipients members) :
    Publishes plan (plan.identities.toList.foldl addRecovery recipients)
      fun id => members id ∨ Recovers plan id := by
  have general : ∀ (entries : List (Id × Identity)) (recipients : Std.TreeMap Id String)
      (members : Id → Prop), (∀ entry ∈ entries, plan.identities[entry.1]? = some entry.2) →
        Publishes plan recipients members →
          Publishes plan (entries.foldl addRecovery recipients) fun id =>
            members id ∨ ∃ entry ∈ entries, entry.1 = id ∧ entry.2.kind = .recovery := by
    intro entries
    induction entries with
    | nil =>
        intro recipients members _ publishes
        exact publishes.congr (by simp)
    | cons entry rest ih =>
        intro recipients members stored publishes
        rw [List.foldl_cons]
        have stored_rest : ∀ other ∈ rest, plan.identities[other.1]? = some other.2 :=
          fun other member => stored other (by simp [member])
        by_cases recovery : entry.2.kind = .recovery
        · rw [addRecovery, if_pos recovery]
          refine (ih _ _ stored_rest (publishes.insert (stored entry (by simp)))).congr ?_
          intro id
          simp [recovery, or_assoc, @eq_comm _ id]
        · rw [addRecovery, if_neg recovery]
          refine (ih _ _ stored_rest publishes).congr ?_
          intro id
          simp [recovery]
  refine (general plan.identities.toList recipients members ?_ publishes).congr ?_
  · intro entry listed
    exact Std.TreeMap.mem_toList_iff_getElem?_eq_some.mp listed
  · intro id
    simp only [Prod.exists, Std.TreeMap.mem_toList_iff_getElem?_eq_some, Recovers]
    refine or_congr Iff.rfl ?_
    constructor
    · rintro ⟨other, identity, stored, rfl, kind⟩
      exact ⟨identity, stored, kind⟩
    · rintro ⟨identity, stored, kind⟩
      exact ⟨id, identity, stored, rfl, kind⟩

theorem foldlM_addDirectConsumer (facts : AcceptedPlan E plan) {targets : List Id}
    (known : ∀ id ∈ targets, id ∈ plan.targets) {recipients : Std.TreeMap Id String}
    {members : Id → Prop} (publishes : Publishes plan recipients members) :
    ∃ extended, targets.foldlM (addDirectConsumer plan) recipients = .ok extended ∧
      Publishes plan extended fun id => members id ∨
        ∃ (targetId : Id) (target : Target), targetId ∈ targets ∧
          plan.targets[targetId]? = some target ∧ target.identity = id := by
  refine Fallible.foldlM_induction (fun done extended => Publishes plan extended fun id =>
    members id ∨ ∃ (targetId : Id) (target : Target), targetId ∈ done ∧
      plan.targets[targetId]? = some target ∧ target.identity = id) ?_ ?_
  · exact publishes.congr (by simp)
  · intro done targetId extended listed publishes
    have present := known targetId listed
    rw [Std.TreeMap.mem_iff_isSome_getElem?, Option.isSome_iff_exists] at present
    obtain ⟨target, found⟩ := present
    obtain ⟨identity, stored, -⟩ := facts.target_identity found
    refine ⟨extended.insert target.identity identity.publicValue, ?_, ?_⟩
    · simp [addDirectConsumer, found, stored]
    · refine (publishes.insert stored).congr ?_
      intro id
      rw [or_assoc]
      refine or_congr Iff.rfl ?_
      constructor
      · rintro (⟨other, found_target, member, stored_target, same⟩ | rfl)
        · exact ⟨other, found_target, by simp [member], stored_target, same⟩
        · exact ⟨targetId, target, by simp, found, rfl⟩
      · rintro ⟨other, found_target, member, stored_target, same⟩
        rcases List.mem_append.mp member with old | new
        · exact Or.inl ⟨other, found_target, old, stored_target, same⟩
        · rw [List.mem_singleton] at new
          subst new
          rw [found] at stored_target
          cases stored_target
          exact Or.inr same.symm

/-- The identities that administer a secret: the leaves of its listed administrators, or every
administrator and recovery identity when none is listed. -/
def AdministersSecret (plan : Plan) (secret : Secret) (id : Id) : Prop :=
  if secret.administrators = [] then Administers plan id
  else Reaches plan secret.administrators id ∧ id ∉ plan.groups

theorem administratorIds_ok {secret : Secret} {administrators selected : Std.TreeSet Id}
    (checks : CheckedRecipients plan secret administrators selected) :
    ∃ ids, administratorIds plan secret = .ok ids ∧ (∀ id ∈ ids, Administers plan id) ∧
      ∀ id, id ∈ ids ↔ AdministersSecret plan secret id := by
  unfold administratorIds AdministersSecret
  by_cases unlisted : secret.administrators = []
  · rw [if_pos (by simp [unlisted])]
    have members : ∀ id, id ∈ (plan.identities.toList.filterMap fun entry =>
        if IdentityKind.isAdministrator entry.2.kind then some entry.1 else none) ↔
          Administers plan id := by
      intro id
      simp only [List.mem_filterMap, Prod.exists, Std.TreeMap.mem_toList_iff_getElem?_eq_some,
        Administers]
      constructor
      · rintro ⟨other, identity, stored, selected⟩
        split at selected
        · rename_i kind
          cases selected
          exact ⟨identity, stored, kind⟩
        · cases selected
      · rintro ⟨identity, stored, kind⟩
        exact ⟨id, identity, stored, by simp [kind]⟩
    exact ⟨_, rfl, fun id member => (members id).mp member, by simpa [unlisted] using members⟩
  · rw [if_neg (by simpa using unlisted), checks.expanded]
    refine ⟨administrators.toList, rfl, ?_, ?_⟩
    · intro id member
      exact checks.compatible id (Std.TreeSet.mem_toList.mp member)
    · intro id
      rw [if_neg unlisted, Std.TreeSet.mem_toList, mem_expandGroupLeaves checks.expanded]

/-- The recipients of a secret of an accepted plan. -/
def IsRecipient (E : Environment) (plan : Plan) (secretId : Id) (secret : Secret) (id : Id) :
    Prop :=
  AdministersSecret plan secret id ∨ Recovers plan id ∨
    (secret.delivery = .direct ∧
      ∃ (targetId : Id) (target : Target) (policy : TargetPolicy),
        plan.targets[targetId]? = some target ∧ targetPolicy E plan targetId = .ok policy ∧
          secretId ∈ policy.secrets ∧ target.identity = id)

/-- The direct consumers are the targets whose policy holds the secret. -/
theorem direct_iff (accepted : validate E plan = .ok ())
    (encodes : (E.planToJcs plan).isSome = true) {secretId : Id} {secret : Secret}
    (stored : plan.secrets[secretId]? = some secret) {selected : Std.TreeSet Id}
    (selection : selectedConsumerTargets plan secret = .ok selected) (id : Id) :
    (∃ (targetId : Id) (target : Target), targetId ∈ selected.toList ∧
      plan.targets[targetId]? = some target ∧ target.identity = id) ↔
        ∃ (targetId : Id) (target : Target) (policy : TargetPolicy),
          plan.targets[targetId]? = some target ∧ targetPolicy E plan targetId = .ok policy ∧
            secretId ∈ policy.secrets ∧ target.identity = id := by
  refine exists_congr fun targetId => exists_congr fun target => ?_
  constructor
  · rintro ⟨member, found, same⟩
    obtain ⟨policy, projected, members, -⟩ := targetPolicy_ok accepted encodes found
    obtain ⟨others, other_selection, consumer, -⟩ :=
      (acceptedPlan_of_validate accepted).selects stored found
    rw [selection] at other_selection
    cases other_selection
    refine ⟨policy, found, projected, (members secretId).mpr ⟨secret, stored, ?_⟩, same⟩
    exact consumer.mpr (Std.TreeSet.mem_toList.mp member)
  · rintro ⟨policy, found, projected, authorized, same⟩
    obtain ⟨other, other_projected, members, -⟩ := targetPolicy_ok accepted encodes found
    rw [projected] at other_projected
    cases other_projected
    obtain ⟨other_secret, stored_other, consumes⟩ := (members secretId).mp authorized
    rw [stored] at stored_other
    cases stored_other
    obtain ⟨others, other_selection, consumer, -⟩ :=
      (acceptedPlan_of_validate accepted).selects stored found
    rw [selection] at other_selection
    cases other_selection
    exact ⟨Std.TreeSet.mem_toList.mpr (consumer.mp consumes), found, same⟩

theorem AdministersSecret.administers (accepted : validate E plan = .ok ()) {secretId : Id}
    {secret : Secret} (stored : plan.secrets[secretId]? = some secret) {id : Id}
    (administers : AdministersSecret plan secret id) : Administers plan id := by
  obtain ⟨administrators, selected, checks⟩ :=
    ((acceptedPlan_of_validate accepted).secret stored).checkedRecipients
  obtain ⟨ids, -, administer, administrator_iff⟩ := administratorIds_ok checks
  exact administer id ((administrator_iff id).mpr administers)

/-- Every recipient is an identity of the plan. -/
theorem IsRecipient.identity (accepted : validate E plan = .ok ()) {secretId : Id}
    {secret : Secret} (stored : plan.secrets[secretId]? = some secret) {id : Id}
    (recipient : IsRecipient E plan secretId secret id) :
    ∃ identity, plan.identities[id]? = some identity := by
  rcases recipient with administers | ⟨identity, stored_identity, -⟩ |
    ⟨-, targetId, target, policy, found, -, -, rfl⟩
  · obtain ⟨identity, stored_identity, -⟩ := administers.administers accepted stored
    exact ⟨identity, stored_identity⟩
  · exact ⟨identity, stored_identity⟩
  · obtain ⟨identity, stored_identity, -⟩ :=
      (acceptedPlan_of_validate accepted).target_identity found
    exact ⟨identity, stored_identity⟩

/-- Under rekeyed delivery every recipient is an administrator or recovery identity. -/
theorem IsRecipient.administers (accepted : validate E plan = .ok ()) {secretId : Id}
    {secret : Secret} (stored : plan.secrets[secretId]? = some secret)
    (rekeyed : secret.delivery = .rekeyed) {id : Id}
    (recipient : IsRecipient E plan secretId secret id) : Administers plan id := by
  rcases recipient with administers | ⟨identity, stored_identity, kind⟩ | ⟨direct, -⟩
  · exact administers.administers accepted stored
  · exact ⟨identity, stored_identity, by rw [kind]; rfl⟩
  · rw [rekeyed] at direct
    cases direct

/-- An accepted secret has a recipient. -/
theorem exists_isRecipient (accepted : validate E plan = .ok ())
    (encodes : (E.planToJcs plan).isSome = true) {secretId : Id} {secret : Secret}
    (stored : plan.secrets[secretId]? = some secret) {administrators selected : Std.TreeSet Id}
    (checks : CheckedRecipients plan secret administrators selected) :
    ∃ id identity, IsRecipient E plan secretId secret id ∧
      plan.identities[id]? = some identity := by
  rcases checks.nonempty with ⟨id, leaf⟩ | ⟨unlisted, id, identity, stored_identity, kind⟩ |
    ⟨direct, targetId, member⟩
  · obtain ⟨identity, stored_identity, -⟩ := checks.compatible id leaf
    refine ⟨id, identity, Or.inl ?_, stored_identity⟩
    have reached := (mem_expandGroupLeaves checks.expanded id).mp leaf
    have listed : secret.administrators ≠ [] := by
      intro unlisted
      obtain ⟨root, root_listed, -⟩ := reached.1
      rw [unlisted] at root_listed
      cases root_listed
    rw [AdministersSecret, if_neg listed]
    exact reached
  · refine ⟨id, identity, Or.inl ?_, stored_identity⟩
    rw [AdministersSecret, if_pos unlisted]
    exact ⟨identity, stored_identity, kind⟩
  · have present := checks.targets targetId member
    rw [Std.TreeMap.mem_iff_isSome_getElem?, Option.isSome_iff_exists] at present
    obtain ⟨target, found⟩ := present
    obtain ⟨identity, stored_identity, -⟩ :=
      (acceptedPlan_of_validate accepted).target_identity found
    refine ⟨target.identity, identity, Or.inr (Or.inr ⟨direct, ?_⟩), stored_identity⟩
    rw [← direct_iff accepted encodes stored checks.selection]
    exact ⟨targetId, target, Std.TreeSet.mem_toList.mpr member, found, rfl⟩

/-- The recipients of an accepted secret can be collected. -/
theorem secretRecipients_ok (accepted : validate E plan = .ok ())
    (encodes : (E.planToJcs plan).isSome = true) {secretId : Id} {secret : Secret}
    (stored : plan.secrets[secretId]? = some secret) :
    ∃ result, secretRecipients E plan secretId = .ok result ∧
      Publishes plan result.recipients (IsRecipient E plan secretId secret) ∧
      result.recipients.isEmpty = false := by
  have facts := acceptedPlan_of_validate accepted
  obtain ⟨administrators, selected, checks⟩ := (facts.secret stored).checkedRecipients
  obtain ⟨ids, listed, administer, administrator_iff⟩ := administratorIds_ok checks
  obtain ⟨initial, added, publishes_initial⟩ := foldlM_addAdministrator administer
  have publishes_recovery := foldl_addRecovery publishes_initial
  obtain ⟨final, collected, publishes⟩ : ∃ final,
      addDirectConsumers plan secret (plan.identities.toList.foldl addRecovery initial) =
          .ok final ∧
        Publishes plan final (IsRecipient E plan secretId secret) := by
    unfold addDirectConsumers
    by_cases direct : secret.delivery = .direct
    · obtain ⟨final, extended, publishes⟩ :=
        foldlM_addDirectConsumer facts
          (fun id member => checks.targets id (Std.TreeSet.mem_toList.mp member))
          publishes_recovery
      refine ⟨final, by rw [if_pos direct, checks.selection]; exact extended, ?_⟩
      refine publishes.congr fun id => ?_
      rw [direct_iff accepted encodes stored checks.selection, administrator_iff, IsRecipient,
        or_assoc, and_iff_right direct]
    · refine ⟨_, by rw [if_neg direct], publishes_recovery.congr fun id => ?_⟩
      simp [IsRecipient, administrator_iff, direct]
  have nonempty : final.isEmpty = false := by
    obtain ⟨id, identity, recipient, stored_identity⟩ :=
      exists_isRecipient accepted encodes stored checks
    have present := (publishes id identity.publicValue).mpr
      ⟨recipient, identity, stored_identity, rfl⟩
    apply Std.TreeMap.isEmpty_eq_false_iff_exists_mem.mpr
    refine ⟨id, ?_⟩
    rw [Std.TreeMap.mem_iff_isSome_getElem?, present]
    rfl
  obtain ⟨bytes, encoded⟩ := Option.isSome_iff_exists.mp encodes
  refine ⟨⟨secretRecipientsSchema, E.deriveKeyHex "nix-seal plan hash v1" bytes, secretId,
    secret.delivery, final⟩, ?_, publishes, nonempty⟩
  rw [secretRecipients, accepted, Fallible.ok_bind]
  simp [stored, listed, added, collected, nonempty, planHash, encoded]

/-- Every secret of an accepted plan has a nonempty recipient set, which is exactly its
administrators, the recovery identities and, for direct delivery, the identities of the targets
authorized for it, each with its public value; rekeyed delivery has no other recipients. -/
theorem secretRecipients_exact (accepted : validate E plan = .ok ())
    (encodes : (E.planToJcs plan).isSome = true) {secretId : Id} {secret : Secret}
    (stored : plan.secrets[secretId]? = some secret) :
    ∃ result, secretRecipients E plan secretId = .ok result ∧
      result.recipients.isEmpty = false ∧
      (∀ id, id ∈ result.recipients ↔ IsRecipient E plan secretId secret id) ∧
      (∀ (id : Id) (value : String), result.recipients[id]? = some value →
        ∃ identity, plan.identities[id]? = some identity ∧ identity.publicValue = value) ∧
      (secret.delivery = .rekeyed → ∀ id ∈ result.recipients,
        ∃ identity, plan.identities[id]? = some identity ∧
          identity.kind ≠ .target ∧ identity.kind ≠ .signer ∧ identity.kind ≠ .authorizer) := by
  obtain ⟨result, collected, publishes, nonempty⟩ := secretRecipients_ok accepted encodes stored
  have members : ∀ id, id ∈ result.recipients ↔ IsRecipient E plan secretId secret id := by
    intro id
    rw [Std.TreeMap.mem_iff_isSome_getElem?, Option.isSome_iff_exists]
    constructor
    · rintro ⟨value, present⟩
      exact ((publishes id value).mp present).1
    · intro recipient
      obtain ⟨identity, stored_identity⟩ := recipient.identity accepted stored
      exact ⟨identity.publicValue,
        (publishes id _).mpr ⟨recipient, identity, stored_identity, rfl⟩⟩
  refine ⟨result, collected, nonempty, members, ?_, ?_⟩
  · intro id value present
    exact ((publishes id value).mp present).2
  · intro rekeyed id member
    obtain ⟨identity, stored_identity, kind⟩ :=
      ((members id).mp member).administers accepted stored rekeyed
    refine ⟨identity, stored_identity, ?_⟩
    cases identity_kind : identity.kind <;> simp [identity_kind, IdentityKind.isAdministrator] at kind ⊢

end Recipients

theorem secretRecipients_exact_fleet_token :
    ∃ result, secretRecipients Sample.environment Sample.plan Sample.token = .ok result ∧
      result.recipients.isEmpty = false ∧ Sample.admin ∈ result.recipients := by
  have stored : Sample.plan.secrets[Sample.token]? = some Sample.tokenSecret := rfl
  have unlisted : Sample.tokenSecret.administrators = [] := rfl
  have administrator : Sample.plan.identities[Sample.admin]? =
      some ⟨.administrator, Sample.adminRecipient⟩ := by
    decide
  obtain ⟨result, collected, nonempty, members, -⟩ :=
    secretRecipients_exact Sample.validate_plan rfl stored
  refine ⟨result, collected, nonempty, (members Sample.admin).mpr (Or.inl ?_)⟩
  rw [AdministersSecret, if_pos unlisted]
  exact ⟨_, administrator, rfl⟩

end Policy
end NixSeal
