import NixSeal.Lib.Ordered
import NixSeal.Manifest.Completeness
import NixSeal.Selection.Activation

/-!
# Approval policies can be met

For a secret of an accepted plan the keys of all signers are trusted together and the threshold is
one they can reach.  Signing by as many of them yields an accepted envelope exactly when the
threshold does not exceed the signatures that an envelope can hold.
-/

namespace NixSeal.Selection

open Manifest Policy

/-- A working key of a signer of an approval policy. -/
def SignsFor (P : Primitives) (signers : Std.TreeMap Id String) (key : ApprovalSigningKey P)
    (id : Id) : Prop :=
  ∃ text publicKey, signers[id]? = some text ∧ parsePublicKey P text = .ok publicKey ∧
    Usable key publicKey.native

/-- A loop that trusts encoded keys ends with all of them. -/
theorem trusts_of_foldlM {P : Primitives} {texts : List String} {trusted result : TrustedKeys P}
    (folded : texts.foldlM trustEncoded trusted = .ok result) :
    result.len = trusted.len + texts.length ∧
      (∀ text ∈ texts, ∃ key, parsePublicKey P text = .ok key ∧ key.keyId P ∈ result.keys) := by
  refine Fallible.foldlM_eq_ok_induction folded (fun done (result : TrustedKeys P) =>
    result.len = trusted.len + done.length ∧
      ∀ text ∈ done, ∃ key, parsePublicKey P text = .ok key ∧ key.keyId P ∈ result.keys) ?_ ?_
  · simp
  · intro done text before next _ stepped ⟨counted, held⟩
    obtain ⟨⟨extended, keyId⟩, inserted, returned⟩ := Fallible.bind_eq_ok.mp stepped
    cases returned
    obtain ⟨key, parsed, fresh, rfl, -⟩ := insertEncoded_eq_ok.mp inserted
    refine ⟨?_, ?_⟩
    · have grown : (before.add key).len = before.len + 1 := by
        simp [TrustedKeys.len, TrustedKeys.add, Std.TreeMap.size_insert, fresh]
      rw [grown, counted, List.length_append, List.length_singleton, Nat.add_assoc]
    · intro other member
      rcases List.mem_append.mp member with early | last
      · obtain ⟨earlier, parsed', present⟩ := held other early
        exact ⟨earlier, parsed', Std.TreeMap.mem_insert.mpr (.inr present)⟩
      · cases List.mem_singleton.mp last
        exact ⟨key, parsed, Std.TreeMap.mem_insert_self⟩

section Quorum

variable {E : Policy.Environment} {plan : Plan} {approval : TargetApprovalPolicy}

/-- The threshold of a projected approval policy is positive and at most the number of signers. -/
theorem threshold_of_targetApprovalPolicy {rule : Option Id}
    (approved : targetApprovalPolicy plan rule = .ok approval) :
    1 ≤ approval.threshold.toNat ∧ approval.threshold.toNat ≤ approval.signers.size := by
  obtain ⟨⟨threshold, signerIds⟩, -, approved⟩ := Fallible.bind_eq_ok.mp approved
  obtain ⟨signers, -, approved⟩ := Fallible.bind_eq_ok.mp approved
  rw [Fallible.guard_eq_ok] at approved
  cases approved.2
  simp only [not_or, not_lt, ← UInt16.toNat_inj] at approved
  exact ⟨Nat.one_le_iff_ne_zero.mpr approved.1.1, approved.1.2⟩

theorem exists_materials (accepted : validate E plan = .ok ()) {rule : Option Id}
    (collisionFree : CollisionFree E.keys)
    (approved : targetApprovalPolicy plan rule = .ok approval) {trusted : TrustedKeys E.keys}
    (trusts : trustSigners E.keys approval.signers = .ok trusted)
    {keys : List (ApprovalSigningKey E.keys)} {ids : List Id}
    (sign : List.Forall₂ (SignsFor E.keys approval.signers) keys ids) (distinct : ids.Nodup) :
    ∃ materials, List.Forall₂ Usable keys materials ∧ materials.Nodup ∧
      ∀ material ∈ materials, material ∈ trusted.materials := by
  obtain ⟨registered, folded⟩ := registered_of_validate accepted
  let belongs (id : Id) (material : KeyBytes) : Prop :=
    registered[nativeKeyId E.keys material]? = some id ∧ material ∈ trusted.materials
  have paired : ∃ materials, List.Forall₂ Usable keys materials ∧
      List.Forall₂ belongs ids materials := by
    clear distinct
    induction sign with
    | nil => exact ⟨[], .nil, .nil⟩
    | @cons key id keys ids first rest ih =>
        obtain ⟨text, publicKey, signer, parsed, usable⟩ := first
        obtain ⟨materials, usables, belong⟩ := ih
        refine ⟨publicKey.native :: materials, .cons usable usables, .cons ⟨?_, ?_⟩ belong⟩
        · obtain ⟨identity, found, kind, spelled⟩ :=
            signer_of_targetApprovalPolicy approved id text signer
          obtain ⟨keyId, identified, bound⟩ := registered_key folded (id, identity)
            (Std.TreeMap.mem_toList_iff_getElem?_eq_some.mpr found)
            (by simp [kind, IdentityKind.isVerifier])
          obtain ⟨key', parsed', returned⟩ := Fallible.bind_eq_ok.mp identified
          rw [spelled, parsed] at parsed'
          cases parsed'
          cases returned
          exact bound
        · obtain ⟨-, held⟩ := trusts_of_foldlM trusts
          obtain ⟨key', parsed', present⟩ := held text
            (List.mem_map.mpr ⟨_, Std.TreeMap.mem_toList_iff_getElem?_eq_some.mpr signer, rfl⟩)
          rw [parsed] at parsed'
          cases parsed'
          exact (TrustedKeys.mem_materials_iff collisionFree trusted _).mpr present
  obtain ⟨materials, usable, belong⟩ := paired
  refine ⟨materials, usable, ?_, ?_⟩
  · refine Correspondence.nodup_partners belong distinct ?_
    rintro left right material ⟨first, -⟩ ⟨second, -⟩
    rw [first] at second
    exact Option.some.inj second
  · intro material member
    obtain ⟨id, -, -, known⟩ := Correspondence.exists_item belong member
    exact known

/-- The signers of a secret of an accepted plan are trusted together, and as many of them as the
threshold asks for approve a manifest exactly when their signatures fit into one envelope and the
manifest into one payload. -/
theorem approvals_satisfiable_iff (collisionFree : CollisionFree E.keys) {targetId secretId : Id}
    {policy : TargetPolicy} (projected : targetPolicy E plan targetId = .ok policy)
    {secret : TargetSecretPolicy} (stored : policy.secrets[secretId]? = some secret) :
    ∃ trusted, trustSigners E.keys secret.approval.signers = .ok trusted ∧
      trusted.len = secret.approval.signers.size ∧
      1 ≤ secret.approval.threshold.toNat ∧ secret.approval.threshold.toNat ≤ trusted.len ∧
      ∀ (manifest : TargetManifest) (payload : Bytes) (ids : List Id)
        (first : ApprovalSigningKey E.keys) (others : List (ApprovalSigningKey E.keys)),
        validateManifestStructure manifest = .ok () →
        E.keys.manifestToJcs manifest = some payload →
        E.keys.manifestFromJson payload = some manifest →
        List.Forall₂ (SignsFor E.keys secret.approval.signers) (first :: others) ids →
        ids.Nodup → ids.length = secret.approval.threshold.toNat →
          ((∃ envelope, approve E.keys manifest first others = .ok envelope ∧
              ∀ expected, Bound manifest expected → ∃ signers,
                verify E.keys envelope trusted secret.approval.threshold.toNat expected =
                  .ok ⟨manifest, signers⟩) ↔
            secret.approval.threshold.toNat ≤ maxSignatures ∧
              payload.length ≤ maxPayloadBytes) := by
  have facts := projected_of_targetPolicy projected
  obtain ⟨planned, -, -, -, approved⟩ := facts.secrets secretId secret stored
  obtain ⟨trusted, trusts⟩ :=
    trustSigners_ok facts.accepted (signer_of_targetApprovalPolicy approved)
  obtain ⟨positive, reachable⟩ := threshold_of_targetApprovalPolicy approved
  have counted : trusted.len = secret.approval.signers.size := by
    rw [(trusts_of_foldlM trusts).1, List.length_map, Std.TreeMap.length_toList]
    simp [TrustedKeys.len, TrustedKeys.empty]
  refine ⟨trusted, trusts, counted, positive, counted ▸ reachable, ?_⟩
  intro manifest payload ids first others structured canonical parsed sign distinct enough
  have signed : others.length + 1 = secret.approval.threshold.toNat := by
    rw [← enough, ← sign.length_eq, List.length_cons]
  constructor
  · rintro ⟨envelope, approves, -⟩
    rw [← signed]
    exact limits_of_approve canonical approves
  · rintro ⟨few, small⟩
    obtain ⟨materials, usable, separate, known⟩ :=
      exists_materials facts.accepted collisionFree approved trusts sign distinct
    have length : materials.length = secret.approval.threshold.toNat := by
      rw [← usable.length_eq, List.length_cons, signed]
    obtain ⟨message, encoded⟩ := exists_pae small
    have context : Canonical E.keys manifest payload message :=
      ⟨structured, canonical, parsed, small, encoded⟩
    obtain ⟨envelope, approves, collected⟩ :=
      approve_collected collisionFree context usable separate (length ▸ few)
    refine ⟨envelope, approves, fun expected bound => ?_⟩
    obtain ⟨signers, verified, -⟩ := collected.verify_trusted collisionFree context (length ▸ few)
      separate known positive length.ge bound
    exact ⟨signers, verified⟩

theorem foldlM_registerSigner_ok {entries : List (Id × Identity)}
    (listed : entries.Nodup)
    (keyed : ∀ entry ∈ entries, IdentityKind.isVerifier entry.2.kind = true →
      ∃ keyId, publicKeyId E.keys entry.2.publicValue = .ok keyId)
    (apart : ∀ left ∈ entries, ∀ right ∈ entries, ∀ keyId,
      IdentityKind.isVerifier left.2.kind = true → IdentityKind.isVerifier right.2.kind = true →
      publicKeyId E.keys left.2.publicValue = .ok keyId →
      publicKeyId E.keys right.2.publicValue = .ok keyId → left = right) :
    ∃ registered, entries.foldlM (registerSigner E) {} = .ok registered := by
  obtain ⟨registered, folded, -⟩ : ∃ registered,
      entries.foldlM (registerSigner E) {} = .ok registered ∧
        ∀ keyId ∈ registered, ∃ entry ∈ entries, IdentityKind.isVerifier entry.2.kind = true ∧
          publicKeyId E.keys entry.2.publicValue = .ok keyId := by
    refine Fallible.foldlM_split (fun done (registered : Std.TreeMap String Id) =>
      ∀ keyId ∈ registered, ∃ entry : Id × Identity, entry ∈ done ∧
        IdentityKind.isVerifier entry.2.kind = true ∧
        publicKeyId E.keys entry.2.publicValue = .ok keyId)
      (fun keyId inside => absurd inside Std.TreeMap.not_mem_emptyc) ?_
    intro done entry rest registered split holds
    have member : entry ∈ entries := by simp [split]
    by_cases verifier : IdentityKind.isVerifier entry.2.kind = true
    · obtain ⟨keyId, known⟩ := keyed entry member verifier
      have fresh : registered[keyId]? = none := by
        refine Std.TreeMap.getElem?_eq_none fun inside => ?_
        obtain ⟨earlier, early, kind, same⟩ := holds keyId inside
        have one := apart earlier (by simp [split, early]) entry member keyId kind verifier same known
        rw [split, List.nodup_middle, List.nodup_cons] at listed
        exact listed.1 (by simp [← one, early])
      refine ⟨registered.insert keyId entry.1, by simp [registerSigner, verifier, known, fresh], ?_⟩
      intro other inside
      rcases Std.TreeMap.mem_insert.mp inside with same | early
      · rw [← Std.LawfulEqOrd.eq_of_compare same]
        exact ⟨entry, by simp, verifier, known⟩
      · obtain ⟨earlier, before, rest⟩ := holds other early
        exact ⟨earlier, by simp [before], rest⟩
    · refine ⟨registered, by simp [registerSigner, verifier], ?_⟩
      intro other inside
      obtain ⟨earlier, before, rest⟩ := holds other inside
      exact ⟨earlier, by simp [before], rest⟩
  exact ⟨registered, folded⟩

end Quorum

namespace Sample

open Manifest.Sample (nativeKey sshKey)
open Policy.Sample (host signer token fleet admin hostTarget admitted_adminRecipient
  admitted_hostRecipient admitted_encodePublicKey validateIdentityKey_of_verifier
  registerSigner_of_fresh)

theorem usable_keys (material : KeyBytes) : Usable (P := keys) (.ed25519 material) material := by
  refine ⟨rfl, rfl, ?_⟩
  intro message
  simp [keys, keysReading, Manifest.Sample.primitives]

theorem sshEd25519Line_bounded (key : KeyBytes) :
    ¬(sshEd25519Line key).utf8ByteSize > 16 * 1024 := by
  have octets := utf8ByteSize_le (sshEd25519Line key)
  have body := Base64.length_encodeChars_le (sshEd25519Blob key)
  have label : "ssh-ed25519 ".length = 12 := by decide
  simp only [sshEd25519Line, String.length_append, Base64.encode, String.length_ofList,
    Manifest.Sample.length_sshEd25519Blob, label] at octets body ⊢
  omega

/-! A policy that asks for two signers, of the two encodings. -/

/-- A second signer, with a key in its OpenSSH encoding. -/
def deputy : Id := ⟨"deputy", by decide⟩

/-- The secret that two signers approve. -/
def pairSecret : Secret := { Policy.Sample.tokenSecret with approvalPolicy := some fleet }

/-- A plan whose secret asks for the approvals of two signers. -/
def pairPlan : Plan :=
  { Policy.Sample.plan with
    identities := Std.TreeMap.ofList
      ((deputy, ⟨.signer, sshEd25519Line sshKey⟩) :: Policy.Sample.identities)
    secrets := Std.TreeMap.ofList [(token, pairSecret)]
    approvalPolicies := Std.TreeMap.ofList [(fleet, ApprovalPolicy.mk 2 [signer, deputy])] }

theorem usable_sshKey : Usable (P := keys) (.sshEd25519 ⟨.ed25519 sshKey, ""⟩) sshKey := by
  obtain ⟨point, line, signs⟩ := Manifest.Sample.usable_ssh sshKey
  exact ⟨point, line, signs⟩

theorem policy_keys : tools.policy.keys = keys :=
  rfl

theorem parsePublicKey_deputy : parsePublicKey tools.policy.keys (sshEd25519Line sshKey) =
    .ok ⟨sshKey, ⟨.ed25519 sshKey, ""⟩, rfl⟩ := by
  rw [policy_keys]
  exact parsePublicKey_sshEd25519Line rfl usable_sshKey.2.1.2.2

theorem toList_pairPlan_identities : pairPlan.identities.toList =
    [(admin, ⟨.administrator, Policy.Sample.adminRecipient⟩),
      (deputy, ⟨.signer, sshEd25519Line sshKey⟩),
      (hostTarget.identity, ⟨.target, Policy.Sample.hostRecipient⟩),
      (signer, ⟨.signer, encodePublicKey nativeKey⟩)] :=
  rfl

theorem registers_pair : ∃ registered,
    pairPlan.identities.toList.foldlM (registerSigner tools.policy) {} = .ok registered := by
  have deputy_known : publicKeyId tools.policy.keys (sshEd25519Line sshKey) =
      .ok (nativeKeyId keys sshKey) := by
    rw [publicKeyId, parsePublicKey_deputy]
    rfl
  have signer_known : publicKeyId tools.policy.keys (encodePublicKey nativeKey) =
      .ok (nativeKeyId keys nativeKey) := by
    rw [policy_keys, publicKeyId, parsePublicKey_encodePublicKey rfl]
    rfl
  have fresh : (({} : Std.TreeMap String Id).insert (nativeKeyId keys sshKey) deputy)[
      nativeKeyId keys nativeKey]? = none := by
    have different : compare (nativeKeyId keys sshKey) (nativeKeyId keys nativeKey) ≠ .eq := by
      intro same
      exact absurd (collisionFree.native (Std.LawfulEqOrd.eq_of_compare same)) (by decide)
    simp [different]
  have admin_passed : registerSigner tools.policy {}
      (admin, ⟨.administrator, Policy.Sample.adminRecipient⟩) = .ok {} := rfl
  have host_passed : ∀ signers, registerSigner tools.policy signers
      (hostTarget.identity, ⟨.target, Policy.Sample.hostRecipient⟩) = .ok signers := fun _ => rfl
  rw [toList_pairPlan_identities, List.foldlM_cons, admin_passed, Fallible.ok_bind,
    List.foldlM_cons, registerSigner_of_fresh rfl deputy_known (by simp), Fallible.ok_bind,
    List.foldlM_cons, host_passed, Fallible.ok_bind, List.foldlM_cons,
    registerSigner_of_fresh rfl signer_known fresh, Fallible.ok_bind]
  exact ⟨_, rfl⟩

theorem validate_pair : validate tools.policy pairPlan = .ok () := by
  have bounded : (pairPlan.identities.toList.any fun entry =>
      entry.2.publicValue.toList.isEmpty || entry.2.publicValue.utf8ByteSize > 16 * 1024) =
        false := by
    rw [List.any_eq_false, toList_pairPlan_identities]
    intro entry member
    have admitted : entry.2.publicValue.toList.isEmpty = false ∧
        ¬entry.2.publicValue.utf8ByteSize > 16 * 1024 := by
      simp only [List.mem_cons, List.not_mem_nil, or_false] at member
      rcases member with rfl | rfl | rfl | rfl
      · exact admitted_adminRecipient
      · exact ⟨by simp [sshEd25519Line], sshEd25519Line_bounded sshKey⟩
      · exact admitted_hostRecipient
      · exact admitted_encodePublicKey nativeKey
    simp [admitted]
  have keyed : (pairPlan.identities.toList.forM fun entry =>
      validateIdentityKey tools.policy entry.1 entry.2) = .ok () := by
    rw [Fallible.forM_eq_ok, toList_pairPlan_identities]
    intro entry member
    simp only [List.mem_cons, List.not_mem_nil, or_false] at member
    rcases member with rfl | rfl | rfl | rfl
    · decide
    · exact validateIdentityKey_of_verifier rfl parsePublicKey_deputy deputy
    · decide
    · exact validateIdentityKey_of_verifier rfl (parsePublicKey_encodePublicKey rfl) signer
  have collections : ([pairPlan.identities.size, pairPlan.groups.size, pairPlan.targets.size,
      pairPlan.secrets.size, pairPlan.generators.size, pairPlan.templates.size,
      pairPlan.approvalPolicies.size, pairPlan.backends.size].any fun count => 10000 < count) =
        false := by
    decide
  have schema : ensureSchema pairPlan = .ok () := rfl
  have namespaces : validateAuthorizationNamespace pairPlan = .ok () := by decide
  have groups : validateGroupGraph pairPlan = .ok () := by decide
  have targets : (pairPlan.targets.toList.forM fun entry =>
      validateTargetIdentity pairPlan entry.1 entry.2) = .ok () := by
    decide
  have secrets : validateSecrets tools.policy pairPlan = .ok () := by decide
  have templates : validateTemplates tools.policy pairPlan = .ok () := rfl
  have approvals : (pairPlan.approvalPolicies.toList.forM fun entry =>
      validateApproval pairPlan entry.1 entry.2) = .ok () := by
    decide
  have generators : validateGeneratorGraph pairPlan = .ok () := by decide
  obtain ⟨registered, registers⟩ := registers_pair
  simp [validate, schema, collections, namespaces, groups, bounded, keyed, registers, targets,
    secrets, templates, approvals, generators]

/-- The policy of the secret that two signers approve. -/
def pairSecretPolicy : TargetSecretPolicy :=
  { secretPolicy with
    approval :=
      { threshold := 2
        signers := Std.TreeMap.ofList
          [(signer, encodePublicKey nativeKey), (deputy, sshEd25519Line sshKey)] } }

/-- The policy of the sample target in that plan. -/
def pairPolicy : TargetPolicy :=
  { policy with
    secrets := ({} : Std.TreeMap Id TargetSecretPolicy).insert token pairSecretPolicy }

theorem projected_pair : targetPolicy tools.policy pairPlan host = .ok pairPolicy := by
  rw [targetPolicy, validate_pair, Fallible.ok_bind]
  rfl

/-! A policy that asks for more signers than an envelope holds signatures. -/

theorem accepts_signerId (index : Nat) :
    Id.accepts (String.ofList (List.replicate (index + 1) 's')) = true := by
  rw [List.replicate_succ]
  have named : ∀ char ∈ 's' :: List.replicate index 's', char = 's' := by
    intro char member
    rw [← List.replicate_succ] at member
    exact (List.mem_replicate.mp member).2
  have unsplit : ('s' :: List.replicate index 's').splitOn '/' =
      ['s' :: List.replicate index 's'] := by
    apply List.splitOnP_eq_singleton
    intro char member
    rw [named char member]
    rfl
  have plain : ¬['.', '.'] <:+: 's' :: List.replicate index 's' := by
    intro inside
    have dot := named '.' (inside.subset (by simp))
    cases dot
  simp [Id.accepts, startsWith, containsText, segments, unsplit, plain, isAsciiLowercase]

/-- Distinct signers, as many as wanted. -/
def signerId (index : Nat) : Id := ⟨_, accepts_signerId index⟩

theorem zero_lt_keySize : 0 < 32 := by decide

theorem one_lt_keySize : 1 < 32 := by decide

/-- Distinct key materials. -/
def signerKey (index : Nat) : KeyBytes :=
  (nativeKey.set 0 (UInt8.ofNat index) zero_lt_keySize).set 1 (UInt8.ofNat (index / 256))
    one_lt_keySize

/-- A signer and its key. -/
def signerEntry (index : Nat) : Id × Identity :=
  (signerId index, ⟨.signer, encodePublicKey (signerKey index)⟩)

/-- One signer more than an envelope holds signatures. -/
def crowdSize : Nat := maxSignatures + 1

/-- The identities of the sample plan that are no signers, and a crowd of signers. -/
def crowdEntries : List (Id × Identity) :=
  (Policy.Sample.identities.filter fun entry => entry.2.kind ≠ .signer) ++
    (List.range crowdSize).map signerEntry

/-- A policy that all of the crowd must approve. -/
def crowdPlan : Plan where
  identities := Std.TreeMap.ofList crowdEntries
  groups := Std.TreeMap.ofList [(fleet, Group.mk [host])]
  targets := Std.TreeMap.ofList [(host, hostTarget)]
  secrets := Std.TreeMap.ofList
    [(token, { Policy.Sample.tokenSecret with approvalPolicy := some fleet })]
  approvalPolicies := Std.TreeMap.ofList
    [(fleet, ApprovalPolicy.mk (UInt16.ofNat crowdSize) ((List.range crowdSize).map signerId))]

theorem signerId_injective : Function.Injective signerId := by
  intro left right same
  have lengths := congrArg (fun id : Id => id.value.toList.length) same
  simpa [signerId] using lengths

theorem signerKey_inj {left right : Nat} (left_bound : left < crowdSize)
    (right_bound : right < crowdSize) (same : signerKey left = signerKey right) : left = right := by
  have low : UInt8.ofNat left = UInt8.ofNat right := by
    have octets := congrArg (fun key : KeyBytes => key[0]) same
    simpa [signerKey] using octets
  have high : UInt8.ofNat (left / 256) = UInt8.ofNat (right / 256) := by
    have octets := congrArg (fun key : KeyBytes => key[1]) same
    simpa [signerKey] using octets
  have low := congrArg UInt8.toNat low
  have high := congrArg UInt8.toNat high
  simp only [UInt8.toNat_ofNat', crowdSize, maxSignatures] at low high left_bound right_bound
  omega

theorem crowdEntries_eq : crowdEntries =
    (admin, ⟨.administrator, Policy.Sample.adminRecipient⟩) ::
      (hostTarget.identity, ⟨.target, Policy.Sample.hostRecipient⟩) ::
        (List.range crowdSize).map signerEntry := by
  have listed : Policy.Sample.identities.filter (fun entry => entry.2.kind ≠ .signer) =
      [(admin, ⟨.administrator, Policy.Sample.adminRecipient⟩),
        (hostTarget.identity, ⟨.target, Policy.Sample.hostRecipient⟩)] := by
    decide
  rw [crowdEntries, listed]
  rfl

theorem signerId_ne {id : Id} (different : id.value.toList.any (· != 's') = true) (index : Nat) :
    signerId index ≠ id := by
  rintro rfl
  obtain ⟨char, member, different⟩ := List.any_eq_true.mp different
  rw [signerId, String.toList_ofList] at member
  exact bne_iff_ne.mp different (List.mem_replicate.mp member).2

theorem nodup_crowdEntries : (crowdEntries.map Prod.fst).Nodup := by
  have signers : ((List.range crowdSize).map signerEntry).map Prod.fst =
      (List.range crowdSize).map signerId := by
    rw [List.map_map]
    rfl
  rw [crowdEntries_eq, List.map_cons, List.map_cons, signers, List.nodup_cons, List.nodup_cons]
  refine ⟨?_, ?_, List.nodup_range.map signerId_injective⟩
  · rw [List.mem_cons, not_or, List.mem_map]
    refine ⟨by decide, ?_⟩
    rintro ⟨index, -, same⟩
    exact signerId_ne (by decide) index same
  · rw [List.mem_map]
    rintro ⟨index, -, same⟩
    exact signerId_ne (by decide) index same

theorem getElem?_crowd {id : Id} {identity : Identity} :
    crowdPlan.identities[id]? = some identity ↔ (id, identity) ∈ crowdEntries :=
  Ordered.getElem?_ofList_eq_some nodup_crowdEntries

theorem mem_crowdEntries {id : Id} {identity : Identity} : (id, identity) ∈ crowdEntries ↔
    (id = admin ∧ identity = ⟨.administrator, Policy.Sample.adminRecipient⟩) ∨
    (id = hostTarget.identity ∧ identity = ⟨.target, Policy.Sample.hostRecipient⟩) ∨
    ∃ index < crowdSize, id = signerId index ∧
      identity = ⟨.signer, encodePublicKey (signerKey index)⟩ := by
  simp [crowdEntries_eq, signerEntry, eq_comm]

theorem not_mem_crowd {id : Id} (unknown : id ≠ admin ∧ id ≠ hostTarget.identity)
    (different : id.value.toList.any (· != 's') = true) : id ∉ crowdPlan.identities := by
  rw [Std.TreeMap.mem_iff_isSome_getElem?, Option.isSome_iff_exists]
  rintro ⟨identity, stored⟩
  rcases mem_crowdEntries.mp (getElem?_crowd.mp stored) with ⟨same, -⟩ | ⟨same, -⟩ | signer
  · exact unknown.1 same
  · exact unknown.2 same
  · obtain ⟨index, -, same, -⟩ := signer
    exact signerId_ne different index same.symm

theorem validate_crowd_identities {id : Id} {identity : Identity}
    (member : (id, identity) ∈ crowdEntries) :
    validateIdentityKey tools.policy id identity = .ok () := by
  rcases mem_crowdEntries.mp member with ⟨rfl, rfl⟩ | ⟨rfl, rfl⟩ | ⟨index, -, rfl, rfl⟩
  · decide
  · decide
  · exact validateIdentityKey_of_verifier rfl (parsePublicKey_encodePublicKey rfl) (signerId index)

theorem registers_crowd :
    ∃ registered, crowdPlan.identities.toList.foldlM (registerSigner tools.policy) {} =
      .ok registered := by
  have listed : ∀ entry ∈ crowdPlan.identities.toList, entry ∈ crowdEntries := by
    rintro ⟨id, identity⟩ member
    exact getElem?_crowd.mp (Std.TreeMap.mem_toList_iff_getElem?_eq_some.mp member)
  have signer : ∀ entry ∈ crowdPlan.identities.toList,
      IdentityKind.isVerifier entry.2.kind = true → ∃ index < crowdSize,
        entry = (signerId index, ⟨.signer, encodePublicKey (signerKey index)⟩) := by
    rintro ⟨id, identity⟩ member verifier
    rcases mem_crowdEntries.mp (listed _ member) with ⟨-, rfl⟩ | ⟨-, rfl⟩ | ⟨index, bound, rfl, rfl⟩
    · cases verifier
    · cases verifier
    · exact ⟨index, bound, rfl⟩
  have identified : ∀ index, publicKeyId tools.keys (encodePublicKey (signerKey index)) =
      .ok (nativeKeyId tools.keys (signerKey index)) := by
    intro index
    rw [publicKeyId, parsePublicKey_encodePublicKey rfl]
    rfl
  refine foldlM_registerSigner_ok ?_ ?_ ?_
  · refine List.Nodup.of_map Prod.fst ?_
    rw [Std.TreeMap.map_fst_toList_eq_keys]
    exact Std.TreeMap.nodup_keys
  · intro entry member verifier
    obtain ⟨index, -, rfl⟩ := signer entry member verifier
    exact ⟨_, identified index⟩
  · intro left left_member right right_member keyId left_verifier right_verifier left_known right_known
    obtain ⟨index, bound, rfl⟩ := signer left left_member left_verifier
    obtain ⟨other, other_bound, rfl⟩ := signer right right_member right_verifier
    rw [identified] at left_known right_known
    have same := Except.ok.inj (left_known.trans right_known.symm)
    rw [signerKey_inj bound other_bound (collisionFree.native same)]

/-- The secret of the crowd. -/
def crowdSecret : Secret := { Policy.Sample.tokenSecret with approvalPolicy := some fleet }

/-- The policy of the crowd. -/
def crowdApproval : ApprovalPolicy :=
  ⟨UInt16.ofNat crowdSize, (List.range crowdSize).map signerId⟩

theorem namespaces_crowd : validateAuthorizationNamespace crowdPlan = .ok () := by
  have disjoint : ∀ {β : Type} (leftName rightName : String) (right : Std.TreeMap Id β),
      (∀ id ∈ right, id ∉ crowdPlan.identities) →
        checkDisjoint leftName crowdPlan.identities rightName right = .ok () := by
    intro β leftName rightName right apart
    have unshared : firstShared crowdPlan.identities right = none := by
      rw [firstShared, List.find?_eq_none]
      intro id listed shared
      exact apart id (Std.TreeMap.contains_iff_mem.mp shared) (Std.TreeMap.mem_keys.mp listed)
    rw [checkDisjoint, unshared]
  have groups : ∀ id ∈ crowdPlan.groups, id ∉ crowdPlan.identities := by
    intro id member
    simp only [crowdPlan, Std.TreeMap.ofList_singleton, Std.TreeMap.mem_insert,
      Std.TreeMap.not_mem_emptyc, or_false] at member
    cases Std.LawfulEqOrd.eq_of_compare member
    exact not_mem_crowd (by decide) (by decide)
  have targets : ∀ id ∈ crowdPlan.targets, id ∉ crowdPlan.identities := by
    intro id member
    simp only [crowdPlan, Std.TreeMap.ofList_singleton, Std.TreeMap.mem_insert,
      Std.TreeMap.not_mem_emptyc, or_false] at member
    cases Std.LawfulEqOrd.eq_of_compare member
    exact not_mem_crowd (by decide) (by decide)
  rw [validateAuthorizationNamespace, disjoint _ _ _ groups, Fallible.ok_bind,
    disjoint _ _ _ targets, Fallible.ok_bind]
  decide

theorem groups_crowd : validateGroupGraph crowdPlan = .ok () := by
  have listed : crowdPlan.groups.toList = [(fleet, Group.mk [host])] :=
    Ordered.toList_ofList_singleton fleet (Group.mk [host])
  have member : validateGroup crowdPlan fleet (Group.mk [host]) = .ok () := by
    have unknown : crowdPlan.identities.contains host = false := by
      rw [← Bool.not_eq_true, Std.TreeMap.contains_iff_mem]
      exact not_mem_crowd (by decide) (by decide)
    have others : (crowdPlan.groups.contains host).toNat + (crowdPlan.targets.contains host).toNat =
        1 := by
      decide
    have few : ¬10000 < [host].length := by simp
    rw [validateGroup, if_neg few, Fallible.forM_eq_ok]
    intro member named
    cases List.mem_singleton.mp named
    rw [unknown, others]
    rfl
  rw [validateGroupGraph, listed, List.foldlM_cons, member]
  decide

theorem secrets_crowd : validateSecrets tools.policy crowdPlan = .ok () := by
  have listed : crowdPlan.secrets.toList = [(token, crowdSecret)] :=
    Ordered.toList_ofList_singleton token crowdSecret
  have administered : (crowdPlan.identities.toList.any fun entry =>
      IdentityKind.isAdministrator entry.2.kind) = true := by
    rw [List.any_eq_true]
    exact ⟨(admin, ⟨.administrator, Policy.Sample.adminRecipient⟩),
      Std.TreeMap.mem_toList_iff_getElem?_eq_some.mpr
        (getElem?_crowd.mpr (mem_crowdEntries.mpr (.inl ⟨rfl, rfl⟩))), rfl⟩
  have expanded : expandGroupLeaves crowdPlan crowdSecret.administrators = .ok {} := rfl
  have selected : selectedConsumerTargets crowdPlan crowdSecret =
      .ok (({} : Std.TreeSet Id).insert host) := rfl
  have recipients : validateSecretRecipients crowdPlan token crowdSecret = .ok () := by
    have targets : ((({} : Std.TreeSet Id).insert host).toList.any fun targetId =>
        !crowdPlan.targets.contains targetId) = false := by decide
    have unlisted : crowdSecret.administrators.isEmpty = true := rfl
    have delivery : crowdSecret.delivery = .rekeyed := rfl
    simp [validateSecretRecipients, expanded, selected, targets, administered, unlisted, delivery]
  have approval : validateSecretApproval crowdPlan token crowdSecret = .ok () := by decide
  have consumers : (crowdSecret.consumers.forM fun consumer =>
      if !crowdPlan.targets.contains consumer && !crowdPlan.groups.contains consumer then
        .error (.violation s!"secret {token} references missing consumer {consumer}")
      else .ok () : Except PolicyError Unit) = .ok () := by
    decide
  have selectors : validateTargetSelectors crowdPlan token crowdSecret = .ok () := by decide
  rw [validateSecrets, listed, List.foldlM_cons]
  simp only [validateSecret, consumers, selectors, recipients, approval, Fallible.ok_bind]
  rfl

theorem approvals_crowd : validateApproval crowdPlan fleet crowdApproval = .ok () := by
  have size : (Std.TreeSet.ofList crowdApproval.signers).size = crowdSize := by
    rw [Std.TreeSet.size_ofList]
    · simp [crowdApproval]
    · have distinct := (List.nodup_range : (List.range crowdSize).Nodup).map signerId_injective
      exact distinct.imp fun different same => different (Std.LawfulEqOrd.eq_of_compare same)
  have threshold : crowdApproval.threshold.toNat = crowdSize := by decide
  have positive : crowdApproval.threshold ≠ 0 := by decide
  simp only [validateApproval, Fallible.guard_eq_ok, size, threshold, positive, lt_irrefl, false_or,
    not_false_iff, true_and, Fallible.forM_eq_ok]
  intro signer member
  rw [Std.TreeSet.mem_toList, Std.TreeSet.mem_ofList, List.contains_iff_mem] at member
  obtain ⟨index, listed, rfl⟩ := List.mem_map.mp member
  have stored := getElem?_crowd.mpr (mem_crowdEntries.mpr
    (.inr (.inr ⟨index, List.mem_range.mp listed, rfl, rfl⟩)))
  simp [stored]

theorem validate_crowd : validate tools.policy crowdPlan = .ok () := by
  have schema : ensureSchema crowdPlan = .ok () := rfl
  have size : crowdPlan.identities.size ≤ 10000 := by
    refine Std.TreeMap.size_ofList_le.trans ?_
    simp [crowdEntries_eq, crowdSize, maxSignatures]
  have collections : ([crowdPlan.identities.size, crowdPlan.groups.size, crowdPlan.targets.size,
      crowdPlan.secrets.size, crowdPlan.generators.size, crowdPlan.templates.size,
      crowdPlan.approvalPolicies.size, crowdPlan.backends.size].any fun count => 10000 < count) =
        false := by
    rw [List.any_cons, decide_eq_false (Nat.not_lt.mpr size)]
    rfl
  have bounded : (crowdPlan.identities.toList.any fun entry =>
      entry.2.publicValue.toList.isEmpty || entry.2.publicValue.utf8ByteSize > 16 * 1024) =
        false := by
    rw [List.any_eq_false]
    rintro ⟨id, identity⟩ member
    have listed := getElem?_crowd.mp (Std.TreeMap.mem_toList_iff_getElem?_eq_some.mp member)
    have admitted : identity.publicValue.toList.isEmpty = false ∧
        ¬identity.publicValue.utf8ByteSize > 16 * 1024 := by
      rcases mem_crowdEntries.mp listed with ⟨-, rfl⟩ | ⟨-, rfl⟩ | ⟨index, -, -, rfl⟩
      · exact admitted_adminRecipient
      · exact admitted_hostRecipient
      · exact admitted_encodePublicKey (signerKey index)
    simp [admitted]
  have keyed : (crowdPlan.identities.toList.forM fun entry =>
      validateIdentityKey tools.policy entry.1 entry.2) = .ok () := by
    rw [Fallible.forM_eq_ok]
    rintro ⟨id, identity⟩ member
    exact validate_crowd_identities
      (getElem?_crowd.mp (Std.TreeMap.mem_toList_iff_getElem?_eq_some.mp member))
  have target : validateTargetIdentity crowdPlan host hostTarget = .ok () := by
    have stored := getElem?_crowd.mpr (mem_crowdEntries.mpr (.inr (.inl ⟨rfl, rfl⟩)))
    rw [validateTargetIdentity, stored]
    decide
  have targets : crowdPlan.targets.toList = [(host, hostTarget)] :=
    Ordered.toList_ofList_singleton host hostTarget
  have approvals : crowdPlan.approvalPolicies.toList = [(fleet, crowdApproval)] :=
    Ordered.toList_ofList_singleton fleet crowdApproval
  obtain ⟨registered, registers⟩ := registers_crowd
  rw [validate, schema, Fallible.ok_bind, collections, if_neg Bool.false_ne_true, namespaces_crowd,
    Fallible.ok_bind, groups_crowd, Fallible.ok_bind, bounded, if_neg Bool.false_ne_true, keyed,
    Fallible.ok_bind, registers, Fallible.ok_bind, targets, List.forM_eq_forM, List.forM_cons,
    target, Fallible.ok_bind]
  have empty : validateTemplates tools.policy crowdPlan = .ok () := rfl
  have generators : validateGeneratorGraph crowdPlan = .ok () := by decide
  rw [List.forM_nil, pure_bind, secrets_crowd, Fallible.ok_bind, empty, Fallible.ok_bind, approvals,
    List.forM_eq_forM, List.forM_cons, approvals_crowd, Fallible.ok_bind, List.forM_nil, pure_bind,
    generators]

theorem signers_crowd {approval : TargetApprovalPolicy}
    (approved : targetApprovalPolicy crowdPlan (some fleet) = .ok approval) :
    approval.threshold.toNat = crowdSize ∧ ∀ index < crowdSize,
      approval.signers[signerId index]? = some (encodePublicKey (signerKey index)) := by
  have spelled := signer_of_targetApprovalPolicy approved
  have ruled : approvalRule crowdPlan (some fleet) =
      .ok (crowdApproval.threshold, crowdApproval.signers) := by
    have stored : crowdPlan.approvalPolicies[fleet]? = some crowdApproval :=
      (Ordered.getElem?_ofList_eq_some (by simp)).mpr (List.mem_singleton_self _)
    rw [approvalRule, stored]
  have known : ∀ id ∈ crowdApproval.signers,
      (crowdPlan.identities[id]?.map Identity.kind) = some .signer := by
    intro id member
    obtain ⟨index, listed, rfl⟩ := List.mem_map.mp member
    rw [getElem?_crowd.mpr (mem_crowdEntries.mpr
      (.inr (.inr ⟨index, List.mem_range.mp listed, rfl, rfl⟩)))]
    rfl
  have threshold : crowdApproval.threshold.toNat = crowdSize := by decide
  obtain ⟨signers, collected, members⟩ := foldlM_addApprovalSigner known
  rw [targetApprovalPolicy, ruled, Fallible.ok_bind] at approved
  simp only [collected, Fallible.ok_bind, Fallible.guard_eq_ok] at approved
  cases approved.2
  refine ⟨threshold, fun index bound => ?_⟩
  have member : signerId index ∈ signers :=
    (members _).mpr (List.mem_map.mpr ⟨index, List.mem_range.mpr bound, rfl⟩)
  rw [Std.TreeMap.mem_iff_isSome_getElem?, Option.isSome_iff_exists] at member
  obtain ⟨text, stored⟩ := member
  obtain ⟨identity, found, -, rfl⟩ := spelled _ _ stored
  rw [getElem?_crowd.mpr (mem_crowdEntries.mpr (.inr (.inr ⟨index, bound, rfl, rfl⟩)))] at found
  cases found
  exact stored

theorem signsFor_crowd {signers : Std.TreeMap Id String}
    (held : ∀ index < crowdSize,
      signers[signerId index]? = some (encodePublicKey (signerKey index))) :
    List.Forall₂ (SignsFor keys signers)
      ((List.range crowdSize).map fun index => .ed25519 (signerKey index))
      ((List.range crowdSize).map signerId) := by
  rw [List.forall₂_map_left_iff, List.forall₂_map_right_iff, List.forall₂_same]
  intro index listed
  exact ⟨_, _, held index (List.mem_range.mp listed), parsePublicKey_encodePublicKey rfl,
    usable_keys (signerKey index)⟩

end Sample

theorem approvals_satisfiable_both_encodings :
    ∃ trusted, trustSigners Sample.keys Sample.pairSecretPolicy.approval.signers = .ok trusted ∧
      ∃ envelope,
        approve Sample.keys Sample.manifest (.ed25519 Manifest.Sample.nativeKey)
          [.sshEd25519 ⟨.ed25519 Manifest.Sample.sshKey, ""⟩] = .ok envelope ∧
        ∀ expected, Bound Sample.manifest expected → ∃ signers,
          verify Sample.keys envelope trusted 2 expected = .ok ⟨Sample.manifest, signers⟩ := by
  have stored : Sample.pairPolicy.secrets[Policy.Sample.token]? = some Sample.pairSecretPolicy :=
    Std.TreeMap.getElem?_insert_self
  obtain ⟨trusted, trusts, -, -, -, approvals⟩ :=
    approvals_satisfiable_iff Sample.collisionFree Sample.projected_pair stored
  have first : SignsFor Sample.keys Sample.pairSecretPolicy.approval.signers
      (.ed25519 Manifest.Sample.nativeKey) Sample.signer :=
    ⟨encodePublicKey Manifest.Sample.nativeKey, _, by decide, parsePublicKey_encodePublicKey rfl,
      Sample.usable_keys _⟩
  have second : SignsFor Sample.keys Sample.pairSecretPolicy.approval.signers
      (.sshEd25519 ⟨.ed25519 Manifest.Sample.sshKey, ""⟩) Sample.deputy :=
    ⟨sshEd25519Line Manifest.Sample.sshKey, _, by decide,
      parsePublicKey_sshEd25519Line rfl Sample.usable_sshKey.2.1.2.2, Sample.usable_sshKey⟩
  refine ⟨trusted, trusts, ?_⟩
  refine (approvals Sample.manifest Sample.payload [Sample.signer, Sample.deputy] _ _
    Sample.decoded.structured Sample.decoded.canonical Sample.decoded.parsed
    (.cons first (.cons second .nil)) (by decide) rfl).mpr ⟨by decide, Sample.length_payload⟩

/-- A plan is accepted although no envelope can hold the approvals that its policy asks for. -/
theorem quorum_exceeds_envelope :
    validate Sample.tools.policy Sample.crowdPlan = .ok () ∧
      ∃ policy secret ids first others,
        targetPolicy Sample.tools.policy Sample.crowdPlan Policy.Sample.host = .ok policy ∧
        policy.secrets[Policy.Sample.token]? = some secret ∧
        List.Forall₂ (SignsFor Sample.keys secret.approval.signers) (first :: others) ids ∧
        ids.Nodup ∧ ids.length = secret.approval.threshold.toNat ∧
        ∀ envelope, approve Sample.keys Sample.manifest first others ≠ .ok envelope := by
  refine ⟨Sample.validate_crowd, ?_⟩
  have found : Sample.crowdPlan.targets[Policy.Sample.host]? = some Policy.Sample.hostTarget :=
    (Ordered.getElem?_ofList_eq_some (by simp)).mpr (List.mem_singleton_self _)
  have group : Sample.crowdPlan.groups[Policy.Sample.fleet]? =
      some (Group.mk [Policy.Sample.host]) :=
    (Ordered.getElem?_ofList_eq_some (by simp)).mpr (List.mem_singleton_self _)
  have kept : Sample.crowdPlan.secrets[Policy.Sample.token]? = some Sample.crowdSecret :=
    (Ordered.getElem?_ofList_eq_some (by simp)).mpr (List.mem_singleton_self _)
  obtain ⟨policy, projected, secrets, -⟩ := targetPolicy_exact Sample.validate_crowd rfl found
  have member : Policy.Sample.token ∈ policy.secrets := by
    refine (secrets _).mpr ⟨Sample.crowdSecret, kept, .inl ⟨Policy.Sample.fleet, ?_, ?_⟩⟩
    · exact List.mem_singleton_self _
    · exact Relation.ReflTransGen.single ⟨_, group, List.mem_singleton_self _⟩
  rw [Std.TreeMap.mem_iff_isSome_getElem?, Option.isSome_iff_exists] at member
  obtain ⟨secret, stored⟩ := member
  obtain ⟨planned, planned_stored, -, -, approved⟩ :=
    (projected_of_targetPolicy projected).secrets _ _ stored
  rw [kept] at planned_stored
  cases planned_stored
  obtain ⟨threshold, held⟩ := Sample.signers_crowd approved
  have sign := Sample.signsFor_crowd held
  have unrolled : List.range Sample.crowdSize = 0 :: (List.range maxSignatures).map Nat.succ :=
    List.range_succ_eq_map
  rw [unrolled, List.map_cons] at sign
  refine ⟨policy, secret, _, _, _, projected, stored, sign, ?_, ?_, ?_⟩
  · rw [← unrolled]
    exact List.nodup_range.map Sample.signerId_injective
  · rw [← unrolled, List.length_map, List.length_range, threshold]
  · intro envelope approves
    have fits := (limits_of_approve Sample.decoded.canonical approves).1
    rw [List.length_map, List.length_map, List.length_range] at fits
    omega

end NixSeal.Selection
