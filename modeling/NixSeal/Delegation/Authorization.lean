import NixSeal.Delegation.Create
import NixSeal.Manifest.Completeness

/-!
# Delegated creation is sound and complete

A creation that writes anything was authorized by the plan, the clock and the committed plaintext,
and every capability that is issued for an absent source is accepted throughout its window.
-/

namespace NixSeal.Delegation

open Faulty Program Manifest Policy Authoring

variable {T : Tools}

/-! ## Soundness -/

/-- What stands behind a delegated creation: the plan, the signed capability and the secret. -/
structure Authorized (T : Tools) (call : CreateCall) (plan : Plan)
    (signed : SignedDelegatedCreateCapability) (capability : DelegatedCreateCapability)
    (secret : Secret) (recipients : List String) : Prop where
  read : readBootstrapCreatePlan T call.bootstrapPlan = .ok plan
  envelope : T.capabilityFromJson call.capability = some signed
  payloadType : signed.payloadType = delegatedCapabilityPayloadType
  /-- The payload is the canonical encoding of the capability, and the one signature over it is
  valid under the key of an authorizer of the plan. -/
  signature : ∃ payload message entry, ∃ (id : Id) (identity : Identity) (key : VerificationKey),
    Base64.decode signed.payload = some payload ∧ T.codec.fromJson payload = some capability ∧
    T.codec.toJcs capability = some payload ∧
    pae (utf8 delegatedCapabilityPayloadType) payload = .ok message ∧
    signed.signatures = [entry] ∧ plan.identities[id]? = some identity ∧
    identity.kind = .authorizer ∧ parsePublicKey T.keys identity.publicValue = .ok key ∧
    Names T.keys entry.keyId key.native ∧
    ValidUnder T.keys delegatedCapabilitySshNamespace message entry key
  operation : capability.operation = "create"
  issued : capability.issuedAt.toNat ≤ call.now.value.toNat + 300
  window : capability.issuedAt ≤ capability.notBefore ∧ capability.notBefore ≤ call.now.value ∧
    call.now.value < capability.expiresAt
  lifetime : capability.expiresAt.toNat - capability.issuedAt.toNat ≤ 900
  hashed : planHash T.policy plan = .ok capability.bootstrapPlanHash
  pending : plan.secrets[capability.secretId]? = some secret
  source : capability.source = secret.source
  derived : bootstrapRecipients T plan capability.secretId = .ok recipients
  recipientSet : recipientSetHash T recipients = .ok capability.recipientSetHash
  input : call.stdin ≠ [] ∧ call.stdin.length ≤ capability.maxPlaintextBytes.toNat ∧
    capability.maxPlaintextBytes.toNat ≤ 65536
  committed : T.sha256Hex call.stdin = capability.plaintextSha256

theorem trusts_add_iff {P : Primitives} {trusted : TrustedKeys P} {key other : VerificationKey}
    (fresh : key.keyId P ∉ trusted.keys) :
    (trusted.add key).Trusts other ↔ other = key ∨ trusted.Trusts other := by
  unfold TrustedKeys.Trusts TrustedKeys.add
  simp only [Std.TreeMap.getElem?_insert]
  split
  · rename_i same
    have ids := Std.LawfulEqOrd.eq_of_compare same
    have absent : trusted.keys[other.keyId P]? = none := by
      rw [← ids]
      exact Std.TreeMap.getElem?_eq_none fresh
    rw [absent]
    constructor
    · rintro found
      exact .inl (Option.some.inj found).symm
    · rintro (rfl | impossible)
      · rfl
      · cases impossible
  · rename_i different
    constructor
    · exact .inr
    · rintro (rfl | found)
      · exact absurd (Std.ReflCmp.compare_self) different
      · exact found

theorem authorizer_of_trusts {plan : Plan} {trusted : TrustedKeys T.keys}
    (collected : delegatedAuthorizerKeys T plan = .ok trusted) {key : VerificationKey}
    (trusts : trusted.Trusts key) :
    ∃ (id : Id) (identity : Identity), plan.identities[id]? = some identity ∧ identity.kind = .authorizer ∧
      parsePublicKey T.keys identity.publicValue = .ok key := by
  obtain ⟨result, folded, returned⟩ := Fallible.bind_eq_ok.mp collected
  rw [Fallible.guard_eq_ok] at returned
  obtain ⟨-, returned⟩ := returned
  cases returned
  refine Fallible.foldlM_eq_ok_induction folded
    (fun _ keys => ∀ key, keys.Trusts key → ∃ (id : Id) (identity : Identity), plan.identities[id]? = some identity ∧
      identity.kind = .authorizer ∧ parsePublicKey T.keys identity.publicValue = .ok key)
    ?_ ?_ key trusts
  · intro other impossible
    simp [TrustedKeys.Trusts, TrustedKeys.empty] at impossible
  · intro _ entry keys next member stepped known other found
    have stored := Std.TreeMap.mem_toList_iff_getElem?_eq_some.mp member
    unfold addAuthorizer at stepped
    split at stepped
    · rename_i kind
      obtain ⟨⟨extended, id⟩, inserted, returned⟩ := Fallible.bind_eq_ok.mp stepped
      cases returned
      obtain ⟨inside, parsed, fresh, rfl, -⟩ :=
        insertEncoded_eq_ok.mp (Fallible.mapError_eq_ok.mp inserted)
      rcases (trusts_add_iff fresh).mp found with rfl | early
      · exact ⟨entry.1, entry.2, stored, kind, parsed⟩
      · exact known other early
    · cases stepped
      exact known other found

theorem readJsonBounded_eq_ok {α : Type} {parse : Bytes → Option α} {file : Bytes} {value : α} :
    readJsonBounded parse file = .ok value ↔
      file.length ≤ 2 * 1024 * 1024 ∧ parse file = some value := by
  unfold readJsonBounded
  rw [Fallible.guard_eq_ok, Nat.not_lt]
  cases parse file <;> simp

theorem pendingSecret_eq_ok {plan : Plan} {id : Id} {missing : String} {secret : Secret} :
    pendingSecret plan id missing = .ok secret ↔ plan.secrets[id]? = some secret := by
  unfold pendingSecret
  cases plan.secrets[id]? <;> simp

theorem readDelegatedInput_eq_ok {capability : DelegatedCreateCapability} {stdin input : Bytes} :
    readDelegatedInput T capability stdin = .ok input ↔
      capability.maxPlaintextBytes.toNat + 1 < 2 ^ 64 ∧ input = stdin ∧ stdin ≠ [] ∧
        stdin.length ≤ capability.maxPlaintextBytes.toNat ∧
        T.sha256Hex stdin = capability.plaintextSha256 := by
  unfold readDelegatedInput
  simp only [Fallible.guard_eq_ok, Nat.not_le, Bool.or_eq_true, decide_eq_true_eq, not_or,
    not_not, Except.ok.injEq, List.length_take, List.isEmpty_iff]
  constructor
  · rintro ⟨small, ⟨nonempty, bounded⟩, committed, rfl⟩
    have whole : stdin.take (capability.maxPlaintextBytes.toNat + 1) = stdin :=
      List.take_of_length_le (by omega)
    rw [whole] at nonempty committed
    exact ⟨small, whole, nonempty, by omega, committed⟩
  · rintro ⟨small, rfl, nonempty, bounded, committed⟩
    have whole : input.take (capability.maxPlaintextBytes.toNat + 1) = input :=
      List.take_of_length_le (by omega)
    rw [whole]
    exact ⟨small, ⟨nonempty, by omega⟩, committed, rfl⟩

theorem authorized_of_eq_ok {call : CreateCall} {authorization : Authorization}
    (accepted : authorizeCreate T call = .ok authorization) :
    authorization.input = call.stdin ∧ ∃ signed secret recipients,
      Authorized T call authorization.plan signed authorization.capability secret recipients := by
  obtain ⟨plan, read, accepted⟩ := Fallible.bind_eq_ok.mp accepted
  obtain ⟨signed, parsed, accepted⟩ := Fallible.bind_eq_ok.mp accepted
  obtain ⟨trusted, collected, accepted⟩ := Fallible.bind_eq_ok.mp accepted
  obtain ⟨capability, verified, accepted⟩ := Fallible.bind_eq_ok.mp accepted
  obtain ⟨hash, hashed, accepted⟩ := Fallible.bind_eq_ok.mp accepted
  rw [Fallible.guard_eq_ok, not_not] at accepted
  obtain ⟨rfl, accepted⟩ := accepted
  obtain ⟨secret, found, accepted⟩ := Fallible.bind_eq_ok.mp accepted
  obtain ⟨recipients, derived, accepted⟩ := Fallible.bind_eq_ok.mp accepted
  obtain ⟨recipientSet, listed, accepted⟩ := Fallible.bind_eq_ok.mp accepted
  rw [Fallible.guard_eq_ok, not_or, not_not, not_not] at accepted
  obtain ⟨⟨source, rfl⟩, accepted⟩ := accepted
  obtain ⟨input, checked, returned⟩ := Fallible.bind_eq_ok.mp accepted
  cases returned
  have facts := verified_of_eq_ok (Fallible.mapError_eq_ok.mp verified)
  obtain ⟨payload, message, entry, key, decoded, canonical, unique, encoded, single, authorizes⟩ :=
    facts.signed
  obtain ⟨id, identity, stored, kind, known⟩ := authorizer_of_trusts collected authorizes.trusted
  obtain ⟨-, rfl, nonempty, short, committed⟩ := readDelegatedInput_eq_ok.mp checked
  refine ⟨rfl, signed, secret, recipients, read, (readJsonBounded_eq_ok.mp parsed).2,
    facts.payloadType, ⟨payload, message, entry, id, identity, key, decoded, canonical, unique,
      encoded, single, stored, kind, known, authorizes.named, authorizes.valid⟩,
    facts.wellFormed.operation, facts.window.issued,
    ⟨facts.wellFormed.issued, facts.window.started, facts.window.unexpired⟩,
    facts.wellFormed.lifetime, Fallible.mapError_eq_ok.mp hashed, pendingSecret_eq_ok.mp found,
    source, derived, listed, ⟨nonempty, short, ?_⟩, committed⟩
  exact UInt64.le_iff_toNat_le.mp facts.wellFormed.bounded

/-- What a creation may do: nothing, or put a ciphertext of its input at an absent destination. -/
def Creates (T : Tools) (randomness : Nat) (relative : String) (input : Bytes)
    (recipients : List String) (before after : Repository) : Prop :=
  ∃ destination ciphertext, resolveDestination relative = .ok destination ∧
    before destination = none ∧ T.encrypt randomness recipients input = some ciphertext ∧
    after = Function.update before destination (some ciphertext)

theorem staged_eq_ok {ciphertext : Option Bytes} {bytes : Bytes} :
    staged ciphertext = .ok bytes ↔ ciphertext = some bytes := by
  unfold staged
  cases ciphertext <;> simp

theorem writeSecretCreateDelegated_meets (verdict : CreateStep → Verdict) (before : Repository)
    (randomness : Nat) (relative : String) (input : Bytes) (recipients : List String) :
    (writeSecretCreateDelegated T randomness relative input recipients).Meets verdict before
      (fun _ => Creates T randomness relative input recipients before)
      (fun _ after => after = before ∨ Creates T randomness relative input recipients before after)
      (fun after => after = before ∨
        Creates T randomness relative input recipients before after) := by
  unfold writeSecretCreateDelegated
  refine Meets.bind (Meets.step ?_ (fun _ => .inl rfl) fun _ _ => .inl rfl)
  refine Meets.bind (Meets.lift (fun destination resolved => ?_) fun _ _ => .inl rfl)
  refine Meets.bind (Meets.step ?_ (fun _ => .inl rfl) fun _ _ => .inl rfl)
  refine Meets.bind (Meets.step ?_ (fun _ => .inl rfl) fun _ _ => .inl rfl)
  refine Meets.bind (Meets.read (Meets.bind (Meets.require (fun absent => ?_) fun _ => .inl rfl)))
  refine Meets.bind (Meets.step ?_ (fun _ => .inl rfl) fun _ _ => .inl rfl)
  refine Meets.bind (Meets.lift (fun ciphertext encrypted => ?_) fun _ _ => .inl rfl)
  refine Meets.bind (Meets.read (Meets.bind (Meets.require (fun _ => ?_) fun _ => .inl rfl)))
  have created : Creates T randomness relative input recipients before
      (Function.update before destination (some ciphertext)) :=
    ⟨destination, ciphertext, resolved, absent, staged_eq_ok.mp encrypted, rfl⟩
  refine Meets.bind (Meets.step ?_ (fun _ => .inl rfl) fun _ _ => .inl rfl)
  exact Meets.step created (fun _ => .inr created) fun _ _ => .inr created

/-- What the write of a bootstrap secret may do. -/
def CreatesSecret (T : Tools) (randomness : Nat) (plan : Plan) (secretId : Id) (input : Bytes)
    (before after : Repository) : Prop :=
  ∃ secret recipients, plan.secrets[secretId]? = some secret ∧
    bootstrapRecipients T plan secretId = .ok recipients ∧
    Creates T randomness secret.source input recipients before after

theorem writeBootstrapSecret_meets (verdict : CreateStep → Verdict) (before : Repository)
    (randomness : Nat) (plan : Plan) (secretId : Id) (input : Bytes) :
    (writeBootstrapSecret T randomness plan secretId input).Meets verdict before
      (fun _ after => after = before ∨ CreatesSecret T randomness plan secretId input before after)
      (fun _ after => after = before ∨ CreatesSecret T randomness plan secretId input before after)
      (fun after => after = before ∨
        CreatesSecret T randomness plan secretId input before after) := by
  unfold writeBootstrapSecret
  refine Meets.bind (Meets.lift (fun secret found => ?_) fun _ _ => .inl rfl)
  refine Meets.bind (Meets.lift (fun recipients derived => ?_) fun _ _ => .inl rfl)
  refine Meets.bind (Meets.step ?_ (fun _ => .inl rfl) fun _ _ => .inl rfl)
  have made : ∀ after, Creates T randomness secret.source input recipients before after →
      after = before ∨ CreatesSecret T randomness plan secretId input before after :=
    fun _ creates => .inr ⟨secret, recipients, pendingSecret_eq_ok.mp found, derived, creates⟩
  refine (writeSecretCreateDelegated_meets verdict before randomness secret.source input
    recipients).mono (fun _ after creates => made after creates) (fun _ after ended => ?_)
    fun after ended => ?_
  · exact ended.elim .inl (made after)
  · exact ended.elim .inl (made after)

/-- A delegated creation that leaves a change was authorized, and the change is the ciphertext of
the committed input. -/
theorem authorized_of_changed {call : CreateCall} {verdict : CreateStep → Verdict}
    {before : Repository} (changed : (runDelegatedCreate T call verdict before).state ≠ before) :
    ∃ plan signed capability secret recipients,
      Authorized T call plan signed capability secret recipients ∧
      Creates T call.randomness secret.source call.stdin recipients before
        (runDelegatedCreate T call verdict before).state := by
  cases accepted : authorizeCreate T call with
  | error failure =>
      have refused : (runDelegatedCreate T call).Meets verdict before
          (fun _ after => after = before) (fun _ after => after = before)
          fun after => after = before := by
        refine Meets.bind (Meets.lift (fun _ known => ?_) fun _ _ => rfl)
        rw [accepted] at known
        cases known
      exact absurd refused.leaves changed
  | ok authorization =>
      obtain ⟨same, signed, secret, recipients, authorized⟩ := authorized_of_eq_ok accepted
      have ended : (runDelegatedCreate T call verdict before).state =
          (writeBootstrapSecret T call.randomness authorization.plan
            authorization.capability.secretId authorization.input verdict before).state := by
        change ((lift (authorizeCreate T call)).bind _ |>.run verdict before).state = _
        rw [accepted]
        rfl
      rw [ended] at changed ⊢
      rcases (writeBootstrapSecret_meets verdict before call.randomness authorization.plan
        authorization.capability.secretId authorization.input).leaves with
        unchanged | ⟨found, derived, stored, listed, creates⟩
      · exact absurd unchanged changed
      · refine ⟨_, signed, _, secret, recipients, authorized, ?_⟩
        rw [authorized.pending] at stored
        rw [authorized.derived] at listed
        cases stored
        cases listed
        rw [← same]
        exact creates

/-! ## Completeness -/

theorem readBootstrapCreatePlan_eq_ok {file : Bytes} {plan : Plan}
    (read : readBootstrapCreatePlan T file = .ok plan) :
    validate T.policy { plan with schema := planSchema } = .ok () ∧
      ∃ trusted, plan.identities.toList.foldlM (checkIdentityMaterial T) .empty = .ok trusted := by
  obtain ⟨parsed, -, read⟩ := Fallible.bind_eq_ok.mp read
  rw [Fallible.guard_eq_ok, Fallible.guard_eq_ok] at read
  obtain ⟨-, -, read⟩ := read
  obtain ⟨⟨⟩, validated, read⟩ := Fallible.bind_eq_ok.mp read
  obtain ⟨⟨⟩, material, returned⟩ := Fallible.bind_eq_ok.mp read
  cases returned
  obtain ⟨trusted, folded, -⟩ := Fallible.bind_eq_ok.mp material
  exact ⟨Fallible.mapError_eq_ok.mp validated, trusted, folded⟩

theorem checkIdentityMaterial_of_authorizer {entry : Id × Identity}
    (kind : entry.2.kind = .authorizer) {trusted next : TrustedKeys T.keys}
    (stepped : checkIdentityMaterial T trusted entry = .ok next) :
    ∃ key, parsePublicKey T.keys entry.2.publicValue = .ok key ∧
      key.keyId T.keys ∉ trusted.keys ∧ next = trusted.add key := by
  simp only [checkIdentityMaterial, kind] at stepped
  cases inserted : trusted.insertEncoded entry.2.publicValue with
  | error failure => simp [inserted] at stepped
  | ok result =>
      obtain ⟨extended, id⟩ := result
      simp only [inserted, Except.ok.injEq] at stepped
      obtain ⟨key, parsed, fresh, rfl, -⟩ := insertEncoded_eq_ok.mp inserted
      exact ⟨key, parsed, fresh, stepped.symm⟩

theorem mem_of_checkIdentityMaterial {entry : Id × Identity} {trusted next : TrustedKeys T.keys}
    (stepped : checkIdentityMaterial T trusted entry = .ok next) {id : String}
    (member : id ∈ trusted.keys) : id ∈ next.keys := by
  unfold checkIdentityMaterial at stepped
  split at stepped
  · split at stepped
    · rename_i extended keyId inserted
      cases stepped
      obtain ⟨key, -, -, rfl, -⟩ := insertEncoded_eq_ok.mp inserted
      exact Std.TreeMap.mem_insert.mpr (.inr member)
    · cases stepped
  · split at stepped
    · rename_i extended keyId inserted
      cases stepped
      obtain ⟨key, -, -, rfl, -⟩ := insertEncoded_eq_ok.mp inserted
      exact Std.TreeMap.mem_insert.mpr (.inr member)
    · cases stepped
  all_goals
    rw [Fallible.guard_eq_ok] at stepped
    cases stepped.2
    exact member

/-- The authorizer keys of an accepted plan are collected without a duplicate. -/
theorem foldlM_addAuthorizer {entries : List (Id × Identity)}
    {trusted final collected : TrustedKeys T.keys}
    (checked : entries.foldlM (checkIdentityMaterial T) trusted = .ok final)
    (below : ∀ id, id ∈ collected.keys → id ∈ trusted.keys) :
    ∃ result, entries.foldlM (addAuthorizer T) collected = .ok result ∧
      (∀ key, collected.Trusts key → result.Trusts key) ∧
      ∀ entry ∈ entries, entry.2.kind = .authorizer →
        ∃ key, parsePublicKey T.keys entry.2.publicValue = .ok key ∧ result.Trusts key := by
  induction entries generalizing trusted collected with
  | nil => exact ⟨collected, rfl, fun _ trusts => trusts, by simp⟩
  | cons entry rest ih =>
      rw [List.foldlM_cons] at checked
      obtain ⟨next, stepped, checked⟩ := Fallible.bind_eq_ok.mp checked
      by_cases kind : entry.2.kind = .authorizer
      · obtain ⟨key, parsed, fresh, rfl⟩ := checkIdentityMaterial_of_authorizer kind stepped
        have unused : key.keyId T.keys ∉ collected.keys := fun member => fresh (below _ member)
        have still : ∀ id, id ∈ (collected.add key).keys → id ∈ (trusted.add key).keys := by
          intro id member
          rcases Std.TreeMap.mem_insert.mp member with same | early
          · exact Std.TreeMap.mem_insert.mpr (.inl same)
          · exact Std.TreeMap.mem_insert.mpr (.inr (below id early))
        obtain ⟨result, folded, kept, every⟩ := ih checked still
        have added : addAuthorizer T collected entry = .ok (collected.add key) := by
          have inserted : collected.insertEncoded entry.2.publicValue =
              .ok (collected.add key, key.keyId T.keys) :=
            insertEncoded_eq_ok.mpr ⟨key, parsed, unused, rfl, rfl⟩
          simp [addAuthorizer, kind, inserted, Except.mapError]
        refine ⟨result, ?_, fun other trusts => kept other ?_, fun other member role => ?_⟩
        · rw [List.foldlM_cons, added]
          exact folded
        · exact (trusts_add_iff unused).mpr (.inr trusts)
        · rcases List.mem_cons.mp member with rfl | later
          · exact ⟨key, parsed, kept key ((trusts_add_iff unused).mpr (.inl rfl))⟩
          · exact every other later role
      · have still : ∀ id, id ∈ collected.keys → id ∈ next.keys :=
          fun id member => mem_of_checkIdentityMaterial stepped (below id member)
        obtain ⟨result, folded, kept, every⟩ := ih checked still
        refine ⟨result, ?_, kept, fun other member role => ?_⟩
        · rw [List.foldlM_cons, addAuthorizer, if_neg kind]
          exact folded
        · rcases List.mem_cons.mp member with rfl | later
          · exact absurd role kind
          · exact every other later role

theorem delegatedAuthorizerKeys_of_read {file : Bytes} {plan : Plan}
    (read : readBootstrapCreatePlan T file = .ok plan) {id : Id} {identity : Identity}
    (stored : plan.identities[id]? = some identity) (kind : identity.kind = .authorizer)
    {key : VerificationKey} (parsed : parsePublicKey T.keys identity.publicValue = .ok key) :
    ∃ trusted, delegatedAuthorizerKeys T plan = .ok trusted ∧ trusted.Trusts key := by
  obtain ⟨-, material, checked⟩ := readBootstrapCreatePlan_eq_ok read
  have none_below : ∀ id, id ∈ (TrustedKeys.empty : TrustedKeys T.keys).keys → id ∈
      (TrustedKeys.empty : TrustedKeys T.keys).keys := fun _ member => member
  obtain ⟨trusted, folded, -, every⟩ := foldlM_addAuthorizer checked none_below
  have member := Std.TreeMap.mem_toList_iff_getElem?_eq_some.mpr stored
  obtain ⟨found, same, trusts⟩ := every (id, identity) member kind
  rw [parsed] at same
  cases same
  have nonempty : trusted.keys.isEmpty = false := by
    rw [Std.TreeMap.isEmpty_eq_false_iff_exists_mem]
    refine ⟨key.keyId T.keys, ?_⟩
    rw [Std.TreeMap.mem_iff_isSome_getElem?, trusts]
    rfl
  refine ⟨trusted, ?_, trusts⟩
  simp [delegatedAuthorizerKeys, folded, nonempty]

/-- The source of a secret in an accepted plan resolves to its components. -/
theorem resolveDestination_of_valid {source : String}
    (valid : validRepositoryRelativePath source = true) :
    resolveDestination source = .ok (pathComponents source) := by
  simp only [validRepositoryRelativePath, Bool.and_eq_true, Bool.not_eq_true',
    List.isEmpty_eq_false_iff, startsWith, decide_eq_false_iff_not, List.all_eq_true, bne_iff_ne,
    ne_eq] at valid
  obtain ⟨⟨nonempty, relative⟩, each⟩ := valid
  have unrooted : source.toList.head? ≠ some '/' := by
    intro rooted
    obtain ⟨rest, shape⟩ := List.head?_eq_some_iff.mp rooted
    exact relative (by simp [shape])
  have parts_ne : segments source ≠ [] := List.splitOn_ne_nil _ _
  have kept : (segments source).filter (fun part => part != [] && part != ['.']) =
      segments source := by
    refine List.filter_eq_self.mpr fun part member => ?_
    obtain ⟨⟨⟨named, single⟩, -⟩, -⟩ := each part member
    simp [named, single]
  have head : (segments source).head? ≠ some ['.'] := by
    intro found
    obtain ⟨⟨⟨-, single⟩, -⟩, -⟩ := each ['.'] (List.mem_of_head? found)
    exact single rfl
  have components : pathComponents source = (segments source).map PathComponent.normal := by
    simp only [pathComponents, if_neg unrooted, if_neg head, kept]
    refine List.map_congr_left fun part member => ?_
    obtain ⟨⟨-, double⟩, -⟩ := each part member
    rw [if_neg double]
  unfold resolveDestination
  rw [if_neg]
  simp [components, isAbsolute, unrooted, parts_ne]

/-- The length of the text of a string in JSON, where a character takes six octets at most. -/
def jsonLength (text : String) : Nat :=
  (text.toList.map fun char =>
    if char = '"' ∨ char = '\\' ∨ char.toNat < 0x20 then 6 else char.utf8Size).sum

/-- What the documents of the external crates promise. -/
structure Lawful (T : Tools) : Prop where
  collisionFree : CollisionFree T.keys
  signVerify : SignVerify T.keys
  /-- A canonical encoding of a capability is read back. -/
  capability : ∀ capability payload, T.codec.toJcs capability = some payload →
    T.codec.fromJson payload = some capability
  /-- A written capability file is read back. -/
  envelope : ∀ signed text, T.capabilityToJson signed = some text →
    T.capabilityFromJson (text ++ utf8 "\n") = some signed
  /-- A written capability file holds its strings and little else. -/
  size : ∀ signed text, T.capabilityToJson signed = some text → text.length ≤
    512 + jsonLength signed.payloadType + jsonLength signed.payload +
      (signed.signatures.map fun entry =>
        256 + jsonLength entry.keyId + jsonLength entry.signature).sum
  /-- Identifiers of keys are short. -/
  keyIds : ∀ key, (nativeKeyId T.keys key).utf8ByteSize ≤ 4096 ∧
    (legacySshKeyIdBytes T.keys key).utf8ByteSize ≤ 4096

theorem jsonLength_le (text : String) : jsonLength text ≤ 6 * text.utf8ByteSize := by
  have characters : ∀ chars : List Char,
      (chars.map fun char =>
        if char = '"' ∨ char = '\\' ∨ char.toNat < 0x20 then 6 else char.utf8Size).sum ≤
        6 * chars.utf8Encode.size := by
    intro chars
    induction chars with
    | nil => simp
    | cons char rest ih =>
        have positive := char.utf8Size_pos
        rw [List.map_cons, List.sum_cons, List.utf8Encode_cons, ByteArray.size_append]
        simp only [List.utf8Encode_singleton, List.size_toByteArray, String.length_utf8EncodeChar]
        split <;> omega
  have total := characters text.toList
  rwa [String.utf8Encode_toList] at total

theorem jsonLength_encode (bytes : Bytes) :
    jsonLength (Base64.encode bytes) = (Base64.encodeChars bytes).length := by
  have digits : ∀ digit < 64, (if Base64.digitChar digit = '"' ∨ Base64.digitChar digit = '\\' ∨
      (Base64.digitChar digit).toNat < 0x20 then 6 else (Base64.digitChar digit).utf8Size) = 1 := by
    decide
  have plain : ∀ char ∈ Base64.encodeChars bytes,
      (if char = '"' ∨ char = '\\' ∨ char.toNat < 0x20 then 6 else char.utf8Size) = 1 := by
    intro char member
    rcases Base64.isTextChar_of_mem_encodeChars member with rfl | ⟨digit, bound, rfl⟩
    · decide
    · exact digits digit bound
  rw [jsonLength, Base64.encode, String.toList_ofList, List.map_congr_left plain]
  simp

/-- A signed capability fits into the file that is read back. -/
theorem length_capabilityToJson (lawful : Lawful T) {capability : DelegatedCreateCapability}
    {key : ApprovalSigningKey T.keys} {material : KeyBytes} (has : key.HasMaterial material)
    {signed : SignedDelegatedCreateCapability}
    (made : signDelegatedCreateCapability T.keys T.codec capability key = .ok signed)
    {text : Bytes} (written : T.capabilityToJson signed = some text) :
    (text ++ utf8 "\n").length ≤ 2 * 1024 * 1024 := by
  obtain ⟨⟨⟩, -, made⟩ := Fallible.bind_eq_ok.mp made
  cases canonical : T.codec.toJcs capability with
  | none => simp [canonical] at made
  | some payload =>
      simp only [canonical, Fallible.guard_eq_ok, Nat.not_lt] at made
      obtain ⟨bounded, made⟩ := made
      obtain ⟨message, -, made⟩ := Fallible.bind_eq_ok.mp made
      obtain ⟨entry, signs, returned⟩ := Fallible.bind_eq_ok.mp made
      cases returned
      have madeBy := ApprovalSigningKey.madeBy lawful.signVerify has
        (Fallible.mapError_eq_ok.mp signs)
      have keyId : entry.keyId.utf8ByteSize ≤ 4096 := by
        rcases madeBy.named with named | named
        · rw [named]
          exact (lawful.keyIds material).1
        · rw [named]
          exact (lawful.keyIds material).2
      have payloadType : jsonLength delegatedCapabilityPayloadType ≤ 100 := by decide
      have body := jsonLength_encode payload
      rw [Base64.length_encodeChars] at body
      have names := jsonLength_le entry.keyId
      have signature := jsonLength_le entry.signature
      have short := madeBy.bounded
      have size := lawful.size _ _ written
      have newline : (utf8 "\n").length = 1 := by decide
      simp only [List.map_cons, List.map_nil, List.sum_cons, List.sum_nil] at size
      unfold maxPayloadBytes at bounded
      unfold maxSignatureBytes at short
      rw [List.length_append, newline]
      omega

theorem serialized_eq_ok {text : Option Bytes} {bytes : Bytes} :
    serialized text = .ok bytes ↔ text = some bytes := by
  unfold serialized
  cases text <;> simp

theorem runDelegatedIssue_of_ok {issue : IssueCall T} {plan : Plan} {secret : Secret}
    {recipients : List String} {key : ApprovalSigningKey T.keys} {hash recipientSet : String}
    {signed : SignedDelegatedCreateCapability} {text : Bytes}
    (brief : ¬(issue.expiresInSeconds = 0 ∨ 900 < issue.expiresInSeconds))
    (small : ¬(issue.plaintextBytes = 0 ∨ maxDelegatedPlaintextBytes < issue.plaintextBytes))
    (read : readBootstrapCreatePlan T issue.bootstrapPlan = .ok plan)
    (pending : plan.secrets[issue.secret]? = some secret)
    (derived : bootstrapRecipients T plan issue.secret = .ok recipients)
    (opened : issue.authorizerKey = .ok key)
    (ensured : ensureBootstrapAuthorizer T plan key = .ok ())
    (representable : issue.now.value.toNat + issue.expiresInSeconds.toNat < 2 ^ 64)
    (hashed : planHash T.policy plan = .ok hash)
    (listed : recipientSetHash T recipients = .ok recipientSet)
    (signs : signDelegatedCreateCapability T.keys T.codec
      (issue.capability secret.source hash recipientSet) key = .ok signed)
    (written : serialized (T.capabilityToJson signed) = .ok text) :
    runDelegatedIssue T issue = .ok (text ++ utf8 "\n") := by
  have found : pendingSecret plan issue.secret "secret is absent from bootstrap plan" = .ok secret :=
    pendingSecret_eq_ok.mpr pending
  simp only [runDelegatedIssue, if_neg brief, if_neg small, read, found, derived, opened, ensured,
    Nat.not_le.mpr representable, hashed, listed, signs, written, Except.mapError,
    Fallible.ok_bind, if_false]

/-- A creation that follows an issue: with its plan and its file, in its window, and with the
committed plaintext. -/
structure Follows (T : Tools) (issue : IssueCall T) (file : Bytes) (create : CreateCall) : Prop where
  plan : create.bootstrapPlan = issue.bootstrapPlan
  file : create.capability = file
  started : issue.now.value.toNat ≤ create.now.value.toNat
  unexpired : create.now.value.toNat < issue.now.value.toNat + issue.expiresInSeconds.toNat
  nonempty : create.stdin ≠ []
  short : create.stdin.length ≤ issue.plaintextBytes.toNat
  committed : T.sha256Hex create.stdin = issue.plaintextSha256

theorem authorizer_of_ensure (collisionFree : CollisionFree T.keys) {plan : Plan}
    {key : ApprovalSigningKey T.keys} (ensured : ensureBootstrapAuthorizer T plan key = .ok ()) :
    ∃ (id : Id) (identity : Identity) (publicKey : VerificationKey),
      plan.identities[id]? = some identity ∧ identity.kind = .authorizer ∧
      parsePublicKey T.keys identity.publicValue = .ok publicKey ∧
      key.HasMaterial publicKey.native := by
  unfold ensureBootstrapAuthorizer at ensured
  split at ensured
  · rename_i found
    obtain ⟨entry, member, matched⟩ := List.any_eq_true.mp found
    rw [Bool.and_eq_true, decide_eq_true_eq] at matched
    obtain ⟨publicKey, parsed, has⟩ :=
      ApprovalSigningKey.matchesPublicKey_eq_true collisionFree matched.2
    exact ⟨entry.1, entry.2, publicKey, Std.TreeMap.mem_toList_iff_getElem?_eq_some.mp member,
      matched.1, parsed, has⟩
  · cases ensured

/-- An issued capability is in its window for every creation that follows. -/
theorem Follows.inWindow {issue : IssueCall T} {file : Bytes} {create : CreateCall}
    (follows : Follows T issue file create)
    (representable : issue.now.value.toNat + issue.expiresInSeconds.toNat < 2 ^ 64)
    (source hash recipientSet : String) :
    InWindow (issue.capability source hash recipientSet) create.now.value 300 := by
  have expires : (issue.now.value + issue.expiresInSeconds).toNat =
      issue.now.value.toNat + issue.expiresInSeconds.toNat := by
    rw [UInt64.toNat_add]
    exact Nat.mod_eq_of_lt representable
  have skew : (300 : UInt64).toNat = 300 := rfl
  have later := create.now.signed
  have started := follows.started
  refine ⟨by omega, ?_, UInt64.le_iff_toNat_le.mpr started, UInt64.lt_iff_toNat_lt.mpr ?_⟩
  · change issue.now.value.toNat ≤ _
    omega
  · change _ < (issue.now.value + issue.expiresInSeconds).toNat
    rw [expires]
    exact follows.unexpired

theorem authorizeCreate_of_issued (lawful : Lawful T) {issue : IssueCall T} {file : Bytes}
    (issued : runDelegatedIssue T issue = .ok file) {create : CreateCall}
    (follows : Follows T issue file create) :
    ∃ authorization, authorizeCreate T create = .ok authorization ∧
      authorization.input = create.stdin ∧
      authorization.capability.secretId = issue.secret ∧
      readBootstrapCreatePlan T issue.bootstrapPlan = .ok authorization.plan := by
  simp only [runDelegatedIssue, Fallible.guard_eq_ok, not_or] at issued
  obtain ⟨⟨-, longest⟩, ⟨-, largest⟩, issued⟩ := issued
  obtain ⟨plan, read, issued⟩ := Fallible.bind_eq_ok.mp issued
  obtain ⟨secret, found, issued⟩ := Fallible.bind_eq_ok.mp issued
  obtain ⟨recipients, derived, issued⟩ := Fallible.bind_eq_ok.mp issued
  obtain ⟨key, -, issued⟩ := Fallible.bind_eq_ok.mp issued
  obtain ⟨⟨⟩, ensured, issued⟩ := Fallible.bind_eq_ok.mp issued
  rw [Fallible.guard_eq_ok, Nat.not_le] at issued
  obtain ⟨representable, issued⟩ := issued
  obtain ⟨hash, hashed, issued⟩ := Fallible.bind_eq_ok.mp issued
  obtain ⟨recipientSet, listed, issued⟩ := Fallible.bind_eq_ok.mp issued
  obtain ⟨signed, made, issued⟩ := Fallible.bind_eq_ok.mp issued
  obtain ⟨text, written, returned⟩ := Fallible.bind_eq_ok.mp issued
  cases returned
  have made := Fallible.mapError_eq_ok.mp made
  have written := serialized_eq_ok.mp written
  obtain ⟨id, identity, publicKey, stored, kind, parsed, has⟩ :=
    authorizer_of_ensure lawful.collisionFree ensured
  obtain ⟨trusted, collected, trusts⟩ := delegatedAuthorizerKeys_of_read read stored kind parsed
  have verified := verify_of_signed lawful.collisionFree lawful.signVerify made has
    (fun payload canonical => lawful.capability _ payload canonical) ⟨publicKey, trusts, rfl⟩
    (follows.inWindow representable secret.source hash recipientSet)
  have small : issue.plaintextBytes.toNat ≤ 65536 :=
    UInt64.le_iff_toNat_le.mp (UInt64.not_lt.mp largest)
  have input : readDelegatedInput T (issue.capability secret.source hash recipientSet)
      create.stdin = .ok create.stdin := by
    refine readDelegatedInput_eq_ok.mpr
      ⟨?_, rfl, follows.nonempty, follows.short, follows.committed⟩
    change issue.plaintextBytes.toNat + 1 < _
    omega
  have opened : readJsonBounded T.capabilityFromJson create.capability = .ok signed := by
    rw [follows.file]
    exact readJsonBounded_eq_ok.mpr
      ⟨length_capabilityToJson lawful has made written, lawful.envelope _ _ written⟩
  refine ⟨⟨plan, issue.capability secret.source hash recipientSet, create.stdin⟩, ?_, rfl, rfl,
    read⟩
  have known := pendingSecret_eq_ok.mp found
  have pending : pendingSecret plan issue.secret "capability secret is absent from bootstrap plan" =
      .ok secret := pendingSecret_eq_ok.mpr known
  have sameSecret : (issue.capability secret.source hash recipientSet).secretId = issue.secret := rfl
  have sameSource : (issue.capability secret.source hash recipientSet).source = secret.source := rfl
  have sameHash : (issue.capability secret.source hash recipientSet).bootstrapPlanHash = hash := rfl
  have sameSet : (issue.capability secret.source hash recipientSet).recipientSetHash =
    recipientSet := rfl
  have accepted : (verifyDelegatedCreateCapability T.keys T.codec signed trusted create.now.value
      300).mapError CommandError.capability =
        .ok (issue.capability secret.source hash recipientSet) :=
    Fallible.mapError_eq_ok.mpr verified
  unfold authorizeCreate
  simp only [follows.plan, read, opened, collected, accepted, hashed, sameHash, sameSecret,
    sameSource, sameSet, pending, derived, listed, input, Fallible.ok_bind, ne_eq,
    not_true_eq_false, or_self, if_false]

/-- A creation from an issued capability, in a system that refuses nothing. -/
theorem create_of_issued (lawful : Lawful T) {issue : IssueCall T} {file : Bytes}
    (issued : runDelegatedIssue T issue = .ok file) {create : CreateCall}
    (follows : Follows T issue file create) :
    ∃ plan secret recipients, readBootstrapCreatePlan T issue.bootstrapPlan = .ok plan ∧
      plan.secrets[issue.secret]? = some secret ∧
      bootstrapRecipients T plan issue.secret = .ok recipients ∧
      ∀ before ciphertext, before (pathComponents secret.source) = none →
        T.encrypt create.randomness recipients create.stdin = some ciphertext →
        runDelegatedCreate T create (fun _ => .pass) before =
          .ok () (Function.update before (pathComponents secret.source) (some ciphertext)) := by
  obtain ⟨authorization, accepted, input, bound, read⟩ := authorizeCreate_of_issued lawful issued
    follows
  obtain ⟨-, signed, secret, recipients, authorized⟩ := authorized_of_eq_ok accepted
  rw [← bound]
  refine ⟨authorization.plan, secret, recipients, read, authorized.pending, authorized.derived, ?_⟩
  intro before ciphertext absent encrypted
  obtain ⟨validated, -⟩ := readBootstrapCreatePlan_eq_ok read
  obtain ⟨earlier, later, checked⟩ := (acceptedPlan_of_validate validated).secrets _ _
    authorized.pending
  have valid : validRepositoryRelativePath secret.source = true := by
    have relative := (Fallible.guard_eq_ok.mp checked).1
    simpa using relative
  have resolved := resolveDestination_of_valid valid
  have pending : pendingSecret authorization.plan authorization.capability.secretId
      "secret is absent from bootstrap plan" = .ok secret :=
    pendingSecret_eq_ok.mpr authorized.pending
  have produced : staged (T.encrypt create.randomness recipients authorization.input) =
      .ok ciphertext := by
    rw [input]
    exact staged_eq_ok.mpr encrypted
  have described : (runDelegatedCreate T create).Meets (fun _ => .pass) before
      (fun _ after => after =
        Function.update before (pathComponents secret.source) (some ciphertext))
      (fun _ _ => False) fun _ => False := by
    refine Meets.lift_ok accepted (Meets.lift_ok pending (Meets.lift_ok authorized.derived ?_))
    refine Meets.bind (Meets.step_unrefused ?_)
    refine Meets.bind (Meets.step_unrefused ?_)
    refine Meets.lift_ok resolved ?_
    refine Meets.bind (Meets.step_unrefused ?_)
    refine Meets.bind (Meets.step_unrefused ?_)
    refine Meets.bind (Meets.read (Meets.bind (Meets.require (fun _ => ?_) (absurd absent))))
    refine Meets.bind (Meets.step_unrefused ?_)
    refine Meets.lift_ok produced ?_
    refine Meets.bind (Meets.read (Meets.bind (Meets.require (fun _ => ?_) (absurd absent))))
    refine Meets.bind (Meets.step_unrefused ?_)
    exact Meets.step_unrefused rfl
  rcases described.elim with ⟨⟨⟩, after, ended, rfl⟩ | ⟨_, _, _, impossible⟩ | ⟨_, _, _, impossible⟩
  · exact ended
  · exact impossible.elim
  · exact impossible.elim

namespace Sample

open Manifest.Sample (digest hexText nativeKey sshKey token)

/-- What precedes the set of recipients in its hash. -/
def recipientSetTag : Bytes := utf8 "nix-seal delegated recipient set v1\x00"

/-- The sample primitives, with a digest for sets of recipients. -/
def keys : Primitives :=
  { Manifest.Sample.primitives with
    blake3Hex := fun bytes => if recipientSetTag <+: bytes then digest else hexText bytes }

/-- The file of the sample plan. -/
def planText : Bytes :=
  utf8 "\x7b\"schema\":\"nix-seal.bootstrap-create-plan.v1\",\"identities\":\x7b\"admin\":\x7b" ++
    utf8 "\"kind\":\"administrator\",\"public\":\"" ++ utf8 Policy.Sample.adminRecipient ++
    utf8 "\"\x7d,\"authorizer\":\x7b\"kind\":\"authorizer\",\"public\":\"nix-seal-ed25519-v1:" ++
    utf8 "PUAXw+hDiVqStwqnTRt+vJyYLM8uxJaMwM1V8Sr0Zgw=\"\x7d,\"release\":\x7b\"kind\":\"signer\"," ++
    utf8 "\"public\":\"nix-seal-ed25519-v1:11qYAYKxCrfVS/7TyWQHOg7hcvPapiMlrwIaaPcHURo=\"\x7d" ++
    utf8 "\x7d,\"secrets\":\x7b\"token\":\x7b\"repositoryOnly\":true,\"source\":\"token.age\"," ++
    utf8 "\"sourceCiphertextHash\":\"" ++ utf8 bootstrapSourceHash ++ utf8 "\"\x7d\x7d\x7d"

/-- An administrator, an authorizer and a signer. -/
def identities : List (Id × Identity) :=
  [(Policy.Sample.admin, ⟨.administrator, Policy.Sample.adminRecipient⟩),
    (⟨"authorizer", by decide⟩, ⟨.authorizer, encodePublicKey sshKey⟩),
    (⟨"release", by decide⟩, ⟨.signer, encodePublicKey nativeKey⟩)]

/-- A pending secret of the repository. -/
def plan : Plan where
  schema := bootstrapCreatePlanSchema
  identities := Std.TreeMap.ofList identities
  secrets := Std.TreeMap.ofList
    [(token, { Policy.Sample.tokenSecret with
        sourceCiphertextHash := bootstrapSourceHash
        consumers := []
        repositoryOnly := true })]

/-- The nonce, SHA-256 of the plaintext and plaintext of the sample capability. -/
def nonceText : String := Base64.encodeUrl (List.replicate 32 0)

def plaintextSha256 : String := "f52fbd32b2b3b86ff88ef6c490628285f482af15ddcb29541f94bcf526a3f6c7"

def plaintext : Bytes := utf8 "hunter2"

/-- Canonical JSON of the sample capability. -/
def payload : Bytes :=
  utf8 "\x7b\"bootstrapPlanHash\":\"" ++ utf8 digest ++ utf8 "\",\"capabilityId\":\"" ++
    utf8 nonceText ++ utf8 "\",\"expiresAt\":1700000600,\"issuedAt\":1700000000," ++
    utf8 "\"maxPlaintextBytes\":7,\"notBefore\":1700000000,\"operation\":\"create\"," ++
    utf8 "\"plaintextSha256\":\"" ++ utf8 plaintextSha256 ++ utf8 "\",\"recipientSetHash\":\"" ++
    utf8 digest ++ utf8 "\",\"schema\":\"nix-seal.delegated-create-capability.v1\"," ++
    utf8 "\"secretId\":\"token\",\"source\":\"token.age\"\x7d"

/-- The sample capability. -/
def capability : DelegatedCreateCapability where
  schema := delegatedCreateCapabilitySchema
  operation := "create"
  capabilityId := nonceText
  bootstrapPlanHash := digest
  secretId := token
  source := "token.age"
  recipientSetHash := digest
  plaintextSha256 := plaintextSha256
  maxPlaintextBytes := 7
  issuedAt := 1700000000
  notBefore := 1700000000
  expiresAt := 1700000600

/-- The sample capability, signed by the authorizer. -/
def signed : SignedDelegatedCreateCapability where
  payloadType := delegatedCapabilityPayloadType
  payload := Base64.encode payload
  signatures :=
    [{ keyId := nativeKeyId keys sshKey
       algorithm := .ed25519V1
       signature := Base64.encode (Manifest.Sample.signature sshKey
         ((pae (utf8 delegatedCapabilityPayloadType) payload).toOption.getD [])).toList }]

/-- The file of the signed capability, without its last newline. -/
def signedText : Bytes :=
  utf8 "\x7b\n  \"payloadType\": \"" ++ utf8 delegatedCapabilityPayloadType ++
    utf8 "\",\n  \"payload\": \"" ++ utf8 (Base64.encode payload) ++
    utf8 "\",\n  \"signatures\": [\n    \x7b" ++
    (signed.signatures.flatMap fun entry =>
      utf8 "\n      \"keyId\": \"" ++ utf8 entry.keyId ++ utf8 "\",\n      \"signature\": \"" ++
        utf8 entry.signature) ++
    utf8 "\"\n    \x7d\n  ]\n\x7d"

/-- A table with one entry. -/
def lookup {α β : Type} [DecidableEq α] (known : α) (value : β) (query : α) : Option β :=
  if query = known then some value else none

theorem lookup_self {α β : Type} [DecidableEq α] (known : α) (value : β) :
    lookup known value known = some value :=
  if_pos rfl

theorem lookup_eq_some {α β : Type} [DecidableEq α] {known query : α} {value found : β}
    (entry : lookup known value query = some found) : query = known ∧ value = found := by
  unfold lookup at entry
  split at entry
  · rename_i same
    exact ⟨same, Option.some.inj entry⟩
  · cases entry

/-- Tools that know the sample plan and the sample capability. -/
def tools : Tools where
  policy :=
    { Policy.Sample.environment with
      keys := keys
      planToJcs := fun _ => some planText
      deriveKeyHex := fun _ _ => digest }
  codec :=
    { toJcs := lookup capability payload
      fromJson := lookup payload capability }
  planFromJson := lookup planText plan
  capabilityToJson := lookup signed signedText
  capabilityFromJson := lookup (signedText ++ utf8 "\n") signed
  recipientSetToJcs := fun recipients =>
    some (utf8 ("\x7b\"recipients\":[\"" ++ String.intercalate "\",\"" recipients ++
      "\"],\"schema\":\"nix-seal.recipient-set.v1\"\x7d"))
  sha256Hex := fun bytes => if bytes = plaintext then plaintextSha256 else ""
  recipientFingerprint := fun text =>
    if text = Policy.Sample.adminRecipient ∨ text = Policy.Sample.hostRecipient then some digest
    else none
  encrypt := fun _ _ input => some (utf8 "age-encryption.org/v1\n" ++ input)

theorem toJcs_tools : tools.codec.toJcs = lookup capability payload := rfl

theorem fromJson_tools : tools.codec.fromJson = lookup payload capability := rfl

theorem planFromJson_tools : tools.planFromJson = lookup planText plan := rfl

theorem capabilityToJson_tools : tools.capabilityToJson = lookup signed signedText := rfl

theorem capabilityFromJson_tools :
    tools.capabilityFromJson = lookup (signedText ++ utf8 "\n") signed := rfl

/-- The sample capability is issued. -/
def issue : IssueCall tools where
  bootstrapPlan := planText
  secret := token
  plaintextSha256 := plaintextSha256
  plaintextBytes := 7
  expiresInSeconds := 600
  authorizerKey := .ok (.ed25519 sshKey)
  now := ⟨1700000000, by decide⟩
  nonce := Vector.replicate 32 0

/-- And used five minutes later. -/
def create : CreateCall where
  bootstrapPlan := planText
  capability := signedText ++ utf8 "\n"
  stdin := plaintext
  now := ⟨1700000300, by decide⟩
  randomness := 0


/-- The hash of a set of recipients is no hash of a key. -/
theorem not_prefix_of_key {label : Bytes} (key : Bytes)
    (length : 9 ≤ label.length) (different : recipientSetTag.take 9 ≠ label.take 9) :
    ¬recipientSetTag <+: label ++ key := by
  intro inside
  obtain ⟨rest, split⟩ := inside
  have fronts := congrArg (List.take 9) split
  have tag : 9 ≤ recipientSetTag.length := by decide
  rw [List.take_append_of_le_length tag, List.take_append_of_le_length length] at fronts
  exact different fronts

theorem blake3Hex_keys {bytes : Bytes} (apart : ¬recipientSetTag <+: bytes) :
    keys.blake3Hex bytes = hexText bytes :=
  if_neg apart

theorem nativeKeyId_keys (key : KeyBytes) :
    nativeKeyId keys key = nativeKeyId Manifest.Sample.primitives key := by
  rw [nativeKeyId, blake3Hex_keys (not_prefix_of_key key.toList (by decide)
    (by decide))]
  rfl

theorem legacySshKeyIdBytes_keys (key : KeyBytes) :
    legacySshKeyIdBytes keys key = legacySshKeyIdBytes Manifest.Sample.primitives key := by
  rw [legacySshKeyIdBytes, blake3Hex_keys (not_prefix_of_key (utf8 (sshEd25519Line key))
    (by decide) (by decide))]
  rfl

theorem length_hexText (bytes : Bytes) : (hexText bytes).length = 2 * bytes.length := by
  rw [hexText, String.length_ofList]
  induction bytes with
  | nil => rfl
  | cons octet rest ih =>
      rw [List.flatMap_cons, List.length_append, ih, List.length_cons]
      change 2 + _ = _
      omega

theorem length_keyId (label : String) {prefixed : Bytes} (length : prefixed.length ≤ 400)
    (short : label.length ≤ 20) : (label ++ hexText prefixed).utf8ByteSize ≤ 4096 := by
  have octets := utf8ByteSize_le (label ++ hexText prefixed)
  rw [String.length_append, length_hexText] at octets
  omega

theorem sshSignature_of_comment {key : SshPublicKey} {sshNamespace : String} {message : Bytes}
    {text : String} {material : KeyBytes}
    (made : Manifest.Sample.sshSignature key sshNamespace message = some text)
    (data : key.keyData = .ed25519 material) (comment : String) :
    startsWith "-----BEGIN SSH SIGNATURE-----\n" text = true ∧
      Manifest.Sample.sshSignature ⟨.ed25519 material, comment⟩ sshNamespace message =
        some text := by
  simp only [Manifest.Sample.sshSignature, data, Option.some.injEq] at made ⊢
  rw [← made]
  simp [startsWith]

theorem signVerify : SignVerify keys where
  native key message := beq_self_eq_true _
  pem signature text written := by
    cases written
    rfl
  ssh key sshNamespace message signature material comment made data :=
    have verifies := sshSignature_of_comment made data comment
    ⟨verifies.1, beq_iff_eq.mpr verifies.2⟩
  agent publicKey socket sshNamespace message data blob raw signature material comment _ _ made := by
    cases made

theorem length_planText : planText.length ≤ 2 * 1024 * 1024 := by
  decide +kernel

theorem length_payload : payload.length ≤ maxPayloadBytes := by
  decide +kernel

theorem utf8ByteSize_le_jsonLength (text : String) : text.utf8ByteSize ≤ jsonLength text := by
  have characters : ∀ chars : List Char, chars.utf8Encode.size ≤
      (chars.map fun char =>
        if char = '"' ∨ char = '\\' ∨ char.toNat < 0x20 then 6 else char.utf8Size).sum := by
    intro chars
    induction chars with
    | nil => simp
    | cons char rest ih =>
        have size := char.utf8Size_le_four
        rw [List.map_cons, List.sum_cons, List.utf8Encode_cons, ByteArray.size_append]
        simp only [List.utf8Encode_singleton, List.size_toByteArray, String.length_utf8EncodeChar]
        split <;> omega
  have total := characters text.toList
  rwa [String.utf8Encode_toList] at total

theorem length_signedText : signedText.length ≤
    512 + jsonLength signed.payloadType + jsonLength signed.payload +
      (signed.signatures.map fun entry =>
        256 + jsonLength entry.keyId + jsonLength entry.signature).sum := by
  have lengths : ∀ text : String, (utf8 text).length ≤ jsonLength text := by
    intro text
    rw [length_utf8]
    exact utf8ByteSize_le_jsonLength text
  have payloadType := lengths signed.payloadType
  have body := lengths signed.payload
  have entries : ∀ entry : EnvelopeSignature, (utf8 "\n      \"keyId\": \"" ++ utf8 entry.keyId ++
      utf8 "\",\n      \"signature\": \"" ++ utf8 entry.signature).length ≤
        256 + jsonLength entry.keyId + jsonLength entry.signature := by
    intro entry
    have keyId := lengths entry.keyId
    have signature := lengths entry.signature
    have opening : (utf8 "\n      \"keyId\": \"").length = 17 := by decide
    have middle : (utf8 "\",\n      \"signature\": \"").length = 23 := by decide
    simp only [List.length_append, opening, middle]
    omega
  have opening : (utf8 "\x7b\n  \"payloadType\": \"").length = 20 := by decide
  have second : (utf8 "\",\n  \"payload\": \"").length = 17 := by decide
  have third : (utf8 "\",\n  \"signatures\": [\n    \x7b").length = 26 := by decide
  have closing : (utf8 "\"\n    \x7d\n  ]\n\x7d").length = 13 := by decide
  have listed : (signed.signatures.flatMap fun entry => utf8 "\n      \"keyId\": \"" ++
      utf8 entry.keyId ++ utf8 "\",\n      \"signature\": \"" ++ utf8 entry.signature).length ≤
        (signed.signatures.map fun entry =>
          256 + jsonLength entry.keyId + jsonLength entry.signature).sum := by
    rw [List.length_flatMap]
    exact List.sum_le_sum fun entry _ => entries entry
  change (utf8 _ ++ utf8 signed.payloadType ++ utf8 _ ++ utf8 signed.payload ++ utf8 _ ++
    List.flatMap _ _ ++ utf8 _).length ≤ _
  simp only [List.length_append, opening, second, third, closing] at listed ⊢
  omega

theorem length_keyIds (key : KeyBytes) : (nativeKeyId keys key).utf8ByteSize ≤ 4096 ∧
    (legacySshKeyIdBytes keys key).utf8ByteSize ≤ 4096 := by
  have blob : (sshEd25519Blob key).length = 51 := by
    have front : (beU32 11 ++ utf8 "ssh-ed25519" ++ beU32 32).length = 19 := by decide
    rw [sshEd25519Blob, List.length_append, front, Vector.length_toList]
  have line : (utf8 (sshEd25519Line key)).length ≤ 320 := by
    rw [length_utf8]
    have octets := utf8ByteSize_le (sshEd25519Line key)
    have opening : "ssh-ed25519 ".length = 12 := by decide
    have length : (sshEd25519Line key).length = 80 := by
      rw [sshEd25519Line, String.length_append, opening, Base64.encode, String.length_ofList,
        Base64.length_encodeChars, blob]
    omega
  have native : (utf8 "nix-seal.ed25519-key-id.v1\x00").length = 27 := by decide
  have legacy : (utf8 "nix-seal.ssh-ed25519-key-id.v1\x00").length = 31 := by decide
  rw [nativeKeyId_keys, legacySshKeyIdBytes_keys]
  constructor
  · refine length_keyId _ ?_ (by decide)
    rw [List.length_append, native, Vector.length_toList]
    decide
  · refine length_keyId _ ?_ (by decide)
    rw [List.length_append, legacy]
    omega

theorem lawful : Lawful tools where
  collisionFree :=
    { native := fun left right same => Manifest.Sample.collisionFree.native (by
        rw [← nativeKeyId_keys, ← nativeKeyId_keys]
        exact same)
      legacy := fun left right same => Manifest.Sample.collisionFree.legacy (by
        rw [← legacySshKeyIdBytes_keys, ← legacySshKeyIdBytes_keys]
        exact same) }
  signVerify := signVerify
  capability body bytes written := by
    rw [toJcs_tools] at written
    obtain ⟨same, rest⟩ := lookup_eq_some written
    rw [same, ← rest, fromJson_tools, lookup_self]
  envelope body text written := by
    rw [capabilityToJson_tools] at written
    obtain ⟨same, rest⟩ := lookup_eq_some written
    rw [same, ← rest, capabilityFromJson_tools, lookup_self]
  size body text written := by
    rw [capabilityToJson_tools] at written
    obtain ⟨same, rest⟩ := lookup_eq_some written
    rw [same, ← rest]
    exact length_signedText
  keyIds := length_keyIds

/-- The sample plan under the schema of ordinary plans. -/
def current : Plan := { plan with schema := planSchema }

theorem toList_identities : current.identities.toList = identities := by
  decide

theorem parsePublicKey_keys (key : KeyBytes) :
    parsePublicKey tools.keys (encodePublicKey key) = .ok (Manifest.Sample.verificationKey key) :=
  parsePublicKey_encodePublicKey rfl

theorem nativeKeyId_ne : nativeKeyId tools.keys nativeKey ≠ nativeKeyId tools.keys sshKey := by
  intro same
  exact absurd (lawful.collisionFree.native same) (by decide)

theorem publicKeyId_keys (key : KeyBytes) :
    publicKeyId tools.keys (encodePublicKey key) = .ok (nativeKeyId tools.keys key) := by
  rw [publicKeyId, parsePublicKey_keys, Fallible.ok_bind]
  rfl

theorem registerSigner_identities :
    ∃ signers, identities.foldlM (registerSigner tools.policy) {} = .ok signers := by
  have first : registerSigner tools.policy {}
      (⟨"authorizer", by decide⟩, ⟨.authorizer, encodePublicKey sshKey⟩) = .ok _ :=
    Policy.Sample.registerSigner_of_fresh rfl (publicKeyId_keys sshKey) Std.TreeMap.getElem?_emptyc
  have absent : ∀ id : Id, (({} : Std.TreeMap String Id).insert (nativeKeyId tools.keys sshKey)
      id)[nativeKeyId tools.keys nativeKey]? = none := by
    intro id
    rw [Std.TreeMap.getElem?_insert, if_neg]
    · exact Std.TreeMap.getElem?_emptyc
    · intro same
      exact nativeKeyId_ne (Std.LawfulEqOrd.eq_of_compare same).symm
  have second : registerSigner tools.policy _
      (⟨"release", by decide⟩, ⟨.signer, encodePublicKey nativeKey⟩) = .ok _ :=
    Policy.Sample.registerSigner_of_fresh rfl (publicKeyId_keys nativeKey)
      (absent ⟨"authorizer", by decide⟩)
  have administrator : registerSigner tools.policy {}
      (Policy.Sample.admin, ⟨.administrator, Policy.Sample.adminRecipient⟩) = .ok {} := rfl
  rw [identities, List.foldlM_cons, administrator, Fallible.ok_bind, List.foldlM_cons, first,
    Fallible.ok_bind, List.foldlM_cons, second, Fallible.ok_bind]
  exact ⟨_, rfl⟩

theorem validateIdentityKey_identities :
    (identities.forM fun entry => validateIdentityKey tools.policy entry.1 entry.2) = .ok () := by
  have recipient : normalizeRecipient tools.policy Policy.Sample.adminRecipient =
      some Policy.Sample.adminRecipient := by
    simp only [normalizeRecipient, normalizeRecipientInner, tools, Policy.Sample.environment,
      true_or, if_true]
  have keyed : ∀ key, validatePublicKey tools.keys (encodePublicKey key) = .ok () := by
    intro key
    rw [validatePublicKey, parsePublicKey_keys, Fallible.ok_bind]
  have verifier : ∀ (id : Id) (kind : IdentityKind) (key : KeyBytes),
      Policy.IdentityKind.isRecipient kind = false →
        validateIdentityKey tools.policy id ⟨kind, encodePublicKey key⟩ = .ok () := by
    intro id kind key other
    simp only [validateIdentityKey, other, keyed]
    simp [Except.isOk, Except.toBool]
  refine Fallible.forM_eq_ok.mpr fun entry member => ?_
  simp only [identities, List.mem_cons, List.not_mem_nil, or_false] at member
  rcases member with rfl | rfl | rfl
  · simp [validateIdentityKey, recipient, Policy.IdentityKind.isVerifier]
  · exact verifier _ _ sshKey rfl
  · exact verifier _ _ nativeKey rfl

theorem validated : validate tools.policy current = .ok () := by
  have schema : ensureSchema current = .ok () := rfl
  have small : ([current.identities.size, current.groups.size, current.targets.size,
      current.secrets.size, current.generators.size, current.templates.size,
      current.approvalPolicies.size, current.backends.size].any fun count => 10000 < count) =
        false := by
    decide
  have namespaces : validateAuthorizationNamespace current = .ok () := by decide
  have groups : validateGroupGraph current = .ok () := by decide
  have bounded : (identities.any fun entry =>
      entry.2.publicValue.toList.isEmpty || entry.2.publicValue.utf8ByteSize > 16 * 1024) =
        false := by
    have administrator := Policy.Sample.admitted_adminRecipient
    have authorizer := Policy.Sample.admitted_encodePublicKey sshKey
    have release := Policy.Sample.admitted_encodePublicKey nativeKey
    simp only [identities, List.any_cons, List.any_nil, administrator, authorizer, release,
      decide_false, Bool.or_false]
  obtain ⟨signers, registered⟩ := registerSigner_identities
  have targets : (current.targets.toList.forM fun entry =>
      validateTargetIdentity current entry.1 entry.2) = .ok () := rfl
  have secrets : validateSecrets tools.policy current = .ok () := by decide
  have templates : validateTemplates tools.policy current = .ok () := rfl
  have approvals : (current.approvalPolicies.toList.forM fun entry =>
      validateApproval current entry.1 entry.2) = .ok () := rfl
  have generators : validateGeneratorGraph current = .ok () := by decide
  unfold validate
  rw [schema, Fallible.ok_bind, if_neg (by simp [small]), namespaces, Fallible.ok_bind, groups,
    Fallible.ok_bind, toList_identities, if_neg (by simp [bounded]),
    validateIdentityKey_identities, Fallible.ok_bind, registered, Fallible.ok_bind, targets,
    Fallible.ok_bind, secrets, Fallible.ok_bind, templates, Fallible.ok_bind, approvals,
    Fallible.ok_bind, generators]

theorem material : validatePlanIdentityMaterial tools current = .ok () := by
  have fingerprint : (tools.recipientFingerprint Policy.Sample.adminRecipient).isNone = false := by
    simp only [tools, true_or, if_true, Option.isNone_some]
  have administrator : checkIdentityMaterial tools .empty
      (Policy.Sample.admin, ⟨.administrator, Policy.Sample.adminRecipient⟩) = .ok .empty := by
    simp only [checkIdentityMaterial, fingerprint, Bool.false_eq_true, if_false]
  have keyed : ∀ (trusted : TrustedKeys tools.keys) (id : Id) (kind : IdentityKind) (key : KeyBytes),
      kind = .signer ∨ kind = .authorizer → nativeKeyId tools.keys key ∉ trusted.keys →
        checkIdentityMaterial tools trusted (id, ⟨kind, encodePublicKey key⟩) =
          .ok (trusted.add (Manifest.Sample.verificationKey key)) := by
    intro trusted id kind key verifier fresh
    have inserted := insertEncoded_eq_ok.mpr ⟨_, parsePublicKey_keys key, fresh, rfl, rfl⟩
    rcases verifier with rfl | rfl <;> simp only [checkIdentityMaterial, inserted]
  have first := keyed .empty ⟨"authorizer", by decide⟩ .authorizer sshKey (.inr rfl)
    (by simp [TrustedKeys.empty])
  have second := keyed (TrustedKeys.empty.add (Manifest.Sample.verificationKey sshKey))
    ⟨"release", by decide⟩ .signer nativeKey (.inl rfl) (by
      intro present
      rcases Std.TreeMap.mem_insert.mp present with same | absent
      · exact nativeKeyId_ne (Std.LawfulEqOrd.eq_of_compare same).symm
      · simp [TrustedKeys.empty] at absent)
  rw [validatePlanIdentityMaterial, toList_identities, identities, List.foldlM_cons, administrator,
    Fallible.ok_bind, List.foldlM_cons, first, Fallible.ok_bind, List.foldlM_cons, second,
    Fallible.ok_bind, List.foldlM_nil]
  rfl

theorem read : readBootstrapCreatePlan tools planText = .ok plan := by
  have parsed : readJsonBounded tools.planFromJson planText = .ok plan := by
    rw [planFromJson_tools]
    exact readJsonBounded_eq_ok.mpr ⟨length_planText, lookup_self planText plan⟩
  have pending : (plan.secrets.toList.any fun entry =>
      entry.2.sourceCiphertextHash ≠ bootstrapSourceHash) = false := by
    decide
  have expected : ¬(plan.schema ≠ bootstrapCreatePlanSchema ∨ plan.secrets.isEmpty = true) := by
    rintro (other | empty)
    · exact other rfl
    · cases empty
  rw [readBootstrapCreatePlan, parsed, Fallible.ok_bind, if_neg expected, pending]
  change (do
    (validate tools.policy current).mapError CommandError.policy
    validatePlanIdentityMaterial tools current
    Except.ok plan) = _
  rw [validated, material]
  rfl

/-- The sample secret is encrypted for the administrator. -/
theorem derived : bootstrapRecipients tools plan token = .ok [Policy.Sample.adminRecipient] := by
  have administrators : administratorIds current
      { Policy.Sample.tokenSecret with
        sourceCiphertextHash := bootstrapSourceHash
        consumers := []
        repositoryOnly := true } = .ok [Policy.Sample.admin] := by
    decide
  change (do
    let policy ← (secretRecipients tools.policy current token).mapError CommandError.policy
    Except.ok (Std.TreeSet.ofList policy.recipients.values).toList) = _
  have stored : current.secrets[token]? = some
      { Policy.Sample.tokenSecret with
        sourceCiphertextHash := bootstrapSourceHash
        consumers := []
        repositoryOnly := true } := rfl
  rw [secretRecipients, validated, Fallible.ok_bind, stored]
  simp only [administrators, Fallible.ok_bind]
  decide

theorem ensured : ensureBootstrapAuthorizer tools plan (.ed25519 sshKey) = .ok () := by
  have matched : (ApprovalSigningKey.ed25519 sshKey : ApprovalSigningKey tools.keys).matchesPublicKey
      (encodePublicKey sshKey) = true := by
    simp only [ApprovalSigningKey.matchesPublicKey, ApprovalSigningKey.keyId, parsePublicKey_keys]
    exact decide_eq_true rfl
  have found : (plan.identities.toList.any fun entry => entry.2.kind = .authorizer &&
      (ApprovalSigningKey.ed25519 sshKey : ApprovalSigningKey tools.keys).matchesPublicKey
        entry.2.publicValue) = true := by
    refine List.any_eq_true.mpr
      ⟨(⟨"authorizer", by decide⟩, ⟨.authorizer, encodePublicKey sshKey⟩), ?_, ?_⟩
    · change _ ∈ current.identities.toList
      rw [toList_identities]
      simp [identities]
    · simp only [matched]
      rfl
  exact if_pos found

theorem listed : recipientSetHash tools [Policy.Sample.adminRecipient] = .ok digest := by
  have tagged : ∀ payload, tools.keys.blake3Hex (recipientSetTag ++ payload) = digest := by
    intro payload
    simp only [Tools.keys, tools, keys, List.prefix_append, if_true]
  exact congrArg Except.ok (tagged _)

theorem validated_capability : validateDelegatedCapability capability = .ok () := by
  decide +kernel

theorem signs : signDelegatedCreateCapability keys tools.codec capability (.ed25519 sshKey) =
    .ok signed := by
  have written : tools.codec.toJcs capability = some payload := by
    rw [toJcs_tools, lookup_self]
  obtain ⟨message, encoded⟩ := exists_pae_of_le
    (show (utf8 delegatedCapabilityPayloadType).length ≤ maxPayloadBytes by decide)
    length_payload
  simp only [signDelegatedCreateCapability, validated_capability, written, Nat.not_lt.mpr length_payload,
    encoded, Except.mapError, Fallible.ok_bind, if_false, ApprovalSigningKey.signWithNamespace,
    signed, Except.toOption, Option.getD_some]
  rfl

theorem issued : runDelegatedIssue tools issue = .ok (signedText ++ utf8 "\n") := by
  have bound : issue.capability "token.age" digest digest = capability := by
    simp only [IssueCall.capability, issue, capability, nonceText, Vector.toList_replicate]
    decide
  have written : serialized (tools.capabilityToJson signed) = .ok signedText := by
    rw [capabilityToJson_tools]
    exact serialized_eq_ok.mpr (lookup_self signed signedText)
  refine runDelegatedIssue_of_ok (by decide) (by decide) read rfl derived rfl ensured (by decide)
    rfl listed ?_ written
  exact bound ▸ signs

theorem follows : Follows tools issue (signedText ++ utf8 "\n") create := by
  have committed : tools.sha256Hex plaintext = plaintextSha256 := by
    simp only [tools, if_true]
  exact ⟨rfl, rfl, by decide, by decide, by decide, by decide, committed⟩

end Sample

end NixSeal.Delegation
