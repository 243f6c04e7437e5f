import NixSeal.Manifest.Soundness

/-!
# Delegated create capabilities

A capability authorizes the creation of one ciphertext.  It is signed under a payload type and an
OpenSSH namespace of its own, and it is accepted in a window of at most fifteen minutes.
-/

namespace NixSeal
namespace Manifest

/-- `DelegatedCreateCapabilityV1`. -/
structure DelegatedCreateCapability where
  /-- Must equal `delegatedCreateCapabilitySchema`. -/
  schema : String
  operation : String
  /-- Random nonce of 32 octets. -/
  capabilityId : String
  bootstrapPlanHash : String
  secretId : Id
  source : String
  recipientSetHash : String
  plaintextSha256 : String
  maxPlaintextBytes : UInt64
  issuedAt : UInt64
  notBefore : UInt64
  expiresAt : UInt64
  deriving DecidableEq

/-- `SignedDelegatedCreateCapabilityV1`. -/
structure SignedDelegatedCreateCapability where
  payloadType : String
  payload : String
  signatures : List EnvelopeSignature
  deriving DecidableEq

/-- The JSON crates on capabilities. -/
structure CapabilityCodec where
  /-- `serde_jcs::to_vec`. -/
  toJcs : DelegatedCreateCapability → Option Bytes
  /-- `serde_json::from_slice`. -/
  fromJson : Bytes → Option DelegatedCreateCapability

/-- A failure of the capability functions. -/
inductive CapabilityError where
  | manifest (error : ManifestError)
  /-- Overflow of an unchecked operation: a panic in a build with overflow checks. -/
  | overflow
  deriving DecidableEq

def delegatedCapabilityPayloadType : String :=
  "application/vnd.nix-seal.delegated-create-capability.v1+json"

def delegatedCapabilitySshNamespace : String := "nix-seal-delegated-create-capability-v1"

def delegatedCreateCapabilitySchema : String := "nix-seal.delegated-create-capability.v1"

def maxDelegatedPlaintextBytes : UInt64 := 65536

/-- Subtraction of `u64` values. -/
def subU64 (left right : UInt64) : Except CapabilityError UInt64 :=
  if right ≤ left then .ok (left - right) else .error .overflow

/-- The clauses of `validate_delegated_capability` before the lifetime. -/
def malformed (capability : DelegatedCreateCapability) : Bool :=
  capability.schema ≠ delegatedCreateCapabilitySchema
    || capability.operation ≠ "create"
    || !isDigest capability.bootstrapPlanHash
    || !isDigest capability.recipientSetHash
    || !isDigest capability.plaintextSha256
    || capability.source.toList.isEmpty
    || startsWith "/" capability.source
    || containsText ".." capability.source
    || containsText "/./" capability.source
    || capability.maxPlaintextBytes = 0
    || maxDelegatedPlaintextBytes < capability.maxPlaintextBytes
    || capability.notBefore < capability.issuedAt
    || capability.expiresAt ≤ capability.notBefore

/-- `validate_delegated_capability`. -/
def validateDelegatedCapability (capability : DelegatedCreateCapability) :
    Except CapabilityError Unit :=
  if malformed capability then .error (.manifest .binding)
  else do
    let lifetime ← subU64 capability.expiresAt capability.issuedAt
    if 900 < lifetime then .error (.manifest .binding)
    else
      match Base64.decodeUrl capability.capabilityId with
      | none => .error (.manifest .binding)
      | some id => if id.length ≠ 32 then .error (.manifest .binding) else .ok ()

variable (P : Primitives) (C : CapabilityCodec)

/-- `sign_delegated_create_capability`. -/
def signDelegatedCreateCapability (capability : DelegatedCreateCapability)
    (key : ApprovalSigningKey P) : Except CapabilityError SignedDelegatedCreateCapability := do
  validateDelegatedCapability capability
  match C.toJcs capability with
  | none => .error (.manifest .json)
  | some payload =>
      if maxPayloadBytes < payload.length then .error (.manifest .limit)
      else do
        let message ← (pae (utf8 delegatedCapabilityPayloadType) payload).mapError .manifest
        let entry ← (key.signWithNamespace message delegatedCapabilitySshNamespace).mapError
          .manifest
        .ok
          { payloadType := delegatedCapabilityPayloadType
            payload := Base64.encode payload
            signatures := [entry] }

/-- The time check of `verify_delegated_create_capability`. -/
def checkWindow (capability : DelegatedCreateCapability) (now allowedClockSkew : UInt64) :
    Except CapabilityError Unit :=
  let latestIssued := now.toNat + allowedClockSkew.toNat
  if 2 ^ 64 ≤ latestIssued then .error (.manifest .time)
  else if latestIssued < capability.issuedAt.toNat || now < capability.notBefore ||
      capability.expiresAt ≤ now then
    .error (.manifest .time)
  else .ok ()

/-- The signature check of `verify_delegated_create_capability`. -/
def checkAuthorizer (trusted : TrustedKeys P) (message : Bytes) (entry : EnvelopeSignature) :
    Except CapabilityError Unit :=
  if entry.keyId.toList.isEmpty || maxSignatureBytes < entry.signature.utf8ByteSize then
    .error (.manifest .limit)
  else
    match trusted.values.find? fun key => key.matchesWireId P entry.keyId with
    | none => .error (.manifest .untrustedSigner)
    | some key =>
        (verifySignatureEntry P entry key message delegatedCapabilitySshNamespace).mapError
          .manifest

/-- `verify_delegated_create_capability`. -/
def verifyDelegatedCreateCapability (envelope : SignedDelegatedCreateCapability)
    (trusted : TrustedKeys P) (now allowedClockSkew : UInt64) :
    Except CapabilityError DelegatedCreateCapability :=
  match envelope.signatures with
  | [entry] =>
      if envelope.payloadType ≠ delegatedCapabilityPayloadType then .error (.manifest .version)
      else
        match Base64.decode envelope.payload with
        | none => .error (.manifest .json)
        | some payload =>
            if maxPayloadBytes < payload.length then .error (.manifest .limit)
            else
              match C.fromJson payload with
              | none => .error (.manifest .json)
              | some capability => do
                  validateDelegatedCapability capability
                  if C.toJcs capability ≠ some payload then .error (.manifest .json)
                  else do
                    checkWindow capability now allowedClockSkew
                    let message ← (pae (utf8 envelope.payloadType) payload).mapError .manifest
                    checkAuthorizer P trusted message entry
                    .ok capability
  | _ => .error (.manifest .version)

variable {P C}

/-- What the validator accepts. -/
structure WellFormed (capability : DelegatedCreateCapability) : Prop where
  schema : capability.schema = delegatedCreateCapabilitySchema
  operation : capability.operation = "create"
  planHash : isDigest capability.bootstrapPlanHash = true
  recipientSetHash : isDigest capability.recipientSetHash = true
  plaintextSha256 : isDigest capability.plaintextSha256 = true
  source : capability.source.toList ≠ [] ∧ startsWith "/" capability.source = false ∧
    containsText ".." capability.source = false ∧ containsText "/./" capability.source = false
  positive : 0 < capability.maxPlaintextBytes
  bounded : capability.maxPlaintextBytes ≤ maxDelegatedPlaintextBytes
  issued : capability.issuedAt ≤ capability.notBefore
  lasting : capability.notBefore < capability.expiresAt
  lifetime : capability.expiresAt.toNat - capability.issuedAt.toNat ≤ 900
  nonce : ∃ id, Base64.decodeUrl capability.capabilityId = some id ∧ id.length = 32

/-- The clauses before the lifetime protect the subtraction. -/
theorem issuedAt_le_expiresAt {capability : DelegatedCreateCapability}
    (formed : malformed capability = false) : capability.issuedAt ≤ capability.expiresAt := by
  simp only [malformed, Bool.or_eq_false_iff, decide_eq_false_iff_not, UInt64.not_lt,
    UInt64.not_le] at formed
  obtain ⟨⟨-, issued⟩, lasting⟩ := formed
  exact UInt64.le_of_lt (UInt64.lt_of_le_of_lt issued lasting)

theorem malformed_eq_false_iff {capability : DelegatedCreateCapability} :
    malformed capability = false ↔
      capability.schema = delegatedCreateCapabilitySchema ∧ capability.operation = "create" ∧
      isDigest capability.bootstrapPlanHash = true ∧
      isDigest capability.recipientSetHash = true ∧
      isDigest capability.plaintextSha256 = true ∧
      (capability.source.toList ≠ [] ∧ startsWith "/" capability.source = false ∧
        containsText ".." capability.source = false ∧
        containsText "/./" capability.source = false) ∧
      0 < capability.maxPlaintextBytes ∧
      capability.maxPlaintextBytes ≤ maxDelegatedPlaintextBytes ∧
      capability.issuedAt ≤ capability.notBefore ∧
      capability.notBefore < capability.expiresAt := by
  have positive : capability.maxPlaintextBytes ≠ 0 ↔ 0 < capability.maxPlaintextBytes :=
    UInt64.pos_iff_ne_zero.symm
  simp only [malformed, Bool.or_eq_false_iff, decide_eq_false_iff_not, not_not,
    Bool.not_eq_false', UInt64.not_lt, UInt64.not_le, List.isEmpty_eq_false_iff, positive,
    ne_eq]
  tauto

theorem validateDelegatedCapability_eq_ok_iff {capability : DelegatedCreateCapability} :
    validateDelegatedCapability capability = .ok () ↔ WellFormed capability := by
  have limit : ∀ lifetime : UInt64, ¬900 < lifetime ↔ lifetime.toNat ≤ 900 := by
    intro lifetime
    rw [UInt64.lt_iff_toNat_lt]
    exact Nat.not_lt
  unfold validateDelegatedCapability
  cases formed : malformed capability with
  | true =>
      simp only [if_true, reduceCtorEq, false_iff]
      intro wellFormed
      have clear := malformed_eq_false_iff.mpr ⟨wellFormed.schema, wellFormed.operation,
        wellFormed.planHash, wellFormed.recipientSetHash, wellFormed.plaintextSha256,
        wellFormed.source, wellFormed.positive, wellFormed.bounded, wellFormed.issued,
        wellFormed.lasting⟩
      rw [formed] at clear
      cases clear
  | false =>
      have ordered := issuedAt_le_expiresAt formed
      have difference := UInt64.toNat_sub_of_le _ _ ordered
      obtain ⟨schema, operation, planHash, recipientSetHash, plaintextSha256, source, positive,
        bounded, issued, lasting⟩ := malformed_eq_false_iff.mp formed
      simp only [Bool.false_eq_true, if_false, subU64, if_pos ordered, Fallible.ok_bind,
        Fallible.guard_eq_ok, limit, difference]
      constructor
      · rintro ⟨lifetime, decoded⟩
        refine ⟨schema, operation, planHash, recipientSetHash, plaintextSha256, source, positive,
          bounded, issued, lasting, lifetime, ?_⟩
        cases found : Base64.decodeUrl capability.capabilityId with
        | none => simp [found] at decoded
        | some id => exact ⟨id, rfl, by simpa [found, Fallible.guard_eq_ok] using decoded⟩
      · rintro wellFormed
        obtain ⟨id, found, length⟩ := wellFormed.nonce
        exact ⟨wellFormed.lifetime, by simp [found, length]⟩

/-- The times at which a capability is accepted. -/
structure InWindow (capability : DelegatedCreateCapability) (now allowedClockSkew : UInt64) :
    Prop where
  representable : now.toNat + allowedClockSkew.toNat < 2 ^ 64
  issued : capability.issuedAt.toNat ≤ now.toNat + allowedClockSkew.toNat
  started : capability.notBefore ≤ now
  unexpired : now < capability.expiresAt

theorem checkWindow_eq_ok_iff {capability : DelegatedCreateCapability}
    {now allowedClockSkew : UInt64} :
    checkWindow capability now allowedClockSkew = .ok () ↔
      InWindow capability now allowedClockSkew := by
  simp only [checkWindow, Fallible.guard_eq_ok, Bool.or_eq_true, decide_eq_true_eq, not_or,
    Nat.not_lt, Nat.not_le, UInt64.not_lt, UInt64.not_le, and_true]
  constructor
  · rintro ⟨representable, ⟨issued, started⟩, unexpired⟩
    exact ⟨representable, issued, started, unexpired⟩
  · rintro ⟨representable, issued, started, unexpired⟩
    exact ⟨representable, ⟨issued, started⟩, unexpired⟩

/-- An entry is a valid capability signature by a trusted key that its wire identifier names. -/
structure Authorizes (trusted : TrustedKeys P) (message : Bytes) (entry : EnvelopeSignature)
    (key : VerificationKey) : Prop where
  trusted : trusted.Trusts key
  named : Names P entry.keyId key.native
  valid : ValidUnder P delegatedCapabilitySshNamespace message entry key

theorem checkAuthorizer_eq_ok {trusted : TrustedKeys P} {message : Bytes}
    {entry : EnvelopeSignature} (checked : checkAuthorizer P trusted message entry = .ok ()) :
    ∃ key, Authorizes trusted message entry key := by
  rw [checkAuthorizer, Fallible.guard_eq_ok] at checked
  obtain ⟨-, checked⟩ := checked
  cases found : trusted.values.find? fun key => key.matchesWireId P entry.keyId with
  | none => simp [found] at checked
  | some key =>
      rw [found] at checked
      have matched := List.find?_some found
      exact ⟨key, (trusted.mem_values_iff key).mp (List.mem_of_find?_eq_some found),
        (key.matchesWireId_iff P entry.keyId).mp matched,
        verifySignatureEntry_eq_ok_iff.mp (Fallible.mapError_eq_ok.mp checked)⟩

/-- Whichever key the lookup finds, it has the material the entry names. -/
theorem checkAuthorizer_of_named (collisionFree : CollisionFree P) {trusted : TrustedKeys P}
    {message : Bytes} {entry : EnvelopeSignature} {material : KeyBytes}
    (named : Names P entry.keyId material) (nonempty : entry.keyId.toList ≠ [])
    (bounded : entry.signature.utf8ByteSize ≤ maxSignatureBytes)
    (known : ∃ key, trusted.Trusts key ∧ key.native = material)
    (valid : ∀ key : VerificationKey, key.native = material →
      ValidUnder P delegatedCapabilitySshNamespace message entry key) :
    checkAuthorizer P trusted message entry = .ok () := by
  rw [checkAuthorizer, Fallible.guard_eq_ok]
  refine ⟨by simpa [nonempty] using bounded, ?_⟩
  obtain ⟨key, trusts, rfl⟩ := known
  have present : (trusted.values.find? fun key => key.matchesWireId P entry.keyId).isSome := by
    rw [List.find?_isSome]
    exact ⟨key, (trusted.mem_values_iff key).mpr trusts,
      (key.matchesWireId_iff P entry.keyId).mpr named⟩
  obtain ⟨other, found⟩ := Option.isSome_iff_exists.mp present
  have matched := List.find?_some found
  have same := Names.unique collisionFree ((other.matchesWireId_iff P entry.keyId).mp matched) named
  rw [found]
  exact Fallible.mapError_eq_ok.mpr (verifySignatureEntry_eq_ok_iff.mpr (valid other same))

/-- What `verify_delegated_create_capability` accepts. -/
structure Verified (C : CapabilityCodec) (envelope : SignedDelegatedCreateCapability)
    (trusted : TrustedKeys P) (now allowedClockSkew : UInt64)
    (capability : DelegatedCreateCapability) : Prop where
  payloadType : envelope.payloadType = delegatedCapabilityPayloadType
  wellFormed : WellFormed capability
  window : InWindow capability now allowedClockSkew
  /-- The payload is the canonical encoding, and its one signature is by a trusted key. -/
  signed : ∃ payload message entry key, Base64.decode envelope.payload = some payload ∧
    C.fromJson payload = some capability ∧ C.toJcs capability = some payload ∧
    pae (utf8 delegatedCapabilityPayloadType) payload = .ok message ∧
    envelope.signatures = [entry] ∧ Authorizes trusted message entry key

theorem verified_of_eq_ok {envelope : SignedDelegatedCreateCapability} {trusted : TrustedKeys P}
    {now allowedClockSkew : UInt64} {capability : DelegatedCreateCapability}
    (accepted : verifyDelegatedCreateCapability P C envelope trusted now allowedClockSkew =
      .ok capability) :
    Verified C envelope trusted now allowedClockSkew capability := by
  unfold verifyDelegatedCreateCapability at accepted
  split at accepted
  · rename_i entry single
    rw [Fallible.guard_eq_ok, not_not] at accepted
    obtain ⟨payloadType, accepted⟩ := accepted
    cases decoded : Base64.decode envelope.payload with
    | none => simp [decoded] at accepted
    | some payload =>
        simp only [decoded, Fallible.guard_eq_ok] at accepted
        obtain ⟨-, accepted⟩ := accepted
        cases parsed : C.fromJson payload with
        | none => simp [parsed] at accepted
        | some found =>
            simp only [parsed] at accepted
            obtain ⟨⟨⟩, validated, accepted⟩ := Fallible.bind_eq_ok.mp accepted
            rw [Fallible.guard_eq_ok, not_not] at accepted
            obtain ⟨canonical, accepted⟩ := accepted
            obtain ⟨⟨⟩, window, accepted⟩ := Fallible.bind_eq_ok.mp accepted
            obtain ⟨message, encoded, accepted⟩ := Fallible.bind_eq_ok.mp accepted
            obtain ⟨⟨⟩, authorized, returned⟩ := Fallible.bind_eq_ok.mp accepted
            cases returned
            obtain ⟨key, authorizes⟩ := checkAuthorizer_eq_ok authorized
            rw [payloadType] at encoded
            exact ⟨payloadType, validateDelegatedCapability_eq_ok_iff.mp validated,
              checkWindow_eq_ok_iff.mp window, payload, message, entry, key, decoded, parsed,
              canonical, Fallible.mapError_eq_ok.mp encoded, single, authorizes⟩
  · cases accepted

/-! ## Signed capabilities are accepted -/

/-- `canonical_ssh_key_id`. -/
def canonicalSshKeyId (P : Primitives) (key : SshPublicKey) : Except ManifestError String :=
  match key.keyData with
  | .ed25519 point => if P.isPoint point then .ok (nativeKeyId P point) else .error .publicKeyFormat
  | .other _ => .error .publicKeyFormat

namespace ApprovalSigningKey

/-- `key_id`. -/
def keyId : ApprovalSigningKey P → Except ManifestError String
  | .ed25519 key => .ok (nativeKeyId P (P.verifyingKey key))
  | .sshEd25519 key => canonicalSshKeyId P (P.sshPublicKey key)
  | .sshAgentEd25519 publicKey _ => canonicalSshKeyId P publicKey

/-- `matches_public_key`. -/
def matchesPublicKey (key : ApprovalSigningKey P) (encoded : String) : Bool :=
  match key.keyId, parsePublicKey P encoded with
  | .ok signingKeyId, .ok publicKey => publicKey.keyId P = signingKeyId
  | _, _ => false

/-- The octets of the public half. -/
def HasMaterial (key : ApprovalSigningKey P) (material : KeyBytes) : Prop :=
  match key with
  | .ed25519 key => P.verifyingKey key = material
  | .sshEd25519 key => (P.sshPublicKey key).keyData = .ed25519 material
  | .sshAgentEd25519 publicKey _ => publicKey.keyData = .ed25519 material

end ApprovalSigningKey

/-- What is signed verifies under the public half of the key, and signatures survive their text
form. -/
structure SignVerify (P : Primitives) : Prop where
  native : ∀ key message, P.verifyStrict (P.verifyingKey key) message (P.sign key message) = true
  pem : ∀ signature text, P.toPem signature = some text → P.fromPem text = some signature
  ssh : ∀ key sshNamespace message signature material comment,
    P.sshSign key sshNamespace message = some signature →
    (P.sshPublicKey key).keyData = .ed25519 material →
    P.sshSigIsEd25519 signature = true ∧
      P.sshVerify ⟨.ed25519 material, comment⟩ sshNamespace message signature = true
  agent : ∀ publicKey socket sshNamespace message data blob raw signature material comment,
    P.signedData sshNamespace message = some data → P.sshKeyBlob publicKey = some blob →
    P.agentSign socket blob data = .ok raw → P.signatureIsEd25519 raw = true →
    P.newSshSig publicKey.keyData sshNamespace raw = some signature →
    publicKey.keyData = .ed25519 material →
    P.sshSigIsEd25519 signature = true ∧
      P.sshVerify ⟨.ed25519 material, comment⟩ sshNamespace message signature = true

theorem canonicalSshKeyId_eq_ok {key : SshPublicKey} {id : String}
    (known : canonicalSshKeyId P key = .ok id) :
    ∃ material, key.keyData = .ed25519 material ∧ id = nativeKeyId P material := by
  unfold canonicalSshKeyId at known
  split at known
  · rename_i material data
    split at known
    · cases known
      exact ⟨material, data, rfl⟩
    · cases known
  · cases known

theorem ApprovalSigningKey.keyId_eq_ok {key : ApprovalSigningKey P} {id : String}
    (known : key.keyId = .ok id) :
    ∃ material, key.HasMaterial material ∧ id = nativeKeyId P material := by
  cases key with
  | ed25519 key =>
      cases known
      exact ⟨_, rfl, rfl⟩
  | sshEd25519 key => exact canonicalSshKeyId_eq_ok known
  | sshAgentEd25519 publicKey socket => exact canonicalSshKeyId_eq_ok known

theorem ApprovalSigningKey.matchesPublicKey_eq_true (collisionFree : CollisionFree P)
    {key : ApprovalSigningKey P} {encoded : String}
    (matched : key.matchesPublicKey encoded = true) :
    ∃ publicKey, parsePublicKey P encoded = .ok publicKey ∧ key.HasMaterial publicKey.native := by
  unfold matchesPublicKey at matched
  split at matched
  · rename_i id publicKey known parsed
    obtain ⟨material, has, rfl⟩ := ApprovalSigningKey.keyId_eq_ok known
    have same := collisionFree.native (of_decide_eq_true matched)
    exact ⟨publicKey, parsed, same ▸ has⟩
  · cases matched

/-- An entry made by a key names its material and is valid under it. -/
structure MadeBy (P : Primitives) (sshNamespace : String) (message : Bytes)
    (entry : EnvelopeSignature) (material : KeyBytes) : Prop where
  named : Names P entry.keyId material
  nonempty : entry.keyId.toList ≠ []
  bounded : entry.signature.utf8ByteSize ≤ maxSignatureBytes
  valid : ∀ key : VerificationKey, key.native = material →
    ValidUnder P sshNamespace message entry key

theorem madeBy_sshEntry (correct : SignVerify P) {publicKey : SshPublicKey} {material : KeyBytes}
    (data : publicKey.keyData = .ed25519 material) {sshNamespace : String} {message : Bytes}
    {signature : P.SshSig} {entry : EnvelopeSignature}
    (made : ApprovalSigningKey.sshEntry publicKey signature = .ok entry)
    (verifies : ∀ comment, P.sshSigIsEd25519 signature = true ∧
      P.sshVerify ⟨.ed25519 material, comment⟩ sshNamespace message signature = true) :
    MadeBy P sshNamespace message entry material := by
  unfold ApprovalSigningKey.sshEntry at made
  cases written : P.toPem signature with
  | none => simp [written] at made
  | some text =>
      simp only [written, Fallible.guard_eq_ok, legacySshKeyId, data, Fallible.ok_bind,
        Nat.not_lt] at made
      obtain ⟨bounded, returned⟩ := made
      cases returned
      refine ⟨.inr rfl, by simp [legacySshKeyIdBytes], bounded, fun key native => ?_⟩
      have same := key.same
      rw [native] at same
      have expanded : key.ssh = ⟨.ed25519 material, key.ssh.comment⟩ := by rw [← same]
      refine .inr ⟨rfl, signature, correct.pem _ _ written, (verifies key.ssh.comment).1, ?_⟩
      rw [expanded]
      exact (verifies key.ssh.comment).2

theorem ApprovalSigningKey.madeBy (correct : SignVerify P) {key : ApprovalSigningKey P}
    {material : KeyBytes} (has : key.HasMaterial material) {sshNamespace : String} {message : Bytes}
    {entry : EnvelopeSignature}
    (signed : key.signWithNamespace message sshNamespace = .ok entry) :
    MadeBy P sshNamespace message entry material := by
  cases key with
  | ed25519 key =>
      cases signed
      change P.verifyingKey key = material at has
      subst has
      refine ⟨.inl rfl, by simp [nativeKeyId], ?_, fun other native => ?_⟩
      · have octets := utf8ByteSize_le (Base64.encode (P.sign key message).toList)
        simp only [Base64.encode, String.length_ofList, Base64.length_encodeChars,
          Vector.length_toList] at octets
        simp only [Base64.encode, maxSignatureBytes]
        omega
      · refine .inl ⟨rfl, P.sign key message, Base64.decode_encode _, ?_⟩
        rw [native]
        exact correct.native key message
  | sshEd25519 key =>
      simp only [signWithNamespace] at signed
      cases made : P.sshSign key sshNamespace message with
      | none => simp [made] at signed
      | some signature =>
          rw [made] at signed
          exact madeBy_sshEntry correct has signed fun comment =>
            correct.ssh _ _ _ _ _ comment made has
  | sshAgentEd25519 publicKey socket =>
      simp only [signWithNamespace] at signed
      split at signed
      · rename_i data blob dataFound blobFound
        obtain ⟨raw, answered, signed⟩ := Fallible.bind_eq_ok.mp signed
        rw [Fallible.guard_eq_ok] at signed
        obtain ⟨kind, signed⟩ := signed
        cases made : P.newSshSig publicKey.keyData sshNamespace raw with
        | none => simp [made] at signed
        | some signature =>
            rw [made] at signed
            exact madeBy_sshEntry correct has signed fun comment =>
              correct.agent _ _ _ _ _ _ _ _ _ comment dataFound blobFound answered
                (by simpa using kind) made has
      · cases signed

/-- A signed capability is accepted at every time of its window, by every trust set that has the
key. -/
theorem verify_of_signed (collisionFree : CollisionFree P) (correct : SignVerify P)
    {capability : DelegatedCreateCapability} {key : ApprovalSigningKey P}
    {envelope : SignedDelegatedCreateCapability} {material : KeyBytes}
    (signed : signDelegatedCreateCapability P C capability key = .ok envelope)
    (has : key.HasMaterial material)
    (parsed : ∀ payload, C.toJcs capability = some payload → C.fromJson payload = some capability)
    {trusted : TrustedKeys P} (known : ∃ key, trusted.Trusts key ∧ key.native = material)
    {now allowedClockSkew : UInt64} (window : InWindow capability now allowedClockSkew) :
    verifyDelegatedCreateCapability P C envelope trusted now allowedClockSkew =
      .ok capability := by
  obtain ⟨⟨⟩, validated, signed⟩ := Fallible.bind_eq_ok.mp signed
  cases canonical : C.toJcs capability with
  | none => simp [canonical] at signed
  | some payload =>
      simp only [canonical, Fallible.guard_eq_ok] at signed
      obtain ⟨size, signed⟩ := signed
      obtain ⟨message, encoded, signed⟩ := Fallible.bind_eq_ok.mp signed
      obtain ⟨entry, made, returned⟩ := Fallible.bind_eq_ok.mp signed
      cases returned
      have madeBy := ApprovalSigningKey.madeBy correct has (Fallible.mapError_eq_ok.mp made)
      have authorized := checkAuthorizer_of_named collisionFree madeBy.named madeBy.nonempty
        madeBy.bounded known madeBy.valid
      simp [verifyDelegatedCreateCapability, size, parsed payload canonical, validated, canonical,
        checkWindow_eq_ok_iff.mpr window, encoded, authorized]

end Manifest
end NixSeal
