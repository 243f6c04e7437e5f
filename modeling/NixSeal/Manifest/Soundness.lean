import NixSeal.Manifest.Envelope
import NixSeal.Lib.Correspondence
import NixSeal.Lib.Fallible
import Mathlib.Data.Finset.Card
import Mathlib.Data.Nat.Digits.Defs
import Mathlib.Tactic.Tauto

/-!
# Soundness of verification

What an accepted envelope guarantees.  `ValidSignature` and `Accepted` state the meaning of an
approval without reference to the order in which `verify` examines an envelope; the loop
invariant `verifyEntries_ok` relates the two.
-/

namespace NixSeal
namespace Manifest

variable {P : Primitives}

/-- Key identifiers do not collide, neither among native nor among OpenSSH wire identifiers. -/
structure CollisionFree (P : Primitives) : Prop where
  /-- Distinct keys have distinct native identifiers. -/
  native : Function.Injective (nativeKeyId P)
  /-- Distinct keys have distinct OpenSSH wire identifiers. -/
  legacy : Function.Injective (legacySshKeyIdBytes P)

/-- A wire identifier names a key material in one of its two encodings. -/
def Names (P : Primitives) (wireId : String) (material : KeyBytes) : Prop :=
  wireId = nativeKeyId P material ∨ wireId = legacySshKeyIdBytes P material

/-- A signature entry is a valid signature by `key` over `message`: a native Ed25519 signature,
or an OpenSSH signature under the artifact namespace. -/
def ValidSignature (P : Primitives) (message : Bytes) (entry : EnvelopeSignature)
    (key : VerificationKey) : Prop :=
  (entry.algorithm = .ed25519V1 ∧
    ∃ signature : Vector UInt8 64,
      Base64.decode entry.signature = some signature.toList ∧
        P.verifyStrict key.native message signature = true) ∨
  (entry.algorithm = .sshEd25519SshsigV1 ∧
    ∃ signature : P.SshSig,
      P.fromPem entry.signature = some signature ∧ P.sshSigIsEd25519 signature = true ∧
        P.sshVerify key.ssh sshSignatureNamespace message signature = true)

/-- An entry is a valid signature by a trusted key that its wire identifier names. -/
structure Approves (trusted : TrustedKeys P) (message : Bytes) (entry : EnvelopeSignature)
    (key : VerificationKey) : Prop where
  /-- The key is trusted. -/
  trusted : trusted.Trusts key
  /-- The entry names the key. -/
  named : Names P entry.keyId key.native
  /-- The signature is valid. -/
  valid : ValidSignature P message entry key

theorem nativeKeyId_ne_legacySshKeyIdBytes (left right : KeyBytes) :
    nativeKeyId P left ≠ legacySshKeyIdBytes P right := by
  intro equal
  have texts := congrArg String.toList equal
  simp [nativeKeyId, legacySshKeyIdBytes] at texts

/-- Without collisions a wire identifier names at most one key material. -/
theorem Names.unique (collisionFree : CollisionFree P) {wireId : String}
    {left right : KeyBytes} (named_left : Names P wireId left) (named_right : Names P wireId right) :
    left = right := by
  rcases named_left with rfl | rfl
  · rcases named_right with equal | equal
    · exact collisionFree.native equal
    · exact absurd equal (nativeKeyId_ne_legacySshKeyIdBytes left right)
  · rcases named_right with equal | equal
    · exact absurd equal.symm (nativeKeyId_ne_legacySshKeyIdBytes right left)
    · exact collisionFree.legacy equal

theorem TrustedKeys.Trusts.eq_of_native {trusted : TrustedKeys P} {left right : VerificationKey}
    (trusts_left : trusted.Trusts left) (trusts_right : trusted.Trusts right)
    (same : left.native = right.native) : left = right := by
  have stored : trusted.keys[left.keyId P]? = some right := by
    rw [VerificationKey.keyId, same]
    exact trusts_right
  exact Option.some.inj (trusts_left.symm.trans stored)

theorem toFixed_eq_some_iff {width : Nat} {bytes : Bytes} {value : Vector UInt8 width} :
    toFixed width bytes = some value ↔ bytes = value.toList := by
  constructor
  · intro fixed
    unfold toFixed at fixed
    split at fixed
    · rw [← Option.some.inj fixed]
      simp
    · cases fixed
  · rintro rfl
    exact toFixed_toList value

/-- A signature entry is a valid signature by `key` over `message`: a native Ed25519 signature,
or an OpenSSH signature under the given namespace. -/
def ValidUnder (P : Primitives) (sshNamespace : String) (message : Bytes)
    (entry : EnvelopeSignature) (key : VerificationKey) : Prop :=
  (entry.algorithm = .ed25519V1 ∧
    ∃ signature : Vector UInt8 64,
      Base64.decode entry.signature = some signature.toList ∧
        P.verifyStrict key.native message signature = true) ∨
  (entry.algorithm = .sshEd25519SshsigV1 ∧
    ∃ signature : P.SshSig,
      P.fromPem entry.signature = some signature ∧ P.sshSigIsEd25519 signature = true ∧
        P.sshVerify key.ssh sshNamespace message signature = true)

theorem insertEncoded_eq_ok {P : Primitives} {trusted extended : TrustedKeys P}
    {encoded id : String} :
    trusted.insertEncoded encoded = .ok (extended, id) ↔
      ∃ key, parsePublicKey P encoded = .ok key ∧ key.keyId P ∉ trusted.keys ∧
        extended = trusted.add key ∧ id = key.keyId P := by
  unfold TrustedKeys.insertEncoded
  cases parsePublicKey P encoded with
  | error failure => simp [bind, Except.bind]
  | ok key =>
      simp only [Fallible.ok_bind, Fallible.guard_eq_ok, Except.ok.injEq, Prod.mk.injEq,
        exists_eq_left', Std.TreeMap.mem_iff_contains]
      constructor
      · rintro ⟨fresh, rfl, rfl⟩
        exact ⟨fresh, rfl, rfl⟩
      · rintro ⟨fresh, rfl, rfl⟩
        exact ⟨fresh, rfl, rfl⟩

/-- `verify_signature_entry` accepts exactly the valid signatures. -/
theorem verifySignatureEntry_eq_ok_iff {entry : EnvelopeSignature} {key : VerificationKey}
    {message : Bytes} {sshNamespace : String} :
    verifySignatureEntry P entry key message sshNamespace = .ok () ↔
      ValidUnder P sshNamespace message entry key := by
  unfold verifySignatureEntry ValidUnder
  cases entry.algorithm with
  | ed25519V1 =>
      cases decoded : (Base64.decode entry.signature).bind (toFixed 64) with
      | none =>
          simp only [reduceCtorEq, true_and, false_and, or_false, false_iff]
          rintro ⟨signature, decodes, -⟩
          simp [decodes] at decoded
      | some signature =>
          obtain ⟨bytes, decodes, fixed⟩ := Option.bind_eq_some_iff.mp decoded
          rw [toFixed_eq_some_iff] at fixed
          subst fixed
          simp only [decodes, Option.some.injEq, true_and, reduceCtorEq, false_and, or_false]
          constructor
          · intro accepted
            refine ⟨signature, rfl, ?_⟩
            by_contra refused
            simp [refused] at accepted
          · rintro ⟨other, same, accepted⟩
            have other_eq : signature = other := by
              rw [← Option.some.injEq, ← toFixed_toList signature, same, toFixed_toList]
            simp [other_eq, accepted]
  | sshEd25519SshsigV1 =>
      cases parsed : P.fromPem entry.signature with
      | none => simp
      | some signature => simp [Fallible.guard_eq_ok]

theorem verifySignatureEntry_ok_iff {entry : EnvelopeSignature} {key : VerificationKey}
    {message : Bytes} :
    verifySignatureEntry P entry key message sshSignatureNamespace = .ok () ↔
      ValidSignature P message entry key :=
  verifySignatureEntry_eq_ok_iff

theorem utf8ByteSize_le (text : String) : text.utf8ByteSize ≤ 4 * text.length := by
  have characters : ∀ chars : List Char, chars.utf8Encode.size ≤ 4 * chars.length := by
    intro chars
    induction chars with
    | nil => simp
    | cons char rest ih =>
        have size := char.utf8Size_le_four
        rw [List.utf8Encode_cons, ByteArray.size_append, List.length_cons]
        simp only [List.utf8Encode_singleton, List.size_toByteArray, String.length_utf8EncodeChar]
        omega
  have total := characters text.toList
  rwa [String.utf8Encode_toList, String.length_toList] at total

theorem exists_pae_of_le {payloadType payload : Bytes}
    (type_size : payloadType.length ≤ maxPayloadBytes) (size : payload.length ≤ maxPayloadBytes) :
    ∃ message, pae payloadType payload = .ok message := by
  have digits : ∀ count ≤ maxPayloadBytes, (utf8 (toString count)).length ≤ 40 := by
    intro count bound
    have short : (Nat.repr count).length ≤ 10 := by
      apply Nat.repr_length count 10 (by decide)
      unfold maxPayloadBytes at bound
      omega
    have octets := utf8ByteSize_le (Nat.repr count)
    change (utf8 (Nat.repr count)).length ≤ 40
    rw [length_utf8]
    omega
  have type_digits := digits payloadType.length type_size
  have payload_digits := digits payload.length size
  unfold pae
  rw [if_pos (by unfold maxPayloadBytes at size type_size; omega)]
  exact ⟨_, rfl⟩

theorem exists_pae {payload : Bytes} (size : payload.length ≤ maxPayloadBytes) :
    ∃ message, pae (utf8 payloadTypeText) payload = .ok message := by
  have type_length : (utf8 payloadTypeText).length = 48 := by decide
  exact exists_pae_of_le (by rw [type_length]; decide) size

/-- The parts of an envelope that `decode_envelope` accepts. -/
structure Decoded (P : Primitives) (envelope : SignedEnvelope) (manifest : TargetManifest)
    (payload message : Bytes) : Prop where
  /-- The payload type is the exact manifest type. -/
  payloadType : envelope.payloadType = payloadTypeText
  /-- The number of signatures is bounded. -/
  count : envelope.signatures.length ≤ maxSignatures
  /-- Every entry has a key identifier and a bounded signature text. -/
  bounded : ∀ entry ∈ envelope.signatures,
    entry.keyId.toList ≠ [] ∧ entry.signature.utf8ByteSize ≤ maxSignatureBytes
  /-- The payload text decodes. -/
  decoded : Base64.decode envelope.payload = some payload
  /-- The payload is bounded. -/
  size : payload.length ≤ maxPayloadBytes
  /-- The payload is manifest JSON. -/
  parsed : P.manifestFromJson payload = some manifest
  /-- The manifest is well formed. -/
  structured : validateManifestStructure manifest = .ok ()
  /-- The payload is the canonical encoding of the manifest. -/
  canonical : P.manifestToJcs manifest = some payload
  /-- The signed message is the pre-authentication encoding of the payload. -/
  encoded : pae (utf8 payloadTypeText) payload = .ok message

/-- `decode_envelope` accepts exactly the envelopes with all these parts. -/
theorem decodeEnvelope_ok_iff {envelope : SignedEnvelope} {manifest : TargetManifest}
    {payload message : Bytes} :
    decodeEnvelope P envelope = .ok (manifest, payload, message) ↔
      Decoded P envelope manifest payload message := by
  have entries_bounded :
      (¬(envelope.signatures.any fun entry =>
          entry.keyId.toList.isEmpty || maxSignatureBytes < entry.signature.utf8ByteSize) = true) ↔
        ∀ entry ∈ envelope.signatures,
          entry.keyId.toList ≠ [] ∧ entry.signature.utf8ByteSize ≤ maxSignatureBytes := by
    simp
  unfold decodeEnvelope
  rw [Fallible.guard_eq_ok, Fallible.guard_eq_ok, Fallible.guard_eq_ok, entries_bounded, not_not,
    not_lt]
  constructor
  · rintro ⟨payloadType, count, bounded, remaining⟩
    split at remaining
    · cases remaining
    · rename_i found decoded
      rw [Fallible.guard_eq_ok, not_lt] at remaining
      obtain ⟨size, remaining⟩ := remaining
      split at remaining
      · cases remaining
      · rename_i body parsed
        obtain ⟨⟨⟩, structured, remaining⟩ := Fallible.bind_eq_ok.mp remaining
        rw [Fallible.guard_eq_ok, not_not] at remaining
        obtain ⟨canonical, remaining⟩ := remaining
        obtain ⟨signed, encoded, remaining⟩ := Fallible.bind_eq_ok.mp remaining
        cases remaining
        rw [payloadType] at encoded
        exact ⟨payloadType, count, bounded, decoded, size, parsed, structured, canonical, encoded⟩
  · intro parts
    refine ⟨parts.payloadType, parts.count, parts.bounded, ?_⟩
    simp [parts.decoded, Nat.not_lt.mpr parts.size, parts.parsed, parts.structured, parts.canonical,
      parts.payloadType, parts.encoded]

/-- Every envelope with all these parts can be inspected. -/
theorem inspectUnverified_of_decoded {envelope : SignedEnvelope} {manifest : TargetManifest}
    {payload message : Bytes} (decoded : Decoded P envelope manifest payload message) :
    inspectUnverified P envelope = .ok manifest := by
  rw [inspectUnverified, decodeEnvelope_ok_iff.mpr decoded]
  rfl

/-- A manifest carries the eight expected bindings at an acceptable time. -/
structure Bound (manifest : TargetManifest) (expected : ExpectedBinding) : Prop where
  /-- Producer tool version. -/
  toolVersion : manifest.toolVersion = expected.toolVersion
  /-- Artifact policy hash. -/
  artifactPolicyHash : manifest.artifactPolicyHash = expected.artifactPolicyHash
  /-- Canonical source hash. -/
  sourceCiphertextHash : manifest.sourceCiphertextHash = expected.sourceCiphertextHash
  /-- Transported artifact hash. -/
  artifactCiphertextHash : manifest.artifactCiphertextHash = expected.artifactCiphertextHash
  /-- Target. -/
  targetId : manifest.targetId = expected.targetId
  /-- Secret. -/
  secretId : manifest.secretId = expected.secretId
  /-- Recipient fingerprint. -/
  recipientFingerprint : manifest.recipientFingerprint = expected.recipientFingerprint
  /-- Generation. -/
  artifactGeneration : manifest.artifactGeneration = expected.artifactGeneration
  /-- The latest accepted issue time is representable. -/
  representable : expected.now.toNat + expected.allowedClockSkew.toNat < 2 ^ 64
  /-- The manifest is not issued in the future. -/
  issued : manifest.issuedAt.toNat ≤ expected.now.toNat + expected.allowedClockSkew.toNat
  /-- The manifest has not expired. -/
  unexpired : ∀ expiry, manifest.expiresAt = some expiry → expected.now < expiry

theorem validateExpected_ok_iff {manifest : TargetManifest} {expected : ExpectedBinding} :
    validateExpected manifest expected = .ok () ↔ Bound manifest expected := by
  have timely :
      (¬(decide (expected.now.toNat + expected.allowedClockSkew.toNat < manifest.issuedAt.toNat) ||
          manifest.expiresAt.any fun expiry => decide (expiry ≤ expected.now)) = true) ↔
        manifest.issuedAt.toNat ≤ expected.now.toNat + expected.allowedClockSkew.toNat ∧
          ∀ expiry, manifest.expiresAt = some expiry → expected.now < expiry := by
    cases manifest.expiresAt with
    | none => simp
    | some expiry => simp
  unfold validateExpected
  rw [Fallible.guard_eq_ok, Fallible.guard_eq_ok, Fallible.guard_eq_ok, not_le, timely]
  constructor
  · rintro ⟨representable, ⟨issued, unexpired⟩, fields, -⟩
    simp only [not_or, not_not] at fields
    obtain ⟨version, policy, source, artifact, target, secret, recipient, generation⟩ := fields
    exact ⟨version, policy, source, artifact, target, secret, recipient, generation, representable,
      issued, unexpired⟩
  · intro bound
    refine ⟨bound.representable, ⟨bound.issued, bound.unexpired⟩, ?_, rfl⟩
    simp [bound.toolVersion, bound.artifactPolicyHash, bound.sourceCiphertextHash,
      bound.artifactCiphertextHash, bound.targetId, bound.secretId, bound.recipientFingerprint,
      bound.artifactGeneration]

/-- One pass of the signature loop resolves its entry to a trusted key not seen before and then
checks the signature. -/
theorem verifyEntries_cons_ok {trusted : TrustedKeys P} {message : Bytes}
    {entry : EnvelopeSignature} {rest : List EnvelopeSignature}
    {signers result : Std.TreeSet String}
    (verified : verifyEntries P trusted message (entry :: rest) signers = .ok result) :
    ∃ key, Approves trusted message entry key ∧ key.keyId P ∉ signers ∧
      verifyEntries P trusted message rest (signers.insert (key.keyId P)) = .ok result := by
  unfold verifyEntries at verified
  split at verified
  · cases verified
  · rename_i key found
    rw [Fallible.guard_eq_ok] at verified
    obtain ⟨unseen, remaining⟩ := verified
    obtain ⟨⟨⟩, valid, remaining⟩ := Fallible.bind_eq_ok.mp remaining
    have trusts := (trusted.mem_values_iff key).mp (List.mem_of_find?_eq_some found)
    have named := (key.matchesWireId_iff P entry.keyId).mp (by simpa using List.find?_some found)
    exact ⟨key, ⟨trusts, named, verifySignatureEntry_ok_iff.mp valid⟩, unseen, remaining⟩

/-- Conversely, an entry of an approving key not seen before is counted, whichever of its wire
identifiers the entry carries. -/
theorem verifyEntries_cons_of_approves (collisionFree : CollisionFree P) {trusted : TrustedKeys P}
    {message : Bytes} {entry : EnvelopeSignature} {key : VerificationKey}
    (approves : Approves trusted message entry key) (rest : List EnvelopeSignature)
    {signers : Std.TreeSet String} (unseen : key.keyId P ∉ signers) :
    verifyEntries P trusted message (entry :: rest) signers =
      verifyEntries P trusted message rest (signers.insert (key.keyId P)) := by
  have resolved :
      (trusted.values.find? fun key => key.matchesWireId P entry.keyId) = some key := by
    cases found : trusted.values.find? fun key => key.matchesWireId P entry.keyId with
    | none =>
        have unmatched := List.find?_eq_none.mp found key
          ((trusted.mem_values_iff key).mpr approves.trusted)
        exact absurd ((key.matchesWireId_iff P entry.keyId).mpr approves.named) unmatched
    | some other =>
        have trusts_other := (trusted.mem_values_iff other).mp (List.mem_of_find?_eq_some found)
        have named_other := (other.matchesWireId_iff P entry.keyId).mp
          (by simpa using List.find?_some found)
        have same := Names.unique collisionFree named_other approves.named
        rw [trusts_other.eq_of_native approves.trusted same]
  rw [verifyEntries]
  simp [resolved, unseen, verifySignatureEntry_ok_iff.mpr approves.valid]

/-- The signature loop pairs every entry with an approving key; the identifiers of these keys are
distinct, new, and exactly what the loop adds to the signers. -/
theorem verifyEntries_ok {trusted : TrustedKeys P} {message : Bytes}
    {entries : List EnvelopeSignature} {signers result : Std.TreeSet String}
    (verified : verifyEntries P trusted message entries signers = .ok result) :
    ∃ approvers : List VerificationKey,
      List.Forall₂ (Approves trusted message) entries approvers ∧
        (approvers.map (VerificationKey.keyId P)).Nodup ∧
        (∀ key ∈ approvers, key.keyId P ∉ signers) ∧
        (∀ id, id ∈ result ↔ id ∈ signers ∨ id ∈ approvers.map (VerificationKey.keyId P)) ∧
        result.size = signers.size + approvers.length := by
  induction entries generalizing signers with
  | nil =>
      cases verified
      exact ⟨[], .nil, by simp, by simp, by simp, by simp⟩
  | cons entry rest ih =>
      obtain ⟨key, approves, unseen, remaining⟩ := verifyEntries_cons_ok verified
      obtain ⟨approvers, paired, distinct, fresh, added, size⟩ := ih remaining
      have others : ∀ other ∈ approvers, other.keyId P ≠ key.keyId P ∧ other.keyId P ∉ signers := by
        intro other member
        have absent := fresh other member
        rw [Std.TreeSet.mem_insert, Std.LawfulEqCmp.compare_eq_iff_eq, not_or] at absent
        exact ⟨Ne.symm absent.1, absent.2⟩
      refine ⟨key :: approvers, .cons approves paired, ?_, ?_, ?_, ?_⟩
      · rw [List.map_cons, List.nodup_cons]
        refine ⟨?_, distinct⟩
        intro member
        obtain ⟨other, member, same⟩ := List.mem_map.mp member
        exact (others other member).1 same
      · intro other member
        rcases List.mem_cons.mp member with rfl | member
        · exact unseen
        · exact (others other member).2
      · intro id
        rw [added, Std.TreeSet.mem_insert, Std.LawfulEqCmp.compare_eq_iff_eq, List.map_cons,
          List.mem_cons, @eq_comm _ id]
        tauto
      · have inserted : (signers.insert (key.keyId P)).size = signers.size + 1 := by
          rw [Std.TreeSet.size_insert]
          simp [unseen]
        rw [size, inserted, List.length_cons]
        omega

namespace TrustedKeys

/-- The distinct Ed25519 key materials of a trust set. -/
def materials (trusted : TrustedKeys P) : Finset KeyBytes :=
  (trusted.values.map VerificationKey.native).toFinset

/-- A trust set counts key materials, not encodings. -/
theorem card_materials (trusted : TrustedKeys P) : trusted.materials.card = trusted.len := by
  have identifiers :
      trusted.values.map (VerificationKey.keyId P) = trusted.keys.toList.map Prod.fst := by
    rw [values, List.map_map]
    apply List.map_congr_left
    intro entry member
    exact (trusted.keyed entry.1 entry.2
      (Std.TreeMap.mem_toList_iff_getElem?_eq_some.mp member)).symm
  have distinct : (trusted.values.map VerificationKey.native).Nodup := by
    apply List.Nodup.of_map (nativeKeyId P)
    rw [List.map_map]
    change (trusted.values.map (VerificationKey.keyId P)).Nodup
    rw [identifiers, Std.TreeMap.map_fst_toList_eq_keys]
    exact Std.TreeMap.nodup_keys
  rw [materials, List.toFinset_card_of_nodup distinct]
  simp [values, len]

end TrustedKeys

/-- What an accepted envelope guarantees, relative to its payload, the signed message and the
keys behind its entries. -/
structure Accepted (envelope : SignedEnvelope) (trusted : TrustedKeys P) (threshold : Nat)
    (expected : ExpectedBinding) (verified : VerifiedManifest) (payload message : Bytes)
    (approvers : List VerificationKey) : Prop where
  /-- The threshold is positive. -/
  threshold_pos : 1 ≤ threshold
  /-- The threshold does not exceed the number of trusted key materials. -/
  threshold_le : threshold ≤ trusted.materials.card
  /-- The envelope carries the payload. -/
  decoded : Base64.decode envelope.payload = some payload
  /-- The payload is the canonical encoding of the manifest. -/
  canonical : P.manifestToJcs verified.manifest = some payload
  /-- The signed message is the pre-authentication encoding of type and payload. -/
  encoded : pae (utf8 envelope.payloadType) payload = .ok message
  /-- Every entry is a valid signature by the trusted key at its position. -/
  approved : List.Forall₂ (Approves trusted message) envelope.signatures approvers
  /-- These keys have distinct materials. -/
  distinct : (approvers.map VerificationKey.native).Nodup
  /-- They meet the threshold. -/
  threshold_met : threshold ≤ approvers.length
  /-- No two entries belong to one key material. -/
  separate : envelope.signatures.Pairwise fun left right =>
    ∀ material, ¬(Names P left.keyId material ∧ Names P right.keyId material)
  /-- The signers are the identifiers of these keys. -/
  signers : ∀ id, id ∈ verified.signers ↔ ∃ key ∈ approvers, id = key.keyId P
  /-- The signers are exactly these key materials. -/
  signer_materials : ∀ material,
    nativeKeyId P material ∈ verified.signers ↔ material ∈ approvers.map VerificationKey.native
  /-- The manifest carries the expected bindings at an acceptable time. -/
  bound : Bound verified.manifest expected

theorem verify_ok_iff {envelope : SignedEnvelope} {trusted : TrustedKeys P} {threshold : Nat}
    {expected : ExpectedBinding} {verified : VerifiedManifest} :
    verify P envelope trusted threshold expected = .ok verified ↔
      (threshold ≠ 0 ∧ threshold ≤ trusted.len ∧ envelope.signatures ≠ []) ∧
        ∃ payload message, Decoded P envelope verified.manifest payload message ∧
          Bound verified.manifest expected ∧
          verifyEntries P trusted message envelope.signatures {} = .ok verified.signers ∧
          threshold ≤ verified.signers.size := by
  rw [verify, Fallible.guard_eq_ok, not_or, not_or, not_lt, Fallible.bind_eq_ok]
  refine and_congr_right fun _ => ?_
  constructor
  · rintro ⟨⟨manifest, payload, message⟩, decoded, accepted⟩
    obtain ⟨⟨⟩, bound, accepted⟩ := Fallible.bind_eq_ok.mp accepted
    obtain ⟨signers, entries, accepted⟩ := Fallible.bind_eq_ok.mp accepted
    rw [Fallible.guard_eq_ok, not_lt] at accepted
    obtain ⟨met, accepted⟩ := accepted
    cases accepted
    exact ⟨payload, message, decodeEnvelope_ok_iff.mp decoded, validateExpected_ok_iff.mp bound,
      entries, met⟩
  · rintro ⟨payload, message, decoded, bound, entries, met⟩
    refine ⟨_, decodeEnvelope_ok_iff.mpr decoded, ?_⟩
    simp [validateExpected_ok_iff.mpr bound, entries, Nat.not_lt.mpr met]

/-- An accepted envelope has the threshold of distinct trusted approvals over its canonical,
correctly bound payload, and nothing else. -/
theorem verify_sound (collisionFree : CollisionFree P) {envelope : SignedEnvelope}
    {trusted : TrustedKeys P} {threshold : Nat} {expected : ExpectedBinding}
    {verified : VerifiedManifest}
    (accepted : verify P envelope trusted threshold expected = .ok verified) :
    ∃ payload message approvers,
      Accepted envelope trusted threshold expected verified payload message approvers := by
  obtain ⟨⟨positive, available, -⟩, payload, message, parts, bound, entries, met⟩ :=
    verify_ok_iff.mp accepted
  obtain ⟨approvers, approved, distinct_ids, -, added, size⟩ := verifyEntries_ok entries
  have distinct : (approvers.map VerificationKey.native).Nodup := by
    apply List.Nodup.of_map (nativeKeyId P)
    rw [List.map_map]
    exact distinct_ids
  have signers_iff : ∀ id, id ∈ verified.signers ↔ ∃ key ∈ approvers, id = key.keyId P := by
    intro id
    rw [added]
    simp [eq_comm]
  refine ⟨payload, message, approvers, ?_⟩
  exact
    { threshold_pos := Nat.one_le_iff_ne_zero.mpr positive
      threshold_le := trusted.card_materials ▸ available
      decoded := parts.decoded
      canonical := parts.canonical
      encoded := parts.payloadType ▸ parts.encoded
      approved := approved
      distinct := distinct
      threshold_met := by simpa [size] using met
      separate := by
        refine Correspondence.pairwise_items approved (List.pairwise_map.mp distinct) ?_
        intro left right leftKey rightKey approves_left approves_right different material named
        apply different
        exact (approves_left.named.unique collisionFree named.1).trans
          (named.2.unique collisionFree approves_right.named)
      signers := signers_iff
      signer_materials := by
        intro material
        rw [signers_iff, List.mem_map]
        constructor
        · rintro ⟨key, member, same⟩
          exact ⟨key, member, (collisionFree.native same).symm⟩
        · rintro ⟨key, member, rfl⟩
          exact ⟨key, member, rfl⟩
      bound := bound }

namespace Sample

/-- Lowercase hexadecimal digits of one octet. -/
def hexDigits (octet : UInt8) : List Char :=
  let digit (value : Nat) : Char :=
    if value < 10 then Char.ofNat (48 + value) else Char.ofNat (87 + value)
  [digit (octet.toNat / 16), digit (octet.toNat % 16)]

/-- Lowercase hexadecimal text. -/
def hexText (bytes : Bytes) : String := String.ofList (bytes.flatMap hexDigits)

/-- Sum of the octets of a message. -/
def checksum (message : Bytes) : UInt8 := message.foldl (· + ·) 0

/-- Canonical JSON of a manifest whose texts need no escapes. -/
def manifestText (manifest : TargetManifest) : String :=
  let quoted (text : String) := "\"" ++ text ++ "\""
  let member (name value : String) := quoted name ++ ":" ++ value
  "\x7b" ++ member "artifactCiphertextHash" (quoted manifest.artifactCiphertextHash) ++
    "," ++ member "artifactGeneration" (toString manifest.artifactGeneration) ++
    "," ++ member "artifactPolicyHash" (quoted manifest.artifactPolicyHash) ++
    "," ++ member "expiresAt" ((manifest.expiresAt.map toString).getD "null") ++
    "," ++ member "issuedAt" (toString manifest.issuedAt) ++
    "," ++ member "planHash" (quoted manifest.planHash) ++
    "," ++ member "recipientFingerprint" (quoted manifest.recipientFingerprint) ++
    "," ++ member "schema" (quoted manifest.schema) ++
    "," ++ member "secretId" (quoted manifest.secretId.value) ++
    "," ++ member "sourceCiphertextHash" (quoted manifest.sourceCiphertextHash) ++
    "," ++ member "targetId" (quoted manifest.targetId.value) ++
    "," ++ member "targetPolicyHash" (quoted manifest.targetPolicyHash) ++
    "," ++ member "toolVersion" (quoted manifest.toolVersion) ++ "\x7d"

/-- A digest text. -/
def digest : String := hexText (List.replicate 32 0xa5)

/-- Identifier of the sample target. -/
def host : Id := ⟨"host", by decide⟩

/-- Identifier of the sample secret. -/
def token : Id := ⟨"token", by decide⟩

/-- A manifest of generation one without an expiry. -/
def manifest : TargetManifest where
  schema := artifactSchema
  toolVersion := "1.0.0"
  planHash := digest
  targetPolicyHash := digest
  artifactPolicyHash := digest
  sourceCiphertextHash := digest
  artifactCiphertextHash := digest
  targetId := host
  secretId := token
  recipientFingerprint := digest
  artifactGeneration := 1
  issuedAt := 1000
  expiresAt := none

/-- Native signature of the sample scheme, which spreads a message checksum over the key. -/
def signature (key : KeyBytes) (message : Bytes) : Vector UInt8 64 :=
  ⟨(key.toList ++ key.toList.map (· + checksum message)).toArray, by simp⟩

/-- OpenSSH signature of the sample scheme. -/
def sshSignature (key : SshPublicKey) (label : String) (message : Bytes) : Option String :=
  match key.keyData with
  | .ed25519 point =>
      some ("-----BEGIN SSH SIGNATURE-----\n" ++
        Base64.encode (sshEd25519Blob point ++ utf8 label ++ [checksum message]) ++
        "\n-----END SSH SIGNATURE-----\n")
  | .other _ => none

theorem utf8ByteSize_signature (key : KeyBytes) (message : Bytes) :
    (Base64.encode (signature key message).toList).utf8ByteSize ≤ maxSignatureBytes := by
  have octets := utf8ByteSize_le (Base64.encode (signature key message).toList)
  have chars := Base64.length_encodeChars_le (signature key message).toList
  rw [Base64.encode, String.length_ofList] at octets
  rw [Vector.length_toList] at chars
  simp only [Base64.encode, maxSignatureBytes]
  omega

theorem length_sshEd25519Blob (key : KeyBytes) : (sshEd25519Blob key).length = 51 := by
  have front : (beU32 11 ++ utf8 "ssh-ed25519" ++ beU32 32).length = 19 := by decide
  rw [sshEd25519Blob, List.length_append, front, Vector.length_toList]

theorem utf8ByteSize_sshSignature {key : KeyBytes} {message : Bytes} {text : String}
    (signed : sshSignature ⟨.ed25519 key, ""⟩ sshSignatureNamespace message = some text) :
    text.utf8ByteSize ≤ maxSignatureBytes := by
  rw [sshSignature, Option.some.injEq] at signed
  subst signed
  refine (utf8ByteSize_le _).trans ?_
  have encoded := Base64.length_encodeChars_le
    (sshEd25519Blob key ++ utf8 sshSignatureNamespace ++ [checksum message])
  have label : (utf8 sshSignatureNamespace).length = 20 := by decide
  simp only [List.length_append, List.length_singleton, label, length_sshEd25519Blob] at encoded
  simp only [String.length_append, Base64.encode, String.length_ofList, maxSignatureBytes]
  have opening : "-----BEGIN SSH SIGNATURE-----\n".length = 30 := by decide
  have closing : "\n-----END SSH SIGNATURE-----\n".length = 29 := by decide
  omega

/-- Primitives of a small signature scheme in which signing and verifying agree, digests do not
collide and public key lines are those of OpenSSH without comments. -/
def primitives : Primitives where
  SigningKey := KeyBytes
  SshPrivateKey := SshPublicKey
  SshSignature := Option String
  SshSig := String
  blake3Hex := hexText
  isPoint := fun _ => true
  verifyingKey := id
  sign := signature
  verifyStrict := fun key message candidate => candidate == signature key message
  fromOpenssh := fun line =>
    ((stripLiteral "ssh-ed25519 " line).bind Base64.decode).bind fun blob =>
      (toFixed 32 (blob.drop 19)).map fun point => ⟨.ed25519 point, ""⟩
  toOpenssh := fun key =>
    match key.keyData with
    | .ed25519 point => some (sshEd25519Line point)
    | .other _ => none
  sshPublicKey := id
  sshSign := sshSignature
  signedData := fun label message => some (utf8 label ++ [checksum message])
  sshKeyBlob := fun key =>
    match key.keyData with
    | .ed25519 point => some (sshEd25519Blob point)
    | .other _ => none
  agentSign := fun _ _ _ => .error .agentUnavailable
  signatureIsEd25519 := Option.isSome
  newSshSig := fun _ _ candidate => candidate
  toPem := some
  fromPem := some
  sshSigIsEd25519 := fun candidate => startsWith "-----BEGIN SSH SIGNATURE-----\n" candidate
  sshVerify := fun key label message candidate => sshSignature key label message == some candidate
  manifestToJcs := fun body => some (utf8 (manifestText body))
  manifestFromJson := fun payload =>
    if payload = utf8 (manifestText manifest) then some manifest else none

/-- Octets of hexadecimal digits. -/
def ofHexDigits : List Char → Bytes
  | high :: low :: rest =>
      let value (digit : Char) := if digit.toNat < 58 then digit.toNat - 48 else digit.toNat - 87
      UInt8.ofNat (16 * value high + value low) :: ofHexDigits rest
  | _ => []

theorem ofHexDigits_hexDigits (octet : UInt8) (rest : List Char) :
    ofHexDigits (hexDigits octet ++ rest) = octet :: ofHexDigits rest := by
  have small : ∀ value < 256, ∀ rest, ofHexDigits (hexDigits (UInt8.ofNat value) ++ rest) =
      UInt8.ofNat value :: ofHexDigits rest := by
    intro value bound rest
    interval_cases value <;> rfl
  have member := small octet.toNat octet.toNat_lt rest
  rwa [UInt8.ofNat_toNat] at member

theorem hexText_injective : Function.Injective hexText := by
  have decoded : ∀ bytes : Bytes, ofHexDigits (bytes.flatMap hexDigits) = bytes := by
    intro bytes
    induction bytes with
    | nil => rfl
    | cons octet rest ih => rw [List.flatMap_cons, ofHexDigits_hexDigits, ih]
  intro left right same
  rw [← decoded left, ← decoded right, String.ofList_injective same]

theorem collisionFree : CollisionFree primitives where
  native := by
    intro left right same
    have digests := hexText_injective (String.append_right_inj _ |>.mp same)
    exact Vector.toList_inj.mp (List.append_cancel_left digests)
  legacy := by
    intro left right same
    have digests := hexText_injective (String.append_right_inj _ |>.mp same)
    have lines := utf8_injective (List.append_cancel_left digests)
    have bodies := congrArg Base64.decode (String.append_right_inj _ |>.mp lines)
    rw [Base64.decode_encode, Base64.decode_encode] at bodies
    exact Vector.toList_inj.mp (List.append_cancel_left (Option.some.inj bodies))

/-- A native approval key. -/
def nativeKey : KeyBytes :=
  #v[0xd7, 0x5a, 0x98, 0x01, 0x82, 0xb1, 0x0a, 0xb7, 0xd5, 0x4b, 0xfe, 0xd3, 0xc9, 0x64, 0x07, 0x3a,
    0x0e, 0xe1, 0x72, 0xf3, 0xda, 0xa6, 0x23, 0x25, 0xaf, 0x02, 0x1a, 0x68, 0xf7, 0x07, 0x51, 0x1a]

/-- A key in both representations. -/
def verificationKey (key : KeyBytes) : VerificationKey := ⟨key, ⟨.ed25519 key, ""⟩, rfl⟩

/-- The trust set of the native key. -/
def trusted : TrustedKeys primitives := TrustedKeys.empty.add (verificationKey nativeKey)

/-- Canonical payload of the sample manifest. -/
def payload : Bytes := utf8 (manifestText manifest)

/-- Pre-authentication encoding of the sample payload. -/
def message : Bytes := (pae (utf8 payloadTypeText) payload).toOption.getD []

/-- Envelope with one native approval. -/
def envelope : SignedEnvelope where
  payloadType := payloadTypeText
  payload := Base64.encode payload
  signatures :=
    [{ keyId := nativeKeyId primitives nativeKey
       algorithm := .ed25519V1
       signature := Base64.encode (signature nativeKey message).toList }]

/-- Bindings of the sample manifest shortly after its issue. -/
def expected : ExpectedBinding where
  toolVersion := manifest.toolVersion
  artifactPolicyHash := digest
  sourceCiphertextHash := digest
  artifactCiphertextHash := digest
  targetId := manifest.targetId
  secretId := manifest.secretId
  recipientFingerprint := digest
  artifactGeneration := 1
  now := 1500
  allowedClockSkew := 300

theorem payload_length : payload.length ≤ maxPayloadBytes := by
  decide +kernel

theorem isDigest_digest : isDigest digest = true := by
  decide

theorem structured : validateManifestStructure manifest = .ok () := by
  simp [validateManifestStructure, manifest, isDigest_digest]

theorem decoded : Decoded primitives envelope manifest payload message where
  payloadType := rfl
  count := by simp [envelope, maxSignatures]
  bounded := by
    intro entry listed
    cases List.mem_singleton.mp listed
    exact ⟨by simp [nativeKeyId], utf8ByteSize_signature nativeKey message⟩
  decoded := Base64.decode_encode payload
  size := payload_length
  parsed := by simp [primitives, payload]
  structured := structured
  canonical := rfl
  encoded := by
    obtain ⟨found, encoded⟩ := exists_pae payload_length
    rw [message, encoded]
    rfl

theorem bound : Bound manifest expected where
  toolVersion := rfl
  artifactPolicyHash := rfl
  sourceCiphertextHash := rfl
  artifactCiphertextHash := rfl
  targetId := rfl
  secretId := rfl
  recipientFingerprint := rfl
  artifactGeneration := rfl
  representable := by decide
  issued := by decide
  unexpired := fun expiry never => nomatch never

/-- An OpenSSH approval key. -/
def sshKey : KeyBytes :=
  #v[0x3d, 0x40, 0x17, 0xc3, 0xe8, 0x43, 0x89, 0x5a, 0x92, 0xb7, 0x0a, 0xa7, 0x4d, 0x1b, 0x7e, 0xbc,
    0x9c, 0x98, 0x2c, 0xcf, 0x2e, 0xc4, 0x96, 0x8c, 0xc0, 0xcd, 0x55, 0xf1, 0x2a, 0xf4, 0x66, 0x0c]

/-- The trust set of the native and the OpenSSH key. -/
def mixedTrusted : TrustedKeys primitives :=
  (TrustedKeys.empty.add (verificationKey nativeKey)).add (verificationKey sshKey)

/-- Entry of the native key. -/
def nativeEntry : EnvelopeSignature where
  keyId := nativeKeyId primitives nativeKey
  algorithm := .ed25519V1
  signature := Base64.encode (signature nativeKey message).toList

/-- Entry of the other key, as OpenSSH signs, under the identifier of its public key line. -/
def sshEntry : EnvelopeSignature where
  keyId := legacySshKeyIdBytes primitives sshKey
  algorithm := .sshEd25519SshsigV1
  signature := (sshSignature ⟨.ed25519 sshKey, ""⟩ sshSignatureNamespace message).getD ""

theorem utf8ByteSize_sshEntry : sshEntry.signature.utf8ByteSize ≤ maxSignatureBytes :=
  @utf8ByteSize_sshSignature sshKey message _ rfl

/-- Envelope with the approvals of both keys. -/
def countersigned : SignedEnvelope := { envelope with signatures := [nativeEntry, sshEntry] }

theorem decoded_countersigned : Decoded primitives countersigned manifest payload message where
  payloadType := decoded.payloadType
  count := by simp [countersigned, maxSignatures]
  bounded := by
    intro entry listed
    rcases List.mem_pair.mp listed with rfl | rfl
    · exact ⟨by simp [nativeEntry, nativeKeyId], utf8ByteSize_signature nativeKey message⟩
    · exact ⟨by simp [sshEntry, legacySshKeyIdBytes], utf8ByteSize_sshEntry⟩
  decoded := decoded.decoded
  size := decoded.size
  parsed := decoded.parsed
  structured := decoded.structured
  canonical := decoded.canonical
  encoded := decoded.encoded

theorem keyIds_differ : nativeKeyId primitives sshKey ≠ nativeKeyId primitives nativeKey :=
  fun same => absurd (collisionFree.native same) (by decide)

theorem approves_nativeEntry :
    Approves mixedTrusted message nativeEntry (verificationKey nativeKey) := by
  refine ⟨?_, Or.inl rfl, Or.inl ⟨rfl, signature nativeKey message, Base64.decode_encode _, ?_⟩⟩
  · have different : compare (nativeKeyId primitives sshKey) (nativeKeyId primitives nativeKey) ≠
        .eq := fun same => keyIds_differ (Std.LawfulEqOrd.eq_of_compare same)
    simp only [TrustedKeys.Trusts, mixedTrusted, TrustedKeys.add, VerificationKey.keyId,
      verificationKey, Std.TreeMap.getElem?_insert, different, if_false]
    simp
  · simp [primitives, verificationKey]

theorem approves_sshEntry : Approves mixedTrusted message sshEntry (verificationKey sshKey) := by
  refine ⟨?_, Or.inr rfl, Or.inr ⟨rfl, sshEntry.signature, rfl, ?_, ?_⟩⟩
  · simp [TrustedKeys.Trusts, mixedTrusted, TrustedKeys.add]
  · simp [primitives, startsWith, sshEntry, sshSignature]
  · simp [primitives, verificationKey, sshEntry, sshSignature]

/-- Two approvals in different encodings meet a threshold of two. -/
theorem verify_countersigned :
    verify primitives countersigned mixedTrusted 2 expected =
      .ok ⟨manifest, (({} : Std.TreeSet String).insert (nativeKeyId primitives nativeKey)).insert
        (nativeKeyId primitives sshKey)⟩ := by
  have unseen : nativeKeyId primitives sshKey ∉
      ({} : Std.TreeSet String).insert (nativeKeyId primitives nativeKey) := by
    simp [Std.TreeSet.mem_insert, keyIds_differ.symm]
  refine verify_ok_iff.mpr ⟨⟨by decide, ?_, by simp [countersigned]⟩, payload, message,
    decoded_countersigned, bound, ?_, ?_⟩
  · have size : mixedTrusted.len = 2 := by
      simp [mixedTrusted, TrustedKeys.len, TrustedKeys.add, TrustedKeys.empty,
        Std.TreeMap.size_insert, VerificationKey.keyId, verificationKey, keyIds_differ.symm]
    exact size.ge
  · have first : verifyEntries primitives mixedTrusted message [nativeEntry, sshEntry] {} =
        verifyEntries primitives mixedTrusted message [sshEntry]
          (({} : Std.TreeSet String).insert (nativeKeyId primitives nativeKey)) :=
      verifyEntries_cons_of_approves collisionFree approves_nativeEntry [sshEntry] (by simp)
    exact first.trans (verifyEntries_cons_of_approves collisionFree approves_sshEntry [] unseen)
  · simp [Std.TreeSet.size_insert, keyIds_differ.symm]

end Sample

theorem verify_sound_two_approvals :
    ∃ payload message approvers,
      Accepted Sample.countersigned Sample.mixedTrusted 2 Sample.expected
        ⟨Sample.manifest, (({} : Std.TreeSet String).insert
          (nativeKeyId Sample.primitives Sample.nativeKey)).insert
            (nativeKeyId Sample.primitives Sample.sshKey)⟩ payload message approvers :=
  verify_sound Sample.collisionFree Sample.verify_countersigned

end Manifest
end NixSeal
