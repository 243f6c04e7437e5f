import NixSeal.Manifest.Soundness

/-!
# Completeness of approvals

Approving one manifest with any sequence of distinct keys succeeds up to the size limits, and the
result is accepted for every trust set of exactly these keys.  The invariant `Collected` relates
the entries of an envelope to the key materials behind them, whichever encoding each signer uses.
-/

namespace NixSeal
namespace Manifest

variable {P : Primitives}

/-- An OpenSSH signature under the artifact namespace that travels through its text form and
verifies under the public key. -/
def Transports (P : Primitives) (material : KeyBytes) (message : Bytes) (signature : P.SshSig) :
    Prop :=
  ∃ text, P.toPem signature = some text ∧ text.utf8ByteSize ≤ maxSignatureBytes ∧
    P.fromPem text = some signature ∧ P.sshSigIsEd25519 signature = true ∧
    ∀ comment,
      P.sshVerify ⟨.ed25519 material, comment⟩ sshSignatureNamespace message signature = true

/-- An OpenSSH public key is written as its line, possibly followed by a comment, and the line
without the comment is read back. -/
def WritesLine (P : Primitives) (key : SshPublicKey) (material : KeyBytes) : Prop :=
  key.keyData = .ed25519 material ∧
    (∃ text, P.toOpenssh key = some text ∧
      (text = sshEd25519Line material ∨
        ∃ comment, text = sshEd25519Line material ++ " " ++ comment)) ∧
    P.fromOpenssh (sshEd25519Line material) = some ⟨.ed25519 material, ""⟩

/-- A working signing key of a key material: what it signs verifies under its public key. -/
def Usable (key : ApprovalSigningKey P) (material : KeyBytes) : Prop :=
  P.isPoint material = true ∧
    match key with
    | .ed25519 key =>
        P.verifyingKey key = material ∧
          ∀ message, P.verifyStrict material message (P.sign key message) = true
    | .sshEd25519 key =>
        WritesLine P (P.sshPublicKey key) material ∧
          ∀ message, ∃ signature, P.sshSign key sshSignatureNamespace message = some signature ∧
            Transports P material message signature
    | .sshAgentEd25519 publicKey socket =>
        WritesLine P publicKey material ∧
          ∀ message, ∃ data blob raw signature,
            P.signedData sshSignatureNamespace message = some data ∧
            P.sshKeyBlob publicKey = some blob ∧ P.agentSign socket blob data = .ok raw ∧
            P.signatureIsEd25519 raw = true ∧
            P.newSshSig publicKey.keyData sshSignatureNamespace raw = some signature ∧
            Transports P material message signature

/-- A manifest with its canonical payload within the limit and the message to sign. -/
structure Canonical (P : Primitives) (manifest : TargetManifest) (payload message : Bytes) :
    Prop where
  /-- The manifest is well formed. -/
  structured : validateManifestStructure manifest = .ok ()
  /-- The payload is its canonical encoding. -/
  canonical : P.manifestToJcs manifest = some payload
  /-- Decoding returns the manifest. -/
  parsed : P.manifestFromJson payload = some manifest
  /-- The payload is within the limit. -/
  size : payload.length ≤ maxPayloadBytes
  /-- The message is the pre-authentication encoding. -/
  encoded : pae (utf8 payloadTypeText) payload = .ok message

/-- An entry is a signature of a key material, valid under either of its representations. -/
structure Signed (P : Primitives) (message : Bytes) (entry : EnvelopeSignature)
    (material : KeyBytes) : Prop where
  /-- The entry names the material. -/
  named : Names P entry.keyId material
  /-- The signature text is within the limit. -/
  bounded : entry.signature.utf8ByteSize ≤ maxSignatureBytes
  /-- The signature is valid. -/
  valid : ∀ key : VerificationKey, key.native = material → ValidSignature P message entry key

/-- An envelope collects exactly one signature of each listed material over the payload. -/
structure Collected (P : Primitives) (payload message : Bytes) (envelope : SignedEnvelope)
    (materials : List KeyBytes) : Prop where
  /-- The payload type is the exact manifest type. -/
  payloadType : envelope.payloadType = payloadTypeText
  /-- The envelope carries the payload. -/
  payload : envelope.payload = Base64.encode payload
  /-- Every entry is a signature of the material at its position. -/
  signed : List.Forall₂ (Signed P message) envelope.signatures materials

theorem Names.wireId_ne_nil {wireId : String} {material : KeyBytes}
    (named : Names P wireId material) : wireId.toList ≠ [] := by
  rcases named with rfl | rfl
  · simp [nativeKeyId]
  · simp [legacySshKeyIdBytes]

theorem signed_sshEntry {publicKey : SshPublicKey} {material : KeyBytes} {message : Bytes}
    {signature : P.SshSig} (ed25519 : publicKey.keyData = .ed25519 material)
    (transports : Transports P material message signature) :
    ∃ entry, ApprovalSigningKey.sshEntry publicKey signature = .ok entry ∧
      Signed P message entry material := by
  obtain ⟨text, written, bounded, parsed, kind, verifies⟩ := transports
  refine ⟨⟨legacySshKeyIdBytes P material, .sshEd25519SshsigV1, text⟩, ?_, Or.inr rfl, bounded, ?_⟩
  · simp [ApprovalSigningKey.sshEntry, written, Nat.not_lt.mpr bounded, legacySshKeyId, ed25519]
  · intro key native
    refine Or.inr ⟨rfl, signature, parsed, kind, ?_⟩
    have data := key.same
    rw [native] at data
    have expanded : key.ssh = ⟨.ed25519 material, key.ssh.comment⟩ := by rw [← data]
    rw [expanded]
    exact verifies key.ssh.comment

theorem Usable.sign {key : ApprovalSigningKey P} {material : KeyBytes}
    (usable : Usable key material) (message : Bytes) :
    ∃ entry, key.sign message = .ok entry ∧ Signed P message entry material := by
  obtain ⟨-, works⟩ := usable
  cases key with
  | ed25519 key =>
      obtain ⟨rfl, verifies⟩ := works
      refine ⟨_, rfl, Or.inl rfl, ?_, ?_⟩
      · have octets := utf8ByteSize_le (Base64.encode (P.sign key message).toList)
        have chars := Base64.length_encodeChars_le (P.sign key message).toList
        simp only [Base64.encode, String.length_ofList, Vector.length_toList] at octets chars
        simp only [Base64.encode, maxSignatureBytes]
        omega
      · intro other native
        refine Or.inl ⟨rfl, P.sign key message, Base64.decode_encode _, ?_⟩
        rw [native]
        exact verifies message
  | sshEd25519 key =>
      obtain ⟨⟨ed25519, -⟩, signs⟩ := works
      obtain ⟨signature, signed, transports⟩ := signs message
      simp only [ApprovalSigningKey.sign, ApprovalSigningKey.signWithNamespace, signed]
      exact signed_sshEntry ed25519 transports
  | sshAgentEd25519 publicKey socket =>
      obtain ⟨⟨ed25519, -⟩, signs⟩ := works
      obtain ⟨data, blob, raw, signature, data_eq, blob_eq, agent, kind, made, transports⟩ :=
        signs message
      simp only [ApprovalSigningKey.sign, ApprovalSigningKey.signWithNamespace, data_eq, blob_eq,
        agent, Fallible.ok_bind, kind, made]
      exact signed_sshEntry ed25519 transports

theorem isWhitespace_of_isTextChar {char : Char} (text : Base64.IsTextChar char) :
    isWhitespace char = false ∧ isAsciiWhitespace char = false := by
  have digits : ∀ digit < 64, isWhitespace (Base64.digitChar digit) = false ∧
      isAsciiWhitespace (Base64.digitChar digit) = false := by
    decide
  rcases text with rfl | ⟨digit, bound, rfl⟩
  · decide
  · exact digits digit bound

theorem trim_encoded {literal : String} {bytes : Bytes} (nonempty : bytes ≠ [])
    (front : ∀ char ∈ literal.toList.head?, isWhitespace char = false)
    (literal_nonempty : literal.toList ≠ []) :
    trim (literal ++ Base64.encode bytes) = literal ++ Base64.encode bytes := by
  have encoded := Base64.encodeChars_ne_nil nonempty
  apply trim_eq_self
  · intro char member
    apply front
    rw [String.toList_append] at member
    cases chars : literal.toList with
    | nil => exact absurd chars literal_nonempty
    | cons head rest => simpa [chars] using member
  · intro char member
    have last : char ∈ Base64.encodeChars bytes := by
      rw [String.toList_append, Base64.encode, String.toList_ofList,
        List.getLast?_append_of_ne_nil _ encoded] at member
      exact List.mem_of_getLast? member
    exact (isWhitespace_of_isTextChar (Base64.isTextChar_of_mem_encodeChars last)).1

theorem parsePublicKey_encodePublicKey {material : KeyBytes} (point : P.isPoint material = true) :
    parsePublicKey P (encodePublicKey material) =
      .ok ⟨material, ⟨.ed25519 material, ""⟩, rfl⟩ := by
  have octets : material.toList ≠ [] := by
    intro empty
    have length := material.length_toList
    rw [empty] at length
    cases length
  have trimmed : trim (encodePublicKey material) = encodePublicKey material :=
    trim_encoded octets (by simp [publicKeyTag, isWhitespace]) (by decide)
  simp only [parsePublicKey, trimmed]
  simp [encodePublicKey, point]

theorem parsePublicKey_sshEd25519Line {material : KeyBytes} (point : P.isPoint material = true)
    (read : P.fromOpenssh (sshEd25519Line material) = some ⟨.ed25519 material, ""⟩) :
    parsePublicKey P (sshEd25519Line material) =
      .ok ⟨material, ⟨.ed25519 material, ""⟩, rfl⟩ := by
  have trimmed : trim (sshEd25519Line material) = sshEd25519Line material :=
    trim_encoded (by simp [sshEd25519Blob, beU32]) (by simp [isWhitespace]) (by decide)
  have untagged : stripLiteral publicKeyTag (sshEd25519Line material) = none := by
    simp [stripLiteral, publicKeyTag, sshEd25519Line]
  simp [parsePublicKey, trimmed, untagged, read, point]

/-- Normalization drops the comment of an OpenSSH public key. -/
theorem normalizeSshPublicKey_of_writesLine {key : SshPublicKey} {material : KeyBytes}
    (writes : WritesLine P key material) :
    normalizeSshPublicKey P key = .ok (sshEd25519Line material) := by
  obtain ⟨-, ⟨text, written, shape⟩, -⟩ := writes
  let body := Base64.encodeChars (sshEd25519Blob material)
  have body_nonempty : body ≠ [] := Base64.encodeChars_ne_nil (by simp [sshEd25519Blob, beU32])
  have body_plain : ∀ char ∈ body, isAsciiWhitespace char = false := by
    intro char member
    exact (isWhitespace_of_isTextChar (Base64.isTextChar_of_mem_encodeChars member)).2
  have tag_plain : ∀ char ∈ "ssh-ed25519".toList, isAsciiWhitespace char = false := by
    simp [isAsciiWhitespace]
  have line : (sshEd25519Line material).toList = "ssh-ed25519".toList ++ ' ' :: body := by
    simp [sshEd25519Line, Base64.encode, body]
  have fields : ∃ rest, asciiFields text = "ssh-ed25519".toList :: body :: rest := by
    rcases shape with rfl | ⟨comment, rfl⟩
    · refine ⟨[], ?_⟩
      rw [asciiFields, line, List.splitOnP_append_cons_of_forall_mem tag_plain ' ' (by decide),
        List.splitOnP_eq_singleton body_plain]
      simp [body_nonempty]
    · refine ⟨(comment.toList.splitOnP isAsciiWhitespace).filter fun field => field != [], ?_⟩
      have shaped : (sshEd25519Line material ++ " " ++ comment).toList =
          "ssh-ed25519".toList ++ ' ' :: (body ++ ' ' :: comment.toList) := by
        simp [line]
      rw [asciiFields, shaped,
        List.splitOnP_append_cons_of_forall_mem tag_plain ' ' (by decide),
        List.splitOnP_append_cons_of_forall_mem body_plain ' ' (by decide)]
      simp [body_nonempty]
  obtain ⟨rest, fields⟩ := fields
  simp only [normalizeSshPublicKey, written, fields]
  simp [sshEd25519Line, Base64.encode, body]

/-- A working key publishes an encoding that is read back as its key material. -/
theorem Usable.publicKey {key : ApprovalSigningKey P} {material : KeyBytes}
    (usable : Usable key material) :
    ∃ encoded publicKey, key.encodePublic = .ok encoded ∧
      parsePublicKey P encoded = .ok publicKey ∧ publicKey.native = material := by
  obtain ⟨point, works⟩ := usable
  cases key with
  | ed25519 key =>
      obtain ⟨rfl, -⟩ := works
      exact ⟨_, _, rfl, parsePublicKey_encodePublicKey point, rfl⟩
  | sshEd25519 key =>
      obtain ⟨writes, -⟩ := works
      exact ⟨_, _, normalizeSshPublicKey_of_writesLine writes,
        parsePublicKey_sshEd25519Line point writes.2.2, rfl⟩
  | sshAgentEd25519 publicKey socket =>
      obtain ⟨writes, -⟩ := works
      exact ⟨_, _, normalizeSshPublicKey_of_writesLine writes,
        parsePublicKey_sshEd25519Line point writes.2.2, rfl⟩

section Collecting

variable {manifest : TargetManifest} {payload message : Bytes} {envelope : SignedEnvelope}
  {materials : List KeyBytes}

theorem Collected.decoded (canonical : Canonical P manifest payload message)
    (collected : Collected P payload message envelope materials)
    (count : materials.length ≤ maxSignatures) :
    Decoded P envelope manifest payload message where
  payloadType := collected.payloadType
  count := collected.signed.length_eq ▸ count
  bounded := by
    intro entry member
    obtain ⟨material, -, signed⟩ := Correspondence.exists_partner collected.signed member
    exact ⟨signed.named.wireId_ne_nil, signed.bounded⟩
  decoded := by rw [collected.payload, Base64.decode_encode]
  size := canonical.size
  parsed := canonical.parsed
  structured := canonical.structured
  canonical := canonical.canonical
  encoded := canonical.encoded

/-- The duplicate test of `add_signature` finds exactly the collected materials. -/
theorem Collected.any_matchesWireId_iff (collisionFree : CollisionFree P)
    (collected : Collected P payload message envelope materials) (publicKey : VerificationKey) :
    (envelope.signatures.any fun present => publicKey.matchesWireId P present.keyId) = true ↔
      publicKey.native ∈ materials := by
  rw [List.any_eq_true]
  constructor
  · rintro ⟨entry, member, matched⟩
    obtain ⟨material, material_member, signed⟩ :=
      Correspondence.exists_partner collected.signed member
    have named : Names P entry.keyId publicKey.native :=
      (publicKey.matchesWireId_iff P entry.keyId).mp matched
    rwa [named.unique collisionFree signed.named]
  · intro member
    obtain ⟨entry, entry_member, signed⟩ := Correspondence.exists_item collected.signed member
    exact ⟨entry, entry_member, (publicKey.matchesWireId_iff P entry.keyId).mpr signed.named⟩

/-- What `add_signature` does with a working key, in every state of a collection. -/
theorem Collected.extendEnvelope (collisionFree : CollisionFree P)
    (canonical : Canonical P manifest payload message)
    (collected : Collected P payload message envelope materials)
    (count : materials.length ≤ maxSignatures) {key : ApprovalSigningKey P} {material : KeyBytes}
    (usable : Usable key material) :
    ∃ entry, Signed P message entry material ∧
      extendEnvelope P envelope key =
        if materials.length = maxSignatures then .error .limit
        else if material ∈ materials then .error .duplicateSigner
        else .ok { envelope with signatures := envelope.signatures ++ [entry] } := by
  obtain ⟨entry, signs, signed⟩ := usable.sign message
  obtain ⟨encoded, publicKey, published, parsed, rfl⟩ := usable.publicKey
  refine ⟨entry, signed, ?_⟩
  have present := collected.any_matchesWireId_iff collisionFree publicKey
  have length := collected.signed.length_eq
  simp only [Manifest.extendEnvelope,
    decodeEnvelope_ok_iff.mpr (collected.decoded canonical count), Fallible.ok_bind, signs,
    published, parsed, length]
  by_cases full : materials.length = maxSignatures
  · simp [full]
  · have room : ¬maxSignatures ≤ materials.length := by omega
    rw [if_neg room, if_neg full, ← collected.payload]
    by_cases member : publicKey.native ∈ materials
    · rw [if_pos (present.mpr member), if_pos member]
    · rw [if_neg fun matched => member (present.mp matched), if_neg member]

/-- `sign_manifest` starts a collection. -/
theorem signManifest_collected (canonical : Canonical P manifest payload message)
    {key : ApprovalSigningKey P} {material : KeyBytes} (usable : Usable key material) :
    ∃ envelope, signManifest P manifest key = .ok envelope ∧
      Collected P payload message envelope [material] := by
  obtain ⟨entry, signs, signed⟩ := usable.sign message
  refine ⟨⟨payloadTypeText, Base64.encode payload, [entry]⟩, ?_, rfl, rfl, .cons signed .nil⟩
  simp [signManifest, canonical.structured, canonical.canonical, Nat.not_lt.mpr canonical.size,
    canonical.encoded, signs]

/-- `add_signature` continues a collection. -/
theorem Collected.addSignature_new (collisionFree : CollisionFree P)
    (canonical : Canonical P manifest payload message)
    (collected : Collected P payload message envelope materials)
    (room : materials.length < maxSignatures) {key : ApprovalSigningKey P} {material : KeyBytes}
    (usable : Usable key material) (absent : material ∉ materials) :
    ∃ extended, addSignature P envelope key = (extended, .ok ()) ∧
      Collected P payload message extended (materials ++ [material]) := by
  obtain ⟨entry, signed, extends_to⟩ :=
    collected.extendEnvelope collisionFree canonical room.le usable
  rw [if_neg room.ne, if_neg absent] at extends_to
  refine ⟨{ envelope with signatures := envelope.signatures ++ [entry] }, ?_,
    collected.payloadType, collected.payload, ?_⟩
  · rw [addSignature, extends_to]
  · exact List.rel_append collected.signed (.cons signed .nil)

/-- `add_signature` refuses a present material without touching the envelope. -/
theorem Collected.addSignature_present (collisionFree : CollisionFree P)
    (canonical : Canonical P manifest payload message)
    (collected : Collected P payload message envelope materials)
    (count : materials.length ≤ maxSignatures) {key : ApprovalSigningKey P} {material : KeyBytes}
    (usable : Usable key material) (present : material ∈ materials) :
    addSignature P envelope key =
      (envelope,
        .error (if materials.length < maxSignatures then .duplicateSigner else .limit)) := by
  obtain ⟨entry, -, extends_to⟩ := collected.extendEnvelope collisionFree canonical count usable
  rw [addSignature, extends_to, if_pos present]
  by_cases full : materials.length = maxSignatures
  · simp [full]
  · have room : materials.length < maxSignatures := by omega
    simp [full, room]

/-- The signature loop of `verify` accepts a collection whose materials are all trusted. -/
theorem verifyEntries_collected (collisionFree : CollisionFree P) {trusted : TrustedKeys P}
    {entries : List EnvelopeSignature} {signers : Std.TreeSet String}
    (signed : List.Forall₂ (Signed P message) entries materials)
    (known : ∀ material ∈ materials, material ∈ trusted.materials) (distinct : materials.Nodup)
    (unseen : ∀ material ∈ materials, nativeKeyId P material ∉ signers) :
    ∃ result, verifyEntries P trusted message entries signers = .ok result ∧
      (∀ id, id ∈ result ↔ id ∈ signers ∨ ∃ material ∈ materials, id = nativeKeyId P material) ∧
      result.size = signers.size + materials.length := by
  induction signed generalizing signers with
  | nil => exact ⟨signers, rfl, by simp, by simp⟩
  | @cons entry material entries materials first rest ih =>
      rw [List.nodup_cons] at distinct
      have fresh := unseen material (by simp)
      obtain ⟨key, trusts, native⟩ : ∃ key, trusted.Trusts key ∧ key.native = material := by
        have member := known material (by simp)
        simp only [TrustedKeys.materials, List.mem_toFinset, List.mem_map,
          trusted.mem_values_iff] at member
        exact member
      have identifier : key.keyId P = nativeKeyId P material := by
        rw [VerificationKey.keyId, native]
      have approves : Approves trusted message entry key :=
        ⟨trusts, native ▸ first.named, first.valid key native⟩
      have unseen_rest : ∀ other ∈ materials,
          nativeKeyId P other ∉ signers.insert (nativeKeyId P material) := by
        intro other member inserted
        rw [Std.TreeSet.mem_insert, Std.LawfulEqCmp.compare_eq_iff_eq] at inserted
        rcases inserted with same | seen
        · exact distinct.1 (collisionFree.native same ▸ member)
        · exact unseen other (by simp [member]) seen
      obtain ⟨result, verified, members, size⟩ :=
        ih (fun other member => known other (by simp [member])) distinct.2 unseen_rest
      refine ⟨result, ?_, ?_, ?_⟩
      · rw [verifyEntries_cons_of_approves collisionFree approves entries (identifier ▸ fresh),
          identifier, verified]
      · intro id
        rw [members, Std.TreeSet.mem_insert, Std.LawfulEqCmp.compare_eq_iff_eq]
        simp only [List.mem_cons, exists_eq_or_imp, @eq_comm _ id]
        tauto
      · rw [size, Std.TreeSet.size_insert, List.length_cons]
        simp only [Std.TreeSet.contains_iff_mem, fresh, if_false]
        omega

/-- `verify` accepts a collection whose materials are all trusted. -/
theorem Collected.verify_trusted (collisionFree : CollisionFree P)
    (canonical : Canonical P manifest payload message)
    (collected : Collected P payload message envelope materials)
    (count : materials.length ≤ maxSignatures) (distinct : materials.Nodup)
    {trusted : TrustedKeys P} (known : ∀ material ∈ materials, material ∈ trusted.materials)
    {threshold : Nat} (positive : 1 ≤ threshold) (available : threshold ≤ materials.length)
    {expected : ExpectedBinding} (bound : Bound manifest expected) :
    ∃ signers, verify P envelope trusted threshold expected = .ok ⟨manifest, signers⟩ ∧
      ∀ id, id ∈ signers ↔ ∃ material ∈ materials, id = nativeKeyId P material := by
  have unseen : ∀ material ∈ materials, nativeKeyId P material ∉ ({} : Std.TreeSet String) := by
    simp
  obtain ⟨signers, verified, members, size⟩ :=
    verifyEntries_collected collisionFree collected.signed known distinct unseen
  refine ⟨signers, ?_, by simpa using members⟩
  have trusted_count : materials.length ≤ trusted.len := by
    rw [← trusted.card_materials, ← List.toFinset_card_of_nodup distinct]
    exact Finset.card_le_card fun material member => known material (List.mem_toFinset.mp member)
  have nonempty : envelope.signatures ≠ [] := by
    intro empty
    have length := collected.signed.length_eq
    rw [empty, List.length_nil] at length
    omega
  refine verify_ok_iff.mpr ⟨⟨by omega, by omega, nonempty⟩, payload, message,
    collected.decoded canonical count, bound, verified, ?_⟩
  rw [size]
  simpa using available

/-- `verify` accepts a collection under a trust set of exactly its materials. -/
theorem Collected.verify_ok (collisionFree : CollisionFree P)
    (canonical : Canonical P manifest payload message)
    (collected : Collected P payload message envelope materials)
    (count : materials.length ≤ maxSignatures) (distinct : materials.Nodup)
    {trusted : TrustedKeys P} (exactly : trusted.materials = materials.toFinset) {threshold : Nat}
    (positive : 1 ≤ threshold) (available : threshold ≤ materials.length)
    {expected : ExpectedBinding} (bound : Bound manifest expected) :
    ∃ signers, verify P envelope trusted threshold expected = .ok ⟨manifest, signers⟩ ∧
      ∀ id, id ∈ signers ↔ ∃ material ∈ materials, id = nativeKeyId P material := by
  refine collected.verify_trusted collisionFree canonical count distinct ?_ positive available bound
  intro material member
  rw [exactly]
  simpa using member

end Collecting

/-- `sign_manifest` with the first key, then `add_signature` with each of the others. -/
def approve (P : Primitives) (manifest : TargetManifest) (first : ApprovalSigningKey P)
    (others : List (ApprovalSigningKey P)) : Except ManifestError SignedEnvelope := do
  let envelope ← signManifest P manifest first
  others.foldlM
    (fun envelope key =>
      match addSignature P envelope key with
      | (extended, .ok ()) => .ok extended
      | (_, .error error) => .error error)
    envelope

theorem approve_collected (collisionFree : CollisionFree P) {manifest : TargetManifest}
    {payload message : Bytes} (canonical : Canonical P manifest payload message)
    {first : ApprovalSigningKey P} {others : List (ApprovalSigningKey P)}
    {materials : List KeyBytes} (usable : List.Forall₂ Usable (first :: others) materials)
    (distinct : materials.Nodup) (count : materials.length ≤ maxSignatures) :
    ∃ envelope, approve P manifest first others = .ok envelope ∧
      Collected P payload message envelope materials := by
  obtain ⟨material, rest, usable_first, usable_others, rfl⟩ :=
    List.forall₂_cons_left_iff.mp usable
  obtain ⟨started, signs, collected⟩ := signManifest_collected canonical usable_first
  rw [approve, signs, Fallible.ok_bind]
  clear signs usable usable_first
  rw [← List.singleton_append] at distinct count ⊢
  generalize [material] = collectedSoFar at collected distinct count ⊢
  induction usable_others generalizing started collectedSoFar with
  | nil => exact ⟨started, rfl, by simpa using collected⟩
  | @cons key next keys rest usable_key usable_keys ih =>
      have absent : next ∉ collectedSoFar := by
        intro member
        exact (List.disjoint_of_nodup_append distinct) member (by simp)
      have room : collectedSoFar.length < maxSignatures := by
        simp only [List.length_append, List.length_cons] at count
        omega
      obtain ⟨extended, added, continued⟩ :=
        collected.addSignature_new collisionFree canonical room usable_key absent
      rw [List.append_cons] at distinct count ⊢
      rw [List.foldlM_cons, added]
      exact ih extended (collectedSoFar ++ [next]) continued distinct count

theorem length_of_extendEnvelope {envelope extended : SignedEnvelope} {key : ApprovalSigningKey P}
    (extends_to : extendEnvelope P envelope key = .ok extended) :
    envelope.signatures.length < maxSignatures ∧
      extended.signatures.length = envelope.signatures.length + 1 := by
  obtain ⟨⟨_, payload, message⟩, -, extends_to⟩ := Fallible.bind_eq_ok.mp extends_to
  rw [Fallible.guard_eq_ok] at extends_to
  obtain ⟨room, extends_to⟩ := extends_to
  obtain ⟨entry, -, extends_to⟩ := Fallible.bind_eq_ok.mp extends_to
  obtain ⟨encoded, -, extends_to⟩ := Fallible.bind_eq_ok.mp extends_to
  obtain ⟨publicKey, -, extends_to⟩ := Fallible.bind_eq_ok.mp extends_to
  rw [Fallible.guard_eq_ok] at extends_to
  cases extends_to.2
  exact ⟨Nat.not_le.mp room, by simp⟩

theorem limits_of_approve {manifest : TargetManifest} {payload : Bytes}
    (canonical : P.manifestToJcs manifest = some payload) {first : ApprovalSigningKey P}
    {others : List (ApprovalSigningKey P)} {envelope : SignedEnvelope}
    (approved : approve P manifest first others = .ok envelope) :
    others.length + 1 ≤ maxSignatures ∧ payload.length ≤ maxPayloadBytes := by
  obtain ⟨started, signs, added⟩ := Fallible.bind_eq_ok.mp approved
  obtain ⟨⟨⟩, -, signs⟩ := Fallible.bind_eq_ok.mp signs
  simp only [canonical, Fallible.guard_eq_ok, not_lt] at signs
  obtain ⟨small, signs⟩ := signs
  obtain ⟨message, -, signs⟩ := Fallible.bind_eq_ok.mp signs
  obtain ⟨entry, -, signs⟩ := Fallible.bind_eq_ok.mp signs
  cases signs
  have counted := Fallible.foldlM_eq_ok_induction added
    (fun done (envelope : SignedEnvelope) => envelope.signatures.length = done.length + 1 ∧
      envelope.signatures.length ≤ maxSignatures) (by simp [maxSignatures]) ?_
  · exact ⟨counted.1 ▸ counted.2, small⟩
  · intro done key envelope next _ stepped counted
    unfold addSignature at stepped
    cases extends_to : extendEnvelope P envelope key with
    | error error => simp [extends_to] at stepped
    | ok extended =>
        simp only [extends_to, Except.ok.injEq] at stepped
        obtain ⟨room, longer⟩ := length_of_extendEnvelope extends_to
        subst stepped
        rw [longer, List.length_append, List.length_singleton]
        omega

/-- Approvals by any sequence of distinct working keys succeed and are accepted under every trust
set of exactly these keys; a key that is already present is refused. -/
theorem approve_complete (collisionFree : CollisionFree P) {manifest : TargetManifest}
    {payload : Bytes} (structured : validateManifestStructure manifest = .ok ())
    (canonical : P.manifestToJcs manifest = some payload)
    (parsed : P.manifestFromJson payload = some manifest)
    (size : payload.length ≤ maxPayloadBytes) {first : ApprovalSigningKey P}
    {others : List (ApprovalSigningKey P)} {materials : List KeyBytes}
    (usable : List.Forall₂ Usable (first :: others) materials) (distinct : materials.Nodup)
    (count : materials.length ≤ maxSignatures) :
    ∃ envelope, approve P manifest first others = .ok envelope ∧
      envelope.payload = Base64.encode payload ∧
      (∀ (trusted : TrustedKeys P) (threshold : Nat) (expected : ExpectedBinding),
        trusted.materials = materials.toFinset → 1 ≤ threshold → threshold ≤ materials.length →
          Bound manifest expected →
            ∃ signers, verify P envelope trusted threshold expected = .ok ⟨manifest, signers⟩ ∧
              ∀ id, id ∈ signers ↔ ∃ material ∈ materials, id = nativeKeyId P material) ∧
      ∀ (key : ApprovalSigningKey P) (material : KeyBytes), Usable key material →
        material ∈ materials →
          addSignature P envelope key =
            (envelope,
              .error (if materials.length < maxSignatures then .duplicateSigner else .limit)) := by
  obtain ⟨message, encoded⟩ := exists_pae size
  have context : Canonical P manifest payload message :=
    ⟨structured, canonical, parsed, size, encoded⟩
  obtain ⟨envelope, approved, collected⟩ :=
    approve_collected collisionFree context usable distinct count
  refine ⟨envelope, approved, collected.payload, ?_, ?_⟩
  · intro trusted threshold expected exactly positive available bound
    exact collected.verify_ok collisionFree context count distinct exactly positive available bound
  · intro key material usable_key present
    exact collected.addSignature_present collisionFree context count usable_key present

namespace TrustedKeys

theorem mem_materials_iff (collisionFree : CollisionFree P) (trusted : TrustedKeys P)
    (material : KeyBytes) :
    material ∈ trusted.materials ↔ nativeKeyId P material ∈ trusted.keys := by
  simp only [materials, List.mem_toFinset, List.mem_map, trusted.mem_values_iff,
    Std.TreeMap.mem_iff_isSome_getElem?, Option.isSome_iff_exists]
  constructor
  · rintro ⟨key, trusts, rfl⟩
    exact ⟨key, trusts⟩
  · rintro ⟨key, stored⟩
    have identifier := trusted.keyed _ _ stored
    have native := collisionFree.native identifier
    refine ⟨key, ?_, native.symm⟩
    rwa [identifier] at stored

theorem materials_add (collisionFree : CollisionFree P) (trusted : TrustedKeys P)
    (key : VerificationKey) :
    (trusted.add key).materials = insert key.native trusted.materials := by
  ext material
  rw [mem_materials_iff collisionFree, Finset.mem_insert, mem_materials_iff collisionFree, add,
    Std.TreeMap.mem_insert, Std.LawfulEqCmp.compare_eq_iff_eq]
  refine or_congr ?_ Iff.rfl
  constructor
  · intro same
    exact (collisionFree.native same).symm
  · rintro rfl
    rfl

end TrustedKeys

namespace Sample

theorem usable_native (material : KeyBytes) :
    Usable (P := primitives) (.ed25519 material) material := by
  refine ⟨rfl, rfl, ?_⟩
  intro message
  simp [primitives]

theorem usable_ssh (material : KeyBytes) :
    Usable (P := primitives) (.sshEd25519 ⟨.ed25519 material, ""⟩) material := by
  have blob_tail : (sshEd25519Blob material).drop 19 = material.toList := by
    have front : (beU32 11 ++ utf8 "ssh-ed25519" ++ beU32 32).length = 19 := by decide
    rw [sshEd25519Blob, List.drop_left' front]
  refine ⟨rfl, ⟨rfl, ⟨sshEd25519Line material, rfl, Or.inl rfl⟩, ?_⟩, ?_⟩
  · simp [primitives, sshEd25519Line, blob_tail]
  · intro message
    refine ⟨_, rfl, _, rfl, ?_, rfl, ?_, ?_⟩
    · refine (utf8ByteSize_le _).trans ?_
      have encoded := Base64.length_encodeChars_le
        (sshEd25519Blob material ++ utf8 sshSignatureNamespace ++ [checksum message])
      have label : (utf8 sshSignatureNamespace).length = 20 := by decide
      have blob : (sshEd25519Blob material).length = 51 := by
        have front : (beU32 11 ++ utf8 "ssh-ed25519" ++ beU32 32).length = 19 := by decide
        rw [sshEd25519Blob, List.length_append, front, Vector.length_toList]
      simp only [List.length_append, List.length_singleton, label, blob] at encoded
      simp only [String.length_append, Base64.encode, String.length_ofList, maxSignatureBytes]
      have opening : "-----BEGIN SSH SIGNATURE-----\n".length = 30 := by decide
      have closing : "\n-----END SSH SIGNATURE-----\n".length = 29 := by decide
      omega
    · simp [primitives, startsWith]
    · intro comment
      simp [primitives, sshSignature]

theorem materials_mixedTrusted : mixedTrusted.materials = [nativeKey, sshKey].toFinset := by
  rw [mixedTrusted, TrustedKeys.materials_add collisionFree,
    TrustedKeys.materials_add collisionFree, Finset.insert_comm]
  rfl

/-- The native signing key of a material. -/
def nativeSigner (material : KeyBytes) : ApprovalSigningKey primitives := .ed25519 material

/-- Distinct key materials, one for each octet. -/
def materialOf (index : UInt8) : KeyBytes := nativeKey.set 0 index

/-- As many distinct materials as an envelope can hold signatures. -/
def manyMaterials : List KeyBytes :=
  (List.range maxSignatures).map fun index => materialOf (UInt8.ofNat index)

/-- A well-formed manifest whose canonical encoding exceeds the payload limit. -/
def largeManifest : TargetManifest :=
  { manifest with toolVersion := String.ofList (List.replicate (maxPayloadBytes + 1) 'a') }

theorem structured_largeManifest : validateManifestStructure largeManifest = .ok () := by
  have digests : isDigest digest = true := by decide
  simp [validateManifestStructure, largeManifest, manifest, digests]

theorem utf8ByteSize_le_append_right {part text : String} (front : String)
    (inner : part.utf8ByteSize ≤ text.utf8ByteSize) :
    part.utf8ByteSize ≤ (front ++ text).utf8ByteSize := by
  rw [String.utf8ByteSize_append]
  exact Nat.le_add_left_of_le inner

theorem utf8ByteSize_le_append_left {part text : String} (back : String)
    (inner : part.utf8ByteSize ≤ text.utf8ByteSize) :
    part.utf8ByteSize ≤ (text ++ back).utf8ByteSize := by
  rw [String.utf8ByteSize_append]
  exact Nat.le_add_right_of_le inner

theorem toolVersion_le_manifestText (body : TargetManifest) :
    body.toolVersion.utf8ByteSize ≤ (utf8 (manifestText body)).length := by
  rw [length_utf8]
  unfold manifestText
  dsimp only
  apply utf8ByteSize_le_append_left
  apply utf8ByteSize_le_append_right
  apply utf8ByteSize_le_append_right
  apply utf8ByteSize_le_append_left
  apply utf8ByteSize_le_append_right
  exact le_refl _

theorem utf8ByteSize_replicate (count : Nat) :
    count ≤ (String.ofList (List.replicate count 'a')).utf8ByteSize := by
  rw [← String.size_toByteArray, String.toByteArray_ofList]
  induction count with
  | zero => simp
  | succ count ih =>
      rw [List.replicate_succ, List.utf8Encode_cons, ByteArray.size_append]
      have positive : 0 < (['a'].utf8Encode).size := by decide
      omega

theorem length_largeManifest :
    maxPayloadBytes < (utf8 (manifestText largeManifest)).length :=
  (utf8ByteSize_replicate (maxPayloadBytes + 1)).trans (toolVersion_le_manifestText largeManifest)

theorem nodup_manyMaterials : manyMaterials.Nodup := by
  refine List.Nodup.map_on ?_ List.nodup_range
  intro left left_bound right right_bound same
  have octets : UInt8.ofNat left = UInt8.ofNat right := by
    have heads := congrArg (fun key : KeyBytes => key[0]) same
    simpa [materialOf] using heads
  have values := congrArg UInt8.toNat octets
  rw [List.mem_range, maxSignatures] at left_bound right_bound
  simp only [UInt8.toNat_ofNat'] at values
  omega

theorem length_manyMaterials : manyMaterials.length = maxSignatures := by
  simp [manyMaterials]

theorem usable_manyMaterials :
    List.Forall₂ Usable (manyMaterials.map nativeSigner) manyMaterials := by
  rw [List.forall₂_map_left_iff, List.forall₂_same]
  intro material _
  exact usable_native material

theorem canonical : Canonical primitives manifest payload message :=
  ⟨decoded.structured, decoded.canonical, decoded.parsed, payload_length, decoded.encoded⟩

end Sample

theorem approve_complete_native_and_ssh :
    ∃ envelope,
      approve Sample.primitives Sample.manifest (.ed25519 Sample.nativeKey)
          [.sshEd25519 ⟨.ed25519 Sample.sshKey, ""⟩] = .ok envelope ∧
        (∃ signers, verify Sample.primitives envelope Sample.mixedTrusted 2 Sample.expected =
          .ok ⟨Sample.manifest, signers⟩) ∧
        addSignature Sample.primitives envelope (.ed25519 Sample.sshKey) =
          (envelope, .error .duplicateSigner) := by
  obtain ⟨envelope, approved, -, accepted, refused⟩ :=
    approve_complete Sample.collisionFree Sample.decoded.structured Sample.decoded.canonical
      Sample.decoded.parsed Sample.payload_length
      (.cons (Sample.usable_native Sample.nativeKey) (.cons (Sample.usable_ssh Sample.sshKey) .nil))
      (by decide) (by decide)
  obtain ⟨signers, verified, -⟩ := accepted Sample.mixedTrusted 2 Sample.expected
    Sample.materials_mixedTrusted (by decide) (by decide) Sample.bound
  exact ⟨envelope, approved, ⟨signers, verified⟩,
    refused (.ed25519 Sample.sshKey) Sample.sshKey (Sample.usable_native Sample.sshKey)
      (by decide)⟩

/-- The limits of approvals: a well-formed manifest whose payload is too large is not signed, a
full envelope answers a present key with its limit, and a zero threshold is never accepted. -/
theorem approvals_at_limits :
    (validateManifestStructure Sample.largeManifest = .ok () ∧
      signManifest Sample.primitives Sample.largeManifest (.ed25519 Sample.nativeKey) =
        .error .limit) ∧
    (∃ first others envelope,
      (first :: others) = Sample.manyMaterials.map Sample.nativeSigner ∧
        Sample.manyMaterials.Nodup ∧ Sample.manyMaterials.length = maxSignatures ∧
        approve Sample.primitives Sample.manifest first others = .ok envelope ∧
        addSignature Sample.primitives envelope first = (envelope, .error .limit)) ∧
    verify Sample.primitives Sample.envelope Sample.trusted 0 Sample.expected =
      .error .threshold := by
  refine ⟨⟨?_, ?_⟩, ?_, rfl⟩
  · exact Sample.structured_largeManifest
  · have large : ¬(utf8 (Sample.manifestText Sample.largeManifest)).length ≤ maxPayloadBytes :=
      Nat.not_le.mpr Sample.length_largeManifest
    simp [signManifest, Sample.structured_largeManifest, Sample.primitives, Nat.not_le.mp large]
  · obtain ⟨envelope, approved, collected⟩ :=
      approve_collected Sample.collisionFree Sample.canonical Sample.usable_manyMaterials
        Sample.nodup_manyMaterials Sample.length_manyMaterials.le
    have refused := collected.addSignature_present Sample.collisionFree Sample.canonical
      Sample.length_manyMaterials.le (Sample.usable_native (Sample.materialOf 0)) (by decide)
    rw [Sample.length_manyMaterials, if_neg (lt_irrefl _)] at refused
    exact ⟨_, _, envelope, rfl, Sample.nodup_manyMaterials, Sample.length_manyMaterials, approved,
      refused⟩

end Manifest
end NixSeal
