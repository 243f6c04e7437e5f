import NixSeal.Delegation.Authorization
import NixSeal.Lib.Framing

/-!
# Signature domains

What is signed tells the payload type and the payload: both stand behind their decimal lengths.
Manifests and capabilities have payload types of their own, so no signature made for the one is
accepted for the other.
-/

namespace NixSeal.Delegation

open Framing Manifest

/-- Decimal digits and the blank behind them. -/
def decimal (length : Nat) : Bytes := utf8 (toString length) ++ utf8 " "

theorem blank_not_mem_digits (number : Nat) : (32 : UInt8) ∉ utf8 (toString number) := by
  have octets : utf8 (toString number) = (toString number).toList.map Char.toUInt8 := by
    have ascii : ∀ char ∈ (toString number).toList, char.toNat < 0x80 := by
      intro char member
      have digit := digit_of_mem_toString member
      omega
    rw [← utf8_of_ascii ascii, String.ofList_toList]
  rw [octets]
  intro member
  obtain ⟨char, listed, octet⟩ := List.mem_map.mp member
  have digit := digit_of_mem_toString listed
  have value : char.toUInt8.toNat = char.toNat := by
    simp only [Char.toUInt8, UInt32.toNat_toUInt8]
    exact Nat.mod_eq_of_lt (by have := digit.2; simp only [Char.toNat] at this; omega)
  rw [octet] at value
  have thirtyTwo : (32 : UInt8).toNat = 32 := by decide
  omega

theorem selfDelimiting_decimal : SelfDelimiting (fun _ => True) decimal := by
  have blank : utf8 " " = [32] := by decide
  have code : decimal = fun length => utf8 (toString length) ++ [32] := by
    funext length
    rw [decimal, blank]
  rw [code]
  refine selfDelimiting_of_stop (fun length _ => blank_not_mem_digits length) ?_
  intro left right _ _ same
  exact toString_injective (utf8_injective same)

theorem pae_eq_ok {payloadType payload message : Bytes}
    (encoded : pae payloadType payload = .ok message) :
    message = utf8 "DSSEv1 " ++ (frame decimal payloadType ++ (utf8 " " ++
      frame decimal payload)) := by
  simp only [pae] at encoded
  split at encoded
  · rw [← Except.ok.inj encoded]
    simp [frame, decimal]
  · cases encoded

/-- What is signed tells the type and the payload. -/
theorem pae_injective {type type' payload payload' message : Bytes}
    (encoded : pae type payload = .ok message) (encoded' : pae type' payload' = .ok message) :
    type = type' ∧ payload = payload' := by
  have same := (pae_eq_ok encoded).symm.trans (pae_eq_ok encoded')
  rw [List.append_cancel_left_eq] at same
  obtain ⟨types, rest⟩ := selfDelimiting_decimal.frame trivial trivial same
  rw [List.append_cancel_left_eq] at rest
  exact ⟨types, selfDelimiting_decimal.frame.unique trivial trivial rest⟩

variable {P : Primitives} {C : CapabilityCodec}

/-- What `sign_manifest` signs. -/
def ManifestMessage (P : Primitives) (manifest : TargetManifest) (message : Bytes) : Prop :=
  ∃ payload, P.manifestToJcs manifest = some payload ∧
    pae (utf8 payloadTypeText) payload = .ok message

/-- What `sign_delegated_create_capability` signs. -/
def CapabilityMessage (C : CapabilityCodec) (capability : DelegatedCreateCapability)
    (message : Bytes) : Prop :=
  ∃ payload, C.toJcs capability = some payload ∧
    pae (utf8 delegatedCapabilityPayloadType) payload = .ok message

theorem signManifest_eq_ok {manifest : TargetManifest} {key : ApprovalSigningKey P}
    {envelope : SignedEnvelope} (signed : signManifest P manifest key = .ok envelope) :
    ∃ message entry, ManifestMessage P manifest message ∧ key.sign message = .ok entry ∧
      envelope.signatures = [entry] := by
  obtain ⟨⟨⟩, -, signed⟩ := Fallible.bind_eq_ok.mp signed
  cases canonical : P.manifestToJcs manifest with
  | none => simp [canonical] at signed
  | some payload =>
      simp only [canonical, Fallible.guard_eq_ok] at signed
      obtain ⟨message, encoded, finished⟩ := Fallible.bind_eq_ok.mp signed.2
      obtain ⟨entry, made, returned⟩ := Fallible.bind_eq_ok.mp finished
      cases returned
      exact ⟨message, entry, ⟨payload, canonical, encoded⟩, made, rfl⟩

theorem signDelegatedCreateCapability_eq_ok {capability : DelegatedCreateCapability}
    {key : ApprovalSigningKey P} {envelope : SignedDelegatedCreateCapability}
    (signed : signDelegatedCreateCapability P C capability key = .ok envelope) :
    ∃ message entry, CapabilityMessage C capability message ∧
      key.signWithNamespace message delegatedCapabilitySshNamespace = .ok entry ∧
      envelope.signatures = [entry] := by
  obtain ⟨⟨⟩, -, signed⟩ := Fallible.bind_eq_ok.mp signed
  cases canonical : C.toJcs capability with
  | none => simp [canonical] at signed
  | some payload =>
      simp only [canonical, Fallible.guard_eq_ok] at signed
      obtain ⟨message, encoded, finished⟩ := Fallible.bind_eq_ok.mp signed.2
      obtain ⟨entry, made, returned⟩ := Fallible.bind_eq_ok.mp finished
      cases returned
      exact ⟨message, entry, ⟨payload, canonical, Fallible.mapError_eq_ok.mp encoded⟩,
        Fallible.mapError_eq_ok.mp made, rfl⟩

theorem pae_ne {payload payload' message message' : Bytes}
    (encoded : pae (utf8 payloadTypeText) payload = .ok message)
    (encoded' : pae (utf8 delegatedCapabilityPayloadType) payload' = .ok message') :
    message ≠ message' := by
  rintro rfl
  have types := utf8_injective (pae_injective encoded encoded').1
  exact absurd types (by decide)

/-! ## Signatures -/

/-- The signature that an entry carries. -/
def carried (P : Primitives) (entry : EnvelopeSignature) :
    Option (Vector UInt8 64 ⊕ P.SshSig) :=
  match entry.algorithm with
  | .ed25519V1 => ((Base64.decode entry.signature).bind (toFixed 64)).map .inl
  | .sshEd25519SshsigV1 => (P.fromPem entry.signature).map .inr

/-- The signature of an entry is valid for one message only, under whatever key and namespace, and
in whatever entry it is presented. -/
def ValidOnlyFor (P : Primitives) (message : Bytes) (made : EnvelopeSignature) : Prop :=
  ∀ entry key sshNamespace other, carried P entry = carried P made →
    ValidUnder P sshNamespace other entry key → other = message

/-- One of the entries carries the signature. -/
def Presents (P : Primitives) (made : EnvelopeSignature) (entries : List EnvelopeSignature) : Prop :=
  ∃ entry ∈ entries, carried P entry = carried P made

/-- Every entry of an accepted envelope is a signature of a manifest message. -/
theorem validUnder_of_verify {envelope : SignedEnvelope} {trusted : TrustedKeys P} {threshold : Nat}
    {expected : ExpectedBinding} {verified : VerifiedManifest}
    (accepted : verify P envelope trusted threshold expected = .ok verified) :
    ∃ payload message, pae (utf8 payloadTypeText) payload = .ok message ∧
      ∀ entry ∈ envelope.signatures, ∃ key, ValidUnder P sshSignatureNamespace message entry key := by
  obtain ⟨-, payload, message, decoded, -, entries, -⟩ := verify_ok_iff.mp accepted
  obtain ⟨approvers, paired, -⟩ := verifyEntries_ok entries
  refine ⟨payload, message, decoded.encoded, fun entry member => ?_⟩
  obtain ⟨position, bound, rfl⟩ := List.getElem_of_mem member
  have same := paired.length_eq
  exact ⟨approvers[position], (paired.get bound (same ▸ bound)).valid⟩

/-- A signature for a manifest authorizes no creation. -/
theorem verifyDelegatedCreateCapability_ne_ok {payload message : Bytes} {made : EnvelopeSignature}
    (encoded : pae (utf8 payloadTypeText) payload = .ok message)
    (single : ValidOnlyFor P message made) {envelope : SignedDelegatedCreateCapability}
    (presents : Presents P made envelope.signatures) (trusted : TrustedKeys P)
    (now allowedClockSkew : UInt64) (capability : DelegatedCreateCapability) :
    verifyDelegatedCreateCapability P C envelope trusted now allowedClockSkew ≠
      .ok capability := by
  intro accepted
  obtain ⟨payload', message', entry, key, -, -, -, encoded', listed, authorizes⟩ :=
    (verified_of_eq_ok accepted).signed
  obtain ⟨presented, member, same⟩ := presents
  rw [listed, List.mem_singleton] at member
  subst member
  exact pae_ne encoded encoded' (single _ _ _ _ same authorizes.valid).symm

/-- A signature for a capability approves no manifest. -/
theorem verify_ne_ok {payload message : Bytes} {made : EnvelopeSignature}
    (encoded : pae (utf8 delegatedCapabilityPayloadType) payload = .ok message)
    (single : ValidOnlyFor P message made) {envelope : SignedEnvelope}
    (presents : Presents P made envelope.signatures) (trusted : TrustedKeys P) (threshold : Nat)
    (expected : ExpectedBinding) (verified : VerifiedManifest) :
    verify P envelope trusted threshold expected ≠ .ok verified := by
  intro accepted
  obtain ⟨payload', message', encoded', valid⟩ := validUnder_of_verify accepted
  obtain ⟨entry, member, same⟩ := presents
  obtain ⟨key, valid⟩ := valid entry member
  exact pae_ne encoded' encoded (single _ _ _ _ same valid)

/-- The encoding tells the type and the payload; hence no manifest and no capability are signed
with the same message, and no signature of the one is accepted for the other. -/
theorem domains_separate (P : Primitives) (C : CapabilityCodec) :
    (∀ type type' payload payload' message, pae type payload = .ok message →
      pae type' payload' = .ok message → type = type' ∧ payload = payload') ∧
    (∀ manifest capability message message', ManifestMessage P manifest message →
      CapabilityMessage C capability message' → message ≠ message') ∧
    (∀ manifest key envelope, signManifest P manifest key = .ok envelope →
      ∃ message entry, ManifestMessage P manifest message ∧ key.sign message = .ok entry ∧
        envelope.signatures = [entry] ∧ (ValidOnlyFor P message entry →
          ∀ forged : SignedDelegatedCreateCapability, Presents P entry forged.signatures →
          ∀ trusted now allowedClockSkew capability,
            verifyDelegatedCreateCapability P C forged trusted now allowedClockSkew ≠
              .ok capability)) ∧
    ∀ capability key envelope, signDelegatedCreateCapability P C capability key = .ok envelope →
      ∃ message entry, CapabilityMessage C capability message ∧
        key.signWithNamespace message delegatedCapabilitySshNamespace = .ok entry ∧
        envelope.signatures = [entry] ∧ (ValidOnlyFor P message entry →
          ∀ forged : SignedEnvelope, Presents P entry forged.signatures →
          ∀ trusted threshold expected verified,
            verify P forged trusted threshold expected ≠ .ok verified) := by
  refine ⟨fun _ _ _ _ _ encoded encoded' => pae_injective encoded encoded', ?_, ?_, ?_⟩
  · rintro manifest capability message message' ⟨payload, -, encoded⟩ ⟨payload', -, encoded'⟩
    exact pae_ne encoded encoded'
  · intro manifest key envelope signed
    obtain ⟨message, entry, ⟨payload, canonical, encoded⟩, made, listed⟩ := signManifest_eq_ok signed
    refine ⟨message, entry, ⟨payload, canonical, encoded⟩, made, listed, ?_⟩
    intro single forged presents trusted now allowedClockSkew capability
    exact verifyDelegatedCreateCapability_ne_ok encoded single presents _ _ _ _
  · intro capability key envelope signed
    obtain ⟨message, entry, ⟨payload, canonical, encoded⟩, made, listed⟩ :=
      signDelegatedCreateCapability_eq_ok signed
    refine ⟨message, entry, ⟨payload, canonical, encoded⟩, made, listed, ?_⟩
    intro single forged presents trusted threshold expected verified
    exact verify_ne_ok encoded single presents _ _ _ _

namespace Sample

open Manifest.Sample (nativeKey signature checksum manifest sshKey)

/-- The two sample messages. -/
def manifestMessage : Bytes := Manifest.Sample.message

def capabilityMessage : Bytes :=
  (pae (utf8 delegatedCapabilityPayloadType) payload).toOption.getD []

/-- Primitives under which only the two sample messages were ever signed. -/
def signing : Primitives :=
  { keys with
    verifyStrict := fun key message candidate =>
      (message = manifestMessage || message = capabilityMessage) &&
        candidate == signature key message }

theorem checksum_of_signature {key key' : KeyBytes} {message message' : Bytes}
    (same : signature key message = signature key' message') :
    checksum message = checksum message' := by
  have octets := congrArg Vector.toList same
  simp only [signature, Vector.toList_mk] at octets
  obtain ⟨keys, sums⟩ := List.append_inj octets (by simp)
  rw [keys] at sums
  have length : key'.toList.length = 31 + 1 := Vector.length_toList
  obtain ⟨first, rest, listed⟩ := List.exists_cons_of_length_eq_add_one length
  rw [listed] at sums
  simpa using (List.cons.inj sums).1

theorem checksum_ne : checksum manifestMessage ≠ checksum capabilityMessage := by
  decide +kernel

theorem validOnlyFor_signature {key : KeyBytes} {message : Bytes} {made : EnvelopeSignature}
    (native : made.algorithm = .ed25519V1)
    (octets : made.signature = Base64.encode (signature key message).toList)
    (known : message = manifestMessage ∨ message = capabilityMessage) :
    ValidOnlyFor signing message made := by
  intro entry other sshNamespace text same valid
  have holds : carried signing made = some (.inl (signature key message)) := by
    simp [carried, native, octets]
  rw [holds] at same
  rcases valid with ⟨algorithm, candidate, decoded, verifies⟩ | ⟨algorithm, candidate, parsed, -⟩
  · simp only [carried, algorithm, decoded, Option.bind_some, toFixed_toList, Option.map_some,
      Option.some.injEq, Sum.inl.injEq] at same
    subst same
    simp only [signing, Bool.and_eq_true, Bool.or_eq_true, decide_eq_true_eq, beq_iff_eq] at verifies
    have sums := checksum_of_signature verifies.2
    rcases known with here | here <;> rcases verifies.1 with there | there
    · exact there.trans here.symm
    · rw [here, there] at sums
      exact absurd sums checksum_ne
    · rw [here, there] at sums
      exact absurd sums.symm checksum_ne
    · exact there.trans here.symm
  · simp [carried, algorithm, parsed] at same

theorem signManifest_sample :
    ∃ envelope, signManifest signing manifest (.ed25519 nativeKey) = .ok envelope := by
  have written : signing.manifestToJcs manifest = some Manifest.Sample.payload := rfl
  simp [signManifest, Manifest.Sample.structured, written, Nat.not_lt.mpr Manifest.Sample.payload_length,
    Manifest.Sample.decoded.encoded, ApprovalSigningKey.sign, ApprovalSigningKey.signWithNamespace]

theorem signCapability_sample :
    ∃ envelope, signDelegatedCreateCapability signing tools.codec capability (.ed25519 sshKey) =
      .ok envelope := by
  have written : tools.codec.toJcs capability = some payload := by
    rw [toJcs_tools, lookup_self]
  obtain ⟨message, encoded⟩ := exists_pae_of_le
    (show (utf8 delegatedCapabilityPayloadType).length ≤ maxPayloadBytes by decide)
    length_payload
  simp [signDelegatedCreateCapability, validated_capability, written, Nat.not_lt.mpr length_payload, encoded,
    Except.mapError, ApprovalSigningKey.signWithNamespace]

end Sample

/-- No capability verifier accepts the sample approval, and no manifest verifier the sample
capability. -/
theorem domains_separate_sample :
    (∃ entry : EnvelopeSignature, entry.algorithm = .ed25519V1 ∧
      ∀ forged : SignedDelegatedCreateCapability, Presents Sample.signing entry forged.signatures →
      ∀ trusted now allowedClockSkew capability, verifyDelegatedCreateCapability Sample.signing
        Sample.tools.codec forged trusted now allowedClockSkew ≠ .ok capability) ∧
    ∃ entry : EnvelopeSignature, entry.algorithm = .ed25519V1 ∧
      ∀ forged : SignedEnvelope, Presents Sample.signing entry forged.signatures →
      ∀ trusted threshold expected verified,
        verify Sample.signing forged trusted threshold expected ≠ .ok verified := by
  obtain ⟨-, -, approval, creation⟩ := domains_separate Sample.signing Sample.tools.codec
  obtain ⟨envelope, signs⟩ := Sample.signManifest_sample
  obtain ⟨capability, creates⟩ := Sample.signCapability_sample
  constructor
  · obtain ⟨message, entry, ⟨payload, written, encoded⟩, made, -, refused⟩ := approval _ _ _ signs
    cases made
    cases written
    have same := Except.ok.inj (Manifest.Sample.decoded.encoded.symm.trans encoded)
    refine ⟨_, rfl, refused (Sample.validOnlyFor_signature rfl rfl (.inl same.symm))⟩
  · obtain ⟨message, entry, ⟨payload, written, encoded⟩, made, -, refused⟩ := creation _ _ _ creates
    cases made
    rw [Sample.toJcs_tools, Sample.lookup_self] at written
    cases written
    have same : message = Sample.capabilityMessage := by
      rw [Sample.capabilityMessage, encoded]
      rfl
    exact ⟨_, rfl, refused (Sample.validOnlyFor_signature rfl rfl (.inr same))⟩

end NixSeal.Delegation
