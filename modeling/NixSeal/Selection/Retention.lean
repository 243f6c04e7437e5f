import NixSeal.Cache.Refinement
import NixSeal.Selection.Activation

/-!
# Retention of artifacts

`authenticated_gc_retention` decides what a collection keeps.  It checks the bindings of every
record in a function of its own, with the clock skew fixed to 300 seconds and the canonical
ciphertexts read again, and remembers policies and hashes between records.
-/

namespace NixSeal.Selection

open Manifest Policy Cache

variable {T : Tools}

/-- The canonical ciphertexts of a repository. -/
structure Checkout where
  /-- What `existing_secret_path` and `open_public_ciphertext` open. -/
  ciphertext : String → Option Bytes
  /-- SHA-256 in lowercase hexadecimal. -/
  sha256Hex : Bytes → String

/-- `canonical_ciphertext_hash`. -/
def canonicalCiphertextHash (checkout : Checkout) (relative : String) : Option String :=
  match checkout.ciphertext relative with
  | none => none
  | some bytes =>
      if 70 * 1024 * 1024 < bytes.length then none
      else if bytes = [] then none
      else some (checkout.sha256Hex bytes)

section Tables

variable {plan : Plan} {checkout : Checkout}

/-- The canonical ciphertexts are those that the plan pins. -/
def Checkout.Pinned (checkout : Checkout) (plan : Plan) : Prop :=
  ∀ (id : Id) (secret : Secret), plan.secrets[id]? = some secret →
    ∃ bytes, checkout.ciphertext secret.source = some bytes ∧
      checkout.sha256Hex bytes = secret.sourceCiphertextHash

/-- A canonical ciphertext that `canonical_ciphertext_hash` hashes. -/
def Checkout.Hashable (checkout : Checkout) (source : String) : Prop :=
  ∃ bytes, checkout.ciphertext source = some bytes ∧ bytes ≠ [] ∧
    bytes.length ≤ 70 * 1024 * 1024

theorem canonicalCiphertextHash_eq_some_iff {source hash : String} :
    canonicalCiphertextHash checkout source = some hash ↔ ∃ bytes,
      checkout.ciphertext source = some bytes ∧ bytes ≠ [] ∧ bytes.length ≤ 70 * 1024 * 1024 ∧
        checkout.sha256Hex bytes = hash := by
  unfold canonicalCiphertextHash
  cases opened : checkout.ciphertext source with
  | none => simp
  | some bytes =>
      simp only [Option.some.injEq, exists_eq_left']
      split
      · rename_i large
        simp only [Nat.not_le.mpr large, false_and, and_false, reduceCtorEq]
      · rename_i fits
        have fits := Nat.le_of_not_lt fits
        split
        · rename_i empty
          simp [empty]
        · rename_i nonempty
          simp [nonempty, fits]

theorem Checkout.Pinned.hash_iff (pinned : checkout.Pinned plan) {id : Id} {secret : Secret}
    (planned : plan.secrets[id]? = some secret) :
    canonicalCiphertextHash checkout secret.source = some secret.sourceCiphertextHash ↔
      checkout.Hashable secret.source := by
  obtain ⟨bytes, opened, hashed⟩ := pinned id secret planned
  rw [canonicalCiphertextHash_eq_some_iff, Checkout.Hashable, opened]
  simp [hashed]

end Tables

namespace Sample

open Manifest.Sample (digest nativeKey)
open Policy.Sample (host token)

/-- The bundle of the sample record. -/
def bundle : Bundle := ⟨[0], envelopeText⟩

/-- A cache with this bundle. -/
def contents : Contents := ⟨∅, (∅ : Std.TreeMap String Bundle compare).insert sampleKey bundle⟩

/-- A repository with the ciphertext of the sample secret. -/
def checkout : Checkout where
  ciphertext := fun source =>
    if source = "token.age" then some (utf8 "age-encryption.org/v1\n") else none
  sha256Hex := fun _ => digest

theorem length_envelopeText : envelopeText.length ≤ maxEnvelopeBytes := by
  have small : (payloadOf manifest).length ≤ 4096 := by decide +kernel
  have encoded : ∀ bytes : Bytes, (utf8 (Base64.encode bytes)).length ≤ 8 * bytes.length + 16 := by
    intro bytes
    have octets := utf8ByteSize_le (Base64.encode bytes)
    have chars := Base64.length_encodeChars_le bytes
    rw [Base64.encode, String.length_ofList] at octets
    rw [length_utf8, Base64.encode]
    omega
  have body := encoded (payloadOf manifest)
  have signature := encoded (Manifest.Sample.signature nativeKey (messageOf manifest)).toList
  have keyId : (utf8 (nativeKeyId keys nativeKey)).length ≤ 256 := by decide +kernel
  have fixed : (utf8 "\x7b\"payload\":\"").length + (utf8 "\",\"payloadType\":\"").length +
      (utf8 payloadTypeText).length + (utf8 "\",\"signatures\":[").length +
      (utf8 "\x7b\"algorithm\":\"ed25519-v1\",\"keyId\":\"").length +
      (utf8 "\",\"signature\":\"").length + (utf8 "\"\x7d").length + (utf8 "]\x7d").length ≤ 512 := by
    decide
  rw [Vector.length_toList] at signature
  simp only [envelopeText, textOf, envelope, envelopeOf, List.flatMap_cons, List.flatMap_nil,
    List.append_nil, List.length_append, maxEnvelopeBytes]
  omega

theorem holds : Holds tools.cache true true (singleBundle bundle) contents :=
  singleBundle_holds (by decide) length_envelopeText

theorem pinned : checkout.Pinned Policy.Sample.plan := by
  intro id secret planned
  have only : Policy.Sample.plan.secrets = ({} : Std.TreeMap Id Secret).insert token
      Policy.Sample.tokenSecret := rfl
  rw [only, Std.TreeMap.getElem?_insert] at planned
  split at planned
  · cases planned
    exact ⟨_, rfl, rfl⟩
  · rw [Std.TreeMap.getElem?_emptyc] at planned
    cases planned

theorem withinLimits : contents.WithinLimits := by
  have listed : contents.artifacts.toList = [(sampleKey, bundle)] := rfl
  have envelopes : contents.envelopeBytes ≤ maxEnvelopeBytes := by
    rw [Contents.envelopeBytes, Ordered.total, listed, List.map_singleton, List.sum_singleton]
    exact length_envelopeText
  have others : contents.objectBytes + contents.ciphertextBytes = 1 := rfl
  unfold maxEnvelopeBytes at envelopes
  refine ⟨by decide, ?_, ?_⟩
  · unfold maxTransferBytes
    omega
  · unfold maxInventoryEnvelopeBytes
    omega

theorem recorded : (singleBundle bundle).own.artifactRecords tools.cache = .ok [record] :=
  holds.shows.artifactRecords_eq (by decide) withinLimits.envelopes

/-- The sample artifact is selected whenever the skew reaches its issue. -/
theorem selected {now allowedClockSkew : UInt64}
    (representable : now.toNat + allowedClockSkew.toNat < 2 ^ 64)
    (issued : 1700000000 ≤ now.toNat + allowedClockSkew.toNat) :
    ∃ inspection, inspectActivationArtifacts tools
        ((singleBundle bundle).own.artifactRecords tools.cache) policy .activation now
        allowedClockSkew = .ok inspection ∧
      inspection.selected[token]? = some (discovered record 1) := by
  have answerable := answerable_of_targetPolicy (T := tools) (fun _ => rfl) projected
  have distinct : ([record].map ArtifactRecord.key).Nodup := List.nodup_singleton _
  obtain ⟨inspection, returned, kept⟩ := inspectActivationArtifacts_kept
    (question now allowedClockSkew) answerable fingerprinted distinct
  exact ⟨inspection, recorded ▸ returned,
    (kept.isNewest distinct _ _).mpr (isNewest representable issued)⟩

theorem only {key : String} {stored : Bundle} (inside : contents.artifacts[key]? = some stored) :
    key = sampleKey ∧ stored = bundle := by
  rw [contents, Ordered.getElem?_insert_eq] at inside
  split at inside
  · rename_i same
    cases inside
    exact ⟨same.symm, rfl⟩
  · simp at inside

theorem parsed : tools.envelopeFromJson envelopeText = some envelope := by
  simp only [tools, toolsReading, readEnvelope_envelopeText]

theorem opened : inspectUnverified tools.keys envelope = .ok manifest :=
  inspectUnverified_of_decoded decoded

end Sample

end NixSeal.Selection
