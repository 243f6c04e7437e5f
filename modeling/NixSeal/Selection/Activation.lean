import NixSeal.Cache.Import
import NixSeal.Manifest.Completeness
import NixSeal.Policy.Target
import NixSeal.Runtime.Prepare
import NixSeal.Selection.Exact

/-!
# What is selected is activated

The runtime opens the selected files again and verifies them again, in a function of its own; a
selected artifact always passes.
-/

namespace NixSeal.Selection

open Manifest Policy Cache NixSeal.Runtime

variable {T : Tools}

/-- The file of a cache that a record or a selection names. -/
def cacheFile (cache : Cache) : List String → Except IoKind Leaf
  | [store, key, file] => if store = "artifacts" then cache.bundleFile key file else .error .notFound
  | _ => .error .notFound

/-- The settings of one secret in an activation document. -/
structure ArtifactSettings where
  mode : Nat
  owner : String
  group : String
  compatibilitySymlink : Option String

/-- The artifact that `run_activate` passes on for a selected one. -/
def activationArtifact (cache : Cache) (inStore : Bool) (secretId : Id)
    (secret : TargetSecretPolicy) (policyHash : String) (found : DiscoveredActivationArtifact)
    (settings : ArtifactSettings) : ActivationArtifact where
  ciphertext := ⟨cacheFile cache found.ciphertext, inStore⟩
  envelope := ⟨cacheFile cache found.envelope, inStore⟩
  secretId := secretId
  sourceCiphertextHash := secret.sourceCiphertextHash
  artifactPolicyHash := policyHash
  artifactGeneration := found.generation
  approvalSigners := secret.approval.signers
  approvalThreshold := secret.approval.threshold.toNat
  mode := settings.mode
  owner := settings.owner
  group := settings.group
  compatibilitySymlink := settings.compatibilitySymlink

/-- The request of `run_activate`. -/
def activationRequest (runtimeRoot : String) (question : Question)
    (artifacts : List ActivationArtifact) : ActivationRequest where
  runtimeRoot := runtimeRoot
  targetId := question.policy.targetId
  recipientFingerprint := question.fingerprint
  toolVersion := toolVersion
  now := question.now
  allowedClockSkew := question.allowedClockSkew
  artifacts := artifacts

theorem openRegularNofollow_isFile {env : Cache.Environment} {requireOwner : Bool} {bytes : Bytes}
    {leaf : Leaf} (isFile : IsFile env requireOwner bytes leaf) (inStore : Bool) :
    openRegularNofollow ⟨.ok leaf, inStore⟩ = .ok bytes := by
  obtain ⟨status, rfl, -, single⟩ := isFile
  simp [openRegularNofollow, single]

theorem authenticate_of_verifies {cache : Cache} {question : Question} {record : ArtifactRecord}
    (loaded : cache.loadArtifactByKey T.cache record.key = .ok record) {secretId : Id}
    {generation : UInt64} (verifies : Verifies T question record secretId generation)
    {secret : TargetSecretPolicy} (stored : question.policy.secrets[secretId]? = some secret)
    {policyHash : String}
    (hashed : secretArtifactPolicyHash T question.policy secretId = .ok policyHash)
    (runtimeRoot : String) (artifacts : List ActivationArtifact) (inStore : Bool)
    (settings : ArtifactSettings) :
    ∃ ciphertext, authenticate T (activationRequest runtimeRoot question artifacts)
      (activationArtifact cache inStore secretId secret policyHash (discovered record generation)
        settings) = .ok ciphertext := by
  obtain ⟨bundle, ⟨digest, ⟨node, found, isBundle⟩, fitsCiphertext, fitsEnvelope⟩, whole⟩ :=
    loadArtifactByKey_eq_ok_iff.mp loaded
  obtain ⟨⟨ciphertext, inCiphertext, isCiphertext⟩, envelope, inEnvelope, isEnvelope⟩ :=
    bundleFile_of_isBundle found isBundle
  obtain ⟨secret', opened, policyHash', trusted, verified, stored', -, parsed, hashed', -, trusts,
    accepted⟩ := verifies
  rw [stored] at stored'
  cases stored'
  rw [hashed] at hashed'
  cases hashed'
  have first : cacheFile cache record.ciphertextPath = .ok ciphertext := by
    rw [whole]
    exact inCiphertext
  have second : cacheFile cache record.envelopePath = .ok envelope := by
    rw [whole]
    exact inEnvelope
  have content : record.envelope = bundle.envelope := by
    rw [whole]
    rfl
  have committed : record.artifactCiphertextHash = T.cache.digest bundle.ciphertext := by
    rw [whole]
    rfl
  have rebound : verify T.keys opened trusted secret.approval.threshold.toNat
      (expectedBinding (activationRequest runtimeRoot question artifacts)
        (activationArtifact cache inStore secretId secret policyHash
          (discovered record generation) settings) (T.cache.digest bundle.ciphertext)) =
      .ok verified := by
    rw [← committed]
    exact accepted
  refine ⟨bundle.ciphertext, authenticate_eq_ok ?_ fitsCiphertext ?_ fitsEnvelope
    (content ▸ parsed) trusts rebound⟩
  · have opens := openRegularNofollow_isFile isCiphertext inStore
    rwa [← first] at opens
  · have opens := openRegularNofollow_isFile isEnvelope inStore
    rwa [← second] at opens

/-- The selection exists for every list of records, is the newest verified candidate of every
secret whatever else the cache holds, and is authenticated by the runtime. -/
theorem selection_exact (encodes : ∀ policy, (T.artifactPolicyToJcs policy).isSome = true)
    {plan : Plan} {targetId : Id} {policy : TargetPolicy}
    (projected : targetPolicy T.policy plan targetId = .ok policy) (phase : ActivationPhase)
    (now allowedClockSkew : UInt64) :
    ∃ question : Question, question.policy = policy ∧ question.phase = phase ∧
      question.now = now ∧ question.allowedClockSkew = allowedClockSkew ∧
      recipientFingerprint T policy.recipient = some question.fingerprint ∧
      (∀ records : List ArtifactRecord, (records.map ArtifactRecord.key).Nodup →
        ∃ inspection,
          inspectActivationArtifacts T (.ok records) policy phase now allowedClockSkew =
            .ok inspection ∧
          (∀ (secretId : Id) (found : DiscoveredActivationArtifact),
            inspection.selected[secretId]? = some found ↔
              IsNewest T question records secretId found) ∧
          (∀ secretId : Id, inspection.selected[secretId]? = none ↔
            ∀ record ∈ records, ∀ generation, ¬Verifies T question record secretId generation) ∧
          (∀ more : List ArtifactRecord, (more.map ArtifactRecord.key).Nodup →
            (∀ record, (∃ secretId generation, Verifies T question record secretId generation) →
              (record ∈ more ↔ record ∈ records)) →
            ∃ extended,
              inspectActivationArtifacts T (.ok more) policy phase now allowedClockSkew =
                .ok extended ∧
              ∀ secretId : Id, extended.selected[secretId]? = inspection.selected[secretId]?) ∧
          ∀ (cache : Cache) (runtimeRoot : String) (artifacts : List ActivationArtifact)
            (inStore : Bool) (secretId : Id) (secret : TargetSecretPolicy) (policyHash : String)
            (found : DiscoveredActivationArtifact) (settings : ArtifactSettings),
            (∀ record ∈ records, cache.loadArtifactByKey T.cache record.key = .ok record) →
            policy.secrets[secretId]? = some secret →
            secretArtifactPolicyHash T policy secretId = .ok policyHash →
            inspection.selected[secretId]? = some found →
            ∃ ciphertext, authenticate T (activationRequest runtimeRoot question artifacts)
              (activationArtifact cache inStore secretId secret policyHash found settings) =
                .ok ciphertext) := by
  have answerable := answerable_of_targetPolicy encodes projected
  obtain ⟨fingerprint, fingerprinted⟩ := answerable.fingerprint
  let question : Question := ⟨policy, phase, now, allowedClockSkew, fingerprint⟩
  have inspected : ∀ records : List ArtifactRecord, (records.map ArtifactRecord.key).Nodup →
      ∃ inspection, inspectActivationArtifacts T (.ok records) policy phase now allowedClockSkew =
          .ok inspection ∧ Kept T question records inspection.selected :=
    fun _ distinct =>
      inspectActivationArtifacts_kept question answerable fingerprinted distinct
  refine ⟨question, rfl, rfl, rfl, rfl, fingerprinted, ?_⟩
  intro records distinct
  obtain ⟨inspection, returned, kept⟩ := inspected records distinct
  refine ⟨inspection, returned, kept.isNewest distinct, ?_, ?_, ?_⟩
  · intro secretId
    constructor
    · intro absent record member generation verifies
      obtain ⟨found, present, -⟩ := kept.newest secretId generation record member verifies
      rw [absent] at present
      cases present
    · intro refused
      by_contra present
      obtain ⟨found, present⟩ := Option.ne_none_iff_exists'.mp present
      obtain ⟨record, member, generation, verifies, -⟩ := kept.sound secretId found present
      exact refused record member generation verifies
  · intro more distinct' same
    obtain ⟨extended, returned', kept'⟩ := inspected more distinct'
    refine ⟨extended, returned', fun secretId => Option.ext fun found => ?_⟩
    rw [kept'.isNewest distinct', kept.isNewest distinct]
    exact isNewest_congr same secretId found
  · intro cache runtimeRoot artifacts inStore secretId secret policyHash found settings loaded stored
      hashed present
    obtain ⟨record, member, generation, verifies, rfl⟩ := kept.sound secretId found present
    exact authenticate_of_verifies (loaded record member) verifies stored hashed runtimeRoot
      artifacts inStore settings

namespace Sample

open Manifest.Sample (digest hexText nativeKey sshKey)
open Policy.Sample (host token)

/-- What precedes a recipient in its fingerprint. -/
def fingerprintTag : Bytes := utf8 "nix-seal.age-recipient-fingerprint.v1\x00"

/-- The sample primitives, with a digest for recipients and a reader of manifests. -/
def keysReading (fromJson : Bytes → Option TargetManifest) : Primitives :=
  { Manifest.Sample.primitives with
    blake3Hex := fun bytes => if fingerprintTag <+: bytes then digest else hexText bytes
    manifestFromJson := fromJson }

/-- A manifest of a later release of the tool, for a ciphertext of some generation. -/
def release (generation : UInt64) (ciphertextHash : String) : TargetManifest :=
  { Manifest.Sample.manifest with
    toolVersion := toolVersion
    artifactCiphertextHash := ciphertextHash
    artifactGeneration := generation
    issuedAt := 1700000000 }

/-- Canonical JSON of a manifest. -/
def payloadOf (body : TargetManifest) : Bytes := utf8 (Manifest.Sample.manifestText body)

/-- The message that is signed for a manifest. -/
def messageOf (body : TargetManifest) : Bytes :=
  (pae (utf8 payloadTypeText) (payloadOf body)).toOption.getD []

/-- The manifest for the sample ciphertext. -/
def manifest : TargetManifest := release 1 (sampleDigest [0])

/-- Its canonical JSON. -/
def payload : Bytes := payloadOf manifest

/-- A reader of this manifest. -/
def readManifest (bytes : Bytes) : Option TargetManifest :=
  if bytes = payload then some manifest else none

/-- The primitives that read this manifest. -/
def keys : Primitives := keysReading readManifest

/-- A manifest with the approval of a signer. -/
def envelopeOf (body : TargetManifest) (signer : KeyBytes) : SignedEnvelope where
  payloadType := payloadTypeText
  payload := Base64.encode (payloadOf body)
  signatures :=
    [{ keyId := nativeKeyId keys signer
       algorithm := .ed25519V1
       signature := Base64.encode (Manifest.Sample.signature signer (messageOf body)).toList }]

/-- The file of an envelope. -/
def textOf (envelope : SignedEnvelope) : Bytes :=
  utf8 "\x7b\"payload\":\"" ++ utf8 envelope.payload ++ utf8 "\",\"payloadType\":\"" ++
    utf8 payloadTypeText ++ utf8 "\",\"signatures\":[" ++
    (envelope.signatures.flatMap fun entry =>
      utf8 "\x7b\"algorithm\":\"ed25519-v1\",\"keyId\":\"" ++ utf8 entry.keyId ++
        utf8 "\",\"signature\":\"" ++ utf8 entry.signature ++ utf8 "\"\x7d") ++ utf8 "]\x7d"

/-- The manifest with the approval of the sample signer. -/
def envelope : SignedEnvelope := envelopeOf manifest nativeKey

/-- The file of the envelope. -/
def envelopeText : Bytes := textOf envelope

/-- Canonical JSON of the artifact policy of the sample secret. -/
def artifactPolicyPattern : String :=
  "('recipient':'age1lggyhqrw2nlhcxprm67z43rta597azn8gknawjehu9d9dl0jq3yqqvfafg','recipientId" ++
    "entity':'host-key','schema':'nix-seal.secret-artifact-policy.v1','secret':('approval':('si" ++
    "gners':('signer':'nix-seal-ed25519-v1:11qYAYKxCrfVS/7TyWQHOg7hcvPapiMlrwIaaPcHURo='),'thre" ++
    "shold':1),'delivery':'rekeyed','phase':'activation','runtime':('group':'root','mode':'0400" ++
    "','owner':'root','reloadUnits':[],'restartUnits':[]),'source':'token.age','sourceCiphertex" ++
    "tHash':'a5a5a5a5a5a5a5a5a5a5a5a5a5a5a5a5a5a5a5a5a5a5a5a5a5a5a5a5a5a5a5a5'),'secretId':'toke" ++
    "n','system':'x86_64-linux','targetId':'host','targetKind':'nixOs','username':null)"

/-- Tools that know the sample plan, with readers of manifests and of envelopes. -/
def toolsReading (cache : Cache.Environment) (fromJson : Bytes → Option TargetManifest)
    (envelopeFromJson : Bytes → Option SignedEnvelope) : Tools where
  policy :=
    { Policy.Sample.environment with
      keys := keysReading fromJson
      deriveKeyHex := fun _ _ => digest }
  cache
  envelopeFromJson
  artifactPolicyToJcs := fun _ => some (utf8 (String.ofList
    (artifactPolicyPattern.toList.map Policy.Sample.spell)))
  legacyIds := fun _ => none

/-- A reader of the sample envelope. -/
def readEnvelope (bytes : Bytes) : Option SignedEnvelope :=
  if bytes = envelopeText then some envelope else none

/-- Tools that know the sample envelope. -/
def tools : Tools := toolsReading sampleEnvironment readManifest readEnvelope

theorem validated {cache : Cache.Environment} {fromJson : Bytes → Option TargetManifest}
    {envelopeFromJson : Bytes → Option SignedEnvelope} :
    validate (toolsReading cache fromJson envelopeFromJson).policy Policy.Sample.plan = .ok () :=
  Policy.Sample.validate_of_identities rfl rfl rfl (by decide) (rfl)

/-- The signers of the sample plan. -/
def signers : Std.TreeMap Id String :=
  Std.TreeMap.ofList ((Policy.Sample.identities.filter fun entry => entry.2.kind = .signer).map
    fun entry => (entry.1, entry.2.publicValue))

/-- The policy of the sample secret. -/
def secretPolicy : TargetSecretPolicy where
  source := "token.age"
  sourceCiphertextHash := digest
  delivery := .rekeyed
  phase := .activation
  runtime := {}
  approval :=
    { threshold := 1
      signers := signers }

/-- The policy of the sample target. -/
def policy : TargetPolicy where
  schema := targetPolicySchema
  planHash := digest
  targetId := host
  targetKind := .nixOs
  system := "x86_64-linux"
  username := none
  recipientIdentity := Policy.Sample.hostTarget.identity
  recipient := Policy.Sample.hostRecipient
  serviceActions := none
  secrets := ({} : Std.TreeMap Id TargetSecretPolicy).insert token secretPolicy
  templates := {}

theorem projected {cache : Cache.Environment} {fromJson : Bytes → Option TargetManifest}
    {envelopeFromJson : Bytes → Option SignedEnvelope} :
    targetPolicy (toolsReading cache fromJson envelopeFromJson).policy Policy.Sample.plan host =
      .ok policy := by
  rw [targetPolicy, validated, Fallible.ok_bind]
  rfl

/-- A record of the envelope in a cache. -/
def record : ArtifactRecord := Contents.record tools.cache sampleKey ⟨[0], envelopeText⟩

section Readers

variable {cache : Cache.Environment} {fromJson : Bytes → Option TargetManifest}
  {envelopeFromJson : Bytes → Option SignedEnvelope}

theorem not_prefix_of_key {label : Bytes} (key : Bytes) (length : 12 ≤ label.length)
    (different : fingerprintTag.take 12 ≠ label.take 12) : ¬fingerprintTag <+: label ++ key := by
  rintro ⟨rest, split⟩
  have fronts := congrArg (List.take 12) split
  have tag : 12 ≤ fingerprintTag.length := by decide
  rw [List.take_append_of_le_length tag, List.take_append_of_le_length length] at fronts
  exact different fronts

theorem blake3Hex_keys {bytes : Bytes} (apart : ¬fingerprintTag <+: bytes) :
    (keysReading fromJson).blake3Hex bytes = hexText bytes :=
  if_neg apart

theorem nativeKeyId_keys (key : KeyBytes) :
    nativeKeyId (keysReading fromJson) key = nativeKeyId Manifest.Sample.primitives key := by
  rw [nativeKeyId, blake3Hex_keys (not_prefix_of_key key.toList (by decide) (by decide))]
  rfl

theorem collisionFree : CollisionFree (keysReading fromJson) where
  native := by
    have same : nativeKeyId (keysReading fromJson) = nativeKeyId Manifest.Sample.primitives :=
      funext nativeKeyId_keys
    rw [same]
    exact Manifest.Sample.collisionFree.native
  legacy := by
    have same : legacySshKeyIdBytes (keysReading fromJson) =
        legacySshKeyIdBytes Manifest.Sample.primitives := by
      funext key
      rw [legacySshKeyIdBytes, blake3Hex_keys (not_prefix_of_key (utf8 (sshEd25519Line key))
        (by decide) (by decide))]
      rfl
    rw [same]
    exact Manifest.Sample.collisionFree.legacy

/-- The trust set of the sample signer. -/
def trusted (fromJson : Bytes → Option TargetManifest) : TrustedKeys (keysReading fromJson) :=
  TrustedKeys.empty.add (Manifest.Sample.verificationKey nativeKey)

theorem insertEncoded_native :
    (TrustedKeys.empty : TrustedKeys (keysReading fromJson)).insertEncoded
      (encodePublicKey nativeKey) =
        .ok (trusted fromJson, nativeKeyId (keysReading fromJson) nativeKey) := by
  have parsed : parsePublicKey (keysReading fromJson) (encodePublicKey nativeKey) =
      .ok (Manifest.Sample.verificationKey nativeKey) :=
    parsePublicKey_encodePublicKey rfl
  exact insertEncoded_eq_ok.mpr ⟨_, parsed, by simp [TrustedKeys.empty], rfl, rfl⟩

theorem trusts : trustSigners (keysReading fromJson) secretPolicy.approval.signers =
    .ok (trusted fromJson) := by
  have listed : secretPolicy.approval.signers.toList.map Prod.snd = [encodePublicKey nativeKey] := by
    decide
  rw [trustSigners, listed, List.foldlM_cons, trustEncoded, insertEncoded_native]
  rfl

theorem decoded_envelopeOf {body : TargetManifest} (signer : KeyBytes)
    (parsed : fromJson (payloadOf body) = some body)
    (structured : validateManifestStructure body = .ok ())
    (size : (payloadOf body).length ≤ maxPayloadBytes) :
    Decoded (keysReading fromJson) (envelopeOf body signer) body (payloadOf body)
      (messageOf body) where
  payloadType := rfl
  count := by simp [envelopeOf, maxSignatures]
  bounded := by
    intro entry listed
    cases List.mem_singleton.mp listed
    have octets := utf8ByteSize_le
      (Base64.encode (Manifest.Sample.signature signer (messageOf body)).toList)
    have chars := Base64.length_encodeChars_le
      (Manifest.Sample.signature signer (messageOf body)).toList
    rw [Base64.encode, String.length_ofList] at octets
    rw [Vector.length_toList] at chars
    refine ⟨by simp [nativeKeyId], ?_⟩
    simp only [Base64.encode, maxSignatureBytes]
    omega
  decoded := Base64.decode_encode _
  size := size
  parsed := parsed
  structured := structured
  canonical := rfl
  encoded := by
    obtain ⟨found, encoded⟩ := exists_pae size
    rw [messageOf, encoded]
    rfl

theorem verify_envelopeOf {body : TargetManifest} (parsed : fromJson (payloadOf body) = some body)
    (structured : validateManifestStructure body = .ok ())
    (size : (payloadOf body).length ≤ maxPayloadBytes) {expected : ExpectedBinding}
    (bound : Bound body expected) :
    verify (keysReading fromJson) (envelopeOf body nativeKey) (trusted fromJson) 1 expected =
      .ok ⟨body, ({} : Std.TreeSet String).insert (nativeKeyId keys nativeKey)⟩ := by
  have approves : Approves (trusted fromJson) (messageOf body)
      { keyId := nativeKeyId keys nativeKey
        algorithm := .ed25519V1
        signature := Base64.encode (Manifest.Sample.signature nativeKey (messageOf body)).toList }
      (Manifest.Sample.verificationKey nativeKey) := by
    refine ⟨?_, Or.inl rfl, Or.inl ⟨rfl, _, Base64.decode_encode _, beq_self_eq_true _⟩⟩
    simp [TrustedKeys.Trusts, trusted, TrustedKeys.add]
  refine verify_ok_iff.mpr ⟨⟨by decide, ?_, by simp [envelopeOf]⟩, _, _,
    decoded_envelopeOf nativeKey parsed structured size, bound, ?_, ?_⟩
  · simp [trusted, TrustedKeys.len, TrustedKeys.add, TrustedKeys.empty, Std.TreeMap.size_insert]
  · rw [envelopeOf, verifyEntries_cons_of_approves collisionFree approves [] (by simp)]
    rfl
  · simp [Std.TreeSet.size_insert]

/-- The question for the secrets of the host at some time. -/
def question (now allowedClockSkew : UInt64) : Question :=
  ⟨policy, .activation, now, allowedClockSkew, digest⟩

/-- A release that the sample signer approves verifies as soon as the clock allows for its issue. -/
theorem verifies_release {generation now allowedClockSkew : UInt64} {ciphertext : Bytes}
    {key : String} {body : TargetManifest}
    (issues : release generation (cache.digest ciphertext) = body)
    (opened : envelopeFromJson (textOf (envelopeOf body nativeKey)) =
      some (envelopeOf body nativeKey))
    (parsed : fromJson (payloadOf body) = some body)
    (structured : validateManifestStructure body = .ok ())
    (size : (payloadOf body).length ≤ maxPayloadBytes)
    (addressed : (candidateAddress (question 0 0) secretPolicy digest token generation).key cache =
      .ok key)
    (representable : now.toNat + allowedClockSkew.toNat < 2 ^ 64)
    (issued : 1700000000 ≤ now.toNat + allowedClockSkew.toNat) :
    Verifies (toolsReading cache fromJson envelopeFromJson) (question now allowedClockSkew)
      (Contents.record cache key ⟨ciphertext, textOf (envelopeOf body nativeKey)⟩) token
      generation := by
  subst issues
  refine ⟨secretPolicy, _, digest, _, _, rfl, rfl, opened, rfl, addressed, trusts,
    verify_envelopeOf parsed structured size ?_⟩
  exact
    { toolVersion := rfl
      artifactPolicyHash := rfl
      sourceCiphertextHash := rfl
      artifactCiphertextHash := rfl
      targetId := rfl
      secretId := rfl
      recipientFingerprint := rfl
      artifactGeneration := rfl
      representable := representable
      issued := issued
      unexpired := fun expiry never => nomatch never }

theorem not_verifies_envelopeOf {body : TargetManifest} {now allowedClockSkew generation : UInt64}
    {record : ArtifactRecord}
    (opened : envelopeFromJson record.envelope = some (envelopeOf body sshKey)) :
    ¬Verifies (toolsReading cache fromJson envelopeFromJson) (question now allowedClockSkew) record
      token generation := by
  rintro ⟨secret, found, policyHash, known, verified, stored, -, found', -, -, known', accepted⟩
  cases stored
  cases opened.symm.trans found'
  cases trusts.symm.trans known'
  obtain ⟨-, payload, message, -, -, entries, -⟩ := verify_ok_iff.mp accepted
  obtain ⟨key, approves, -⟩ := verifyEntries_cons_ok entries
  have named : key.native = sshKey := Names.unique collisionFree approves.named (.inl rfl)
  have member := approves.trusted
  simp only [TrustedKeys.Trusts, trusted, TrustedKeys.add, TrustedKeys.empty,
    Std.TreeMap.getElem?_insert, Std.TreeMap.getElem?_emptyc] at member
  split at member
  · cases member
    revert named
    decide
  · cases member

theorem fingerprinted :
    recipientFingerprint (toolsReading cache fromJson envelopeFromJson) policy.recipient =
      some digest := by
  have known : Policy.Sample.environment.x25519Recipient policy.recipient =
      some Policy.Sample.hostRecipient := by
    decide
  have normal : normalizeRecipient (toolsReading cache fromJson envelopeFromJson).policy
      policy.recipient = some Policy.Sample.hostRecipient := by
    simp only [normalizeRecipient, normalizeRecipientInner, toolsReading, known]
  have tagged : ∀ bytes, (keysReading fromJson).blake3Hex (fingerprintTag ++ bytes) = digest := by
    intro bytes
    simp only [keysReading, List.prefix_append, if_true]
  rw [recipientFingerprint, normal]
  exact congrArg some (tagged _)

end Readers

theorem length_payload : payload.length ≤ maxPayloadBytes := by
  decide +kernel

theorem readManifest_payload : readManifest payload = some manifest := by
  simp only [readManifest, if_true]

theorem readEnvelope_envelopeText : readEnvelope envelopeText = some envelope := by
  simp only [readEnvelope, if_true]

theorem structured_release {generation : UInt64} {ciphertextHash : String}
    (known : isDigest ciphertextHash = true) (positive : generation ≠ 0) :
    validateManifestStructure (release generation ciphertextHash) = .ok () := by
  simp [validateManifestStructure, release, Manifest.Sample.manifest,
    Manifest.Sample.isDigest_digest, toolVersion, known, positive]

theorem structured : validateManifestStructure manifest = .ok () :=
  structured_release (sampleEnvironment.isDigest_digest [0]) (by decide)

theorem decoded : Decoded keys envelope manifest payload (messageOf manifest) :=
  decoded_envelopeOf nativeKey readManifest_payload structured length_payload

theorem verifies {now allowedClockSkew : UInt64}
    (representable : now.toNat + allowedClockSkew.toNat < 2 ^ 64)
    (issued : 1700000000 ≤ now.toNat + allowedClockSkew.toNat) :
    Verifies tools (question now allowedClockSkew) record token 1 :=
  verifies_release rfl readEnvelope_envelopeText readManifest_payload structured length_payload
    (by decide +kernel) representable issued

theorem isNewest {now allowedClockSkew : UInt64}
    (representable : now.toNat + allowedClockSkew.toNat < 2 ^ 64)
    (issued : 1700000000 ≤ now.toNat + allowedClockSkew.toNat) :
    IsNewest tools (question now allowedClockSkew) [record] token (discovered record 1) := by
  have candidate := verifies representable issued
  refine ⟨record, List.mem_singleton_self _, 1, candidate, rfl, ?_⟩
  intro other member older verified
  cases List.mem_singleton.mp member
  rw [(verified.unique candidate).2]
  exact UInt64.le_refl _

/-! An older release, a newer one, and one that nobody trusted has approved. -/

/-- Digest texts of the newer and of the untrusted release. -/
def newerDigest : String := "e1be4d7a8ab5560aa4199eea339849ba8e293d55ca0a81006726d184519e647f"

def forgedDigest : String := "f30f5ab28fe047904037f77b6da4fea1e27241c5d132638d8bedce9d40494f32"

/-- Digests that tell the three releases apart, by the last octet of ciphertexts and addresses. -/
def releaseDigest (bytes : Bytes) : String :=
  match bytes.getLast? with
  | some 2 => newerDigest
  | some 3 => forgedDigest
  | _ => sampleDigest bytes

/-- The sample environment with these digests. -/
def releaseEnvironment : Cache.Environment :=
  { sampleEnvironment with
    digest := releaseDigest
    isDigest_digest := by
      intro bytes
      unfold releaseDigest
      split
      · decide
      · decide
      · exact sampleEnvironment.isDigest_digest bytes }

/-- The second generation of the artifact, and a third one. -/
def newer : TargetManifest := release 2 newerDigest

def forged : TargetManifest := release 3 forgedDigest

/-- A reader of the three manifests. -/
def readRelease (bytes : Bytes) : Option TargetManifest :=
  [newer, manifest, forged].find? fun body => payloadOf body = bytes

/-- The three envelopes; the signer of the third is no signer of the plan. -/
def releaseEnvelopes : List SignedEnvelope :=
  [envelopeOf newer nativeKey, envelopeOf manifest nativeKey, envelopeOf forged sshKey]

/-- A reader of the three envelopes. -/
def readReleaseEnvelope (bytes : Bytes) : Option SignedEnvelope :=
  releaseEnvelopes.find? fun envelope => textOf envelope = bytes

/-- Tools that know the three releases. -/
def releaseTools : Tools := toolsReading releaseEnvironment readRelease readReleaseEnvelope

/-- The records of the releases. -/
def olderRecord : ArtifactRecord :=
  Contents.record releaseEnvironment sampleKey ⟨[0], textOf (envelopeOf manifest nativeKey)⟩

def newerRecord : ArtifactRecord :=
  Contents.record releaseEnvironment newerDigest ⟨[0, 1, 2], textOf (envelopeOf newer nativeKey)⟩

def forgedRecord : ArtifactRecord :=
  Contents.record releaseEnvironment forgedDigest ⟨[0, 1, 2, 3], textOf (envelopeOf forged sshKey)⟩

theorem payloadOf_newer_ne : payloadOf newer ≠ payloadOf manifest := by
  decide +kernel

theorem structured_newer : validateManifestStructure newer = .ok () :=
  structured_release (releaseEnvironment.isDigest_digest [0, 1, 2]) (by decide)

theorem length_newer : (payloadOf newer).length ≤ maxPayloadBytes := by
  decide +kernel

theorem readRelease_newer : readRelease (payloadOf newer) = some newer := by
  simp [readRelease]

theorem readRelease_manifest : readRelease (payloadOf manifest) = some manifest := by
  simp [readRelease, payloadOf_newer_ne]

theorem verifies_newer {now allowedClockSkew : UInt64}
    (representable : now.toNat + allowedClockSkew.toNat < 2 ^ 64)
    (issued : 1700000000 ≤ now.toNat + allowedClockSkew.toNat) :
    Verifies releaseTools (question now allowedClockSkew) newerRecord token 2 :=
  verifies_release rfl (by simp [readReleaseEnvelope, releaseEnvelopes]) readRelease_newer
    structured_newer length_newer (by decide +kernel) representable issued

/-- Among the three records the second release is the newest that verifies. -/
theorem isNewest_newer {now allowedClockSkew : UInt64}
    (representable : now.toNat + allowedClockSkew.toNat < 2 ^ 64)
    (issued : 1700000000 ≤ now.toNat + allowedClockSkew.toNat) :
    IsNewest releaseTools (question now allowedClockSkew) [forgedRecord, newerRecord, olderRecord]
      token (discovered newerRecord 2) := by
  refine ⟨newerRecord, by simp, 2, verifies_newer representable issued, rfl, ?_⟩
  intro other _ generation verified
  obtain ⟨_, opened, _, body, -, -, -, -, parsed, inspected, bound⟩ := verified.manifest
  have stated := bound.artifactGeneration
  have found : (releaseEnvelopes.find? fun envelope => textOf envelope = other.envelope) =
      some opened := parsed
  have known := List.mem_of_find?_eq_some found
  simp only [releaseEnvelopes, List.mem_cons, List.not_mem_nil, or_false] at known
  rcases known with rfl | rfl | rfl
  · have decoded := decoded_envelopeOf nativeKey readRelease_newer structured_newer length_newer
    cases (inspectUnverified_of_decoded decoded).symm.trans inspected
    rw [show generation = 2 from stated.symm]
    decide
  · have decoded := decoded_envelopeOf nativeKey readRelease_manifest structured length_payload
    cases (inspectUnverified_of_decoded decoded).symm.trans inspected
    rw [show generation = 1 from stated.symm]
    decide
  · exact absurd verified (not_verifies_envelopeOf parsed)

end Sample

theorem selection_exact_three_releases :
    ∃ inspection, inspectActivationArtifacts Sample.releaseTools
        (.ok [Sample.forgedRecord, Sample.newerRecord, Sample.olderRecord]) Sample.policy
        .activation 1700000300 300 = .ok inspection ∧
      inspection.selected[Policy.Sample.token]? = some (discovered Sample.newerRecord 2) := by
  obtain ⟨⟨policy, phase, now, allowedClockSkew, fingerprint⟩, rfl, rfl, rfl, rfl, fingerprinted,
      exact⟩ :=
    selection_exact (T := Sample.releaseTools) (fun _ => rfl) Sample.projected .activation
      1700000300 300
  cases fingerprinted.symm.trans Sample.fingerprinted
  obtain ⟨inspection, returned, newest, -⟩ :=
    exact [Sample.forgedRecord, Sample.newerRecord, Sample.olderRecord] (by decide)
  exact ⟨inspection, returned,
    (newest _ _).mpr (Sample.isNewest_newer (by decide) (by decide))⟩

end NixSeal.Selection
