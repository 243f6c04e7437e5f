import NixSeal.Rekey.Transactions
import NixSeal.Selection.Activation

/-!
# Transactions that share a cache

Between the questions of a transaction, others use the cache.  Whatever they do, short of a
collection, a result names a bundle that is stored, approved for its request, and there to stay.
-/

namespace NixSeal.Rekey

open Cache Manifest Dialogue

/-! ## What a transaction delivers -/

/-- The record of a bundle that a cache stores under an address. -/
def Stored (env : Environment) (address : ArtifactAddress) (record : ArtifactRecord) (root : Root) :
    Prop :=
  ∃ contents key bundle, Holds env false false root contents ∧ address.key env = .ok key ∧
    contents.artifacts[key]? = some bundle ∧ record = Contents.record env key bundle

section Deliveries

variable {T : Tools} {env : Environment} {root : Root}

/-- After a step on its own files, a transaction goes on with a cache that has grown. -/
theorem transact_bind {α : Type} {returned : α → Root → Prop} {after : Unit → Transaction α}
    (live : Live env root) (next : ∀ root, Live env root → Delivers env returned (after ()) root) :
    Delivers env returned (transact >>= after) root := by
  refine Delivers.bind (Delivers.query_bind fun later reply answered grown answers => ?_)
    fun _ root live => next root live
  exact Delivers.lift fun _ _ => (live.grow grown).grow answers.grows

theorem copyCanonical_delivers (live : Live env root) (source : Except IoKind Leaf) :
    Delivers env (fun copied after => Live env after ∧ openRegularNofollow source = .ok copied.1 ∧
      hashCopy T.sha256 copied.1 = .ok copied.2) (copyCanonical T source) root := by
  refine transact_bind live fun root live => ?_
  refine transact_bind live fun root live => ?_
  refine transact_bind live fun root live => ?_
  refine transact_bind live fun root live => ?_
  apply Delivers.lift_bind
  intro bytes opened
  refine transact_bind live fun root live => ?_
  apply Delivers.lift_bind
  intro hash hashed
  refine transact_bind live fun root live => ?_
  refine transact_bind live fun root live => ?_
  refine Delivers.lift fun copied returned => ?_
  cases returned
  exact ⟨live, opened, hashed⟩

theorem loadArtifact_delivers (live : Live env root) (address : ArtifactAddress) :
    Delivers env (fun found after => Live env after ∧
      ∀ record, found = some record → Stored env address record after)
      (loadArtifact address) root := by
  apply Delivers.query_bind
  intro later reply answered grown answers
  obtain ⟨contents, holds⟩ := live.grow grown
  obtain ⟨rfl, replied⟩ := loaded_of_answers holds answers
  refine Delivers.lift fun found loaded => ⟨⟨contents, holds⟩, ?_⟩
  rintro record rfl
  have loaded := replied.symm.trans (Fallible.mapError_eq_ok.mp loaded)
  cases addressed : address.key env with
  | error error =>
      rw [addressed] at loaded
      cases loaded
  | ok key =>
      rw [addressed, Except.map, Except.ok.injEq, Option.map_eq_some_iff] at loaded
      obtain ⟨bundle, stored, rfl⟩ := loaded
      exact ⟨contents, key, bundle, holds, addressed, stored, rfl⟩

theorem storeArtifact_delivers (live : Live env root) (address : ArtifactAddress)
    (ciphertext envelope : Bytes) :
    Delivers env (fun record after => Stored env address record after)
      (storeArtifact address ciphertext envelope) root := by
  apply Delivers.query_bind
  intro later reply answered grown answers
  obtain ⟨contents, holds⟩ := live.grow grown
  split
  · rename_i record
    obtain ⟨key, addressed, accepted, whole, held⟩ := stored_of_answers holds answers rfl
    refine Delivers.lift fun found returned => ?_
    cases returned
    exact ⟨_, key, _, held, addressed, artifact_putArtifact accepted, whole⟩
  · apply (loadArtifact_delivers ((live.grow grown).grow answers.grows) address).bind
    rintro found root ⟨-, stored⟩
    cases found with
    | none => exact Delivers.lift (by simp)
    | some record =>
        refine Delivers.lift fun found returned => ?_
        cases returned
        exact stored record rfl
  · exact Delivers.lift (by simp)

/-- What a result says about its request and about the bundle that it names. -/
structure Authentic (T : Tools) (request : DirectRequest T.keys) (result : RekeyResult)
    (bundle : Bundle) : Prop where
  source : ∃ canonical, openRegularNofollow request.source = .ok canonical ∧
    hashCopy T.sha256 canonical = .ok result.sourceCiphertextHash
  recipient : Selection.recipientFingerprint T.toTools request.targetRecipient =
    some result.recipientFingerprint
  addressed : (request.address result.sourceCiphertextHash result.recipientFingerprint).key
    T.cache = .ok result.cacheKey
  committed : T.cache.digest bundle.ciphertext = result.artifactCiphertextHash
  path : result.ciphertextPath = ["artifacts", result.cacheKey, ciphertextName]
  approved : Approved T request result.sourceCiphertextHash result.artifactCiphertextHash
    result.recipientFingerprint bundle.envelope

/-- A cache stores an authentic bundle under the key of a result. -/
def Delivered (env : Environment) (T : Tools) (request : DirectRequest T.keys)
    (result : RekeyResult) (root : Root) : Prop :=
  ∃ contents bundle, Holds env false false root contents ∧
    contents.artifacts[result.cacheKey]? = some bundle ∧ Authentic T request result bundle

theorem delivered_of_authenticate (same : env.SameHost T.cache) {request : DirectRequest T.keys}
    {canonical : Bytes} {sourceHash recipient : String} {record : ArtifactRecord}
    (opened : openRegularNofollow request.source = .ok canonical)
    (hashed : hashCopy T.sha256 canonical = .ok sourceHash)
    (computed : fingerprint T request.targetRecipient = .ok recipient)
    (stored : Stored env (request.address sourceHash recipient) record root) {reused : Bool}
    {result : RekeyResult}
    (authenticated : authenticateDirectRecord T record request sourceHash recipient reused =
      .ok result) : Delivered env T request result root := by
  obtain ⟨contents, key, bundle, holds, addressed, inside, rfl⟩ := stored
  obtain ⟨approved, rfl⟩ := authenticateDirectRecord_eq_ok.mp authenticated
  refine ⟨contents, bundle, holds, inside, ⟨canonical, opened, hashed⟩,
    fingerprint_eq_ok.mp computed, ?_, ?_, rfl, approved⟩
  · rw [same.key_eq]
    exact addressed
  · rw [same.digest]
    rfl

/-- A ciphertext that a transaction made itself. -/
def Rekeyed (T : Tools) (A : Crypto.Age) (H : Crypto.Host) (request : RekeyRequest T.keys)
    (result : RekeyResult) : Prop :=
  ∃ canonical target, openRegularNofollow request.source = .ok canonical ∧
    Crypto.rekey A H canonical request.administratorIdentity [request.targetRecipient] =
      .ok target ∧ T.cache.digest target = result.artifactCiphertextHash

theorem rekeyMissing_delivers (same : env.SameHost T.cache) (live : Live env root)
    (A : Crypto.Age) (H : Crypto.Host) {request : RekeyRequest T.keys} {canonical : Bytes}
    {sourceHash recipient : String} (opened : openRegularNofollow request.source = .ok canonical)
    (hashed : hashCopy T.sha256 canonical = .ok sourceHash)
    (computed : fingerprint T request.targetRecipient = .ok recipient) :
    Delivers env (fun result after => Delivered env T request.toDirectRequest result after ∧
      (result.reused = false → Rekeyed T A H request result))
      (rekeyMissing T A H request canonical sourceHash recipient) root := by
  refine transact_bind live fun root live => ?_
  refine transact_bind live fun root live => ?_
  apply Delivers.lift_bind
  intro target rekeyed
  refine transact_bind live fun root live => ?_
  refine transact_bind live fun root live => ?_
  apply Delivers.lift_bind
  intro artifactHash committed
  apply Delivers.lift_bind
  intro envelope signed
  refine transact_bind live fun root live => ?_
  apply (storeArtifact_delivers live _ target envelope).bind
  intro record root stored
  split
  · refine Delivers.lift fun result returned => ⟨?_, ?_⟩
    · exact delivered_of_authenticate same opened hashed computed stored returned
    · obtain ⟨-, rfl⟩ := authenticateDirectRecord_eq_ok.mp returned
      simp
  · rename_i won
    refine Delivers.lift fun result returned => ⟨?_, fun _ => ?_⟩
    · exact delivered_of_authenticate same opened hashed computed stored returned
    · obtain ⟨-, rfl⟩ := authenticateDirectRecord_eq_ok.mp returned
      exact ⟨canonical, target, opened, Fallible.mapError_eq_ok.mp rekeyed,
        (hashCopy_eq_ok.mp committed).2.trans (not_not.mp won).symm⟩

/-- Whatever others do, a result of `rekey` names an authentic bundle, and unless it is reused the
ciphertext is its own. -/
theorem rekey_delivers (same : env.SameHost T.cache) (live : Live env root) (A : Crypto.Age)
    (H : Crypto.Host) (request : RekeyRequest T.keys) :
    Delivers env (fun result after => Delivered env T request.toDirectRequest result after ∧
      (result.reused = false → Rekeyed T A H request result)) (rekey T A H request) root := by
  apply (copyCanonical_delivers live request.source).bind
  rintro ⟨canonical, sourceHash⟩ root ⟨live, opened, hashed⟩
  apply Delivers.lift_bind
  intro recipient computed
  apply Delivers.lift_bind
  intro _ valid
  apply (loadArtifact_delivers live _).bind
  intro found root ⟨live, loaded⟩
  cases found with
  | none => exact rekeyMissing_delivers same live A H opened hashed computed
  | some record =>
      refine Delivers.lift fun result returned => ⟨?_, ?_⟩
      · exact delivered_of_authenticate same opened hashed computed (loaded record rfl) returned
      · obtain ⟨-, rfl⟩ := authenticateDirectRecord_eq_ok.mp returned
        simp

/-- The same for `stage_direct`. -/
theorem stageDirect_delivers (same : env.SameHost T.cache) (live : Live env root)
    (request : DirectRequest T.keys) :
    Delivers env (Delivered env T request) (stageDirect T request) root := by
  apply (copyCanonical_delivers live request.source).bind
  rintro ⟨canonical, sourceHash⟩ root ⟨live, opened, hashed⟩
  apply Delivers.lift_bind
  intro _ header
  refine transact_bind live fun root live => ?_
  apply Delivers.lift_bind
  intro artifactHash committed
  apply Delivers.lift_bind
  intro recipient computed
  apply Delivers.lift_bind
  intro _ valid
  apply (loadArtifact_delivers live _).bind
  intro found root ⟨live, loaded⟩
  cases found with
  | none =>
      apply Delivers.lift_bind
      intro envelope signed
      refine transact_bind live fun root live => ?_
      apply (storeArtifact_delivers live _ canonical envelope).bind
      intro record root stored
      exact Delivers.lift fun result returned =>
        delivered_of_authenticate same opened hashed computed stored returned
  | some record =>
      exact Delivers.lift fun result returned =>
        delivered_of_authenticate same opened hashed computed (loaded record rfl) returned

end Deliveries

/-! ## Transactions that share a cache -/

/-- A transaction of one process. -/
inductive Call where
  | rekey (T : Tools) (A : Crypto.Age) (H : Crypto.Host) (request : RekeyRequest T.keys)
  | stageDirect (T : Tools) (request : DirectRequest T.keys)

namespace Call

def tools : Call → Tools
  | .rekey T _ _ _ => T
  | .stageDirect T _ => T

def request : (call : Call) → DirectRequest call.tools.keys
  | .rekey _ _ _ request => request.toDirectRequest
  | .stageDirect _ request => request

def talk : Call → Transaction RekeyResult
  | .rekey T A H request => Rekey.rekey T A H request
  | .stageDirect T request => Rekey.stageDirect T request

/-- What a call made itself, unless its result is reused. -/
def Made : Call → RekeyResult → Prop
  | .rekey T A H request, result => result.reused = false → Rekeyed T A H request result
  | .stageDirect _ _, _ => True

theorem delivers {env : Environment} {root : Root} (call : Call)
    (same : env.SameHost call.tools.cache) (live : Live env root) :
    Delivers env (fun result after => Delivered env call.tools call.request result after ∧
      call.Made result) call.talk root := by
  cases call with
  | rekey T A H request => exact rekey_delivers same live A H request
  | stageDirect T request =>
      exact (stageDirect_delivers same live request).mono fun _ _ delivered => ⟨delivered, trivial⟩

end Call

theorem Delivered.grow {env : Environment} {T : Tools} {request : DirectRequest T.keys}
    {result : RekeyResult} {root after : Root} (delivered : Delivered env T request result root)
    (grows : Grows env root after) : Delivered env T request result after := by
  obtain ⟨contents, bundle, holds, stored, authentic⟩ := delivered
  obtain ⟨more, held, within⟩ := grows contents holds
  exact ⟨more, bundle, held, within _ _ stored, authentic⟩

/-- Any number of transactions share a cache with each other and with operations that remove
nothing, whatever was done to the cache before, and any of them are killed.  No bundle changes, and
every result names a bundle that is there and approved for its request; results with one key
agree. -/
theorem transactions_deliver {ι : Type} [DecidableEq ι] {env : Environment}
    {history : List (Environment × Attempt)} (hosts : ∀ step ∈ history, env.SameHost step.1)
    (spared : ∀ step ∈ history, step.2.Spared step.1) {calls : ι → Option Call}
    (here : ∀ process call, calls process = some call → env.SameHost call.tools.cache)
    {pool : Pool Query Query.Reply TransactionError RekeyResult Root ι}
    (run : Relation.ReflTransGen (Dialogue.Step (shared env))
      ⟨fun process => (calls process).map Call.talk, replay Root.missing history⟩ pool) :
    (∀ key bundle, HasBundle env (replay Root.missing history).own key bundle →
      HasBundle env pool.state.own key bundle) ∧
    (∀ process call result, calls process = some call →
      pool.talks process = some (.ended (.ok result)) →
        call.Made result ∧ ∃ bundle, HasBundle env pool.state.own result.cacheKey bundle ∧
          Authentic call.tools call.request result bundle) ∧
    ∀ first second call other result found, calls first = some call → calls second = some other →
      pool.talks first = some (.ended (.ok result)) →
      pool.talks second = some (.ended (.ok found)) → result.cacheKey = found.cacheKey →
        result.artifactCiphertextHash = found.artifactCiphertextHash ∧
          result.ciphertextPath = found.ciphertextPath := by
  obtain ⟨old, before⟩ := replay_holds hosts spared (holds_missing env false false)
  have guaranteed : pool.Guaranteed (shared env) (Grows env)
      (fun process result after => ∀ value, result = .ok value → ∀ call,
        calls process = some call → Delivered env call.tools call.request value after ∧
          call.Made value) (replay Root.missing history) := by
    refine Pool.guaranteed (fun _ _ _ => Grows.trans) Grows.refl ?_ shared_drifts run
      ⟨.refl _, fun process dialogue talking => ?_⟩
    · intro process result first second holds grows value returned call called
      exact (holds value returned call called).imp_left fun delivered => delivered.grow grows
    · obtain ⟨call, called, rfl⟩ := Option.map_eq_some_iff.mp talking
      refine (call.delivers (here process call called) ⟨old, before⟩).mono
        fun result after holds other found => ?_
      rw [called, Option.some.injEq] at found
      exact found ▸ holds
  have delivered : ∀ process call result, calls process = some call →
      pool.talks process = some (.ended (.ok result)) → call.Made result ∧
        ∃ bundle, HasBundle env pool.state.own result.cacheKey bundle ∧
          Authentic call.tools call.request result bundle := by
    intro process call result called ended
    obtain ⟨⟨contents, bundle, holds, stored, authentic⟩, made⟩ :=
      guaranteed.talks process _ ended result rfl call called
    exact ⟨made, bundle, holds.shows.hasBundle stored, authentic⟩
  refine ⟨fun key bundle present => ?_, delivered, ?_⟩
  · obtain ⟨more, held, within⟩ := guaranteed.grown old before
    exact held.shows.hasBundle (within key bundle ((hasBundle_iff before.shows).mp present))
  · intro first second call other result found called called' ended ended' same
    obtain ⟨-, bundle, present, authentic⟩ := delivered first call result called ended
    obtain ⟨-, bundle', present', authentic'⟩ := delivered second other found called' ended'
    rw [same] at present
    obtain rfl := present.unique present'
    refine ⟨?_, by rw [authentic.path, authentic'.path, same]⟩
    rw [← authentic.committed, ← authentic'.committed, (here first call called).digest,
      (here second other called').digest]

namespace Sample

open Manifest.Sample (digest nativeKey)

/-- The manifest of the sample ciphertext, as the sample signer approves it. -/
def manifest : TargetManifest :=
  Selection.Sample.release 1 (sampleEnvironment.digest Crypto.Sample.current)

def envelope : SignedEnvelope := Selection.Sample.envelopeOf manifest nativeKey

def envelopeText : Bytes := Selection.Sample.textOf envelope

def readManifest (bytes : Bytes) : Option TargetManifest :=
  if bytes = Selection.Sample.payloadOf manifest then some manifest else none

def readEnvelope (bytes : Bytes) : Option SignedEnvelope :=
  if bytes = envelopeText then some envelope else none

/-- Tools that know this manifest and this envelope. -/
def tools : Tools where
  toTools := Selection.Sample.toolsReading sampleEnvironment readManifest readEnvelope
  sha256 := fun _ => digest
  envelopeToJson := fun body => some (Selection.Sample.textOf body)
  newDecryptor := fun _ => true

/-- A request of the sample signer for direct delivery, at some time. -/
def request (issuedAt : UInt64) : DirectRequest tools.keys where
  source := .ok (.file ⟨0, 0o400, 1⟩ Crypto.Sample.current)
  targetRecipient := Policy.Sample.hostRecipient
  planHash := digest
  targetPolicyHash := digest
  artifactPolicyHash := digest
  targetId := Manifest.Sample.host
  secretId := Manifest.Sample.token
  artifactGeneration := 1
  issuedAt := issuedAt
  expiresAt := none
  toolVersion := Selection.toolVersion
  signingKey := .ed25519 (nativeKey : tools.keys.SigningKey)

/-- Two processes that stage one ciphertext, five minutes apart. -/
def calls (process : Bool) : Option Call :=
  some (.stageDirect tools (request (if process then 1700000300 else 1700000000)))

/-- A new cache with one object. -/
def history : List (Environment × Attempt) :=
  [(sampleEnvironment, .openCache fun _ => .pass), (sampleEnvironment, .put [0] fun _ => .pass)]

/-- What the transactions return. -/
def staged (reused : Bool) : RekeyResult where
  cacheKey := sampleKey
  sourceCiphertextHash := digest
  artifactCiphertextHash := sampleEnvironment.digest Crypto.Sample.current
  recipientFingerprint := digest
  ciphertextPath := ["artifacts", sampleKey, ciphertextName]
  reused

theorem length_payloadOf : (Selection.Sample.payloadOf manifest).length ≤ 4096 := by
  decide +kernel

theorem length_payload : (Selection.Sample.payloadOf manifest).length ≤ maxPayloadBytes :=
  Nat.le_trans length_payloadOf (by decide)

theorem structured : validateManifestStructure manifest = .ok () :=
  Selection.Sample.structured_release
    (sampleEnvironment.isDigest_digest Crypto.Sample.current) (by decide)

theorem readManifest_payload :
    readManifest (Selection.Sample.payloadOf manifest) = some manifest := by
  simp only [readManifest, if_true]

theorem envelopeFromJson_envelopeText : tools.envelopeFromJson envelopeText = some envelope := by
  have reads : tools.envelopeFromJson = readEnvelope := rfl
  simp only [reads, readEnvelope, if_true]

theorem length_current : Crypto.Sample.current.length ≤ 4096 := by
  decide +kernel

theorem length_utf8_encode (bytes : Bytes) :
    (utf8 (Base64.encode bytes)).length ≤ 8 * bytes.length + 16 := by
  have octets := utf8ByteSize_le (Base64.encode bytes)
  have chars := Base64.length_encodeChars_le bytes
  rw [Base64.encode, String.length_ofList] at octets
  rw [length_utf8, Base64.encode]
  omega

theorem length_envelopeText : envelopeText.length ≤ maxEnvelopeBytes := by
  have payload := length_utf8_encode (Selection.Sample.payloadOf manifest)
  have small := length_payloadOf
  have signature := length_utf8_encode
    (Manifest.Sample.signature nativeKey (Selection.Sample.messageOf manifest)).toList
  have keyId : (utf8 (nativeKeyId Selection.Sample.keys nativeKey)).length ≤ 256 := by
    decide +kernel
  have fixed : (utf8 "\x7b\"payload\":\"").length + (utf8 "\",\"payloadType\":\"").length +
      (utf8 payloadTypeText).length + (utf8 "\",\"signatures\":[").length +
      (utf8 "\x7b\"algorithm\":\"ed25519-v1\",\"keyId\":\"").length +
      (utf8 "\",\"signature\":\"").length + (utf8 "\"\x7d").length +
        (utf8 "]\x7d").length ≤ 512 := by
    decide
  rw [Vector.length_toList] at signature
  simp only [envelopeText, Selection.Sample.textOf, envelope, Selection.Sample.envelopeOf,
    List.flatMap_cons, List.flatMap_nil, List.append_nil, List.length_append, maxEnvelopeBytes]
  omega

theorem addressed (issuedAt : UInt64) :
    Addressed tools (request issuedAt) Crypto.Sample.current digest digest sampleKey where
  opened := rfl
  hashed := by
    rw [hashCopy_eq_ok]
    exact ⟨Nat.le_trans length_current (by decide), rfl⟩
  computed := fingerprint_eq_ok.mpr Selection.Sample.fingerprinted
  addressed := by
    change ((request 0).address digest digest).key sampleEnvironment = .ok sampleKey
    decide +kernel

theorem header : Crypto.validateCiphertextHeader tools.newDecryptor Crypto.Sample.current =
    .ok () :=
  Crypto.Sample.validate_current

theorem signManifest_envelopeOf {fromJson : Bytes → Option TargetManifest} {body : TargetManifest}
    (structured : validateManifestStructure body = .ok ())
    (size : (Selection.Sample.payloadOf body).length ≤ maxPayloadBytes) :
    signManifest (Selection.Sample.keysReading fromJson) body (.ed25519 nativeKey) =
      .ok (Selection.Sample.envelopeOf body nativeKey) := by
  obtain ⟨found, encoded⟩ := exists_pae size
  have read : Selection.Sample.messageOf body = found := by
    rw [Selection.Sample.messageOf, encoded]
    rfl
  have written : (Selection.Sample.keysReading fromJson).manifestToJcs body =
      some (Selection.Sample.payloadOf body) := rfl
  have named : nativeKeyId Selection.Sample.keys nativeKey =
      nativeKeyId (Selection.Sample.keysReading fromJson) nativeKey :=
    (Selection.Sample.nativeKeyId_keys _).trans (Selection.Sample.nativeKeyId_keys _).symm
  simp only [signManifest, structured, Fallible.ok_bind, written,
    if_neg (Nat.not_lt.mpr size), encoded]
  rw [Selection.Sample.envelopeOf, read, named]
  rfl

theorem signed : signedEnvelope tools (request 1700000000) digest
    (sampleEnvironment.digest Crypto.Sample.current) digest = .ok envelopeText := by
  have signing : signManifest tools.keys manifest (request 1700000000).signingKey =
      .ok envelope := signManifest_envelopeOf structured length_payload
  have same : (request 1700000000).manifest digest
      (sampleEnvironment.digest Crypto.Sample.current) digest = manifest := rfl
  rw [signedEnvelope, same, signing]
  rfl

theorem authenticated {issuedAt : UInt64} (issued : 1700000000 ≤ issuedAt.toNat) (reused : Bool) :
    authenticateDirectRecord tools
      (Contents.record sampleEnvironment sampleKey ⟨Crypto.Sample.current, envelopeText⟩)
      (request issuedAt) digest digest reused = .ok (staged reused) := by
  have bound : Bound manifest ((request issuedAt).binding digest
      (sampleEnvironment.digest Crypto.Sample.current) digest) :=
    { toolVersion := rfl
      artifactPolicyHash := rfl
      sourceCiphertextHash := rfl
      artifactCiphertextHash := rfl
      targetId := rfl
      secretId := rfl
      recipientFingerprint := rfl
      artifactGeneration := rfl
      representable := issuedAt.toNat_lt
      issued := issued
      unexpired := fun expiry never => nomatch never }
  have verified := Selection.Sample.verify_envelopeOf readManifest_payload structured length_payload
    bound
  rw [authenticateDirectRecord_eq_ok, Contents.record_artifactCiphertextHash,
    Contents.record_envelope]
  exact ⟨⟨envelope, encodePublicKey nativeKey, _, _, envelopeFromJson_envelopeText, rfl,
    Selection.Sample.insertEncoded_native, verified⟩, rfl⟩

/-- The contents that the first transaction leaves. -/
def filled (contents : Contents) : Contents :=
  contents.putArtifact sampleKey ⟨Crypto.Sample.current, envelopeText⟩

theorem accepted {contents : Contents} (absent : contents.artifacts[sampleKey]? = none) :
    contents.refusal sampleKey ⟨Crypto.Sample.current, envelopeText⟩ = none := by
  have digits : isDigest sampleKey = true := by decide
  have fits : Crypto.Sample.current.length ≤ Cache.maxCiphertextBytes :=
    Nat.le_trans length_current (by decide)
  rw [Contents.refusal, if_neg (by simp [digits]), if_neg (Nat.not_lt.mpr length_envelopeText),
    absent, if_neg (by simp), if_neg (Nat.not_lt.mpr fits)]

/-- The first transaction stores a bundle. -/
theorem stages {root : Root} {contents : Contents}
    (holds : Holds tools.cache false false root contents)
    (absent : contents.artifacts[sampleKey]? = none) :
    ∃ after, (stageDirect tools (request 1700000000)).run (answer tools.cache) root =
        (.ok (staged false), after) ∧
      Holds tools.cache false false after (filled contents) := by
  obtain ⟨after, ran, held⟩ :=
    run_stageMissing (addressed 1700000000) holds absent signed (accepted absent)
  refine ⟨after, ?_, held⟩
  rw [run_stageDirect (addressed 1700000000) header holds, absent]
  exact ran.trans (congrArg (·, after) (authenticated (by decide) false))

/-- The second one finds it. -/
theorem restages {root : Root} {contents : Contents}
    (holds : Holds tools.cache false false root (filled contents))
    (absent : contents.artifacts[sampleKey]? = none) :
    (stageDirect tools (request 1700000300)).run (answer tools.cache) root =
      (.ok (staged true), root) := by
  have stored := artifact_putArtifact (accepted absent)
  have ran := run_stageDirect (addressed 1700000300) header holds
  rw [filled, stored] at ran
  exact ran.trans (congrArg (·, root) (authenticated (by decide) true))

theorem hosts : ∀ step ∈ history, tools.cache.SameHost step.1 := by
  rintro step (_ | ⟨_, _ | ⟨_, ⟨⟩⟩⟩)
  · exact ⟨rfl, rfl⟩
  · exact ⟨rfl, rfl⟩

theorem spared : ∀ step ∈ history, step.2.Spared step.1 := by
  rintro step (_ | ⟨_, _ | ⟨_, ⟨⟩⟩⟩)
  · exact Steady.of_pass fun _ => rfl
  · exact ⟨Steady.of_pass fun _ => rfl, .inr (by simp)⟩

/-- No bundle is in the cache before the transactions. -/
theorem opened : ∃ contents,
    Holds tools.cache false false (replay Root.missing history) contents ∧
      contents.artifacts[sampleKey]? = none := by
  obtain ⟨_, begun, fresh⟩ := Attempt.grown (.openCache fun _ => .pass)
    (spared _ List.mem_cons_self) (holds_missing sampleEnvironment false false)
  obtain ⟨contents, holds, grown⟩ := Attempt.grown (.put [0] fun _ => .pass)
    (spared _ (List.mem_cons_of_mem _ List.mem_cons_self)) begun
  refine ⟨contents, holds, ?_⟩
  cases stored : contents.artifacts[sampleKey]? with
  | none => rfl
  | some bundle =>
      rcases grown _ _ stored with known | added
      · rcases fresh _ _ known with known | added
        · simp at known
        · exact added.elim
      · exact added.elim

/-- One of the processes ends before the other begins. -/
theorem shares : ∃ pool, Relation.ReflTransGen (Dialogue.Step (shared tools.cache))
      ⟨fun process => (calls process).map Call.talk, replay Root.missing history⟩ pool ∧
    pool.talks false = some (.ended (.ok (staged false))) ∧
    pool.talks true = some (.ended (.ok (staged true))) := by
  obtain ⟨contents, holds, absent⟩ := opened
  obtain ⟨after, ran, held⟩ := stages holds absent
  have talks : ∀ process, (calls process).map Call.talk =
      some (stageDirect tools (request (if process then 1700000300 else 1700000000))) :=
    fun _ => rfl
  have first := @Pool.alone _ _ _ _ _ _ _ (shared tools.cache) _ (answers_answer tools.cache)
    (fun process => (calls process).map Call.talk) false _ (talks false)
    (replay Root.missing history)
  have second := @Pool.alone _ _ _ _ _ _ _ (shared tools.cache) _ (answers_answer tools.cache)
    (Function.update (fun process => (calls process).map Call.talk) false
      (some (Dialogue.ended (.ok (staged false))))) true _ (talks true) after
  rw [if_neg Bool.false_ne_true, ran] at first
  rw [if_pos rfl, restages held absent] at second
  exact ⟨_, first.trans second, rfl, rfl⟩

end Sample

/-- The second process names the bundle of the first one. -/
theorem transactions_deliver_staged : ∃ pool bundle,
    Relation.ReflTransGen (Dialogue.Step (shared Sample.tools.cache))
      ⟨fun process => (Sample.calls process).map Call.talk, replay Root.missing Sample.history⟩
      pool ∧
    pool.talks false = some (.ended (.ok (Sample.staged false))) ∧
    pool.talks true = some (.ended (.ok (Sample.staged true))) ∧
    HasBundle Sample.tools.cache pool.state.own sampleKey bundle ∧
    Authentic Sample.tools (Sample.request 1700000000) (Sample.staged false) bundle ∧
    Authentic Sample.tools (Sample.request 1700000300) (Sample.staged true) bundle := by
  obtain ⟨pool, run, first, second⟩ := Sample.shares
  obtain ⟨-, delivered, -⟩ := transactions_deliver Sample.hosts Sample.spared
    (fun process call called => (Option.some.inj called) ▸ ⟨rfl, rfl⟩) run
  obtain ⟨-, bundle, present, authentic⟩ := delivered false _ _ rfl first
  obtain ⟨-, other, stored, same⟩ := delivered true _ _ rfl second
  obtain rfl := present.unique stored
  exact ⟨pool, bundle, run, first, second, present, authentic, same⟩

end NixSeal.Rekey
