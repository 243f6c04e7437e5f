import NixSeal.Cache.Queries
import NixSeal.Crypto.Staging
import NixSeal.Rekey.BoundedCopy
import NixSeal.Selection.Inspect

/-!
# Rekey transactions

A transaction copies a canonical ciphertext, encrypts it for one target or keeps it as it is, signs
what it is bound to and stores both in a cache that other processes use at the same time.  A bundle
that is stored already is used when it can be authenticated.
-/

namespace NixSeal.Rekey

open Cache Manifest Dialogue

/-- Functions of external crates that a transaction calls. -/
structure Tools extends Selection.Tools where
  /-- SHA-256 in lowercase hexadecimal. -/
  sha256 : Bytes → String
  /-- `serde_json::to_vec` of an envelope. -/
  envelopeToJson : SignedEnvelope → Option Bytes
  /-- Whether `Decryptor::new` accepts a stream. -/
  newDecryptor : Bytes → Bool

/-- `RekeyError`; the copies raise a part of it. -/
inductive TransactionError where
  | unsafeSource
  | copy (error : RekeyError)
  | crypto (error : Crypto.CryptoError)
  | cache (error : CacheError)
  | manifest (error : ManifestError)
  | envelope

/-- `DirectRequest`. -/
structure DirectRequest (P : Primitives) where
  /-- What there is at the path of the source. -/
  source : Except IoKind Leaf
  targetRecipient : String
  planHash : String
  targetPolicyHash : String
  artifactPolicyHash : String
  targetId : Id
  secretId : Id
  artifactGeneration : UInt64
  issuedAt : UInt64
  expiresAt : Option UInt64
  toolVersion : String
  signingKey : ApprovalSigningKey P

/-- `RekeyRequest`. -/
structure RekeyRequest (P : Primitives) extends DirectRequest P where
  administratorIdentity : String

/-- `RekeyResult`; the path is relative to the cache root. -/
structure RekeyResult where
  cacheKey : String
  sourceCiphertextHash : String
  artifactCiphertextHash : String
  recipientFingerprint : String
  ciphertextPath : List String
  reused : Bool

/-- A part of a transaction. -/
abbrev Transaction : Type → Type := Dialogue Query Query.Reply TransactionError

/-! ## Parts of a transaction -/

/-- `MAX_CIPHERTEXT_BYTES`. -/
def maxCiphertextBytes : UInt64 := 70 * 1024 * 1024

/-- `open_regular_nofollow`, with what is read from the file. -/
def openRegularNofollow : Except IoKind Leaf → Except TransactionError Bytes
  | .error kind => .error (.copy (.io kind))
  | .ok (.file status bytes) => if status.links ≠ 1 then .error .unsafeSource else .ok bytes
  | .ok _ => .error .unsafeSource

/-- The hash of a copy of a whole file. -/
def hashCopy (digest : Bytes → String) (bytes : Bytes) : Except TransactionError String :=
  if maxCiphertextBytes.toNat < bytes.length then .error (.copy .limit) else .ok (digest bytes)

/-- A step on the files of the transaction. -/
def transact : Transaction Unit := do
  let step ← Asking.transaction
  lift (step.mapError fun kind => .copy (.io kind))

/-- The canonical ciphertext, copied into a private file of the transaction, with its hash.  The
directory and the file are created and made private, the copy is written and synced, and the file is
rewound. -/
def copyCanonical (T : Tools) (source : Except IoKind Leaf) : Transaction (Bytes × String) := do
  transact
  transact
  transact
  transact
  let bytes ← lift (openRegularNofollow source)
  transact
  let hash ← lift (hashCopy T.sha256 bytes)
  transact
  transact
  pure (bytes, hash)

/-- `recipient_fingerprint`, with its failure. -/
def fingerprint (T : Tools) (recipient : String) : Except TransactionError String :=
  match Selection.recipientFingerprint T.toTools recipient with
  | none => .error (.crypto .recipient)
  | some found => .ok found

/-- `Cache::load_artifact`. -/
def loadArtifact (address : ArtifactAddress) : Transaction (Option ArtifactRecord) := do
  let loaded ← Asking.loadArtifact address
  lift (loaded.mapError .cache)

/-- The record of a bundle that is put, or that another process has put before. -/
def storeArtifact (address : ArtifactAddress) (ciphertext envelope : Bytes) :
    Transaction ArtifactRecord := do
  match ← Asking.putArtifact address ciphertext envelope with
  | .ok record => pure record
  | .error .artifactExists => do
      match ← loadArtifact address with
      | none => lift (.error (.cache .artifactExists))
      | some record => pure record
  | .error error => lift (.error (.cache error))

namespace DirectRequest

variable {P : Primitives} (request : DirectRequest P)

/-- The address of the artifact of a request. -/
def address (sourceHash fingerprint : String) : ArtifactAddress where
  artifactPolicyHash := request.artifactPolicyHash
  sourceCiphertextHash := sourceHash
  recipientFingerprint := fingerprint
  targetId := request.targetId.value
  secretId := request.secretId.value
  artifactGeneration := request.artifactGeneration

/-- The manifest that a request signs. -/
def manifest (sourceHash artifactHash fingerprint : String) : TargetManifest where
  schema := artifactSchema
  toolVersion := request.toolVersion
  planHash := request.planHash
  targetPolicyHash := request.targetPolicyHash
  artifactPolicyHash := request.artifactPolicyHash
  sourceCiphertextHash := sourceHash
  artifactCiphertextHash := artifactHash
  targetId := request.targetId
  secretId := request.secretId
  recipientFingerprint := fingerprint
  artifactGeneration := request.artifactGeneration
  issuedAt := request.issuedAt
  expiresAt := request.expiresAt

/-- What the envelope of a record must be bound to. -/
def binding (sourceHash artifactHash fingerprint : String) : ExpectedBinding where
  toolVersion := request.toolVersion
  artifactPolicyHash := request.artifactPolicyHash
  sourceCiphertextHash := sourceHash
  artifactCiphertextHash := artifactHash
  targetId := request.targetId
  secretId := request.secretId
  recipientFingerprint := fingerprint
  artifactGeneration := request.artifactGeneration
  now := request.issuedAt
  allowedClockSkew := 0

end DirectRequest

/-- The envelope of a new artifact, as it is stored. -/
def signedEnvelope (T : Tools) (request : DirectRequest T.keys)
    (sourceHash artifactHash fingerprint : String) : Except TransactionError Bytes := do
  let envelope ← (signManifest T.keys (request.manifest sourceHash artifactHash fingerprint)
    request.signingKey).mapError .manifest
  match T.envelopeToJson envelope with
  | none => .error .envelope
  | some bytes => .ok bytes

/-- `authenticate_direct_record`. -/
def authenticateDirectRecord (T : Tools) (record : ArtifactRecord) (request : DirectRequest T.keys)
    (sourceHash fingerprint : String) (reused : Bool) : Except TransactionError RekeyResult :=
  match T.envelopeFromJson record.envelope with
  | none => .error .envelope
  | some envelope => do
      let signingPublic ← request.signingKey.encodePublic.mapError .manifest
      let (trusted, _) ← (TrustedKeys.empty.insertEncoded signingPublic).mapError .manifest
      let _ ← (verify T.keys envelope trusted 1
        (request.binding sourceHash record.artifactCiphertextHash fingerprint)).mapError .manifest
      .ok
        { cacheKey := record.key
          sourceCiphertextHash := sourceHash
          artifactCiphertextHash := record.artifactCiphertextHash
          recipientFingerprint := fingerprint
          ciphertextPath := record.ciphertextPath
          reused := reused }

/-- `authenticate_record`. -/
def authenticateRecord (T : Tools) (record : ArtifactRecord) (request : RekeyRequest T.keys)
    (sourceHash fingerprint : String) (reused : Bool) : Except TransactionError RekeyResult :=
  authenticateDirectRecord T record request.toDirectRequest sourceHash fingerprint reused

/-! ## The transactions -/

/-- The part of `rekey` after no record was found. -/
def rekeyMissing (T : Tools) (A : Crypto.Age) (H : Crypto.Host) (request : RekeyRequest T.keys)
    (canonical : Bytes) (sourceHash recipient : String) : Transaction RekeyResult := do
  transact
  transact
  let target ← lift ((Crypto.rekey A H canonical request.administratorIdentity
    [request.targetRecipient]).mapError .crypto)
  transact
  transact
  let artifactHash ← lift (hashCopy T.cache.digest target)
  let envelope ← lift (signedEnvelope T request.toDirectRequest sourceHash artifactHash recipient)
  transact
  let record ← storeArtifact (request.address sourceHash recipient) target envelope
  -- A racing writer won.
  if record.artifactCiphertextHash ≠ artifactHash then
    lift (authenticateRecord T record request sourceHash recipient true)
  else lift (authenticateRecord T record request sourceHash recipient false)

/-- `rekey`. -/
def rekey (T : Tools) (A : Crypto.Age) (H : Crypto.Host) (request : RekeyRequest T.keys) :
    Transaction RekeyResult := do
  let (canonical, sourceHash) ← copyCanonical T request.source
  let recipient ← lift (fingerprint T request.targetRecipient)
  let address := request.address sourceHash recipient
  lift (address.validate.mapError .cache)
  match ← loadArtifact address with
  | some record => lift (authenticateRecord T record request sourceHash recipient true)
  | none => rekeyMissing T A H request canonical sourceHash recipient

/-- The part of `stage_direct` after no record was found. -/
def stageMissing (T : Tools) (request : DirectRequest T.keys) (canonical : Bytes)
    (sourceHash artifactHash recipient : String) : Transaction RekeyResult := do
  let envelope ← lift (signedEnvelope T request sourceHash artifactHash recipient)
  transact
  let record ← storeArtifact (request.address sourceHash recipient) canonical envelope
  lift (authenticateDirectRecord T record request sourceHash recipient false)

/-- `stage_direct`. -/
def stageDirect (T : Tools) (request : DirectRequest T.keys) : Transaction RekeyResult := do
  let (canonical, sourceHash) ← copyCanonical T request.source
  lift ((Crypto.validateCiphertextHeader T.newDecryptor canonical).mapError .crypto)
  transact
  let artifactHash ← lift (hashCopy T.cache.digest canonical)
  let recipient ← lift (fingerprint T request.targetRecipient)
  let address := request.address sourceHash recipient
  lift (address.validate.mapError .cache)
  match ← loadArtifact address with
  | some record => lift (authenticateDirectRecord T record request sourceHash recipient true)
  | none => stageMissing T request canonical sourceHash artifactHash recipient

/-! ## What the parts check -/

/-- The envelope of a record is approved by the key of a request alone, for what it asks. -/
def Approved (T : Tools) (request : DirectRequest T.keys)
    (sourceHash artifactHash fingerprint : String) (envelope : Bytes) : Prop :=
  ∃ signed encoded inserted verified, T.envelopeFromJson envelope = some signed ∧
    request.signingKey.encodePublic = .ok encoded ∧
    TrustedKeys.empty.insertEncoded encoded = .ok inserted ∧
    verify T.keys signed inserted.1 1 (request.binding sourceHash artifactHash fingerprint) =
      .ok verified

section Parts

variable {T : Tools}

theorem authenticateDirectRecord_eq_ok {record : ArtifactRecord} {request : DirectRequest T.keys}
    {sourceHash fingerprint : String} {reused : Bool} {result : RekeyResult} :
    authenticateDirectRecord T record request sourceHash fingerprint reused = .ok result ↔
      Approved T request sourceHash record.artifactCiphertextHash fingerprint record.envelope ∧
        result = ⟨record.key, sourceHash, record.artifactCiphertextHash, fingerprint,
          record.ciphertextPath, reused⟩ := by
  unfold authenticateDirectRecord Approved
  cases parsed : T.envelopeFromJson record.envelope with
  | none => simp
  | some signed =>
      simp only [Fallible.bind_eq_ok, Fallible.mapError_eq_ok, Option.some.injEq, Except.ok.injEq]
      constructor
      · rintro ⟨encoded, published, inserted, trusts, verified, accepted, rfl⟩
        exact ⟨⟨signed, encoded, inserted, verified, rfl, published, trusts, accepted⟩, rfl⟩
      · rintro ⟨⟨_, encoded, inserted, verified, rfl, published, trusts, accepted⟩, rfl⟩
        exact ⟨encoded, published, inserted, trusts, verified, accepted, rfl⟩

theorem fingerprint_eq_ok {recipient found : String} :
    fingerprint T recipient = .ok found ↔
      Selection.recipientFingerprint T.toTools recipient = some found := by
  unfold fingerprint
  cases Selection.recipientFingerprint T.toTools recipient with
  | none => simp
  | some known => simp

theorem hashCopy_eq_ok {digest : Bytes → String} {bytes : Bytes} {hash : String} :
    hashCopy digest bytes = .ok hash ↔
      bytes.length ≤ maxCiphertextBytes.toNat ∧ digest bytes = hash := by
  rw [hashCopy, Fallible.guard_eq_ok, not_lt, Except.ok.injEq]

/-- The hash of a copy is the one that the loops of the copies compute, however the file is read. -/
theorem hashCopy_eq_copyAndHashBounded {σ : Type} (source : SplitReads.Source UInt8 σ) (input : σ)
    (D : SplitReads.Digest UInt8 String) :
    hashCopy D.digest (source.rest input) =
      (copyAndHashBounded (reader source) appending input [] maxCiphertextBytes D).1.mapError
        .copy := by
  rw [copyAndHashBounded_eq, SplitReads.bounded, hashCopy]
  by_cases fits : (source.rest input).length ≤ maxCiphertextBytes.toNat
  · rw [if_pos fits, if_neg (not_lt.mpr fits)]
    rfl
  · rw [if_neg fits, if_pos (not_le.mp fits)]
    rfl

end Parts

/-! ## Alone with a cache -/

/-- The source of a request, and the key of its artifact. -/
structure Addressed (T : Tools) (request : DirectRequest T.keys) (canonical : Bytes)
    (sourceHash recipient key : String) : Prop where
  opened : openRegularNofollow request.source = .ok canonical
  hashed : hashCopy T.sha256 canonical = .ok sourceHash
  computed : fingerprint T request.targetRecipient = .ok recipient
  addressed : (request.address sourceHash recipient).key T.cache = .ok key

section Alone

variable {T : Tools} {env : Environment} {root after : Root} {contents : Contents}
  {settled tidy : Bool} {address : ArtifactAddress} {canonical : Bytes}
  {sourceHash recipient key : String}

theorem run_transact_bind {α : Type} (next : Unit → Transaction α) :
    (transact >>= next).run (answer env) root = (next ()).run (answer env) root :=
  rfl

theorem run_copyCanonical (source : Except IoKind Leaf) :
    (copyCanonical T source).run (answer env) root =
      (openRegularNofollow source >>= fun bytes =>
        (hashCopy T.sha256 bytes).map fun hash => (bytes, hash), root) := by
  unfold copyCanonical
  simp only [run_transact_bind]
  cases openRegularNofollow source with
  | error error => rfl
  | ok bytes =>
      simp only [lift_ok_bind, run_transact_bind, Fallible.ok_bind]
      cases hashCopy T.sha256 bytes with
      | error error => rfl
      | ok hash => rfl

theorem run_loadArtifact (holds : Holds env settled tidy root contents)
    (addressed : address.key env = .ok key) :
    (loadArtifact address).run (answer env) root =
      (.ok (contents.artifacts[key]?.map (Contents.record env key)), root) := by
  rw [loadArtifact, run_bind, Asking.run_loadArtifact, holds.shows.loadArtifact_eq, addressed]
  rfl

/-- A bundle under a new key is stored, or refused and nothing changes. -/
theorem run_storeArtifact (holds : Holds env settled tidy root contents)
    (addressed : address.key env = .ok key) (absent : contents.artifacts[key]? = none)
    (ciphertext envelope : Bytes) :
    ∃ after, match contents.refusal key ⟨ciphertext, envelope⟩ with
      | none => (storeArtifact address ciphertext envelope).run (answer env) root =
            (.ok (Contents.record env key ⟨ciphertext, envelope⟩), after) ∧
          Holds env settled tidy after (contents.putArtifact key ⟨ciphertext, envelope⟩)
      | some error => (storeArtifact address ciphertext envelope).run (answer env) root =
            (.error (.cache error), after) ∧ Holds env settled tidy after contents := by
  have steady : Steady fun _ : Cache.Step => Faulty.Verdict.pass := Steady.of_pass fun _ => rfl
  have met := putArtifact_meets steady (.inr (by simp)) holds address ciphertext envelope
  rw [storeArtifact, run_bind, Asking.run_putArtifact]
  rcases met.passing with
    ⟨record, after, ended, same, found, accepted, rfl, held⟩ | ⟨error, after, ended, held, refused⟩
  · obtain rfl := Except.ok.inj (addressed.symm.trans found)
    rw [ended, accepted]
    exact ⟨after, rfl, held⟩
  · rcases refused with failed | ⟨same, found, refused⟩
    · rw [addressed] at failed
      cases failed
    · obtain rfl := Except.ok.inj (addressed.symm.trans found)
      have other : error ≠ .artifactExists := by
        rintro rfl
        unfold Contents.refusal at refused
        grind
      rw [ended, refused]
      refine ⟨after, ?_, held⟩
      cases error with
      | artifactExists => exact absurd rfl other
      | _ => rfl

/-- What follows a bundle under a new key. -/
theorem run_storeArtifact_bind {α : Type} (holds : Holds env settled tidy root contents)
    (addressed : address.key env = .ok key) (absent : contents.artifacts[key]? = none)
    (ciphertext envelope : Bytes) (next : ArtifactRecord → Transaction α) :
    ∃ after, match contents.refusal key ⟨ciphertext, envelope⟩ with
      | none => (storeArtifact address ciphertext envelope >>= next).run (answer env) root =
            (next (Contents.record env key ⟨ciphertext, envelope⟩)).run (answer env) after ∧
          Holds env settled tidy after (contents.putArtifact key ⟨ciphertext, envelope⟩)
      | some error => (storeArtifact address ciphertext envelope >>= next).run (answer env) root =
            (.error (.cache error), after) ∧ Holds env settled tidy after contents := by
  obtain ⟨after, stored⟩ := run_storeArtifact holds addressed absent ciphertext envelope
  refine ⟨after, ?_⟩
  cases refused : contents.refusal key ⟨ciphertext, envelope⟩ with
  | none =>
      rw [refused] at stored
      exact ⟨run_bind_ok stored.1 next, stored.2⟩
  | some error =>
      rw [refused] at stored
      exact ⟨by rw [run_bind, stored.1], stored.2⟩

theorem Addressed.validate {request : DirectRequest T.keys}
    (addressed : Addressed T request canonical sourceHash recipient key) :
    (request.address sourceHash recipient).validate = .ok () := by
  obtain ⟨⟨⟩, valid, -⟩ := Fallible.bind_eq_ok.mp addressed.addressed
  exact valid

/-- A direct delivery looks for the artifact of its request and goes on with what it finds. -/
theorem run_stageDirect {request : DirectRequest T.keys}
    (addressed : Addressed T request canonical sourceHash recipient key)
    (header : Crypto.validateCiphertextHeader T.newDecryptor canonical = .ok ())
    (holds : Holds T.cache settled tidy root contents) :
    (stageDirect T request).run (answer T.cache) root =
      match contents.artifacts[key]? with
      | some bundle => (authenticateDirectRecord T (Contents.record T.cache key bundle) request
          sourceHash recipient true, root)
      | none => (stageMissing T request canonical sourceHash (T.cache.digest canonical)
          recipient).run (answer T.cache) root := by
  have copied : (copyCanonical T request.source).run (answer T.cache) root =
      (.ok (canonical, sourceHash), root) := by
    rw [run_copyCanonical, addressed.opened, Fallible.ok_bind, addressed.hashed, Except.map]
  have valid : (request.address sourceHash recipient).validate.mapError TransactionError.cache =
      .ok () := Fallible.mapError_eq_ok.mpr addressed.validate
  have accepted : (Crypto.validateCiphertextHeader T.newDecryptor canonical).mapError
      TransactionError.crypto = .ok () := Fallible.mapError_eq_ok.mpr header
  have committed : hashCopy T.cache.digest canonical = .ok (T.cache.digest canonical) :=
    hashCopy_eq_ok.mpr ⟨(hashCopy_eq_ok.mp addressed.hashed).1, rfl⟩
  unfold stageDirect
  refine (run_bind_ok copied _).trans ?_
  refine (run_lift_bind accepted _).trans ?_
  refine (run_lift_bind committed _).trans ?_
  refine (run_lift_bind addressed.computed _).trans ?_
  refine (run_lift_bind valid _).trans ?_
  refine (run_bind_ok (run_loadArtifact holds addressed.addressed) _).trans ?_
  cases contents.artifacts[key]? with
  | none => rfl
  | some bundle => rfl

/-- A bundle that is new and accepted is stored and authenticated. -/
theorem run_stageMissing {request : DirectRequest T.keys} {envelope : Bytes}
    (addressed : Addressed T request canonical sourceHash recipient key)
    (holds : Holds T.cache settled tidy root contents)
    (absent : contents.artifacts[key]? = none)
    (signed : signedEnvelope T request sourceHash (T.cache.digest canonical) recipient =
      .ok envelope)
    (accepted : contents.refusal key ⟨canonical, envelope⟩ = none) :
    ∃ after, (stageMissing T request canonical sourceHash (T.cache.digest canonical)
        recipient).run (answer T.cache) root =
          (authenticateDirectRecord T (Contents.record T.cache key ⟨canonical, envelope⟩) request
            sourceHash recipient false, after) ∧
      Holds T.cache settled tidy after (contents.putArtifact key ⟨canonical, envelope⟩) := by
  obtain ⟨after, stored⟩ := run_storeArtifact_bind holds addressed.addressed absent canonical
    envelope fun record =>
      lift (authenticateDirectRecord T record request sourceHash recipient false)
  rw [accepted] at stored
  refine ⟨after, ?_, stored.2⟩
  unfold stageMissing
  refine (run_lift_bind signed _).trans ?_
  exact (run_transact_bind _).trans stored.1

end Alone

end NixSeal.Rekey
