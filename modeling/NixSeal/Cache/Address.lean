import NixSeal.Cache.Read
import NixSeal.Lib.Fallible
import NixSeal.Lib.Framing
import NixSeal.Lib.Words
import NixSeal.Manifest.Envelope

/-!
# Addresses of artifacts

The key of an artifact is a hash over its six address fields.  What is hashed tells the fields, and
the identifiers of a plan are accepted as fields.
-/

namespace NixSeal.Cache

open Framing

namespace ArtifactAddress

/-- The texts of an address, behind the name of the format. -/
def fields (address : ArtifactAddress) : List String :=
  [artifactFormat, address.artifactPolicyHash, address.sourceCiphertextHash,
    address.recipientFingerprint, address.targetId, address.secretId]

/-- The octets hashed by `ArtifactAddress::key`. -/
def preimage (address : ArtifactAddress) : Bytes :=
  utf8 "nix-seal.cache-address.v3\x00" ++
    address.fields.flatMap (fun field => beU64 field.utf8ByteSize ++ utf8 field) ++
      beU64 address.artifactGeneration.toNat

theorem key_eq (env : Environment) (address : ArtifactAddress) :
    address.key env = address.validate.map fun _ => env.digest address.preimage := by
  unfold key
  cases address.validate with
  | error error => rfl
  | ok checked => rfl

/-- The lengths of the identifiers are machine words, as those of all texts in memory are. -/
structure Sized (address : ArtifactAddress) : Prop where
  targetId : address.targetId.utf8ByteSize < 2 ^ 64
  secretId : address.secretId.utf8ByteSize < 2 ^ 64

theorem validate_eq_ok_iff {address : ArtifactAddress} :
    address.validate = .ok () ↔
      isDigest address.artifactPolicyHash = true ∧ isDigest address.sourceCiphertextHash = true ∧
        isDigest address.recipientFingerprint = true ∧ isId address.targetId = true ∧
          isId address.secretId = true ∧ 0 < address.artifactGeneration := by
  unfold validate
  split
  · rename_i accepted
    simpa [and_assoc] using accepted
  · rename_i refused
    simpa [and_assoc] using refused

end ArtifactAddress

section Preimages

variable {left right : ArtifactAddress}

theorem beU64_eq (value : Nat) : beU64 value = bigEndian 8 value := by
  simp [beU64, bigEndian, List.range_succ, Nat.div_div_eq_div_mul]

theorem selfDelimiting_field :
    SelfDelimiting (fun field : String => field.utf8ByteSize < 2 ^ 64)
      fun field => beU64 field.utf8ByteSize ++ utf8 field := by
  intro first second fits fits' rest rest' same
  have framed := (selfDelimiting_bigEndian 8).frame
  have frames : ∀ field : String,
      beU64 field.utf8ByteSize ++ utf8 field = frame (bigEndian 8) (utf8 field) := by
    intro field
    rw [beU64_eq, frame, length_utf8]
  simp only [frames] at same
  rw [← length_utf8] at fits fits'
  obtain ⟨texts, rests⟩ := framed fits fits' same
  exact ⟨utf8_injective texts, rests⟩

theorem utf8ByteSize_of_isDigest {value : String} (digest : isDigest value = true) :
    value.utf8ByteSize < 2 ^ 64 := by
  simp only [isDigest, Bool.and_eq_true, beq_iff_eq] at digest
  rw [digest.1]
  norm_num

theorem ArtifactAddress.Sized.fields {address : ArtifactAddress} (sized : address.Sized)
    (valid : address.validate = .ok ()) :
    ∀ field ∈ address.fields, field.utf8ByteSize < 2 ^ 64 := by
  obtain ⟨policy, source, recipient, -, -, -⟩ := ArtifactAddress.validate_eq_ok_iff.mp valid
  have format : artifactFormat.utf8ByteSize < 2 ^ 64 := by decide
  simp only [ArtifactAddress.fields, List.forall_mem_cons, List.not_mem_nil, false_implies,
    implies_true, and_true]
  exact ⟨format, utf8ByteSize_of_isDigest policy, utf8ByteSize_of_isDigest source,
    utf8ByteSize_of_isDigest recipient, sized.targetId, sized.secretId⟩

/-- What is hashed tells the address. -/
theorem eq_of_preimage_eq (valid : left.validate = .ok ()) (valid' : right.validate = .ok ())
    (sized : left.Sized) (sized' : right.Sized) (same : left.preimage = right.preimage) :
    left = right := by
  unfold ArtifactAddress.preimage at same
  rw [List.append_assoc, List.append_assoc, List.append_cancel_left_eq] at same
  obtain ⟨fields, generations⟩ := selfDelimiting_field.flatMap
    (show left.fields.length = right.fields.length from rfl) (sized.fields valid)
    (sized'.fields valid') same
  rw [beU64_eq, beU64_eq] at generations
  have generation : left.artifactGeneration = right.artifactGeneration :=
    UInt64.toNat_inj.mp ((selfDelimiting_bigEndian 8).unique
      left.artifactGeneration.toNat_lt right.artifactGeneration.toNat_lt generations)
  simp only [ArtifactAddress.fields, List.cons.injEq, true_and, and_true] at fields
  obtain ⟨policies, sources, recipients, targets, secrets⟩ := fields
  cases left
  cases right
  simp only at policies sources recipients targets secrets generation
  subst policies sources recipients targets secrets generation
  rfl

end Preimages

section Identifiers

theorem infix_of_mem_splitOn {separator : Char} {text part : List Char}
    (member : part ∈ text.splitOn separator) : part <:+: text := by
  have joined := Words.infix_intercalate [separator] member
  rwa [List.intercalate_splitOn] at joined

/-- The identifiers of a plan are identifiers of the cache. -/
theorem isId_of_accepts {value : String} (accepted : Id.accepts value = true) :
    isId value = true := by
  simp only [Id.accepts, Bool.and_eq_true, Bool.not_eq_true', Bool.or_eq_false_iff,
    List.any_eq_false, Bool.not_eq_false', List.all_eq_true] at accepted
  obtain ⟨⟨⟨nonempty, relative⟩, descends⟩, parts, grammar⟩ := accepted
  simp only [isId, Bool.and_eq_true, Bool.not_eq_true', List.all_eq_true]
  refine ⟨⟨nonempty, relative⟩, fun segment member => ?_⟩
  have inside : segment <:+: value.toList := infix_of_mem_splitOn member
  have plain : '/' ∉ segment := fun slash => by
    simpa using Words.solid_of_mem_splitOnP member '/' slash
  have named := parts segment member
  rw [Bool.or_eq_true, not_or] at named
  have above : segment ≠ ['.', '.'] := by
    rintro rfl
    rw [containsText, decide_eq_false_iff_not] at descends
    exact descends inside
  refine ⟨⟨⟨by simpa using named.1, by simpa using named.2⟩, by simpa using above⟩,
    fun char found => ?_⟩
  have allowed := grammar char (inside.subset found)
  have different : char ≠ '/' := fun same => plain (same ▸ found)
  simp only [Bool.or_eq_true, beq_iff_eq] at allowed ⊢
  tauto

theorem isId_of_parse {value : String} {id : Id} (parsed : Id.parse value = .ok id) :
    isId value = true := by
  unfold Id.parse at parsed
  split at parsed
  · rename_i accepted
    exact isId_of_accepts accepted
  · cases parsed

end Identifiers

section Bindings

open Manifest

/-- The address that a manifest binds. -/
def boundAddress (manifest : TargetManifest) : ArtifactAddress where
  artifactPolicyHash := manifest.artifactPolicyHash
  sourceCiphertextHash := manifest.sourceCiphertextHash
  recipientFingerprint := manifest.recipientFingerprint
  targetId := manifest.targetId.value
  secretId := manifest.secretId.value
  artifactGeneration := manifest.artifactGeneration

theorem validate_boundAddress {manifest : TargetManifest}
    (structured : validateManifestStructure manifest = .ok ()) :
    (boundAddress manifest).validate = .ok () := by
  unfold validateManifestStructure at structured
  obtain ⟨_, structured⟩ := Fallible.guard_eq_ok.mp structured
  obtain ⟨digests, _⟩ := Fallible.guard_eq_ok.mp structured
  simp only [Bool.or_eq_true, Bool.not_eq_true', not_or, Bool.not_eq_false, beq_iff_eq] at digests
  obtain ⟨⟨⟨⟨⟨⟨_, _⟩, policy⟩, source⟩, _⟩, recipient⟩, generation⟩ := digests
  exact ArtifactAddress.validate_eq_ok_iff.mpr ⟨policy, source, recipient,
    isId_of_accepts manifest.targetId.accepted, isId_of_accepts manifest.secretId.accepted,
    UInt64.pos_iff_ne_zero.mpr generation⟩

/-- What is hashed tells a validated address, every identifier is accepted in one, and two
addresses with one key are the same unless two texts have one hash. -/
theorem addresses_injective (env : Environment) :
    (∀ address : ArtifactAddress,
      address.key env = address.validate.map fun _ => env.digest address.preimage) ∧
      (∀ left right : ArtifactAddress, left.validate = .ok () → right.validate = .ok () →
        left.Sized → right.Sized → (left.preimage = right.preimage ↔ left = right)) ∧
      (∀ (value : String) (id : Id), Id.parse value = .ok id → isId value = true) ∧
      (∀ manifest : TargetManifest, validateManifestStructure manifest = .ok () →
        ∃ key, (boundAddress manifest).key env = .ok key) ∧
      ∀ (left right : ArtifactAddress) (key : String), left.Sized → right.Sized →
        (env.digest left.preimage = env.digest right.preimage → left.preimage = right.preimage) →
          left.key env = .ok key → right.key env = .ok key → left = right := by
  refine ⟨ArtifactAddress.key_eq env, fun left right valid valid' sized sized' => ?_,
    fun _ _ => isId_of_parse, fun manifest structured => ?_, ?_⟩
  · exact ⟨eq_of_preimage_eq valid valid' sized sized', fun same => same ▸ rfl⟩
  · rw [ArtifactAddress.key_eq, validate_boundAddress structured]
    exact ⟨_, rfl⟩
  · intro left right key sized sized' collisionFree first second
    rw [ArtifactAddress.key_eq] at first second
    cases valid : left.validate with
    | error error => simp [valid, Except.map] at first
    | ok checked =>
        cases valid' : right.validate with
        | error error => simp [valid', Except.map] at second
        | ok checked' =>
            rw [valid, Except.map, Except.ok.injEq] at first
            rw [valid', Except.map, Except.ok.injEq] at second
            exact eq_of_preimage_eq valid valid' sized sized' (collisionFree (first.trans second.symm))

end Bindings

end NixSeal.Cache
