import NixSeal.Cache.Read
import NixSeal.Lib.Fallible
import NixSeal.Lib.Ordered
import Std.Data.TreeMap

/-!
# What a cache holds

The meaning of the files of a cache: a map from digests to objects and a map from address keys to
bundles.  `Shows` relates a root to the contents it stores; the reading functions are determined by
the contents, and what they accept is exactly a private file or bundle.
-/

namespace NixSeal.Cache

open Fallible

/-- A target ciphertext with its signed envelope. -/
structure Bundle where
  ciphertext : Bytes
  envelope : Bytes
  deriving DecidableEq, Repr

/-- The two maps a cache stores. -/
structure Contents where
  objects : Std.TreeMap String Bytes compare
  artifacts : Std.TreeMap String Bundle compare

/-- Contents a cache can hold: objects stand under their digest, and nothing exceeds its limit. -/
structure Contents.Valid (env : Environment) (contents : Contents) : Prop where
  object : ∀ (digest : String) (bytes : Bytes), contents.objects[digest]? = some bytes →
    env.digest bytes = digest ∧ bytes.length ≤ maxCiphertextBytes
  artifact : ∀ (key : String) (bundle : Bundle), contents.artifacts[key]? = some bundle →
    isDigest key = true ∧ bundle.ciphertext.length ≤ maxCiphertextBytes ∧
      bundle.envelope.length ≤ maxEnvelopeBytes

/-- Metadata a cache accepts, apart from the link count of a file. -/
def Status.Admissible (env : Environment) (requireOwner : Bool) (status : Status) : Prop :=
  status.isPrivate ∧ (requireOwner = true → status.owner = env.user)

/-- A private regular file with the given bytes. -/
def IsFile (env : Environment) (requireOwner : Bool) (bytes : Bytes) (node : Leaf) : Prop :=
  ∃ status, node = .file status bytes ∧ status.Admissible env requireOwner ∧ status.links = 1

/-- A private directory with exactly the two files of a bundle. -/
def IsBundle (env : Environment) (requireOwner : Bool) (bundle : Bundle) (node : Node Leaf) :
    Prop :=
  ∃ status entries ciphertext envelope,
    node = .directory status entries ∧ status.Admissible env requireOwner ∧
      (∀ name, name ∈ entries ↔ name = .text ciphertextName ∨ name = .text envelopeName) ∧
        entries.lookup (.text ciphertextName) = some ciphertext ∧
          IsFile env requireOwner bundle.ciphertext ciphertext ∧
            entries.lookup (.text envelopeName) = some envelope ∧
              IsFile env requireOwner bundle.envelope envelope

/-- The bundle found under a key and accepted, with the bounds the crate checks. -/
def HasBundle (env : Environment) (cache : Cache) (key : String) (bundle : Bundle) : Prop :=
  isDigest key = true ∧ (∃ node, cache.bundleDirectory key = .ok node ∧
    IsBundle env cache.requireOwner bundle node) ∧
      bundle.ciphertext.length ≤ maxCiphertextBytes ∧ bundle.envelope.length ≤ maxEnvelopeBytes

section Checks

variable {env : Environment} {requireOwner : Bool}

theorem validatePrivateMetadata_directory_iff {metadata : Metadata} :
    validatePrivateMetadata env metadata true requireOwner = .ok () ↔
      metadata.kind = .directory ∧ metadata.status.Admissible env requireOwner := by
  unfold validatePrivateMetadata Status.Admissible
  rw [guard_eq_ok, guard_eq_ok]
  simp
  tauto

theorem validatePrivateMetadata_file_iff {metadata : Metadata} :
    validatePrivateMetadata env metadata false requireOwner = .ok () ↔
      metadata.kind = .file ∧ metadata.status.Admissible env requireOwner ∧
        metadata.status.links = 1 := by
  unfold validatePrivateMetadata Status.Admissible
  rw [guard_eq_ok, guard_eq_ok]
  simp
  tauto

theorem metadata_kind_file {α : Type} {node : Node α} (kind : node.metadata.kind = .file) :
    ∃ status bytes, node = .file status bytes := by
  cases node with
  | file status bytes => exact ⟨status, bytes, rfl⟩
  | directory status entries => cases kind
  | symlink target => cases kind
  | dangling => cases kind
  | special status => cases kind

theorem metadata_kind_directory {α : Type} {node : Node α}
    (kind : node.metadata.kind = .directory) : ∃ status entries, node = .directory status entries := by
  cases node with
  | file status bytes => cases kind
  | directory status entries => exact ⟨status, entries, rfl⟩
  | symlink target => cases kind
  | dangling => cases kind
  | special status => cases kind

theorem openPrivateRegular_eq_ok_iff {file : Except IoKind Leaf} {bytes : Bytes} :
    openPrivateRegular env requireOwner file = .ok bytes ↔
      ∃ node, file = .ok node ∧ IsFile env requireOwner bytes node := by
  constructor
  · intro opened
    match file, opened with
    | .ok (.file status found), opened =>
        simp only [openPrivateRegular] at opened
        obtain ⟨accepted, same⟩ := guard_eq_ok.mp opened
        cases same
        simp only [not_or, not_and, not_not, ne_eq] at accepted
        exact ⟨_, rfl, status, rfl, ⟨accepted.2.2, accepted.2.1⟩, accepted.1⟩
  · rintro ⟨_, rfl, status, rfl, ⟨restricted, owned⟩, links⟩
    simp only [openPrivateRegular]
    refine guard_eq_ok.mpr ⟨?_, rfl⟩
    simp only [not_or, not_and, not_not, ne_eq]
    exact ⟨links, owned, restricted⟩

theorem readBounded_eq_ok_iff {file bytes : Bytes} {limit : Nat} :
    readBounded file limit = .ok bytes ↔ file = bytes ∧ bytes.length ≤ limit := by
  unfold readBounded
  rw [guard_eq_ok]
  constructor
  · rintro ⟨fits, same⟩
    cases same
    exact ⟨rfl, by omega⟩
  · rintro ⟨rfl, fits⟩
    exact ⟨by omega, rfl⟩

theorem hashBounded_eq_ok_iff {bytes : Bytes} {limit : Nat} {hash : String} :
    hashBounded env bytes limit = .ok hash ↔ env.digest bytes = hash ∧ bytes.length ≤ limit := by
  unfold hashBounded
  rw [guard_eq_ok]
  constructor
  · rintro ⟨fits, same⟩
    cases same
    exact ⟨rfl, by omega⟩
  · rintro ⟨rfl, fits⟩
    exact ⟨by omega, rfl⟩

theorem checkedAdd_eq_ok_iff {total additional result : Nat} :
    checkedAdd total additional = .ok result ↔ result = total + additional ∧ result < 2 ^ 64 := by
  unfold checkedAdd
  by_cases fits : total + additional < 2 ^ 64
  · rw [if_pos fits]
    constructor
    · intro same
      cases same
      exact ⟨rfl, fits⟩
    · rintro ⟨rfl, _⟩
      rfl
  · rw [if_neg fits]
    constructor
    · intro same
      cases same
    · rintro ⟨rfl, bound⟩
      exact absurd bound fits

theorem checkedTransferBytes_eq_ok_iff {total additional result : Nat} :
    checkedTransferBytes total additional = .ok result ↔
      result = total + additional ∧ result ≤ maxTransferBytes := by
  unfold checkedTransferBytes
  rw [bind_eq_ok]
  constructor
  · rintro ⟨sum, added, checked⟩
    obtain ⟨fits, same⟩ := guard_eq_ok.mp checked
    cases same
    exact ⟨(checkedAdd_eq_ok_iff.mp added).1, by omega⟩
  · rintro ⟨rfl, bound⟩
    have small : maxTransferBytes < 2 ^ 64 := by decide
    refine ⟨total + additional, checkedAdd_eq_ok_iff.mpr ⟨rfl, by omega⟩, ?_⟩
    exact guard_eq_ok.mpr ⟨by omega, rfl⟩

theorem enforceTransferEntryLimit_eq_ok_iff {objects artifacts : Nat} :
    enforceTransferEntryLimit objects artifacts = .ok () ↔
      objects + artifacts ≤ maxTransferEntries := by
  unfold enforceTransferEntryLimit
  rw [bind_eq_ok]
  constructor
  · rintro ⟨sum, added, checked⟩
    obtain ⟨fits, _⟩ := guard_eq_ok.mp checked
    have total := (checkedAdd_eq_ok_iff.mp added).1
    omega
  · intro bound
    have small : maxTransferEntries < 2 ^ 64 := by decide
    refine ⟨objects + artifacts, checkedAdd_eq_ok_iff.mpr ⟨rfl, by omega⟩, ?_⟩
    exact guard_eq_ok.mpr ⟨by omega, rfl⟩

theorem digestName_eq_ok_iff {name : FileName} {text : String} :
    digestName name = .ok text ↔ name = .text text ∧ isDigest text = true := by
  cases name with
  | raw bytes => simp [digestName, FileName.toStr]
  | text found =>
      by_cases digest : isDigest found
      · simp only [digestName, FileName.toStr, digest, if_true, Except.ok.injEq,
          FileName.text.injEq]
        constructor
        · rintro rfl
          exact ⟨rfl, digest⟩
        · exact fun same => same.1
      · simp only [digestName, FileName.toStr, digest]
        simp
        rintro rfl
        simpa using digest

end Checks

section Reads

variable {env : Environment} {cache : Cache}

theorem fileLength_eq_ok_iff {file : Except IoKind Leaf} {length : Nat} :
    cache.fileLength env file = .ok length ↔
      ∃ node bytes, file = .ok node ∧ IsFile env cache.requireOwner bytes node ∧
        length = bytes.length := by
  cases file with
  | error kind => simp [fileLength]
  | ok node =>
      simp only [fileLength, validatePrivate]
      rw [bind_eq_ok]
      constructor
      · rintro ⟨_, checked, same⟩
        obtain ⟨kind, admissible, links⟩ := validatePrivateMetadata_file_iff.mp checked
        obtain ⟨status, bytes, rfl⟩ := metadata_kind_file kind
        cases same
        exact ⟨_, bytes, rfl, ⟨status, rfl, admissible, links⟩, rfl⟩
      · rintro ⟨found, bytes, same, ⟨status, rfl, admissible, links⟩, rfl⟩
        cases same
        exact ⟨(), validatePrivateMetadata_file_iff.mpr ⟨rfl, admissible, links⟩, rfl⟩

theorem get_eq_ok_iff {digest : String} {bytes : Bytes} :
    cache.get env digest = .ok bytes ↔
      isHexDigest digest = true ∧ (∃ node, cache.objectFile digest = .ok node ∧
        IsFile env cache.requireOwner bytes node) ∧ bytes.length ≤ maxCiphertextBytes ∧
          env.digest bytes = digest := by
  unfold get
  rw [guard_eq_ok, Bool.not_eq_true', Bool.not_eq_false, bind_eq_ok]
  constructor
  · rintro ⟨hex, file, opened, bounded⟩
    obtain ⟨found, read, checked⟩ := bind_eq_ok.mp bounded
    obtain ⟨hashed, same⟩ := guard_eq_ok.mp checked
    obtain ⟨rfl, fits⟩ := readBounded_eq_ok_iff.mp read
    cases same
    exact ⟨hex, openPrivateRegular_eq_ok_iff.mp opened, fits, not_not.mp hashed⟩
  · rintro ⟨hex, found, fits, hashed⟩
    refine ⟨hex, bytes, openPrivateRegular_eq_ok_iff.mpr found, ?_⟩
    rw [readBounded_eq_ok_iff.mpr ⟨rfl, fits⟩, ok_bind]
    exact guard_eq_ok.mpr ⟨not_not.mpr hashed, rfl⟩

theorem child_directory_eq_ok_iff {α : Type} {status : Status} {entries : Folder α}
    {name : FileName} {node : α} :
    child (some (.directory status entries)) name = .ok node ↔ entries.lookup name = some node := by
  simp only [child, Node.entries]
  cases entries.lookup name with
  | none => simp [orNotFound]
  | some found => simp [orNotFound]

theorem bundleNames_eq_ok {key : String} {entries : Folder Leaf}
    {names : Std.TreeSet String compare} (collected : bundleNames env key entries = .ok names) :
    (∀ name ∈ entries, ∃ text, name = .text text) ∧
      ∀ text, text ∈ names ↔ FileName.text text ∈ entries := by
  unfold bundleNames at collected
  have general : ∀ (remaining : List FileName) (start final : Std.TreeSet String compare),
      remaining.foldlM addBundleName start = .ok final →
      (∀ name ∈ remaining, ∃ text, name = .text text) ∧
        ∀ text, text ∈ final ↔ text ∈ start ∨ FileName.text text ∈ remaining := by
    intro remaining
    induction remaining with
    | nil =>
        intro start final folded
        cases folded
        simp
    | cons name rest ih =>
        intro start final folded
        rw [List.foldlM_cons] at folded
        obtain ⟨next, stepped, folded⟩ := bind_eq_ok.mp folded
        obtain ⟨texts, members⟩ := ih next final folded
        cases name with
        | raw bytes => cases stepped
        | text found =>
            cases stepped
            refine ⟨?_, fun text => ?_⟩
            · intro name member
              rcases List.mem_cons.mp member with rfl | member
              · exact ⟨found, rfl⟩
              · exact texts name member
            · rw [members text, Std.TreeSet.mem_insert, Std.LawfulEqCmp.compare_eq_iff_eq,
                List.mem_cons, FileName.text.injEq]
              constructor
              · rintro ((rfl | started) | later)
                · exact .inr (.inl rfl)
                · exact .inl started
                · exact .inr (.inr later)
              · rintro (started | rfl | later)
                · exact .inl (.inr started)
                · exact .inl (.inl rfl)
                · exact .inr later
  obtain ⟨texts, members⟩ := general _ _ _ collected
  have listed := env.listing_perm (.bundle key) entries.keys
  refine ⟨fun name member => texts name (listed.mem_iff.mpr (AList.mem_keys.mp member)), ?_⟩
  intro text
  rw [members text, listed.mem_iff, AList.mem_keys]
  simp

theorem bundleNames_of_texts {key : String} {entries : Folder Leaf}
    (texts : ∀ name ∈ entries, ∃ text, name = .text text) :
    ∃ names, bundleNames env key entries = .ok names := by
  obtain ⟨names, folded, _⟩ : ∃ names,
      (env.listing (.bundle key) entries.keys).foldlM addBundleName ∅ = .ok names ∧ True := by
    refine foldlM_induction (fun _ _ => True) trivial fun _ name names member _ => ?_
    have listed := (env.listing_perm (.bundle key) entries.keys).mem_iff.mp member
    obtain ⟨text, rfl⟩ := texts name (AList.mem_keys.mpr listed)
    exact ⟨_, rfl, trivial⟩
  exact ⟨names, folded⟩

/-- A bundle is accepted by its names exactly when it has the two files of a bundle. -/
theorem bundleNames_toList_iff {key : String} {entries : Folder Leaf} :
    (∃ names, bundleNames env key entries = .ok names ∧
      names.toList = [ciphertextName, envelopeName]) ↔
      ∀ name, name ∈ entries ↔ name = .text ciphertextName ∨ name = .text envelopeName := by
  constructor
  · rintro ⟨names, collected, listed⟩ name
    obtain ⟨texts, members⟩ := bundleNames_eq_ok collected
    constructor
    · intro member
      obtain ⟨text, rfl⟩ := texts name member
      have found := Std.TreeSet.mem_toList.mpr ((members text).mpr member)
      rw [listed] at found
      simpa using found
    · intro either
      have inside : ∀ text ∈ [ciphertextName, envelopeName], FileName.text text ∈ entries := by
        intro text member
        rw [← listed] at member
        exact (members text).mp (Std.TreeSet.mem_toList.mp member)
      rcases either with rfl | rfl
      · exact inside _ (by simp)
      · exact inside _ (by simp)
  · intro exactly
    obtain ⟨names, collected⟩ : ∃ names, bundleNames env key entries = .ok names := by
      refine bundleNames_of_texts fun name member => ?_
      rcases (exactly name).mp member with rfl | rfl
      · exact ⟨_, rfl⟩
      · exact ⟨_, rfl⟩
    refine ⟨names, collected, ?_⟩
    refine Ordered.eq_of_mem_iff Std.TreeSet.ordered_toList (by decide) fun text => ?_
    rw [Std.TreeSet.mem_toList, (bundleNames_eq_ok collected).2 text, exactly]
    simp

theorem artifactLayout_eq_ok_iff {key : String} {lengths : Nat × Nat} :
    cache.artifactLayout env key = .ok lengths ↔
      ∃ bundle, HasBundle env cache key bundle ∧
        lengths = (bundle.ciphertext.length, bundle.envelope.length) := by
  unfold artifactLayout HasBundle
  rw [guard_eq_ok, Bool.not_eq_true', Bool.not_eq_false]
  cases found : cache.bundleDirectory key with
  | error kind => simp
  | ok node =>
      have inside : ∀ file, cache.bundleFile key file = child (some node) (.text file) := by
        intro file
        rw [bundleFile, found]
        rfl
      simp only [inside, validatePrivate]
      rw [bind_eq_ok]
      constructor
      · rintro ⟨digest, _, checked, rest⟩
        obtain ⟨kind, admissible⟩ := validatePrivateMetadata_directory_iff.mp checked
        obtain ⟨status, entries, rfl⟩ := metadata_kind_directory kind
        simp only [Node.entries, Except.mapError, ok_bind] at rest
        obtain ⟨names, collected, rest⟩ := bind_eq_ok.mp rest
        obtain ⟨listed, rest⟩ := guard_eq_ok.mp rest
        obtain ⟨ciphertextBytes, ciphertextRead, rest⟩ := bind_eq_ok.mp rest
        obtain ⟨envelopeBytes, envelopeRead, rest⟩ := bind_eq_ok.mp rest
        obtain ⟨bounded, same⟩ := guard_eq_ok.mp rest
        obtain ⟨ciphertext, c, inCiphertext, isCiphertext, rfl⟩ :=
          fileLength_eq_ok_iff.mp ciphertextRead
        obtain ⟨envelope, e, inEnvelope, isEnvelope, rfl⟩ := fileLength_eq_ok_iff.mp envelopeRead
        cases same
        rw [not_or, not_lt, not_lt] at bounded
        exact ⟨⟨c, e⟩, ⟨digest, ⟨_, rfl, status, entries, ciphertext, envelope, rfl, admissible,
          bundleNames_toList_iff.mp ⟨names, collected, not_not.mp listed⟩,
          child_directory_eq_ok_iff.mp inCiphertext, isCiphertext,
          child_directory_eq_ok_iff.mp inEnvelope, isEnvelope⟩, bounded⟩, rfl⟩
      · rintro ⟨bundle, ⟨digest, ⟨_, same, status, entries, ciphertext, envelope, rfl, admissible,
          exactly, inCiphertext, isCiphertext, inEnvelope, isEnvelope⟩, bounded⟩, rfl⟩
        cases same
        refine ⟨digest, (), validatePrivateMetadata_directory_iff.mpr ⟨rfl, admissible⟩, ?_⟩
        simp only [Node.entries, Except.mapError, ok_bind]
        obtain ⟨names, collected, listed⟩ := bundleNames_toList_iff.mpr exactly
        rw [collected, ok_bind]
        refine guard_eq_ok.mpr ⟨not_not.mpr listed, ?_⟩
        rw [fileLength_eq_ok_iff.mpr ⟨_, _, child_directory_eq_ok_iff.mpr inCiphertext,
          isCiphertext, rfl⟩, ok_bind, fileLength_eq_ok_iff.mpr
            ⟨_, _, child_directory_eq_ok_iff.mpr inEnvelope, isEnvelope, rfl⟩, ok_bind]
        refine guard_eq_ok.mpr ⟨?_, rfl⟩
        rw [not_or, not_lt, not_lt]
        exact bounded

theorem bundleFile_of_isBundle {key : String} {node : Node Leaf} {bundle : Bundle}
    (found : cache.bundleDirectory key = .ok node)
    (stored : IsBundle env cache.requireOwner bundle node) :
    (∃ file, cache.bundleFile key ciphertextName = .ok file ∧
      IsFile env cache.requireOwner bundle.ciphertext file) ∧
      ∃ file, cache.bundleFile key envelopeName = .ok file ∧
        IsFile env cache.requireOwner bundle.envelope file := by
  obtain ⟨status, entries, ciphertext, envelope, rfl, _, _, inCiphertext, isCiphertext, inEnvelope,
    isEnvelope⟩ := stored
  have inside : ∀ file, cache.bundleFile key file =
      child (some (.directory status entries)) (.text file) := by
    intro file
    rw [bundleFile, found]
    rfl
  rw [inside, inside]
  exact ⟨⟨ciphertext, child_directory_eq_ok_iff.mpr inCiphertext, isCiphertext⟩,
    envelope, child_directory_eq_ok_iff.mpr inEnvelope, isEnvelope⟩

theorem IsFile.unique {requireOwner : Bool} {left right : Bytes} {node : Leaf}
    (first : IsFile env requireOwner left node) (second : IsFile env requireOwner right node) :
    left = right := by
  obtain ⟨status, rfl, _⟩ := first
  obtain ⟨_, same, _⟩ := second
  cases same
  rfl

theorem loadArtifactByKey_eq_ok_iff {key : String} {record : ArtifactRecord} :
    cache.loadArtifactByKey env key = .ok record ↔
      ∃ bundle, HasBundle env cache key bundle ∧
        record = artifactRecord key (env.digest bundle.ciphertext) bundle.envelope := by
  unfold loadArtifactByKey
  rw [bind_eq_ok]
  constructor
  · rintro ⟨lengths, laidOut, rest⟩
    obtain ⟨bundle, ⟨digest, ⟨node, found, stored⟩, fitsCiphertext, fitsEnvelope⟩, rfl⟩ :=
      artifactLayout_eq_ok_iff.mp laidOut
    obtain ⟨⟨ciphertext, inCiphertext, isCiphertext⟩, envelope, inEnvelope, isEnvelope⟩ :=
      bundleFile_of_isBundle found stored
    rw [openPrivateRegular_eq_ok_iff.mpr ⟨_, inCiphertext, isCiphertext⟩, ok_bind,
      hashBounded_eq_ok_iff.mpr ⟨rfl, fitsCiphertext⟩, ok_bind,
      openPrivateRegular_eq_ok_iff.mpr ⟨_, inEnvelope, isEnvelope⟩, ok_bind,
      readBounded_eq_ok_iff.mpr ⟨rfl, fitsEnvelope⟩, ok_bind] at rest
    cases rest
    exact ⟨bundle, ⟨digest, ⟨node, found, stored⟩, fitsCiphertext, fitsEnvelope⟩, rfl⟩
  · rintro ⟨bundle, ⟨digest, ⟨node, found, stored⟩, fitsCiphertext, fitsEnvelope⟩, rfl⟩
    obtain ⟨⟨ciphertext, inCiphertext, isCiphertext⟩, envelope, inEnvelope, isEnvelope⟩ :=
      bundleFile_of_isBundle found stored
    refine ⟨_, artifactLayout_eq_ok_iff.mpr
      ⟨bundle, ⟨digest, ⟨node, found, stored⟩, fitsCiphertext, fitsEnvelope⟩, rfl⟩, ?_⟩
    rw [openPrivateRegular_eq_ok_iff.mpr ⟨_, inCiphertext, isCiphertext⟩, ok_bind,
      hashBounded_eq_ok_iff.mpr ⟨rfl, fitsCiphertext⟩, ok_bind,
      openPrivateRegular_eq_ok_iff.mpr ⟨_, inEnvelope, isEnvelope⟩, ok_bind,
      readBounded_eq_ok_iff.mpr ⟨rfl, fitsEnvelope⟩, ok_bind]
    rfl

end Reads

end NixSeal.Cache
