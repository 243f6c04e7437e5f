import NixSeal.Cache.Contents

/-!
# Reading a whole cache

`Shows` is the relation between the files of a cache and its contents.  Under it every lookup,
every listing and every total is a function of the contents alone, in whatever order directories
are listed and whoever owns an exchange.
-/

namespace NixSeal.Cache

open Fallible Ordered

/-- The entries found at a path. -/
def Opens {α : Type} (path : Option (Node α)) (folder : Folder α) : Prop :=
  readDirectoryIfPresent path = .ok (some folder) ∨
    readDirectoryIfPresent path = .ok none ∧ folder = ∅

/-- What recovery can remove: a private file or directory of the effective user. -/
def Removable {β : Type} (env : Environment) : Node β → Prop
  | .file status _ => status.Admissible env true ∧ status.links = 1
  | .directory status _ => status.Admissible env true
  | _ => False

/-- An entry of an unfinished transaction, which a settled cache does not have. -/
def Leftover {β : Type} (env : Environment) (settled : Bool) (name : FileName) (node : Node β) :
    Prop :=
  settled = false ∧ (∃ suffix, name = .text (transactionPrefix ++ suffix)) ∧ Removable env node

/-- A directory that stores a map, one entry for each key, beside leftovers. -/
structure Stored {α γ : Type} (folder : Folder α) (holds : γ → α → Prop)
    (leftover : FileName → α → Prop) (map : Std.TreeMap String γ compare) : Prop where
  present : ∀ (key : String) (value : γ), map[key]? = some value →
    ∃ node, folder.lookup (.text key) = some node ∧ holds value node
  accounted : ∀ name node, folder.lookup name = some node →
    (∃ (key : String) (value : γ), name = .text key ∧ map[key]? = some value) ∨ leftover name node

/-- The files of a cache store the contents. -/
structure Shows (env : Environment) (cache : Cache) (settled : Bool) (contents : Contents) :
    Prop where
  valid : contents.Valid env
  objects : ∃ folder, Opens cache.root.objects folder ∧
    Stored folder (IsFile env cache.requireOwner) (Leftover env settled) contents.objects
  artifacts : ∃ folder, Opens cache.root.artifacts folder ∧
    Stored folder (IsBundle env cache.requireOwner) (Leftover env settled) contents.artifacts

section Opening

variable {α : Type} {path : Option (Node α)} {folder : Folder α}

theorem Opens.child_eq (opens : Opens path folder) (name : FileName) :
    child path name = orNotFound (folder.lookup name) := by
  unfold Opens readDirectoryIfPresent at opens
  unfold child
  match path with
  | none =>
      rcases opens with found | ⟨_, rfl⟩
      · cases found
      · rfl
  | some node =>
      simp only at opens ⊢
      cases entered : node.entries with
      | ok entries =>
          simp only [entered, Except.ok.injEq, Option.some.injEq, reduceCtorEq, false_and,
            or_false] at opens
          subst opens
          rfl
      | error kind =>
          cases kind with
          | notFound =>
              simp only [entered, Except.ok.injEq, reduceCtorEq, true_and, false_or] at opens
              subst opens
              rfl
          | alreadyExists => simp [entered] at opens
          | other => simp [entered] at opens

theorem Opens.listNames_eq (opens : Opens path folder) (env : Environment) (scan : Scan) :
    ∃ names, listNames env scan path = .ok names ∧ names.Perm folder.keys := by
  rcases opens with found | ⟨missing, rfl⟩
  · refine ⟨env.listing scan folder.keys, ?_, env.listing_perm scan folder.keys⟩
    rw [listNames, found]
    rfl
  · refine ⟨[], ?_, by simp⟩
    rw [listNames, missing]
    rfl

theorem exists_opens_of_listNames {env : Environment} {scan : Scan} {names : List FileName}
    (listed : listNames env scan path = .ok names) :
    ∃ folder, Opens path folder ∧ names.Perm folder.keys := by
  obtain ⟨entries, opened, rest⟩ := bind_eq_ok.mp listed
  cases entries with
  | none =>
      cases rest
      exact ⟨∅, .inr ⟨opened, rfl⟩, by simp⟩
  | some folder =>
      cases rest
      exact ⟨folder, .inl opened, env.listing_perm scan folder.keys⟩

end Opening

theorem isHexDigest_transaction (suffix : String) :
    isHexDigest (transactionPrefix ++ suffix) = false := by
  unfold isHexDigest
  rw [Bool.and_eq_false_iff]
  refine .inr (List.all_eq_false.mpr ⟨'.', ?_, by decide⟩)
  rw [String.toList_append]
  exact List.mem_append_left _ (by decide)

theorem isHexDigest_of_isDigest {text : String} (digest : isDigest text = true) :
    isHexDigest text = true := by
  unfold isDigest at digest
  unfold isHexDigest
  rw [Bool.and_eq_true, List.all_eq_true] at digest ⊢
  refine ⟨digest.1, fun char member => ?_⟩
  rw [digest.2 char member, Bool.true_or]

theorem text_ne_transaction {text : String} (hex : isHexDigest text = true) (suffix : String) :
    FileName.text text ≠ .text (transactionPrefix ++ suffix) := by
  intro same
  cases same
  rw [isHexDigest_transaction] at hex
  cases hex

section Storing

variable {β γ : Type} {env : Environment} {settled : Bool} {path : Option (Node (Node β))}
  {folder : Folder (Node β)} {holds : γ → Node β → Prop} {map : Std.TreeMap String γ compare}

theorem Stored.child_of_some (stored : Stored folder holds (Leftover env settled) map)
    (opens : Opens path folder) {key : String} {value : γ} (found : map[key]? = some value) :
    ∃ node, child path (.text key) = .ok node ∧ holds value node := by
  obtain ⟨node, inside, held⟩ := stored.present key value found
  refine ⟨node, ?_, held⟩
  rw [opens.child_eq, inside, orNotFound]

theorem Stored.lookup_of_none (stored : Stored folder holds (Leftover env settled) map)
    {key : String} (hex : isHexDigest key = true) (missing : map[key]? = none) :
    folder.lookup (.text key) = none := by
  cases found : folder.lookup (.text key) with
  | none => rfl
  | some node =>
      rcases stored.accounted _ _ found with ⟨other, value, same, inside⟩ | ⟨_, ⟨suffix, same⟩, _⟩
      · cases same
        rw [missing] at inside
        cases inside
      · exact absurd same (text_ne_transaction hex suffix)

theorem Stored.child_of_none (stored : Stored folder holds (Leftover env settled) map)
    (opens : Opens path folder) {key : String} (hex : isHexDigest key = true)
    (missing : map[key]? = none) : child path (.text key) = .error .notFound := by
  rw [opens.child_eq, stored.lookup_of_none hex missing, orNotFound]

/-- A settled directory lists the keys of its map. -/
theorem Stored.list (stored : Stored folder holds (Leftover env true) map)
    (opens : Opens path folder) (scan : Scan) :
    ∃ keys : List String, listNames env scan path = .ok (keys.map .text) ∧
      keys.Perm map.keys := by
  obtain ⟨names, listed, permuted⟩ := opens.listNames_eq env scan
  have entry : ∀ name, name ∈ names ↔ ∃ key ∈ map, name = .text key := by
    intro name
    rw [permuted.mem_iff, ← AList.mem_keys, ← AList.lookup_isSome]
    constructor
    · intro inside
      obtain ⟨node, found⟩ := Option.isSome_iff_exists.mp inside
      rcases stored.accounted name node found with ⟨key, value, rfl, mapped⟩ | ⟨unsettled, _⟩
      · exact ⟨key, Std.TreeMap.mem_iff_isSome_getElem?.mpr (by simp [mapped]), rfl⟩
      · cases unsettled
    · rintro ⟨key, member, rfl⟩
      obtain ⟨value, mapped⟩ :=
        Option.isSome_iff_exists.mp (Std.TreeMap.mem_iff_isSome_getElem?.mp member)
      obtain ⟨node, inside, _⟩ := stored.present key value mapped
      simp [inside]
  have texts : (names.filterMap FileName.toStr).map .text = names := by
    rw [List.map_filterMap]
    conv_rhs => rw [← List.filterMap_some (l := names)]
    refine List.filterMap_congr fun name member => ?_
    obtain ⟨key, _, rfl⟩ := (entry name).mp member
    rfl
  have distinct : (names.filterMap FileName.toStr).Nodup := by
    refine List.Nodup.of_map FileName.text ?_
    rw [texts]
    exact permuted.nodup_iff.mpr folder.keys_nodup
  refine ⟨names.filterMap FileName.toStr, by rw [texts]; exact listed, ?_⟩
  refine (List.perm_ext_iff_of_nodup distinct Std.TreeMap.nodup_keys).mpr fun key => ?_
  rw [Std.TreeMap.mem_keys]
  have listed_iff := entry (.text key)
  rw [← texts] at listed_iff
  simpa using listed_iff

end Storing

/-- The object found under a digest and accepted. -/
def HasObject (env : Environment) (cache : Cache) (digest : String) (bytes : Bytes) : Prop :=
  (∃ node, cache.objectFile digest = .ok node ∧ IsFile env cache.requireOwner bytes node) ∧
    bytes.length ≤ maxCiphertextBytes ∧ env.digest bytes = digest

namespace Contents

variable (env : Environment) (contents : Contents)

/-- Reading an object from the map. -/
def get (digest : String) : Except CacheError Bytes :=
  if !isHexDigest digest then .error .hashMismatch
  else
    match contents.objects[digest]? with
    | some bytes => .ok bytes
    | none => .error (.io .notFound)

/-- The record of a stored bundle. -/
def record (key : String) (bundle : Bundle) : ArtifactRecord :=
  artifactRecord key (env.digest bundle.ciphertext) bundle.envelope

@[simp]
theorem record_key (key : String) (bundle : Bundle) : (record env key bundle).key = key :=
  rfl

@[simp]
theorem record_envelope (key : String) (bundle : Bundle) :
    (record env key bundle).envelope = bundle.envelope :=
  rfl

@[simp]
theorem record_artifactCiphertextHash (key : String) (bundle : Bundle) :
    (record env key bundle).artifactCiphertextHash = env.digest bundle.ciphertext :=
  rfl

/-- Every stored bundle, in the order of the keys. -/
def records : List ArtifactRecord :=
  contents.artifacts.toList.map fun entry => record env entry.1 entry.2

def objectBytes : Nat := total contents.objects List.length

def ciphertextBytes : Nat := total contents.artifacts fun bundle => bundle.ciphertext.length

def envelopeBytes : Nat := total contents.artifacts fun bundle => bundle.envelope.length

/-- The exact counts and sums of the two maps. -/
def inventory : CacheInventory where
  objectCount := contents.objects.size
  objectBytes := contents.objectBytes
  artifactCount := contents.artifacts.size
  artifactCiphertextBytes := contents.ciphertextBytes
  artifactEnvelopeBytes := contents.envelopeBytes

/-- The counts and sums fit into their machine words. -/
structure Countable : Prop where
  objectCount : contents.objects.size < 2 ^ 64
  objectBytes : contents.objectBytes < 2 ^ 64
  artifactCount : contents.artifacts.size < 2 ^ 64
  ciphertextBytes : contents.ciphertextBytes < 2 ^ 64
  envelopeBytes : contents.envelopeBytes < 2 ^ 64

/-- The limits of an exchange. -/
structure WithinLimits : Prop where
  entries : contents.objects.size + contents.artifacts.size ≤ maxTransferEntries
  bytes : contents.objectBytes + contents.ciphertextBytes + contents.envelopeBytes ≤
    maxTransferBytes
  envelopes : contents.envelopeBytes ≤ maxInventoryEnvelopeBytes

instance : Decidable contents.WithinLimits :=
  decidable_of_iff (contents.objects.size + contents.artifacts.size ≤ maxTransferEntries ∧
    contents.objectBytes + contents.ciphertextBytes + contents.envelopeBytes ≤ maxTransferBytes ∧
      contents.envelopeBytes ≤ maxInventoryEnvelopeBytes)
    ⟨fun ⟨entries, bytes, envelopes⟩ => ⟨entries, bytes, envelopes⟩,
      fun ⟨entries, bytes, envelopes⟩ => ⟨entries, bytes, envelopes⟩⟩

theorem WithinLimits.countable {contents : Contents} (limits : contents.WithinLimits) :
    contents.Countable := by
  obtain ⟨entries, bytes, envelopes⟩ := limits
  have few : maxTransferEntries < 2 ^ 64 := by decide
  have small : maxTransferBytes < 2 ^ 64 := by decide
  constructor <;> omega

end Contents

section Reads

variable {env : Environment} {cache : Cache}

theorem get_eq_ok_iff_hasObject {digest : String} {bytes : Bytes} :
    cache.get env digest = .ok bytes ↔ HasObject env cache digest bytes := by
  rw [get_eq_ok_iff]
  unfold HasObject
  constructor
  · exact fun read => read.2
  · intro found
    refine ⟨isHexDigest_of_isDigest ?_, found⟩
    rw [← found.2.2]
    exact env.isDigest_digest bytes

variable {settled : Bool} {contents : Contents}

theorem Shows.hasObject (shows : Shows env cache settled contents) {digest : String}
    {bytes : Bytes} (stored : contents.objects[digest]? = some bytes) :
    HasObject env cache digest bytes := by
  obtain ⟨folder, opens, holds⟩ := shows.objects
  obtain ⟨hashed, fits⟩ := shows.valid.object digest bytes stored
  exact ⟨holds.child_of_some opens stored, fits, hashed⟩

theorem Shows.hasBundle (shows : Shows env cache settled contents) {key : String}
    {bundle : Bundle} (stored : contents.artifacts[key]? = some bundle) :
    HasBundle env cache key bundle := by
  obtain ⟨folder, opens, holds⟩ := shows.artifacts
  obtain ⟨digest, fits⟩ := shows.valid.artifact key bundle stored
  exact ⟨digest, holds.child_of_some opens stored, fits⟩

theorem Shows.objectFile_missing (shows : Shows env cache settled contents) {digest : String}
    (hex : isHexDigest digest = true) (missing : contents.objects[digest]? = none) :
    cache.objectFile digest = .error .notFound := by
  obtain ⟨folder, opens, holds⟩ := shows.objects
  exact holds.child_of_none opens hex missing

theorem Shows.bundleDirectory_missing (shows : Shows env cache settled contents) {key : String}
    (digest : isDigest key = true) (missing : contents.artifacts[key]? = none) :
    cache.bundleDirectory key = .error .notFound := by
  obtain ⟨folder, opens, holds⟩ := shows.artifacts
  exact holds.child_of_none opens (isHexDigest_of_isDigest digest) missing

theorem Stored.accounted_of_child {β γ : Type} {path : Option (Node (Node β))}
    {folder : Folder (Node β)} {held : γ → Node β → Prop} {map : Std.TreeMap String γ compare}
    (stored : Stored folder held (Leftover env true) map) (opens : Opens path folder)
    {name : FileName} {node : Node β} (found : child path name = .ok node) :
    ∃ (key : String) (value : γ), name = .text key ∧ map[key]? = some value := by
  rw [opens.child_eq] at found
  cases inside : folder.lookup name with
  | none => simp [inside, orNotFound] at found
  | some entry =>
      rcases stored.accounted name entry inside with known | ⟨unsettled, _⟩
      · exact known
      · cases unsettled

theorem Shows.objects_accounted (shows : Shows env cache true contents) {name : FileName}
    {node : Leaf} (found : child cache.root.objects name = .ok node) :
    ∃ (digest : String) (bytes : Bytes), name = .text digest ∧
      contents.objects[digest]? = some bytes := by
  obtain ⟨folder, opens, stored⟩ := shows.objects
  exact stored.accounted_of_child opens found

theorem Shows.artifacts_accounted (shows : Shows env cache true contents) {name : FileName}
    {node : Node Leaf} (found : child cache.root.artifacts name = .ok node) :
    ∃ (key : String) (bundle : Bundle), name = .text key ∧
      contents.artifacts[key]? = some bundle := by
  obtain ⟨folder, opens, stored⟩ := shows.artifacts
  exact stored.accounted_of_child opens found

theorem Shows.get_eq (shows : Shows env cache settled contents) (digest : String) :
    cache.get env digest = contents.get digest := by
  unfold Contents.get
  cases hex : isHexDigest digest with
  | false => simp [get, hex]
  | true =>
      cases stored : contents.objects[digest]? with
      | some bytes => exact get_eq_ok_iff_hasObject.mpr (shows.hasObject stored)
      | none =>
          simp only [get, hex, Bool.not_true, Bool.false_eq_true, if_false,
            shows.objectFile_missing hex stored, openPrivateRegular]
          rfl

theorem Shows.loadArtifactByKey_eq (shows : Shows env cache settled contents) {key : String}
    {bundle : Bundle} (stored : contents.artifacts[key]? = some bundle) :
    cache.loadArtifactByKey env key = .ok (Contents.record env key bundle) :=
  loadArtifactByKey_eq_ok_iff.mpr ⟨bundle, shows.hasBundle stored, rfl⟩

theorem Shows.loadArtifact_eq (shows : Shows env cache settled contents)
    (address : ArtifactAddress) :
    cache.loadArtifact env address = (address.key env).map fun key =>
      contents.artifacts[key]?.map (Contents.record env key) := by
  unfold loadArtifact
  cases addressed : address.key env with
  | error error => rfl
  | ok key =>
      simp only [Except.map, ok_bind]
      have digest : isDigest key = true := by
        obtain ⟨_, _, rest⟩ := bind_eq_ok.mp addressed
        cases rest
        exact env.isDigest_digest _
      cases stored : contents.artifacts[key]? with
      | none =>
          simp only [shows.bundleDirectory_missing digest stored]
          rfl
      | some bundle =>
          obtain ⟨_, ⟨node, found, status, entries, _, _, rfl, admissible, _⟩, _⟩ :=
            shows.hasBundle stored
          simp only [found, Node.metadata, ne_eq, not_true_eq_false, if_false, validatePrivate]
          rw [validatePrivateMetadata_directory_iff.mpr ⟨rfl, admissible⟩, ok_bind,
            shows.loadArtifactByKey_eq stored]
          rfl

end Reads

end NixSeal.Cache
