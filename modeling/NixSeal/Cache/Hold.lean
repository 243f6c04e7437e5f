import NixSeal.Cache.Inventory
import NixSeal.Cache.Write

/-!
# The invariant of a cache

`Holds` is what every operation keeps, also when it is killed: the stores of a root hold the
contents beside entries of unfinished transactions.  A cache is settled when no such entry is left,
and tidy when its directories are private.
-/

namespace NixSeal.Cache

open Faulty Faulty.Program Ordered

section Folders

variable {α : Type}

@[simp]
theorem lookup_insert_eq (entries : Folder α) (name other : FileName) (node : α) :
    (entries.insert name node).lookup other =
      if other = name then some node else entries.lookup other := by
  by_cases same : other = name
  · subst same
    rw [AList.lookup_insert, if_pos rfl]
  · rw [AList.lookup_insert_ne same, if_neg same]

@[simp]
theorem lookup_erase_eq (entries : Folder α) (name other : FileName) :
    (entries.erase name).lookup other = if other = name then none else entries.lookup other := by
  by_cases same : other = name
  · subst same
    rw [AList.lookup_erase, if_pos rfl]
  · rw [AList.lookup_erase_ne same, if_neg same]

theorem lookup_modify (entries : Folder α) (name other : FileName) (edit : α → α) :
    (Folder.modify name edit entries).lookup other =
      if other = name then (entries.lookup name).map edit else entries.lookup other := by
  unfold Folder.modify
  cases found : entries.lookup name with
  | none =>
      by_cases same : other = name
      · rw [if_pos same, same, found]
        rfl
      · rw [if_neg same]
  | some node => simp

theorem modify_insert (entries : Folder α) (name : FileName) (edit : α → α) (node : α) :
    Folder.modify name edit (entries.insert name node) = entries.insert name (edit node) := by
  unfold Folder.modify
  rw [AList.lookup_insert]
  exact AList.insert_insert entries

end Folders

theorem Status.isPrivate_iff {status : Status} : status.isPrivate ↔ status.mode % 64 = 0 := by
  unfold Status.isPrivate
  rw [show (0o077 : Nat) = 2 ^ 6 - 1 from rfl, Nat.and_two_pow_sub_one_eq_mod]

/-- A file created for its owner alone is private under every umask. -/
theorem isPrivate_created (env : Environment) : (env.created 0o600).isPrivate := by
  rw [Status.isPrivate_iff]
  have low : (0o600 &&& env.umask) % 2 ^ 7 = 0 := by
    rw [Nat.and_mod_two_pow]
    simp
  have bound : 0o600 &&& env.umask ≤ 0o600 := Nat.and_le_left
  simp only [Environment.created, Environment.masked]
  omega

/-- A name of a transaction entry. -/
def IsTransaction (name : FileName) : Prop := ∃ suffix, name = .text (transactionPrefix ++ suffix)

section Stores

variable {β γ : Type} {env : Environment} {settled : Bool} {holds : γ → Node β → Prop}
  {folder other : Folder (Node β)} {map : Std.TreeMap String γ compare}

theorem Stored.unsettle (stored : Stored folder holds (Leftover env settled) map) :
    Stored folder holds (Leftover env false) map := by
  refine ⟨stored.present, fun name node found => ?_⟩
  rcases stored.accounted name node found with known | ⟨_, leftover⟩
  · exact .inl known
  · exact .inr ⟨rfl, leftover⟩

theorem Stored.congr {leftover : FileName → Node β → Prop} (stored : Stored folder holds leftover map)
    (same : ∀ name, other.lookup name = folder.lookup name) : Stored other holds leftover map := by
  refine ⟨fun key value mapped => ?_, fun name node found => ?_⟩
  · rw [same]
    exact stored.present key value mapped
  · rw [same] at found
    exact stored.accounted name node found

theorem Stored.empty {leftover : FileName → Node β → Prop}
    (none : ∀ key : String, map[key]? = none) :
    Stored (∅ : Folder (Node β)) holds leftover map := by
  refine ⟨fun key value mapped => ?_, fun name node found => ?_⟩
  · rw [none] at mapped
    cases mapped
  · simp at found

theorem not_transaction_of_present (digests : ∀ (key : String) (value : γ),
    map[key]? = some value → isDigest key = true) {key : String} {value : γ}
    (mapped : map[key]? = some value) : ¬IsTransaction (.text key) := by
  rintro ⟨suffix, same⟩
  exact text_ne_transaction (isHexDigest_of_isDigest (digests key value mapped)) suffix same

/-- Creating, changing or removing a transaction entry leaves the map alone. -/
theorem Stored.transact (stored : Stored folder holds (Leftover env settled) map)
    (digests : ∀ (key : String) (value : γ), map[key]? = some value → isDigest key = true)
    {name : FileName} (transaction : IsTransaction name)
    (elsewhere : ∀ entry, entry ≠ name → other.lookup entry = folder.lookup entry)
    (here : ∀ node, other.lookup name = some node → Removable env node) :
    Stored other holds (Leftover env false) map := by
  refine ⟨fun key value mapped => ?_, fun entry node found => ?_⟩
  · have different : FileName.text key ≠ name := by
      rintro rfl
      exact not_transaction_of_present digests mapped transaction
    rw [elsewhere _ different]
    exact stored.present key value mapped
  · by_cases same : entry = name
    · subst same
      exact .inr ⟨rfl, transaction, here node found⟩
    · rw [elsewhere entry same] at found
      exact stored.unsettle.accounted entry node found

theorem Stored.insert {leftover : FileName → Node β → Prop}
    (stored : Stored folder holds leftover map) {key : String} {value : γ} {node : Node β}
    (held : holds value node)
    (inserted : ∀ name, other.lookup name =
      if name = .text key then some node else folder.lookup name) :
    Stored other holds leftover (map.insert key value) := by
  refine ⟨fun found result mapped => ?_, fun name result found => ?_⟩
  · rw [getElem?_insert_eq] at mapped
    rw [inserted]
    by_cases same : key = found
    · subst same
      rw [if_pos rfl, Option.some.injEq] at mapped
      subst mapped
      exact ⟨node, if_pos rfl, held⟩
    · rw [if_neg same] at mapped
      rw [if_neg (by rw [FileName.text.injEq]; exact Ne.symm same)]
      exact stored.present found result mapped
  · rw [inserted] at found
    by_cases same : name = .text key
    · subst same
      exact .inl ⟨key, value, rfl, Std.TreeMap.getElem?_insert_self⟩
    · rw [if_neg same] at found
      rcases stored.accounted name result found with ⟨known, kept, rfl, mapped⟩ | left
      · refine .inl ⟨known, kept, rfl, ?_⟩
        rw [getElem?_insert_eq, if_neg (fun equal => same (by rw [equal])), mapped]
      · exact .inr left

theorem Stored.erase {leftover : FileName → Node β → Prop}
    (stored : Stored folder holds leftover map) {key : String}
    (erased : ∀ name, other.lookup name = if name = .text key then none else folder.lookup name) :
    Stored other holds leftover (map.erase key) := by
  refine ⟨fun found result mapped => ?_, fun name result found => ?_⟩
  · rw [getElem?_erase_eq] at mapped
    by_cases same : key = found
    · rw [if_pos same] at mapped
      cases mapped
    · rw [if_neg same] at mapped
      rw [erased, if_neg (by rw [FileName.text.injEq]; exact Ne.symm same)]
      exact stored.present found result mapped
  · rw [erased] at found
    by_cases same : name = .text key
    · rw [if_pos same] at found
      cases found
    · rw [if_neg same] at found
      rcases stored.accounted name result found with ⟨known, kept, rfl, mapped⟩ | left
      · refine .inl ⟨known, kept, rfl, ?_⟩
        rw [getElem?_erase_eq, if_neg (fun equal => same (by rw [equal])), mapped]
      · exact .inr left

end Stores

/-- A store of a cache holds a map. -/
def Area.Stores {β γ : Type} (area : Area β) (env : Environment) (holds : γ → Node β → Prop)
    (settled tidy : Bool) (root : Root) (map : Std.TreeMap String γ compare) : Prop :=
  (area.get root = none ∧ ∀ key : String, map[key]? = none) ∨
    ∃ status entries, area.get root = some (.directory status entries) ∧
      status.owner = env.user ∧ (tidy = true → status.isPrivate) ∧
        Stored entries holds (Leftover env settled) map

/-- A lock file that can be taken, now or after it is created. -/
def Lockable (env : Environment) (lock : Option Leaf) : Prop :=
  lock = none ∨ ∃ status bytes, lock = some (.file status bytes) ∧ status.links = 1 ∧
    status.owner = env.user

/-- The root of a cache, which may still be missing, holds the contents. -/
structure Holds (env : Environment) (settled tidy : Bool) (root : Root) (contents : Contents) :
    Prop where
  valid : contents.Valid env
  directory : ∀ metadata, root.metadata = some metadata → metadata.kind = .directory ∧
    metadata.status.owner = env.user
  lockable : Lockable env root.lock
  objects : Area.objects.Stores env (IsFile env true) settled tidy root contents.objects
  artifacts : Area.artifacts.Stores env (IsBundle env true) settled tidy root contents.artifacts

section Areas

variable {β γ : Type} {env : Environment} {area : Area β} {holds : γ → Node β → Prop}
  {settled tidy : Bool} {root : Root} {map : Std.TreeMap String γ compare}

theorem Area.Stores.opens (stores : area.Stores env holds settled tidy root map) :
    ∃ folder, Opens (area.get root) folder ∧ Stored folder holds (Leftover env settled) map := by
  rcases stores with ⟨missing, empty⟩ | ⟨status, entries, found, _, _, stored⟩
  · exact ⟨∅, by simp [Opens, missing, readDirectoryIfPresent], Stored.empty empty⟩
  · exact ⟨entries, by simp [Opens, found, readDirectoryIfPresent, Node.entries], stored⟩

theorem Area.Stores.unsettle (stores : area.Stores env holds settled tidy root map) :
    area.Stores env holds false false root map := by
  rcases stores with missing | ⟨status, entries, found, owner, _, stored⟩
  · exact .inl missing
  · exact .inr ⟨status, entries, found, owner, by simp, stored.unsettle⟩

theorem Area.Stores.of_get_eq {after : Root}
    (stores : area.Stores env holds settled tidy root map) (same : area.get after = area.get root) :
    area.Stores env holds settled tidy after map := by
  unfold Area.Stores at stores ⊢
  rwa [same]

/-- The state of a root in which an area is a directory with the given entries. -/
def Area.fill (area : Area β) (status : Status) (entries : Folder (Node β)) (root : Root) : Root :=
  area.set (some (.directory status entries)) root

@[simp]
theorem Area.get_fill (status : Status) (entries : Folder (Node β)) :
    area.get (area.fill status entries root) = some (.directory status entries) :=
  area.get_set _ _

theorem Area.change_fill (status : Status) (entries : Folder (Node β))
    (edit : Folder (Node β) → Folder (Node β)) :
    area.change edit (area.fill status entries root) = area.fill status (edit entries) root := by
  unfold Area.change
  rw [Area.get_fill]
  exact area.set_set _ _ _

theorem Area.changeEntry_fill (status : Status) (entries : Folder (Node β)) (name : FileName)
    (edit : Node β → Node β) (node : Node β) :
    area.changeEntry name edit (area.fill status (entries.insert name node) root) =
      area.fill status (entries.insert name (edit node)) root := by
  rw [Area.changeEntry, Area.change_fill, modify_insert]

@[simp]
theorem Area.names_fill (status : Status) (entries : Folder (Node β)) :
    area.names (area.fill status entries root) = entries.keys := by
  simp [Area.names, Node.entries]

theorem Area.child_fill (status : Status) (entries : Folder (Node β)) (name : FileName) :
    child (area.get (area.fill status entries root)) name = orNotFound (entries.lookup name) := by
  rw [Area.get_fill]
  have opens : Opens (some (Node.directory status entries)) entries := .inl rfl
  exact opens.child_eq name

theorem Area.child_insert_self (area : Area β) (status : Status) (entries : Folder (Node β))
    (name : FileName) (node : Node β) (root : Root) :
    child (area.get (area.fill status (entries.insert name node) root)) name = .ok node := by
  rw [Area.child_fill, lookup_insert_eq, if_pos rfl, orNotFound]

theorem Area.entryMetadata_insert_self (area : Area β) (status : Status)
    (entries : Folder (Node β)) (name : FileName) (node : Node β) (root : Root) :
    area.entryMetadata name (area.fill status (entries.insert name node) root) =
      some node.metadata := by
  rw [Area.entryMetadata, Area.child_insert_self]

theorem Area.entryMetadata_insert_other (area : Area β) (status : Status)
    {entries : Folder (Node β)} {name other : FileName} (node : Node β) (root : Root)
    (different : other ≠ name) (free : entries.lookup other = none) :
    area.entryMetadata other (area.fill status (entries.insert name node) root) = none := by
  rw [Area.entryMetadata, Area.child_fill, lookup_insert_eq, if_neg different, free, orNotFound]

theorem Area.Stores.fill {status : Status} {entries : Folder (Node β)}
    (owner : status.owner = env.user) (restricted : tidy = true → status.isPrivate)
    (stored : Stored entries holds (Leftover env settled) map) :
    area.Stores env holds settled tidy (area.fill status entries root) map :=
  .inr ⟨status, entries, area.get_fill status entries, owner, restricted, stored⟩

end Areas

section Roots

variable {env : Environment} {settled tidy : Bool} {root : Root} {contents : Contents}

theorem Holds.shows (holds : Holds env settled tidy root contents) :
    Shows env root.own settled contents :=
  ⟨holds.valid, holds.objects.opens, holds.artifacts.opens⟩

theorem Holds.unsettle (holds : Holds env settled tidy root contents) :
    Holds env false false root contents :=
  ⟨holds.valid, holds.directory, holds.lockable, holds.objects.unsettle, holds.artifacts.unsettle⟩

theorem Contents.Valid.isDigest_object (valid : contents.Valid env) (digest : String)
    (bytes : Bytes) (stored : contents.objects[digest]? = some bytes) : isDigest digest = true := by
  rw [← (valid.object digest bytes stored).1]
  exact env.isDigest_digest bytes

theorem Contents.Valid.isDigest_artifact (valid : contents.Valid env) (key : String)
    (bundle : Bundle) (stored : contents.artifacts[key]? = some bundle) : isDigest key = true :=
  (valid.artifact key bundle stored).1

theorem Holds.set_objects {settled' tidy' : Bool} (holds : Holds env settled tidy root contents)
    {path : Option (Node Leaf)} {objects : Std.TreeMap String Bytes compare}
    (valid : Contents.Valid env { contents with objects })
    (stores : Area.objects.Stores env (IsFile env true) settled' tidy'
      (Area.objects.set path root) objects)
    (others : Area.artifacts.Stores env (IsBundle env true) settled' tidy' root
      contents.artifacts) :
    Holds env settled' tidy' (Area.objects.set path root) { contents with objects } :=
  ⟨valid, holds.directory, holds.lockable, stores, others.of_get_eq rfl⟩

theorem Holds.set_artifacts {settled' tidy' : Bool} (holds : Holds env settled tidy root contents)
    {path : Option (Node (Node Leaf))} {artifacts : Std.TreeMap String Bundle compare}
    (valid : Contents.Valid env { contents with artifacts })
    (stores : Area.artifacts.Stores env (IsBundle env true) settled' tidy'
      (Area.artifacts.set path root) artifacts)
    (others : Area.objects.Stores env (IsFile env true) settled' tidy' root contents.objects) :
    Holds env settled' tidy' (Area.artifacts.set path root) { contents with artifacts } :=
  ⟨valid, holds.directory, holds.lockable, others.of_get_eq rfl, stores⟩

theorem Holds.set_lock (holds : Holds env settled tidy root contents) {lock : Option Leaf}
    (lockable : Lockable env lock) : Holds env settled tidy { root with lock := lock } contents :=
  ⟨holds.valid, holds.directory, lockable, holds.objects, holds.artifacts⟩

end Roots

end NixSeal.Cache
