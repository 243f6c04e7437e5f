import Mathlib.Data.List.AList
import Mathlib.Tactic
import NixSeal.Core.Text

/-!
# The file system under a ciphertext cache

What the cache crate can see of a file system: kinds, owners, permission bits, link counts and
contents.  A cache root holds a lock, a directory of objects and a directory of artifact bundles;
the code looks no deeper than the files of a bundle, so what lies below is left out.  A directory
that is reached through a link is read through it, as `read_dir` does.
-/

namespace NixSeal.Cache

/-- The kinds of `std::io::Error` the crate tells apart. -/
inductive IoKind where
  | notFound
  | alreadyExists
  | other
  deriving DecidableEq, Repr

/-- `CacheError`. -/
inductive CacheError where
  | io (kind : IoKind)
  | hashMismatch
  | invalidAddress
  | limit
  | artifactExists
  | destinationExists
  | conflict
  | unsafeMetadata
  deriving DecidableEq, Repr

/-- A name in a directory: any bytes, which need not be text. -/
inductive FileName where
  | text (name : String)
  | raw (bytes : List UInt8)
  deriving DecidableEq, Repr

/-- `OsStr::to_str`. -/
def FileName.toStr : FileName → Option String
  | .text name => some name
  | .raw _ => none

inductive Kind where
  | file
  | directory
  | symlink
  | special
  deriving DecidableEq, Repr

/-- The part of `stat` the crate checks. -/
structure Status where
  owner : Nat
  mode : Nat
  links : Nat
  deriving DecidableEq, Repr

/-- `std::fs::Metadata`. -/
structure Metadata where
  kind : Kind
  status : Status
  length : Nat
  deriving DecidableEq, Repr

/-- The entries of a directory: names are unique. -/
abbrev Folder (α : Type) : Type := AList fun _ : FileName => α

/-- A directory entry whose children, if it is a directory, are of type `α`. -/
inductive Node (α : Type) where
  | file (status : Status) (bytes : Bytes)
  | directory (status : Status) (entries : Folder α)
  /-- A symbolic link, with the entry it resolves to. -/
  | symlink (target : Node α)
  /-- A symbolic link that resolves to nothing. -/
  | dangling
  | special (status : Status)

namespace Node

variable {α : Type}

/-- `symlink_metadata`; the status of a link itself is never read. -/
def metadata : Node α → Metadata
  | .file status bytes => ⟨.file, status, bytes.length⟩
  | .directory status _ => ⟨.directory, status, 0⟩
  | .symlink _ => ⟨.symlink, ⟨0, 0o777, 1⟩, 0⟩
  | .dangling => ⟨.symlink, ⟨0, 0o777, 1⟩, 0⟩
  | .special status => ⟨.special, status, 0⟩

/-- `Path::exists`, which follows links. -/
def reachable : Node α → Bool
  | .symlink target => target.reachable
  | .dangling => false
  | _ => true

/-- The entries found when the path is used as a directory. -/
def entries : Node α → Except IoKind (Folder α)
  | .directory _ entries => .ok entries
  | .symlink target => target.entries
  | .dangling => .error .notFound
  | _ => .error .other

/-- Change the entries of the directory the path resolves to. -/
def mapEntries (change : Folder α → Folder α) : Node α → Node α
  | .directory status entries => .directory status (change entries)
  | .symlink target => .symlink (target.mapEntries change)
  | node => node

/-- `fchmod`. -/
def withMode (mode : Nat) : Node α → Node α
  | .file status bytes => .file { status with mode := mode } bytes
  | .directory status entries => .directory { status with mode := mode } entries
  | node => node

/-- Writing a whole file. -/
def withBytes (bytes : Bytes) : Node α → Node α
  | .file status _ => .file status bytes
  | node => node

/-- Setting the link count of a file. -/
def withLinks (links : Nat) : Node α → Node α
  | .file status bytes => .file { status with links := links } bytes
  | node => node

end Node

/-- Change one entry, if it is there. -/
def Folder.modify {α : Type} (name : FileName) (edit : α → α) (entries : Folder α) : Folder α :=
  match entries.lookup name with
  | none => entries
  | some node => entries.insert name (edit node)

/-- A file or directory whose contents are not looked into. -/
abbrev Leaf : Type := Node Unit

/-- Everything under one cache root that the crate reads or writes. -/
structure Root where
  /-- The root directory itself, if it exists. -/
  metadata : Option Metadata
  lock : Option Leaf
  objects : Option (Node Leaf)
  artifacts : Option (Node (Node Leaf))

/-- A path where nothing exists. -/
def Root.missing : Root := ⟨none, none, none, none⟩

/-- What a lookup in a directory reports. -/
def orNotFound {α : Type} : Option α → Except IoKind α
  | none => .error .notFound
  | some found => .ok found

/-- Looking up a name below a path that may be missing. -/
def child {α : Type} (parent : Option (Node α)) (name : FileName) : Except IoKind α :=
  match parent with
  | none => .error .notFound
  | some node =>
      match node.entries with
      | .error kind => .error kind
      | .ok entries => orNotFound (entries.lookup name)

/-- `read_directory_if_present`. -/
def readDirectoryIfPresent {α : Type} (path : Option (Node α)) :
    Except CacheError (Option (Folder α)) :=
  match path with
  | none => .ok none
  | some node =>
      match node.entries with
      | .ok entries => .ok (some entries)
      | .error .notFound => .ok none
      | .error kind => .error (.io kind)

/-- The two directories of a cache. -/
inductive Store where
  | objects
  | artifacts
  deriving DecidableEq, Repr

/-- The places where the crate lists a directory. -/
inductive Scan where
  | recover (store : Store)
  | discard
  | limitObjects
  | limitKeys
  | copyObjects
  | copyKeys
  | bundle (key : String)
  | preflightObjects
  | recordKeys
  | inventoryObjects
  | inventoryArtifacts
  | collectObjects
  | collectArtifacts
  deriving DecidableEq, Repr

def transactionPrefix : String := ".nix-seal-txn-"

/-- What the crate takes from the system and from other crates. -/
structure Environment where
  /-- The effective user. -/
  user : Nat
  umask : Nat
  /-- `blake3::hash` in hexadecimal. -/
  digest : Bytes → String
  isDigest_digest : ∀ bytes, isDigest (digest bytes) = true
  /-- The random part of a name the `tempfile` crate creates beside the given names. -/
  temporarySuffix : List FileName → String
  temporary_fresh : ∀ names, FileName.text (transactionPrefix ++ temporarySuffix names) ∉ names
  /-- Whether `persist_noclobber` can rename without replacing; it links and unlinks otherwise. -/
  atomicPersist : Bool
  /-- The order in which a directory is listed. -/
  listing : Scan → List FileName → List FileName
  listing_perm : ∀ scan names, (listing scan names).Perm names

namespace Environment

/-- The name of a new transaction entry. -/
def temporaryName (env : Environment) (names : List FileName) : FileName :=
  .text (transactionPrefix ++ env.temporarySuffix names)

/-- A mode requested from the system, less the bits of the umask. -/
def masked (env : Environment) (mode : Nat) : Nat := mode - (mode &&& env.umask)

/-- The status of an entry this process creates. -/
def created (env : Environment) (mode : Nat) : Status := ⟨env.user, env.masked mode, 1⟩

end Environment

/-- No permission bit for the group or for others. -/
def Status.isPrivate (status : Status) : Prop := status.mode &&& 0o077 = 0

instance (status : Status) : Decidable status.isPrivate :=
  inferInstanceAs (Decidable (status.mode &&& 0o077 = 0))

/-- `validate_private_metadata`. -/
def validatePrivateMetadata (env : Environment) (metadata : Metadata) (directory : Bool)
    (requireOwner : Bool) : Except CacheError Unit :=
  if metadata.kind ≠ (if directory then .directory else .file) then .error .unsafeMetadata
  else if (requireOwner = true ∧ metadata.status.owner ≠ env.user) ∨ ¬metadata.status.isPrivate ∨
      (directory = false ∧ metadata.status.links ≠ 1) then .error .unsafeMetadata
  else .ok ()

/-- `validate_owner`. -/
def validateOwner (env : Environment) (metadata : Metadata) : Except CacheError Unit :=
  if metadata.status.owner ≠ env.user then .error .unsafeMetadata else .ok ()

/-- `open_private_regular`, returning what can be read from the opened file. -/
def openPrivateRegular (env : Environment) (requireOwner : Bool) :
    Except IoKind Leaf → Except CacheError Bytes
  | .error kind => .error (.io kind)
  | .ok (.symlink _) => .error (.io .other)
  | .ok .dangling => .error (.io .other)
  | .ok (.file status bytes) =>
      if status.links ≠ 1 ∨ (requireOwner = true ∧ status.owner ≠ env.user) ∨ ¬status.isPrivate then
        .error .unsafeMetadata
      else .ok bytes
  | .ok (.directory _ _) => .error .unsafeMetadata
  | .ok (.special _) => .error .unsafeMetadata

/-- `read_bounded`. -/
def readBounded (bytes : Bytes) (limit : Nat) : Except CacheError Bytes :=
  if bytes.length > limit then .error .limit else .ok bytes

/-- `copy_and_hash_bounded`, for the hash. -/
def hashBounded (env : Environment) (bytes : Bytes) (limit : Nat) : Except CacheError String :=
  if bytes.length > limit then .error .limit else .ok (env.digest bytes)

/-- `u64::checked_add`. -/
def checkedAdd (total additional : Nat) : Except CacheError Nat :=
  if total + additional < 2 ^ 64 then .ok (total + additional) else .error .limit

end NixSeal.Cache
