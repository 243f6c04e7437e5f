import NixSeal.Authoring.Tree

/-!
# Recoverable deletion

`delete_secret` moves a ciphertext into a new tombstone directory below the quarantine root.  Until
the move the tombstone belongs to a guard that removes it when the operation fails; the guard is
detached right after the move.  Paths are lists of names below the repository root.
-/

namespace NixSeal.Authoring.Deletion

open Faulty Program

/-- What a path names. -/
inductive Entry where
  | directory (directory : Directory)
  /-- A regular file. -/
  | file (file : File)
  | link
  /-- A device, a socket or a pipe. -/
  | special
  deriving DecidableEq, Repr

theorem regular_of_ownerOnly_false : false = true → false = true := id

/-- What the checks of files see of an entry. -/
def Entry.asFile : Entry → File
  | .file found => found
  | .directory _ | .link | .special => ⟨0, [], false, false, regular_of_ownerOnly_false⟩

/-- The root of a repository and what is below it. -/
abbrev Repository : Type := List Bytes → Option Entry

/-- `DeleteRequest`. -/
structure DeleteRequest where
  relativeSource : Bytes
  quarantineRoot : Bytes
  secretId : String
  deletedAt : String

/-- `TombstoneV1`. -/
structure Tombstone where
  schema : String
  secretId : String
  originalSource : String
  ciphertextHash : String
  deletedAt : String
  deriving DecidableEq

/-- `DeletionResult`. -/
structure DeletionResult where
  tombstonePath : List Bytes
  originalPath : List Bytes
  ciphertextHash : String

/-- The functions that are not the repository's own. -/
structure Tools where
  /-- The digest of `hash_file`. -/
  hash : Bytes → String
  /-- `serde_json::to_vec`. -/
  toJson : Tombstone → Option Bytes

/-- What the system chooses for new entries. -/
structure Choices where
  /-- The name that `tempdir_in` tries. -/
  tombstone : Bytes
  lockInode : Nat
  metadataInode : Nat
  /-- Whether the mask of the process takes group and other bits from new entries. -/
  restrictive : Bool

/-- The calls of `delete_secret`; a depth counts the names before the one looked at. -/
inductive DeleteStep where
  | lockRoot
  | openRoot
  | openLock
  | lockMetadata
  | protectLock
  | lock
  | sourceRoot
  | sourceMetadata (depth : Nat)
  | inspectSource
  | openSource
  | readSource
  | quarantineRoot
  | quarantineMetadata (depth : Nat)
  | createQuarantine (depth : Nat)
  | canonicalQuarantine
  | protectQuarantine
  | createTombstone
  | protectTombstone
  | createMetadata
  | protectMetadata
  | writeMetadata
  | endMetadata
  | syncMetadata
  | recheckSource
  | rename
  | emptyTombstone
  | removeTombstone
  | inspectMoved
  | syncTombstone
  | syncQuarantine
  | syncParent
  deriving DecidableEq, Repr

/-- The program of an operation on a repository. -/
abbrev Operation : Type → Type := Program DeleteStep Repository AuthoringError

def lockName : Bytes := utf8 ".nix-seal.lock"

def metadataName : Bytes := utf8 "tombstone.json"

def ciphertextName : Bytes := utf8 "ciphertext.age"

/-- `symlink_metadata`. -/
def lookUp (label : DeleteStep) (path : List Bytes) : Operation (Option Entry) := do
  Program.step label .io id
  let repository ← Program.read
  pure (repository path)

/-- Puts an entry at a path. -/
def put (path : List Bytes) (entry : Entry) (repository : Repository) : Repository :=
  Function.update repository path (some entry)

/-! ## Paths -/

/-- `validate_relative`, with the names of the path. -/
def validateRelative (relative : Bytes) : Except AuthoringError (List Bytes) :=
  let segments := relative.splitOn 0x2f
  if relative.head? = some 0x2f ∨ relative = [] ∨ segments.head? = some [0x2e] ∨
      [0x2e, 0x2e] ∈ segments then
    .error .unsafePath
  else .ok (segments.filter fun segment => segment ≠ [] ∧ segment ≠ [0x2e])

/-- The check of `resolve_existing` on one component. -/
def existing (isLast : Bool) : Option Entry → Except AuthoringError Unit
  | none => .error .io
  | some (.directory _) => .ok ()
  | some _ => if isLast then .ok () else .error .unsafePath

/-- The loop of `resolve_existing`. -/
def resolveExistingFrom (path : List Bytes) : List Bytes → Operation Unit
  | [] => pure ()
  | name :: rest => do
      let entry ← lookUp (.sourceMetadata path.length) (path ++ [name])
      lift (existing rest.isEmpty entry)
      resolveExistingFrom (path ++ [name]) rest

/-- `resolve_existing`. -/
def resolveExisting (relative : Bytes) : Operation (List Bytes) := do
  let names ← lift (validateRelative relative)
  Program.step .sourceRoot .io id
  resolveExistingFrom [] names
  pure names

/-- The check of `resolve_private_directory` on one component. -/
def enterable : Option Entry → Except AuthoringError Unit
  | none => .ok ()
  | some (.directory _) => .ok ()
  | some _ => .error .unsafePath

/-- The loop of `resolve_private_directory`. -/
def resolvePrivateDirectoryFrom (choices : Choices) (path : List Bytes) :
    List Bytes → Operation Unit
  | [] => pure ()
  | name :: rest => do
      let entry ← lookUp (.quarantineMetadata path.length) (path ++ [name])
      lift (enterable entry)
      Program.when (entry.isNone = true)
        (Program.step (.createQuarantine path.length) .io
          (put (path ++ [name]) (.directory ⟨true, choices.restrictive⟩)))
      resolvePrivateDirectoryFrom choices (path ++ [name]) rest

/-- The checks of `set_private_directory`. -/
def ownedDirectory : Option Entry → Except AuthoringError Unit
  | some (.directory found) => if found.owned then .ok () else .error .io
  | _ => .error .io

/-- `set_private_directory`. -/
def setPrivateDirectory (label : DeleteStep) (path : List Bytes) : Operation Unit := do
  let repository ← Program.read
  lift (ownedDirectory (repository path))
  Program.step label .io (put path (.directory ⟨true, true⟩))

/-- `resolve_private_directory`. -/
def resolvePrivateDirectory (choices : Choices) (relative : Bytes) : Operation (List Bytes) := do
  let names ← lift (validateRelative relative)
  Program.step .quarantineRoot .io id
  resolvePrivateDirectoryFrom choices [] names
  Program.step .canonicalQuarantine .io id
  setPrivateDirectory .protectQuarantine names
  pure names

/-! ## The operation -/

/-- The checks of `acquire_repository_lock` on the root. -/
def rootDirectory : Option Entry → Except AuthoringError Unit
  | none => .error .io
  | some (.directory _) => .ok ()
  | some _ => .error .unsafePath

/-- What opening the lock without following links refuses. -/
def openable : Option Entry → Except AuthoringError Unit
  | some (.directory _) | some .link => .error .io
  | _ => .ok ()

/-- The checks of `acquire_repository_lock` on the opened lock. -/
def privateLock : Option Entry → Except AuthoringError Unit
  | some (.file file) => if file.ownerOnly then .ok () else .error .unsafePath
  | _ => .error .unsafePath

/-- Opening the lock creates it where nothing is. -/
def createLock (choices : Choices) (repository : Repository) : Repository :=
  if (repository [lockName]).isNone then
    put [lockName] (.file ⟨choices.lockInode, [], true, true, fun _ => rfl⟩) repository
  else repository

/-- `acquire_repository_lock`. -/
def acquireRepositoryLock (choices : Choices) : Operation Unit := do
  let root ← lookUp .lockRoot []
  lift (rootDirectory root)
  Program.step .openRoot .io id
  let repository ← Program.read
  lift (openable (repository [lockName]))
  Program.step .openLock .io (createLock choices)
  let opened ← lookUp .lockMetadata [lockName]
  lift (privateLock opened)
  Program.step .protectLock .io id
  Program.step .lock .io id

/-- The metadata `delete_secret` compares with later. -/
def inspectSource (source : List Bytes) : Operation File := do
  let entry ← lookUp .inspectSource source
  let previous ← lift (validateDestination .replace (entry.map Entry.asFile))
  lift (previous.elim (.error .destinationState) .ok)

/-- `open_nofollow_regular`. -/
def openNofollowRegular : Option Entry → Except AuthoringError File
  | none | some .link => .error .io
  | some (.directory _) | some .special => .error .destinationState
  | some (.file file) => if file.regular then .ok file else .error .destinationState

/-- The octets `hash_file` reads. -/
def readSource (source : List Bytes) : Operation Bytes := do
  let entry ← lookUp .openSource source
  let file ← lift (openNofollowRegular entry)
  Program.step .readSource .io id
  pure file.bytes

/-- `tempdir_in`. -/
def createTombstone (choices : Choices) (quarantine : List Bytes) : Operation (List Bytes) := do
  let tombstone := quarantine ++ [choices.tombstone]
  let repository ← Program.read
  require ((repository tombstone).isNone = true) .io
  Program.step .createTombstone .io (put tombstone (.directory ⟨true, choices.restrictive⟩))
  pure tombstone

/-- The record of a deletion. -/
def tombstoneRecord (E : Tools) (request : DeleteRequest) (content : Bytes) :
    Except AuthoringError Bytes :=
  match fromUtf8 request.relativeSource with
  | none => .error .unsafePath
  | some originalSource =>
      match E.toJson ⟨"nix-seal.deleted-secret.v1", request.secretId, originalSource,
        E.hash content, request.deletedAt⟩ with
      | none => .error .tombstone
      | some record => .ok record

/-- The metadata file with some content. -/
def metadataFile (choices : Choices) (ownerOnly : Bool) (content : Bytes) : Entry :=
  .file ⟨choices.metadataInode, content, true, ownerOnly, fun _ => rfl⟩

/-- The metadata of a tombstone are written. -/
def writeTombstone (choices : Choices) (tombstone : List Bytes) (record : Bytes) :
    Operation Unit := do
  let path := tombstone ++ [metadataName]
  let repository ← Program.read
  require ((repository path).isNone = true) .io
  Program.step .createMetadata .io (put path (metadataFile choices choices.restrictive []))
  Program.step .protectMetadata .io (put path (metadataFile choices true []))
  write .writeMetadata .io
    (fun progress => put path (metadataFile choices true (record.take progress)))
    (put path (metadataFile choices true record))
  Program.step .endMetadata .io (put path (metadataFile choices true (record ++ [0x0a])))
  Program.step .syncMetadata .io id

/-- `rename` of what is no directory. -/
def moveEntry (source target : List Bytes) (repository : Repository) : Repository :=
  Function.update (Function.update repository source none) target (repository source)

/-- What happens while the guard owns the tombstone. -/
def fillTombstone (E : Tools) (request : DeleteRequest) (choices : Choices) (source : List Bytes)
    (previous : File) (content : Bytes) (tombstone : List Bytes) : Operation Unit := do
  setPrivateDirectory .protectTombstone tombstone
  let record ← lift (tombstoneRecord E request content)
  writeTombstone choices tombstone record
  let entry ← lookUp .recheckSource source
  lift (ensureUnchanged (entry.map Entry.asFile) (some previous))
  Program.step .rename .io (moveEntry source (tombstone ++ [ciphertextName]))

/-- Removes what is inside a directory. -/
def emptyDirectory (directory : List Bytes) (repository : Repository) : Repository := fun path =>
  if directory <+: path ∧ path ≠ directory then none else repository path

/-- What the guard does when it is dropped: `remove_dir_all`. -/
def removeTombstone (tombstone : List Bytes) : Operation Unit := do
  Program.step .emptyTombstone .io (emptyDirectory tombstone)
  Program.step .removeTombstone .io fun repository => Function.update repository tombstone none

/-- `delete_secret` up to the detached guard. -/
def quarantineSource (E : Tools) (request : DeleteRequest) (choices : Choices) :
    Operation (File × DeletionResult) := do
  acquireRepositoryLock choices
  require (request.secretId ≠ "" ∧ request.deletedAt ≠ "") .unsafePath
  let source ← resolveExisting request.relativeSource
  let previous ← inspectSource source
  let content ← readSource source
  let quarantine ← resolvePrivateDirectory choices request.quarantineRoot
  let tombstone ← createTombstone choices quarantine
  onError (fillTombstone E request choices source previous content tombstone)
    (removeTombstone tombstone)
  pure (previous, ⟨tombstone, source, E.hash content⟩)

/-- The check of the moved file. -/
def sameMoved (previous : File) : Option Entry → Except AuthoringError Unit
  | none => .error .io
  | some moved =>
      if moved.asFile.regular = false ∨ previous.inode ≠ moved.asFile.inode then
        .error .durabilityUnknown
      else .ok ()

/-- `delete_secret` after the guard is detached. -/
def confirmMoved (previous : File) (result : DeletionResult) : Operation DeletionResult := do
  let moved ← lookUp .inspectMoved (result.tombstonePath ++ [ciphertextName])
  lift (sameMoved previous moved)
  Program.step .syncTombstone .durabilityUnknown id
  Program.step .syncQuarantine .durabilityUnknown id
  Program.step .syncParent .durabilityUnknown id
  pure result

/-- `delete_secret`. -/
def deleteSecret (E : Tools) (request : DeleteRequest) (choices : Choices) :
    Operation DeletionResult := do
  let moved ← quarantineSource E request choices
  confirmMoved moved.1 moved.2

/-! ## What the steps leave alone -/

variable {verdict : DeleteStep → Verdict} {repository : Repository} {source tombstone : List Bytes}
  {file : File}

/-- The file at a path is as it was. -/
def Intact (source : List Bytes) (file : File) (repository : Repository) : Prop :=
  repository source = some (.file file)

/-- The file is as it was, and the directories above it are there. -/
structure Reached (source : List Bytes) (file : File) (repository : Repository) : Prop where
  intact : Intact source file repository
  above : ∀ front, front ≠ [] → front ≠ source → front <+: source →
    ∃ directory, repository front = some (.directory directory)

/-- The file is in a tombstone and no longer at its path. -/
structure Quarantined (source : List Bytes) (file : File) (tombstone : List Bytes)
    (repository : Repository) : Prop where
  absent : repository source = none
  directory : ∃ directory, repository tombstone = some (.directory directory)
  moved : repository (tombstone ++ [ciphertextName]) = some (.file file)

/-- The file is at its path or in a tombstone. -/
def Kept (source : List Bytes) (file : File) (repository : Repository) : Prop :=
  Intact source file repository ∨ ∃ tombstone, Quarantined source file tombstone repository

theorem put_of_ne {path other : List Bytes} (apart : other ≠ path) (entry : Entry)
    (repository : Repository) : put path entry repository other = repository other :=
  Function.update_of_ne apart _ _

@[simp]
theorem put_self (path : List Bytes) (entry : Entry) (repository : Repository) :
    put path entry repository path = some entry :=
  Function.update_self ..

theorem Intact.put (intact : Intact source file repository) {path : List Bytes}
    (apart : source ≠ path) (entry : Entry) : Intact source file (put path entry repository) :=
  (put_of_ne apart entry repository).trans intact

theorem Reached.put (reached : Reached source file repository) {path : List Bytes}
    {directory : Directory}
    (replaced : ∀ found, repository path = some found → ∃ other, found = .directory other) :
    Reached source file (put path (.directory directory) repository) := by
  have apart : source ≠ path := by
    rintro rfl
    obtain ⟨other, different⟩ := replaced _ reached.intact
    cases different
  refine ⟨reached.intact.put apart _, fun front nonempty different leads => ?_⟩
  by_cases here : front = path
  · exact ⟨directory, by rw [here, put_self]⟩
  · rw [put_of_ne here]
    exact reached.above front nonempty different leads

theorem meets_lookUp {label : DeleteStep} {path : List Bytes}
    {returns : Option Entry → Repository → Prop} {raises : AuthoringError → Repository → Prop}
    {stops : Repository → Prop} (onReturn : returns (repository path) repository)
    (onRaise : raises .io repository) (onStop : stops repository) :
    (lookUp label path).Meets verdict repository returns raises stops := by
  refine Meets.bind (Meets.step ?_ (fun _ => onRaise) fun _ _ => onStop)
  exact Meets.bind (Meets.read (Meets.pure onReturn))

theorem meets_idle {label : DeleteStep} {error : AuthoringError} {returns : Unit → Repository → Prop}
    {raises : AuthoringError → Repository → Prop} {stops : Repository → Prop}
    (onReturn : returns () repository) (onRaise : raises error repository)
    (onStop : stops repository) :
    (Program.step label error id : Operation Unit).Meets verdict repository returns raises stops :=
  Meets.step onReturn (fun _ => onRaise) fun _ _ => onStop

theorem meets_setPrivateDirectory {label : DeleteStep} {path : List Bytes} :
    (setPrivateDirectory label path).Meets verdict repository
      (fun _ after => (∃ directory, repository path = some (.directory directory)) ∧
        after = put path (.directory ⟨true, true⟩) repository)
      (fun _ after => after = repository) fun after => after = repository := by
  refine Meets.bind (Meets.read (Meets.bind (Meets.lift (fun _ owned => ?_) fun _ _ => rfl)))
  refine Meets.step ⟨?_, rfl⟩ (fun _ => rfl) fun _ _ => rfl
  cases stored : repository path with
  | none =>
      rw [stored] at owned
      cases owned
  | some found =>
      rw [stored] at owned
      cases found with
      | directory directory => exact ⟨directory, rfl⟩
      | file _ => cases owned
      | link => cases owned
      | special => cases owned

/-- Taking the lock keeps every file. -/
theorem intact_acquireRepositoryLock (choices : Choices) (intact : Intact source file repository) :
    (acquireRepositoryLock choices).Meets verdict repository (fun _ => Intact source file)
      (fun _ => Intact source file) (Intact source file) := by
  have locked : Intact source file (createLock choices repository) := by
    unfold createLock
    split_ifs with free
    · refine intact.put (fun same => ?_) _
      rw [← same, intact] at free
      cases free
    · exact intact
  refine Meets.bind (meets_lookUp ?_ intact intact)
  refine Meets.bind (Meets.lift (fun _ _ => ?_) fun _ _ => intact)
  refine Meets.bind (meets_idle ?_ intact intact)
  refine Meets.bind (Meets.read (Meets.bind (Meets.lift (fun _ _ => ?_) fun _ _ => intact)))
  refine Meets.bind (Meets.step ?_ (fun _ => intact) fun _ _ => intact)
  refine Meets.bind (meets_lookUp ?_ locked locked)
  refine Meets.bind (Meets.lift (fun _ _ => ?_) fun _ _ => locked)
  exact Meets.bind (meets_idle (meets_idle locked locked locked) locked locked)

theorem meets_resolveExistingFrom (path names : List Bytes) :
    (resolveExistingFrom path names).Meets verdict repository
      (fun _ after => after = repository ∧ ∀ front, front ≠ [] → front ≠ names → front <+: names →
        ∃ directory, repository (path ++ front) = some (.directory directory))
      (fun _ after => after = repository) fun after => after = repository := by
  induction names generalizing path with
  | nil =>
      exact ⟨rfl, fun front nonempty _ leads => absurd (List.prefix_nil.mp leads) nonempty⟩
  | cons name rest ih =>
      refine Meets.bind (meets_lookUp ?_ rfl rfl)
      refine Meets.bind (Meets.lift (fun _ passed => ?_) fun _ _ => rfl)
      refine (ih (path ++ [name])).mono ?_ (fun _ _ same => same) fun _ same => same
      rintro - after ⟨same, above⟩
      refine ⟨same, fun front nonempty different leads => ?_⟩
      obtain rfl | ⟨tail, rfl, further⟩ := List.prefix_cons_iff.mp leads
      · exact absurd rfl nonempty
      · by_cases first : tail = []
        · subst first
          have more : rest.isEmpty = false := by
            cases rest with
            | nil => exact absurd rfl different
            | cons _ _ => rfl
          rw [more] at passed
          cases found : repository (path ++ [name]) with
          | none =>
              rw [found] at passed
              cases passed
          | some entry =>
              rw [found] at passed
              cases entry with
              | directory directory => exact ⟨directory, rfl⟩
              | file _ => cases passed
              | link => cases passed
              | special => cases passed
        · have inside := above tail first (fun same => different (by rw [same])) further
          rwa [List.append_assoc] at inside

/-- What `resolve_existing` returns is reached. -/
theorem reached_resolveExisting {relative : Bytes} (named : validateRelative relative = .ok source)
    (intact : Intact source file repository) :
    (resolveExisting relative).Meets verdict repository
      (fun path after => path = source ∧ Reached source file after)
      (fun _ => Intact source file) (Intact source file) := by
  refine Meets.lift_ok named (Meets.bind (meets_idle ?_ intact intact))
  refine Meets.bind ((meets_resolveExistingFrom [] source).mono ?_ ?_ ?_)
  · rintro - after ⟨rfl, above⟩
    exact Meets.pure ⟨rfl, intact, fun front nonempty different leads =>
      above front nonempty different leads⟩
  · rintro _ after rfl
    exact intact
  · rintro after rfl
    exact intact

/-- The loop of `resolve_private_directory` keeps the file and what is above it. -/
theorem reached_resolvePrivateDirectoryFrom (choices : Choices) (path names : List Bytes)
    (reached : Reached source file repository) :
    (resolvePrivateDirectoryFrom choices path names).Meets verdict repository
      (fun _ => Reached source file) (fun _ => Reached source file) (Reached source file) := by
  induction names generalizing path repository with
  | nil => exact reached
  | cons name rest ih =>
      refine Meets.bind (meets_lookUp ?_ reached reached)
      refine Meets.bind (Meets.lift (fun _ _ => ?_) fun _ _ => reached)
      refine Meets.bind (Meets.when (fun free => ?_) fun _ => ih _ reached)
      refine Meets.step (ih _ (reached.put fun found stored => ?_)) (fun _ => reached)
        fun _ _ => reached
      rw [stored] at free
      cases free

theorem reached_resolvePrivateDirectory (choices : Choices) (relative : Bytes)
    (reached : Reached source file repository) :
    (resolvePrivateDirectory choices relative).Meets verdict repository
      (fun _ => Reached source file) (fun _ => Reached source file) (Reached source file) := by
  refine Meets.bind (Meets.lift (fun names _ => ?_) fun _ _ => reached)
  refine Meets.bind (meets_idle ?_ reached reached)
  refine (reached_resolvePrivateDirectoryFrom choices [] names reached).seq fun _ after reached => ?_
  refine Meets.bind (meets_idle ?_ reached reached)
  refine Meets.bind (meets_setPrivateDirectory.mono ?_ ?_ ?_)
  · rintro - final ⟨⟨directory, stored⟩, rfl⟩
    refine Meets.pure (reached.put fun found here => ⟨directory, ?_⟩)
    rw [stored, Option.some.injEq] at here
    exact here.symm
  · rintro _ final rfl
    exact reached
  · rintro final rfl
    exact reached

theorem reached_createTombstone (choices : Choices) (quarantine : List Bytes)
    (reached : Reached source file repository) :
    (createTombstone choices quarantine).Meets verdict repository
      (fun tombstone after => ¬tombstone <+: source ∧ Intact source file after)
      (fun _ => Intact source file) (Intact source file) := by
  refine Meets.bind (Meets.read (Meets.bind (Meets.require (fun free => ?_) fun _ => reached.intact)))
  have fresh : ∀ entry, repository (quarantine ++ [choices.tombstone]) ≠ some entry := by
    intro entry stored
    rw [stored] at free
    cases free
  have outside : ¬quarantine ++ [choices.tombstone] <+: source := by
    intro leads
    by_cases same : quarantine ++ [choices.tombstone] = source
    · exact fresh _ (same ▸ reached.intact)
    · obtain ⟨directory, stored⟩ := reached.above _ (by simp) same leads
      exact fresh _ stored
  have intact : ∀ entry, Intact source file
      (put (quarantine ++ [choices.tombstone]) entry repository) :=
    reached.intact.put fun same => outside (same ▸ List.prefix_rfl)
  exact Meets.bind (Meets.step (Meets.pure ⟨outside, intact _⟩) (fun _ => reached.intact)
    fun _ _ => reached.intact)

/-! ## Inside the tombstone -/

theorem ne_below (outside : ¬tombstone <+: source) (name : Bytes) : source ≠ tombstone ++ [name] :=
  fun same => outside (same ▸ List.prefix_append tombstone [name])

theorem ne_tombstone (outside : ¬tombstone <+: source) : source ≠ tombstone :=
  fun same => outside (same ▸ List.prefix_rfl)

/-- The tombstone while it is filled. -/
structure Filling (source : List Bytes) (file : File) (tombstone : List Bytes)
    (repository : Repository) : Prop where
  intact : Intact source file repository
  directory : ∃ directory, repository tombstone = some (.directory directory)

theorem Filling.put (filling : Filling source file tombstone repository)
    (outside : ¬tombstone <+: source) (name : Bytes) (entry : Entry) :
    Filling source file tombstone (put (tombstone ++ [name]) entry repository) := by
  refine ⟨filling.intact.put (ne_below outside name) entry, ?_⟩
  rw [put_of_ne (by simp)]
  exact filling.directory

theorem filling_writeTombstone (choices : Choices) (outside : ¬tombstone <+: source)
    (record : Bytes) (filling : Filling source file tombstone repository) :
    (writeTombstone choices tombstone record).Meets verdict repository
      (fun _ after => Filling source file tombstone after ∧
        after (tombstone ++ [metadataName]) =
          some (metadataFile choices true (record ++ [0x0a])))
      (fun _ => Intact source file) (Intact source file) := by
  have filled := fun {before : Repository} (filling : Filling source file tombstone before) entry =>
    filling.put outside metadataName entry
  refine Meets.bind (Meets.read (Meets.bind (Meets.require (fun _ => ?_) fun _ => filling.intact)))
  have created := filled filling (metadataFile choices choices.restrictive [])
  refine Meets.bind (Meets.step ?_ (fun _ => filling.intact) fun _ _ => filling.intact)
  have restricted := filled created (metadataFile choices true [])
  refine Meets.bind (Meets.step ?_ (fun _ => created.intact) fun _ _ => created.intact)
  have written := filled restricted (metadataFile choices true record)
  refine Meets.bind (Meets.write ?_ (fun _ => restricted.intact)
    fun progress _ => (filled restricted _).intact)
  have ended := filled written (metadataFile choices true (record ++ [0x0a]))
  refine Meets.bind (Meets.step ?_ (fun _ => written.intact) fun _ _ => written.intact)
  exact meets_idle ⟨ended, put_self ..⟩ ended.intact ended.intact

/-- The file is moved as a whole. -/
theorem quarantined_moveEntry (outside : ¬tombstone <+: source)
    (filling : Filling source file tombstone repository) :
    Quarantined source file tombstone
      (moveEntry source (tombstone ++ [ciphertextName]) repository) := by
  refine ⟨?_, ?_, ?_⟩
  · rw [moveEntry, Function.update_of_ne (ne_below outside ciphertextName), Function.update_self]
  · rw [moveEntry, Function.update_of_ne (by simp),
      Function.update_of_ne (ne_tombstone outside).symm]
    exact filling.directory
  · rw [moveEntry, Function.update_self]
    exact filling.intact

theorem metadataName_ne : metadataName ≠ ciphertextName := by decide

/-- The metadata that a filled tombstone holds. -/
def Recorded (E : Tools) (request : DeleteRequest) (choices : Choices) (tombstone : List Bytes)
    (content : Bytes) (repository : Repository) : Prop :=
  ∃ originalSource record, fromUtf8 request.relativeSource = some originalSource ∧
    E.toJson ⟨"nix-seal.deleted-secret.v1", request.secretId, originalSource, E.hash content,
      request.deletedAt⟩ = some record ∧
    repository (tombstone ++ [metadataName]) =
      some (metadataFile choices true (record ++ [0x0a]))

theorem tombstoneRecord_eq_ok {E : Tools} {request : DeleteRequest} {content record : Bytes} :
    tombstoneRecord E request content = .ok record ↔
      ∃ originalSource, fromUtf8 request.relativeSource = some originalSource ∧
        E.toJson ⟨"nix-seal.deleted-secret.v1", request.secretId, originalSource, E.hash content,
          request.deletedAt⟩ = some record := by
  rw [tombstoneRecord]
  cases fromUtf8 request.relativeSource with
  | none => simp
  | some originalSource =>
      simp only [Option.some.injEq, exists_eq_left']
      cases E.toJson ⟨"nix-seal.deleted-secret.v1", request.secretId, originalSource,
        E.hash content, request.deletedAt⟩ with
      | none => simp
      | some _ => simp

/-- The tombstone is filled, or the file stays where it is. -/
theorem quarantined_fillTombstone (E : Tools) (request : DeleteRequest) (choices : Choices)
    (previous : File) (content : Bytes) (outside : ¬tombstone <+: source)
    (intact : Intact source file repository) :
    (fillTombstone E request choices source previous content tombstone).Meets verdict repository
      (fun _ after => Quarantined source file tombstone after ∧
        Recorded E request choices tombstone content after)
      (fun _ => Intact source file) (Intact source file) := by
  refine Meets.bind (meets_setPrivateDirectory.mono ?_ ?_ ?_)
  · rintro - after ⟨-, rfl⟩
    have filling : Filling source file tombstone
        (put tombstone (.directory ⟨true, true⟩) repository) :=
      ⟨intact.put (ne_tombstone outside) _, ⟨_, put_self ..⟩⟩
    refine Meets.bind (Meets.lift (fun record encoded => ?_) fun _ _ => filling.intact)
    refine (filling_writeTombstone choices outside record filling).seq ?_
    rintro - written ⟨filling, recorded⟩
    refine Meets.bind (meets_lookUp ?_ filling.intact filling.intact)
    refine Meets.bind (Meets.lift (fun _ _ => ?_) fun _ _ => filling.intact)
    refine Meets.step ⟨quarantined_moveEntry outside filling, ?_⟩ (fun _ => filling.intact)
      fun _ _ => filling.intact
    obtain ⟨originalSource, named, json⟩ := tombstoneRecord_eq_ok.mp encoded
    refine ⟨originalSource, record, named, json, ?_⟩
    have apart : tombstone ++ [metadataName] ≠ tombstone ++ [ciphertextName] := by
      simp [metadataName_ne]
    rw [moveEntry, Function.update_of_ne apart,
      Function.update_of_ne (ne_below outside metadataName).symm]
    exact recorded
  · rintro _ after rfl
    exact intact
  · rintro after rfl
    exact intact

/-- The guard removes nothing but the tombstone. -/
theorem intact_removeTombstone (outside : ¬tombstone <+: source)
    (intact : Intact source file repository) :
    (removeTombstone tombstone).Meets verdict repository (fun _ => Intact source file)
      (fun _ => Intact source file) (Intact source file) := by
  have emptied : Intact source file (emptyDirectory tombstone repository) := by
    rw [Intact, emptyDirectory, if_neg fun below => outside below.1]
    exact intact
  refine Meets.bind (Meets.step ?_ (fun _ => intact) fun _ _ => intact)
  refine Meets.step ?_ (fun _ => emptied) fun _ _ => emptied
  rw [Intact, Function.update_of_ne (ne_tombstone outside)]
  exact emptied

/-! ## The whole operation -/

/-- What a deletion leaves once its guard is detached. -/
structure Deleted (E : Tools) (request : DeleteRequest) (choices : Choices) (source : List Bytes)
    (file : File) (result : DeletionResult) (repository : Repository) : Prop where
  quarantined : Quarantined source file result.tombstonePath repository
  recorded : Recorded E request choices result.tombstonePath file.bytes repository
  original : result.originalPath = source
  hash : result.ciphertextHash = E.hash file.bytes

theorem reached_inspectSource (reached : Reached source file repository) :
    (inspectSource source).Meets verdict repository (fun _ => Reached source file)
      (fun _ => Intact source file) (Intact source file) := by
  refine Meets.bind (meets_lookUp ?_ reached.intact reached.intact)
  refine Meets.bind (Meets.lift (fun _ _ => ?_) fun _ _ => reached.intact)
  exact Meets.lift (fun _ _ => reached) fun _ _ => reached.intact

theorem reached_readSource (reached : Reached source file repository) :
    (readSource source).Meets verdict repository
      (fun content after => content = file.bytes ∧ Reached source file after)
      (fun _ => Intact source file) (Intact source file) := by
  refine Meets.bind (meets_lookUp ?_ reached.intact reached.intact)
  refine Meets.bind (Meets.lift (fun found opened => ?_) fun _ _ => reached.intact)
  rw [reached.intact, openNofollowRegular] at opened
  split_ifs at opened
  cases opened
  exact Meets.bind (meets_idle (Meets.pure ⟨rfl, reached⟩) reached.intact reached.intact)

/-- Up to the detached guard the file is moved, or it stays where it is. -/
theorem deleted_quarantineSource (E : Tools) (request : DeleteRequest) (choices : Choices)
    (named : validateRelative request.relativeSource = .ok source)
    (intact : Intact source file repository) :
    (quarantineSource E request choices).Meets verdict repository
      (fun moved after => Deleted E request choices source file moved.2 after)
      (fun _ => Intact source file) (Intact source file) := by
  refine (intact_acquireRepositoryLock choices intact).seq fun _ locked intact => ?_
  refine Meets.bind (Meets.require (fun _ => ?_) fun _ => intact)
  refine (reached_resolveExisting named intact).seq ?_
  rintro path resolved ⟨same, reached⟩
  subst path
  refine (reached_inspectSource reached).seq fun previous inspected reached => ?_
  refine (reached_readSource reached).seq ?_
  rintro content hashed ⟨same, reached⟩
  subst content
  refine ((reached_resolvePrivateDirectory choices request.quarantineRoot reached).mono
    (fun _ _ holds => holds) (fun _ _ holds => holds.intact) fun _ holds => holds.intact).seq
      fun quarantine entered reached => ?_
  refine (reached_createTombstone choices quarantine reached).seq ?_
  rintro tombstone created ⟨outside, intact⟩
  refine Meets.seq (Meets.onError (fun _ => Intact source file)
    (quarantined_fillTombstone E request choices previous file.bytes outside intact)
    fun _ _ failed => intact_removeTombstone outside failed) ?_
  rintro - after ⟨quarantined, recorded⟩
  exact Meets.pure ⟨quarantined, recorded, rfl, rfl⟩

theorem meets_confirmMoved (previous : File) (result : DeletionResult) :
    (confirmMoved previous result).Meets verdict repository
      (fun returned after => returned = result ∧ after = repository)
      (fun _ after => after = repository) fun after => after = repository := by
  refine Meets.bind (meets_lookUp ?_ rfl rfl)
  refine Meets.bind (Meets.lift (fun _ _ => ?_) fun _ _ => rfl)
  refine Meets.bind (meets_idle ?_ rfl rfl)
  refine Meets.bind (meets_idle ?_ rfl rfl)
  exact Meets.bind (meets_idle (Meets.pure ⟨rfl, rfl⟩) rfl rfl)

/-- What `delete_secret` returns is deleted, and however it ends the file is kept. -/
theorem deleted_deleteSecret (E : Tools) (request : DeleteRequest) (choices : Choices)
    (named : validateRelative request.relativeSource = .ok source)
    (intact : Intact source file repository) :
    (deleteSecret E request choices).Meets verdict repository
      (fun result => Deleted E request choices source file result)
      (fun _ => Kept source file) (Kept source file) := by
  refine ((deleted_quarantineSource E request choices named intact).mono (fun _ _ holds => holds)
    (fun _ _ intact => .inl intact) fun _ intact => .inl intact).seq ?_
  rintro ⟨previous, result⟩ after deleted
  refine (meets_confirmMoved previous result).mono ?_ ?_ ?_
  · rintro _ _ ⟨rfl, rfl⟩
    exact deleted
  · rintro _ _ rfl
    exact .inr ⟨_, deleted.quarantined⟩
  · rintro _ rfl
    exact .inr ⟨_, deleted.quarantined⟩

/-- A deletion never loses the ciphertext: however it ends, the file is at its path or in a
tombstone; when it returns, the path is free and the tombstone holds the file and the record of its
hash; and an error before the move leaves the file where it was. -/
theorem deletion_keeps_ciphertext (E : Tools) (request : DeleteRequest) (choices : Choices)
    (verdict : DeleteStep → Verdict) (repository : Repository) (source : List Bytes) (file : File)
    (named : validateRelative request.relativeSource = .ok source)
    (stored : repository source = some (.file file)) :
    Kept source file (deleteSecret E request choices verdict repository).state ∧
      (∀ result after, deleteSecret E request choices verdict repository = .ok result after →
        Deleted E request choices source file result after) ∧
      ∀ error after, quarantineSource E request choices verdict repository = .err error after →
        deleteSecret E request choices verdict repository = .err error after ∧
          after source = some (.file file) := by
  have described : (deleteSecret E request choices).Meets verdict repository _ _ _ :=
    deleted_deleteSecret E request choices named stored
  refine ⟨?_, fun result after returned => ?_, fun error after failed => ?_⟩
  · refine Meets.leaves (described.mono (fun result _ deleted => ?_) (fun _ _ kept => kept)
      fun _ kept => kept)
    exact .inr ⟨_, deleted.quarantined⟩
  · unfold Meets at described
    rwa [returned] at described
  · have before : (quarantineSource E request choices).Meets verdict repository _ _ _ :=
      deleted_quarantineSource E request choices named stored
    unfold Meets at before
    rw [failed] at before
    refine ⟨?_, before⟩
    rw [deleteSecret, bind_run, failed]

namespace Sample

/-- A digest and an encoding of records that show what they are given. -/
def tools : Tools where
  hash content := toString content.length
  toJson record := some (utf8 record.ciphertextHash)

def request : DeleteRequest where
  relativeSource := utf8 "secrets/db.age"
  quarantineRoot := utf8 ".nix-seal/deleted"
  secretId := "db/password"
  deletedAt := "2026-07-31T22:00:00Z"

def choices : Choices where
  tombstone := utf8 "secret-a1b2c3"
  lockInode := 8
  metadataInode := 9
  restrictive := false

/-- The ciphertext. -/
def ciphertext : File := ⟨7, [1, 2, 3], true, false, by decide⟩

/-- A repository with the ciphertext. -/
def checkout : Repository := fun path =>
  if path = [] ∨ path = [utf8 "secrets"] then some (.directory ⟨true, false⟩)
  else if path = [utf8 "secrets", utf8 "db.age"] then some (.file ciphertext)
  else none

end Sample

/-- The sample ciphertext is kept when the file system refuses the move. -/
theorem deletion_keeps_ciphertext_refused :
    Kept [utf8 "secrets", utf8 "db.age"] Sample.ciphertext
      (deleteSecret Sample.tools Sample.request Sample.choices
        (fun label => if label = .rename then .fail else .pass) Sample.checkout).state :=
  (deletion_keeps_ciphertext Sample.tools Sample.request Sample.choices
    (fun label => if label = .rename then .fail else .pass) Sample.checkout
    [utf8 "secrets", utf8 "db.age"] Sample.ciphertext (by decide) (by decide)).1

end NixSeal.Authoring.Deletion
