import NixSeal.Cache.Read
import NixSeal.Lib.Faulty

/-!
# Writing a ciphertext cache

Opening a cache, storing objects and bundles, and collecting garbage, as sequences of file-system
steps.  Every step that changes the file system or makes a change durable carries a label, so that
it can fail or be the last one before the process is killed; reading steps change nothing, and a
kill there is a kill at the next labelled step.  The lock makes the operations of several
processes run one after another.
-/

namespace NixSeal.Cache

open Faulty Faulty.Program

/-- The two files of a bundle. -/
inductive BundleFile where
  | ciphertext
  | envelope
  deriving DecidableEq, Repr

def BundleFile.name : BundleFile → FileName
  | .ciphertext => .text ciphertextName
  | .envelope => .text envelopeName

/-- The labelled steps of one operation on one cache. -/
inductive Step where
  | createRoot
  | protectRoot
  | createLock
  | protectLock
  | createStore (store : Store)
  | protectStore (store : Store)
  | syncStore (store : Store)
  /-- Removing an abandoned transaction entry, or a child of one. -/
  | recover (store : Store) (name : FileName) (child : Option FileName)
  | createTemporary
  | protectTemporary
  | writeTemporary
  | syncTemporary
  /-- The rename of `persist_noclobber`, or its link. -/
  | persist
  | unlinkTemporary
  | dropTemporary
  | createStaged
  | protectStaged
  | createFile (file : BundleFile)
  | protectFile (file : BundleFile)
  | writeFile (file : BundleFile)
  | syncFile (file : BundleFile)
  | syncStaged
  | publish
  /-- Removing a staged bundle after an error, or a child of it. -/
  | dropStaged (child : Option FileName)
  | removeObject (digest : String)
  | removeCiphertext (key : String)
  | removeEnvelope (key : String)
  | removeBundle (key : String)
  deriving DecidableEq, Repr

/-- A program over one cache root. -/
abbrev Action (α : Type) : Type := Program Step Root CacheError α

/-- One of the directories of a cache root, with children of type `Node β`. -/
structure Area (β : Type) where
  store : Store
  get : Root → Option (Node (Node β))
  set : Option (Node (Node β)) → Root → Root
  get_set : ∀ path root, get (set path root) = path
  set_get : ∀ root, set (get root) root = root
  set_set : ∀ path other root, set path (set other root) = set path root
  metadata_set : ∀ path root, (set path root).metadata = root.metadata

def Area.objects : Area Unit where
  store := .objects
  get := Root.objects
  set path root := { root with objects := path }
  get_set _ _ := rfl
  set_get _ := rfl
  set_set _ _ _ := rfl
  metadata_set _ _ := rfl

def Area.artifacts : Area Leaf where
  store := .artifacts
  get := Root.artifacts
  set path root := { root with artifacts := path }
  get_set _ _ := rfl
  set_get _ := rfl
  set_set _ _ _ := rfl
  metadata_set _ _ := rfl

/-- Change the entries of an area's directory. -/
def Area.change {β : Type} (area : Area β) (edit : Folder (Node β) → Folder (Node β))
    (root : Root) : Root :=
  area.set ((area.get root).map (Node.mapEntries edit)) root

/-- Change one entry of an area's directory, if it is there. -/
def Area.changeEntry {β : Type} (area : Area β) (name : FileName) (edit : Node β → Node β) :
    Root → Root :=
  area.change (Folder.modify name edit)

/-- The names in an area's directory. -/
def Area.names {β : Type} (area : Area β) (root : Root) : List FileName :=
  match area.get root with
  | none => []
  | some node =>
      match node.entries with
      | .ok entries => entries.keys
      | .error _ => []

/-- A system call that the crate makes for its durability only. -/
def sync (label : Step) : Action Unit :=
  step label (.io .other) id

/-- `set_private_permissions` on what `metadata` describes. -/
def setPrivatePermissions (env : Environment) (label : Step) (directory : Bool)
    (metadata : Option Metadata) (change : Root → Root) : Action Unit :=
  match metadata with
  | none => raise (.io .notFound)
  | some metadata => do
      require (metadata.kind = (if directory then .directory else .file) ∧
        metadata.status.owner = env.user ∧ (directory = true ∨ metadata.status.links = 1))
        (.io .other)
      step label (.io .other) change

/-- The metadata of an area's directory. -/
def Area.metadata {β : Type} (area : Area β) (root : Root) : Option Metadata :=
  (area.get root).map Node.metadata

/-- The metadata of an entry of an area's directory. -/
def Area.entryMetadata {β : Type} (area : Area β) (name : FileName) (root : Root) :
    Option Metadata :=
  match child (area.get root) name with
  | .ok node => some node.metadata
  | .error _ => none

/-- Check a path that must be a directory of the effective user. -/
def requireOwnDirectory (env : Environment) (metadata : Option Metadata) : Action Unit :=
  match metadata with
  | none => raise (.io .notFound)
  | some metadata => do
      require (metadata.kind = .directory) .unsafeMetadata
      lift (validateOwner env metadata)

/-- Check a path that must be a private directory of the effective user. -/
def requirePrivateDirectory (env : Environment) (metadata : Option Metadata) : Action Unit :=
  match metadata with
  | none => raise (.io .notFound)
  | some metadata => lift (validatePrivateMetadata env metadata true true)

/-- `ensure_private_directory`. -/
def ensurePrivateDirectory (env : Environment) {β : Type} (area : Area β) : Action Unit := do
  when (area.get (← read)).isNone
    (step (.createStore area.store) (.io .other)
      (area.set (some (.directory (env.created 0o777) ∅))))
  requireOwnDirectory env (area.metadata (← read))
  setPrivatePermissions env (.protectStore area.store) true (area.metadata (← read))
    (fun root => area.set ((area.get root).map (Node.withMode 0o700)) root)
  requirePrivateDirectory env (area.metadata (← read))

/-- `open_cache_lock` and the exclusive lock on it. -/
def lock (env : Environment) : Action Unit := do
  when ((← read).lock).isNone
    (step .createLock (.io .other)
      (fun root => { root with lock := some (.file (env.created 0o600) []) }))
  match (← read).lock with
  | some (.file status _) => do
      require (status.links = 1 ∧ status.owner = env.user) .unsafeMetadata
      step .protectLock (.io .other)
        (fun root => { root with lock := root.lock.map (Node.withMode 0o600) })
  | some (.symlink _) => raise (.io .other)
  | some .dangling => raise (.io .other)
  | some (.directory _ _) => raise (.io .other)
  | some (.special _) => raise .unsafeMetadata
  | none => raise (.io .notFound)

/-- `remove_dir_all`: the children one by one, then the directory. -/
def removeDirAll (env : Environment) {β : Type} (area : Area β) (name : FileName)
    (label : Option FileName → Step) : Action Unit := do
  match child (area.get (← read)) name with
  | .error kind => raise (.io kind)
  | .ok (.directory _ entries) => do
      (env.listing .discard entries.keys).foldlM (fun _ inner =>
        step (label (some inner)) (.io .other)
          (area.changeEntry name (Node.mapEntries fun entries => entries.erase inner))) ()
      step (label none) (.io .other) (area.change fun entries => entries.erase name)
  | .ok _ => raise (.io .other)

/-- One entry of `Cache::recover_transactions`. -/
def recoverEntry (env : Environment) {β : Type} (area : Area β) (removed : Bool)
    (name : FileName) : Action Bool :=
  match name.toStr with
  | none => raise .unsafeMetadata
  | some text =>
      if !startsWith transactionPrefix text then pure removed
      else do
        match child (area.get (← read)) name with
        | .error kind => raise (.io kind)
        | .ok node =>
            match node.metadata.kind with
            | .directory => do
                lift (validatePrivateMetadata env node.metadata true true)
                removeDirAll env area name (.recover area.store name)
                pure true
            | .file => do
                lift (validatePrivateMetadata env node.metadata false true)
                step (.recover area.store name none) (.io .other)
                  (area.change fun entries => entries.erase name)
                pure true
            | _ => raise .unsafeMetadata

/-- One directory of `Cache::recover_transactions`. -/
def recoverArea (env : Environment) {β : Type} (area : Area β) : Action Unit := do
  let names ← lift (listNames env (.recover area.store) (area.get (← read)))
  let removed ← names.foldlM (recoverEntry env area) false
  when removed (sync (.syncStore area.store))

/-- `Cache::recover_transactions`. -/
def recoverTransactions (env : Environment) : Action Unit := do
  lock env
  recoverArea env Area.objects
  recoverArea env Area.artifacts

/-- `Cache::open`. -/
def openCache (env : Environment) : Action Unit := do
  when ((← read).metadata).isNone
    (step .createRoot (.io .other)
      (fun root => { root with metadata := some ⟨.directory, env.created 0o777, 0⟩ }))
  requireOwnDirectory env (← read).metadata
  setPrivatePermissions env .protectRoot true (← read).metadata
    (fun root => { root with metadata := root.metadata.map fun metadata =>
      { metadata with status.mode := 0o700 } })
  requirePrivateDirectory env (← read).metadata
  recoverTransactions env

/-- `NamedTempFile::persist_noclobber`. -/
def persistNoclobber (env : Environment) (temporary destination : FileName) : Action Unit := do
  require ((Area.objects.entryMetadata destination (← read)).isNone) (.io .alreadyExists)
  match child (← read).objects temporary with
  | .error kind => raise (.io kind)
  | .ok node =>
      if env.atomicPersist then
        step .persist (.io .other)
          (Area.objects.change fun entries => (entries.erase temporary).insert destination node)
      else do
        step .persist (.io .other) (Area.objects.change fun entries =>
          (entries.insert temporary (node.withLinks 2)).insert destination (node.withLinks 2))
        -- The crate ignores an error of the unlink.
        let _ ← attempt (step .unlinkTemporary (.io .other) (Area.objects.change fun entries =>
          (entries.erase temporary).insert destination node))

/-- The new object of `Cache::put_unlocked`. -/
def storeObject (env : Environment) (destination : FileName) (bytes : Bytes) : Action Unit := do
  let temporary := env.temporaryName (Area.objects.names (← read))
  step .createTemporary (.io .other) (Area.objects.change fun entries =>
    entries.insert temporary (.file (env.created 0o600) []))
  onError
    (do
      setPrivatePermissions env .protectTemporary false
        (Area.objects.entryMetadata temporary (← read))
        (Area.objects.changeEntry temporary (Node.withMode 0o600))
      write .writeTemporary (.io .other)
        (fun progress => Area.objects.changeEntry temporary (Node.withBytes (bytes.take progress)))
        (Area.objects.changeEntry temporary (Node.withBytes bytes))
      sync .syncTemporary
      persistNoclobber env temporary destination)
    (step .dropTemporary (.io .other) (Area.objects.change fun entries => entries.erase temporary))
  sync (.syncStore .objects)

/-- `Cache::put_unlocked`. -/
def putUnlocked (env : Environment) (bytes : Bytes) : Action String := do
  require (bytes.length ≤ maxCiphertextBytes) .limit
  let digest := env.digest bytes
  ensurePrivateDirectory env Area.objects
  match (← read).own.objectFile digest with
  | .ok _ => do
      let _ ← lift ((← read).own.get env digest)
      pure digest
  | .error .notFound => do
      storeObject env (.text digest) bytes
      pure digest
  | .error kind => raise (.io kind)

/-- `Cache::put`. -/
def put (env : Environment) (bytes : Bytes) : Action String := do
  lock env
  putUnlocked env bytes

/-- `create_private_file` inside a staged bundle. -/
def createPrivateFile (env : Environment) (staged : FileName) (file : BundleFile) :
    Action Unit := do
  match child (← read).artifacts staged with
  | .error kind => raise (.io kind)
  | .ok node => do
      require ((child (some node) file.name).isOk = false) (.io .alreadyExists)
      step (.createFile file) (.io .other) (Area.artifacts.changeEntry staged
        (Node.mapEntries fun entries => entries.insert file.name (.file (env.created 0o600) [])))
      step (.protectFile file) (.io .other) (Area.artifacts.changeEntry staged
        (Node.mapEntries (Folder.modify file.name (Node.withMode 0o600))))

/-- Writing one file of a staged bundle. -/
def writeBundleFile (staged : FileName) (file : BundleFile) (bytes : Bytes) : Action Unit :=
  write (.writeFile file) (.io .other)
    (fun progress => Area.artifacts.changeEntry staged
      (Node.mapEntries (Folder.modify file.name (Node.withBytes (bytes.take progress)))))
    (Area.artifacts.changeEntry staged
      (Node.mapEntries (Folder.modify file.name (Node.withBytes bytes))))

/-- `rename_noreplace` of a staged bundle. -/
def renameNoreplace (staged destination : FileName) : Action Unit := do
  match child (← read).artifacts staged with
  | .error kind => raise (.io kind)
  | .ok node => do
      require ((Area.artifacts.entryMetadata destination (← read)).isNone) .destinationExists
      step .publish (.io .other)
        (Area.artifacts.change fun entries => (entries.erase staged).insert destination node)

/-- `Path::exists` for a bundle. -/
def bundleExists (root : Root) (key : String) : Bool :=
  match root.own.bundleDirectory key with
  | .ok node => node.reachable
  | .error _ => false

/-- The files of a staged bundle, up to its publication. -/
def stageBundle (env : Environment) (staged destination : FileName) (ciphertext envelope : Bytes) :
    Action Unit := do
  setPrivatePermissions env .protectStaged true (Area.artifacts.entryMetadata staged (← read))
    (Area.artifacts.changeEntry staged (Node.withMode 0o700))
  createPrivateFile env staged .ciphertext
  -- `copy_and_hash_bounded` has written up to the limit when it finds the input too long.
  writeBundleFile staged .ciphertext (ciphertext.take maxCiphertextBytes)
  require (ciphertext.length ≤ maxCiphertextBytes) .limit
  sync (.syncFile .ciphertext)
  createPrivateFile env staged .envelope
  writeBundleFile staged .envelope envelope
  sync (.syncFile .envelope)
  sync .syncStaged
  renameNoreplace staged destination

/-- `Cache::put_artifact_by_key_unlocked`. -/
def putArtifactByKeyUnlocked (env : Environment) (key : String) (ciphertext envelope : Bytes) :
    Action ArtifactRecord := do
  require (isDigest key = true) .invalidAddress
  require (envelope.length ≤ maxEnvelopeBytes) .limit
  ensurePrivateDirectory env Area.artifacts
  require (bundleExists (← read) key = false) .artifactExists
  let staged := env.temporaryName (Area.artifacts.names (← read))
  step .createStaged (.io .other) (Area.artifacts.change fun entries =>
    entries.insert staged (.directory (env.created 0o777) ∅))
  onError (stageBundle env staged (.text key) ciphertext envelope)
    (removeDirAll env Area.artifacts staged .dropStaged)
  sync (.syncStore .artifacts)
  pure (artifactRecord key (env.digest ciphertext) envelope)

/-- `Cache::put_artifact_by_key`. -/
def putArtifactByKey (env : Environment) (key : String) (ciphertext envelope : Bytes) :
    Action ArtifactRecord := do
  lock env
  putArtifactByKeyUnlocked env key ciphertext envelope

/-- `Cache::put_artifact`. -/
def putArtifact (env : Environment) (address : ArtifactAddress) (ciphertext envelope : Bytes) :
    Action ArtifactRecord := do
  let key ← lift (address.key env)
  putArtifactByKey env key ciphertext envelope

/-- `GcRequest`. -/
structure GcRequest where
  retainedArtifacts : Std.TreeSet String compare
  retainedObjects : Std.TreeSet String compare
  execute : Bool := false

/-- `GcReport`. -/
structure GcReport where
  executed : Bool := false
  retainedArtifacts : Nat := 0
  retainedObjects : Nat := 0
  candidateArtifacts : Nat := 0
  candidateObjects : Nat := 0
  candidateBytes : Nat := 0
  deriving DecidableEq, Repr

/-- One object of `Cache::garbage_collect`. -/
def collectObject (env : Environment) (request : GcRequest) (report : GcReport) (name : FileName) :
    Action GcReport := do
  let digest ← lift (digestName name)
  let root ← read
  let file ← lift (openPrivateRegular env root.own.requireOwner (root.own.objectFile digest))
  let bytes ← lift (readBounded file maxCiphertextBytes)
  require (env.digest bytes = digest) .hashMismatch
  if digest ∈ request.retainedObjects then do
    let retainedObjects ← lift (checkedAdd report.retainedObjects 1)
    pure { report with retainedObjects }
  else do
    let candidateObjects ← lift (checkedAdd report.candidateObjects 1)
    let candidateBytes ← lift (checkedAdd report.candidateBytes bytes.length)
    when request.execute
      (step (.removeObject digest) (.io .other)
        (Area.objects.change fun entries => entries.erase name))
    pure { report with candidateObjects, candidateBytes }

/-- `Cache::remove_artifact_bundle`. -/
def removeArtifactBundle (env : Environment) (key : String) : Action Unit := do
  let root ← read
  let _ ← lift (root.own.fileLength env (root.own.bundleFile key ciphertextName))
  let _ ← lift (root.own.fileLength env (root.own.bundleFile key envelopeName))
  step (.removeCiphertext key) (.io .other) (Area.artifacts.changeEntry (.text key)
    (Node.mapEntries fun entries => entries.erase (.text ciphertextName)))
  step (.removeEnvelope key) (.io .other) (Area.artifacts.changeEntry (.text key)
    (Node.mapEntries fun entries => entries.erase (.text envelopeName)))
  step (.removeBundle key) (.io .other)
    (Area.artifacts.change fun entries => entries.erase (.text key))

/-- One bundle of `Cache::garbage_collect`. -/
def collectArtifact (env : Environment) (request : GcRequest) (report : GcReport)
    (name : FileName) : Action GcReport := do
  let key ← lift (digestName name)
  let root ← read
  let record ← lift (root.own.loadArtifactByKey env key)
  let length ← lift (root.own.fileLength env (root.own.bundleFile key ciphertextName))
  let bytes ← lift (checkedAdd length record.envelope.length)
  if key ∈ request.retainedArtifacts then do
    let retainedArtifacts ← lift (checkedAdd report.retainedArtifacts 1)
    pure { report with retainedArtifacts }
  else do
    let candidateArtifacts ← lift (checkedAdd report.candidateArtifacts 1)
    let candidateBytes ← lift (checkedAdd report.candidateBytes bytes)
    when request.execute (removeArtifactBundle env key)
    pure { report with candidateArtifacts, candidateBytes }

/-- The durability step after one directory of `Cache::garbage_collect`. -/
def syncCollected {α : Type} (request : GcRequest) (store : Store) (path : Option (Node α)) :
    Action Unit := do
  match ← lift (readDirectoryIfPresent path) with
  | none => pure ()
  | some _ => when request.execute (sync (.syncStore store))

/-- `Cache::garbage_collect`. -/
def garbageCollect (env : Environment) (request : GcRequest) : Action GcReport := do
  require (request.retainedArtifacts.all isDigest && request.retainedObjects.all isDigest)
    .invalidAddress
  lock env
  let objects ← lift (listNames env .collectObjects (← read).objects)
  let report ← objects.foldlM (collectObject env request) { executed := request.execute }
  syncCollected request .objects (← read).objects
  let artifacts ← lift (listNames env .collectArtifacts (← read).artifacts)
  let report ← artifacts.foldlM (collectArtifact env request) report
  syncCollected request .artifacts (← read).artifacts
  pure report

end NixSeal.Cache
