import NixSeal.Lib.Faulty
import NixSeal.Authoring.Basic

/-!
# Batch transactions

A batch stages every output, moves the originals to backups, commits the staged files and restores
the originals when a commit fails.  A backup is a `TempPath`: its file is deleted when the handle
is dropped, at the latest when the call returns.  The five batch functions prepare their outputs in
their own ways and share the transaction; `restore_batch` and `restore_combined` are one function
written twice.
-/

namespace NixSeal.Authoring

open Faulty Program

/-- A file: its identity and content, and what the metadata checks see of it. -/
structure File where
  inode : Nat
  bytes : Bytes
  /-- `safe_regular`: a regular file with a single link. -/
  regular : Bool
  /-- `private_regular`: moreover owned by the caller, with no group and other bits. -/
  ownerOnly : Bool
  regular_of_ownerOnly : ownerOnly = true → regular = true
  deriving DecidableEq, Repr

/-- The destinations, and the files held by the backup of each item. -/
structure Disk where
  entries : String → Option File
  held : Nat → Option File

/-- The kinds of `PreparedCombinedWrite`. -/
inductive OutputKind where
  | secret
  | publicOutput
  | privateWrite
  | privateDelete
  deriving DecidableEq, Repr

/-- One requested change, with the results of the steps that do not touch the destinations. -/
structure Write where
  /-- Checks of identities, sources and sizes made before the destination is inspected. -/
  admission : Except AuthoringError Unit
  /-- `resolve_destination`. -/
  destination : Except AuthoringError String
  /-- The staged temporary file; a deletion stages nothing and only makes the parent private. -/
  staging : Except AuthoringError File

/-- A requested change and what it is. -/
structure Request extends Write where
  kind : OutputKind

/-- `PreparedCombinedWrite` and `PreparedBatchWrite`. -/
structure Prepared where
  kind : OutputKind
  destination : String
  previous : Option File
  staged : Option File
  deriving DecidableEq, Repr

/-- `validate_destination`. -/
def validateDestination (mode : WriteMode) (entry : Option File) :
    Except AuthoringError (Option File) :=
  match entry, mode with
  | some _, .create => .error .destinationState
  | some file, .replace => if file.regular then .ok (some file) else .error .destinationState
  | none, .create => .ok none
  | none, .replace => .error .destinationState

/-- `validate_private_destination`. -/
def validatePrivateDestination (entry : Option File) : Except AuthoringError (Option File) :=
  match entry with
  | some file => if file.ownerOnly then .ok (some file) else .error .destinationState
  | none => .ok none

/-- `ensure_unchanged`. -/
def ensureUnchanged (entry previous : Option File) : Except AuthoringError Unit :=
  match previous, entry with
  | none, _ => .error .destinationState
  | some _, none => .error .io
  | some previous, some current =>
      if current.regular = false ∨ previous.inode ≠ current.inode then .error .destinationState
      else .ok ()

/-- The check of a destination, by the kind of the output. -/
def validateFor (kind : OutputKind) (mode : WriteMode) (entry : Option File) :
    Except AuthoringError (Option File) :=
  match kind with
  | .secret => validateDestination mode entry
  | .publicOutput => validateDestination mode entry
  | .privateWrite => validatePrivateDestination entry
  | .privateDelete => validatePrivateDestination entry

/-- What is staged for a request. -/
def Request.stagedFile (request : Request) : Except AuthoringError (Option File) :=
  match request.kind with
  | .privateDelete => request.staging.map fun _ => none
  | _ => request.staging.map some

/-- One turn of the preparation loops; `prepared` are the items before. -/
def prepare (mode : WriteMode) (disk : Disk) (prepared : List Prepared) (request : Request) :
    Except AuthoringError (List Prepared) := do
  request.admission
  let destination ← request.destination
  if destination ∈ prepared.map Prepared.destination then .error .destinationState
  else do
    let previous ← validateFor request.kind mode (disk.entries destination)
    let staged ← request.stagedFile
    .ok (prepared ++ [⟨request.kind, destination, previous, staged⟩])

/-- The second look at a destination before any of them changes. -/
def recheck (mode : WriteMode) (disk : Disk) (item : Prepared) : Except AuthoringError Unit :=
  let entry := disk.entries item.destination
  if item.kind = .secret ∨ item.kind = .publicOutput then
    match mode with
    | .create => if entry.isSome then .error .destinationState else .ok ()
    | .replace => ensureUnchanged entry item.previous
  else if item.previous.isSome then ensureUnchanged entry item.previous
  else .ok ()

/-- `needs_backup`. -/
def Prepared.needsBackup (mode : WriteMode) (item : Prepared) : Bool :=
  match item.kind with
  | .secret => mode = .replace
  | .publicOutput => mode = .replace
  | .privateWrite => item.previous.isSome
  | .privateDelete => item.previous.isSome

/-- Whether the commit must not overwrite, as `persist_noclobber` does not. -/
def Prepared.noclobber (mode : WriteMode) (item : Prepared) : Bool :=
  (item.kind = .secret || item.kind = .publicOutput) && mode = .create

/-- The file-system steps of a transaction, by item. -/
inductive Step where
  | createBackup (index : Nat)
  | protectBackup (index : Nat)
  | moveOriginal (index : Nat)
  | publish (index : Nat)
  | persist (index : Nat)
  | removeCommitted (index : Nat)
  | restoreOriginal (index : Nat)
  /-- The synchronization of some parent directory. -/
  | sync
  deriving DecidableEq, Repr

abbrev Transaction (α : Type) : Type := Program Step Disk AuthoringError α

/-- Put a file at a destination, or remove it. -/
def Disk.set (disk : Disk) (destination : String) (file : Option File) : Disk :=
  { disk with entries := Function.update disk.entries destination file }

/-- Fill or drop the backup of an item. -/
def Disk.hold (disk : Disk) (index : Nat) (file : Option File) : Disk :=
  { disk with held := Function.update disk.held index file }

/-- Whether a step is not refused, as `is_err` tells. -/
def tried (program : Transaction Unit) : Transaction Bool := do
  match ← attempt program with
  | .ok _ => pure true
  | .error _ => pure false

/-- The removal of a committed output during a rollback. -/
def removeCommitted (committed : List String) (item : Prepared × Nat) : Transaction Bool :=
  if item.1.destination ∈ committed then
    tried (Program.step (.removeCommitted item.2) .io fun disk => disk.set item.1.destination none)
  else pure true

/-- One turn of `restore_combined`. -/
def restoreItem (committed : List String) (restored : Bool) (item : Prepared × Nat) :
    Transaction Bool := do
  let removed ← removeCommitted committed item
  let disk ← read
  match disk.held item.2 with
  | none => pure (restored && removed)
  | some file => do
      let renamed ← tried (Program.step (.restoreOriginal item.2) .io fun disk =>
        disk.set item.1.destination (some file))
      -- The handle was taken out of the list, so it is dropped whether or not it still has a file.
      update fun disk => disk.hold item.2 none
      pure (restored && removed && renamed)

/-- `restore_combined` and `restore_batch`. -/
def restore (committed : List String) (items : List (Prepared × Nat)) : Transaction Bool :=
  items.reverse.foldlM (restoreItem committed) true

/-- A rollback and its failure, unless a step succeeded. -/
def orRecover (succeeded : Bool) (committed : List String) (items : List (Prepared × Nat))
    (unrestored : AuthoringError) : Transaction Unit :=
  if succeeded then pure ()
  else do
    let restored ← restore committed items
    raise (if restored then .batchRolledBack else unrestored)

/-- One turn of the loop that moves the originals away; `before` are the items with a backup
slot. -/
def moveOriginal (mode : WriteMode) (before : List (Prepared × Nat)) (item : Prepared × Nat) :
    Transaction (List (Prepared × Nat)) :=
  if item.1.needsBackup mode then do
    Program.step (.createBackup item.2) .io id
    Program.step (.protectBackup item.2) .io id
    let moved ← tried (Program.step (.moveOriginal item.2) .io fun disk =>
      (disk.hold item.2 (disk.entries item.1.destination)).set item.1.destination none)
    orRecover moved [] before .batchRecoveryUnknown
    pure (before ++ [item])
  else pure (before ++ [item])

/-- The permission change of a public output. -/
def publish (items : List (Prepared × Nat)) (committed : List String) (item : Prepared × Nat) :
    Transaction Unit :=
  if item.1.kind = .publicOutput then do
    let published ← tried (Program.step (.publish item.2) .io id)
    orRecover published committed items .io
  else pure ()

/-- `persist`, or `persist_noclobber` where nothing may be overwritten. -/
def persist (mode : WriteMode) (item : Prepared × Nat) (staged : File) : Transaction Unit := do
  let disk ← read
  require (item.1.noclobber mode = true → disk.entries item.1.destination = none)
    AuthoringError.io
  Program.step (.persist item.2) .io fun disk => disk.set item.1.destination (some staged)

/-- One turn of the commit loops. -/
def commitItem (mode : WriteMode) (items : List (Prepared × Nat)) (committed : List String)
    (item : Prepared × Nat) : Transaction (List String) :=
  if item.1.kind = .privateDelete then pure committed
  else
    match item.1.staged with
    | none => do
        orRecover false committed items .batchRecoveryUnknown
        pure committed
    | some staged => do
        publish items committed item
        let persisted ← tried (persist mode item staged)
        orRecover persisted committed items .batchRecoveryUnknown
        pure (committed ++ [item.1.destination])

/-- From the first changed destination to the last synchronization. -/
def transact (mode : WriteMode) (prepared : List Prepared) : Transaction Unit := do
  let items ← prepared.zipIdx.foldlM (moveOriginal mode) []
  let _ ← items.foldlM (commitItem mode items) []
  Program.step .sync .durabilityUnknown id

/-- Drop every backup that is left when the call returns. -/
def Disk.dropBackups (disk : Disk) : Disk :=
  { disk with held := fun _ => none }

/-- The bound on the number of outputs. -/
def admitted (requests : List Request) : Except AuthoringError Unit :=
  if requests.isEmpty ∨ 10000 < requests.length then .error .unsafePath else .ok ()

/-- The part of a batch before the first change of a destination. -/
def prepareBatch (mode : WriteMode) (locked : Except AuthoringError Unit)
    (requests : List Request) (sources : Except AuthoringError Unit) (disk : Disk) :
    Except AuthoringError (List Prepared) := do
  locked
  admitted requests
  let prepared ← requests.foldlM (prepare mode disk) []
  sources
  prepared.forM (recheck mode disk)
  .ok prepared

/-- A batch from the repository lock on; `sources` are the checks of legacy sources between the
preparation and the second look. -/
def runBatch (mode : WriteMode) (locked : Except AuthoringError Unit) (requests : List Request)
    (sources : Except AuthoringError Unit) : Transaction Unit := do
  let disk ← read
  let prepared ← lift (prepareBatch mode locked requests sources disk)
  let ended ← attempt (transact mode prepared)
  update Disk.dropBackups
  lift ended

/-- The five batch functions and what they are called with; `sources` are the checks that the
legacy sources did not change and are no destinations. -/
inductive BatchCall where
  | writeSecretBatch (writes : List Write)
  | rekeySecretBatchInner (writes : List Write) (sources : Except AuthoringError Unit)
  | writeSecretFileBatch (writes : List Write) (sources : Except AuthoringError Unit)
  | writePublicFileBatch (writes : List Write) (sources : Except AuthoringError Unit)
  | writeSecretPublicPrivateBatch (secrets publicOutputs privates deletes : List Write)

/-- The requests of a call, in the order of preparation. -/
def BatchCall.requests : BatchCall → List Request
  | .writeSecretBatch writes => writes.map (Request.mk · .secret)
  | .rekeySecretBatchInner writes _ => writes.map (Request.mk · .secret)
  | .writeSecretFileBatch writes _ => writes.map (Request.mk · .secret)
  | .writePublicFileBatch writes _ => writes.map (Request.mk · .publicOutput)
  | .writeSecretPublicPrivateBatch secrets publicOutputs privates deletes =>
      secrets.map (Request.mk · .secret) ++ publicOutputs.map (Request.mk · .publicOutput) ++
        privates.map (Request.mk · .privateWrite) ++ deletes.map (Request.mk · .privateDelete)

/-- The checks of legacy sources between the preparation and the second look. -/
def BatchCall.sources : BatchCall → Except AuthoringError Unit
  | .writeSecretBatch _ => .ok ()
  | .rekeySecretBatchInner _ sources => sources
  | .writeSecretFileBatch _ sources => sources
  | .writePublicFileBatch _ sources => sources
  | .writeSecretPublicPrivateBatch _ _ _ _ => .ok ()

/-- A call of a batch function. -/
def BatchCall.run (call : BatchCall) (mode : WriteMode) (locked : Except AuthoringError Unit) :
    Transaction Unit :=
  runBatch mode locked call.requests call.sources

end NixSeal.Authoring
