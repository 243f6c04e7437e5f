import NixSeal.Cache.Write

/-!
# Exchanging ciphertext between caches

Export and import.  Both copy a cache into a fresh one first; the import then compares the copy
with the destination and copies it again while it holds the lock of the destination.
-/

namespace NixSeal.Cache

open Faulty Faulty.Program

/-- The steps of a copy: those of storing each of its entries. -/
inductive CopyStep where
  | object (digest : String) (step : Step)
  | artifact (key : String) (step : Step)
  deriving DecidableEq, Repr

abbrev Copy (α : Type) : Type := Program CopyStep Root CacheError α

/-- One object of `Cache::copy_into_unlocked_with`. -/
def copyObject (env : Environment) (source : Cache) (destinationIsLocked : Bool)
    (report : CacheTransferReport) (name : FileName) : Copy CacheTransferReport := do
  let digest ← lift (digestName name)
  let objectCount ← lift (checkedAdd report.objectCount 1)
  lift (enforceTransferEntryLimit objectCount report.artifactCount)
  let expectedLength ← lift (source.fileLength env (source.objectFile digest))
  let total ← lift (checkedTransferBytes report.bytes expectedLength)
  let bytes ← lift (source.get env digest)
  require (bytes.length = expectedLength) .conflict
  let destinationDigest ← relabel (.object digest)
    (if destinationIsLocked then putUnlocked env bytes else put env bytes)
  require (destinationDigest = digest) .hashMismatch
  pure { report with objectCount, bytes := total }

/-- What `copyRecord` makes of the stored bundle, or of the refusal to store it. -/
def settleRecord (env : Environment) (record : ArtifactRecord) :
    Except CacheError ArtifactRecord → Copy Unit
  | .ok imported =>
      require (imported.artifactCiphertextHash = record.artifactCiphertextHash) .conflict
  | .error .artifactExists => do
      let existing ← lift ((← read).own.loadArtifactByKey env record.key)
      require (existing.artifactCiphertextHash = record.artifactCiphertextHash ∧
        existing.envelope = record.envelope) .conflict
  | .error error => raise error

/-- Storing a bundle of the source, or comparing it with the one that is there. -/
def copyRecord (env : Environment) (destinationIsLocked : Bool) (record : ArtifactRecord)
    (ciphertext : Bytes) : Copy Unit := do
  let imported ← attempt (relabel (.artifact record.key)
    (if destinationIsLocked then
      putArtifactByKeyUnlocked env record.key ciphertext record.envelope
    else putArtifactByKey env record.key ciphertext record.envelope))
  settleRecord env record imported

/-- One bundle of `Cache::copy_into_unlocked_with`. -/
def copyArtifact (env : Environment) (source : Cache) (destinationIsLocked : Bool)
    (report : CacheTransferReport) (key : String) : Copy CacheTransferReport := do
  let artifactCount ← lift (checkedAdd report.artifactCount 1)
  lift (enforceTransferEntryLimit report.objectCount artifactCount)
  let lengths ← lift (source.artifactLayout env key)
  let total ← lift (checkedTransferBytes report.bytes lengths.1)
  let total ← lift (checkedTransferBytes total lengths.2)
  let record ← lift (source.loadArtifactByKey env key)
  let ciphertext ← lift
    (openPrivateRegular env source.requireOwner (source.bundleFile record.key ciphertextName))
  copyRecord env destinationIsLocked record ciphertext
  pure { report with artifactCount, bytes := total }

/-- `Cache::copy_into_unlocked_with`. -/
def copyIntoUnlockedWith (env : Environment) (source : Cache) (destinationIsLocked : Bool) :
    Copy CacheTransferReport := do
  lift (source.preflightTransferLimits env)
  let objects ← lift (listNames env .copyObjects source.root.objects)
  let report ← objects.foldlM (copyObject env source destinationIsLocked) {}
  let keys ← lift (source.artifactKeys env .copyKeys)
  keys.toList.foldlM (copyArtifact env source destinationIsLocked) report

/-- `Cache::open_existing`. -/
def openExisting (env : Environment) (root : Root) : Except CacheError Cache :=
  match root.metadata with
  | none => .error (.io .notFound)
  | some metadata =>
      if metadata.kind ≠ .directory then .error .unsafeMetadata
      else do
        validatePrivateMetadata env metadata true false
        return ⟨root, true⟩

/-- The directory named by the caller of an import. -/
inductive Source where
  /-- The root of the destination itself, under any spelling. -/
  | itself
  | elsewhere (root : Root)

/-- The steps of an import. -/
inductive ImportStep where
  | openStaging (step : Step)
  | staging (step : CopyStep)
  | lock (step : Step)
  | commit (step : CopyStep)
  deriving DecidableEq, Repr

/-- The snapshot an import takes of the exchange, in a directory of its own. -/
def stageExchange (env : Environment) (exchange : Cache) :
    Program ImportStep Root CacheError CacheTransferReport := do
  relabel .openStaging (openCache env)
  relabel .staging (copyIntoUnlockedWith env exchange false)

/-- `Cache::import_from`. -/
def importFrom (env : Environment) (source : Source) :
    Program ImportStep Root CacheError CacheTransferReport := do
  match source with
  | .itself => do
      let _ ← lift (openExisting env (← read))
      raise .unsafeMetadata
  | .elsewhere root => do
      let exchange ← lift (openExisting env root)
      let staged ← within Root.missing (stageExchange env exchange)
      relabel .lock (lock env)
      lift (staged.2.own.preflightDestination env (← read).own)
      let _ ← relabel .commit (copyIntoUnlockedWith env staged.2.own true)
      pure staged.1

/-- The steps of an export. -/
inductive ExportStep where
  | openStaging (step : Step)
  | lock (step : Step)
  | copy (step : CopyStep)
  | removeLock
  | publish
  deriving DecidableEq, Repr

/-- The copy an export makes below a temporary directory, without its lock. -/
def stageExport (env : Environment) (source : Cache) :
    Program ExportStep Root CacheError CacheTransferReport := do
  let report ← relabel .copy (copyIntoUnlockedWith env source false)
  step .removeLock (.io .other) (fun root => { root with lock := none })
  pure report

/-- `Cache::export_to`: the report and the directory that is published at the destination, given
what stands there. -/
def exportTo (env : Environment) (destination : Root) :
    Program ExportStep Root CacheError (CacheTransferReport × Root) := do
  require (destination.metadata.isNone) .destinationExists
  let opened ← within Root.missing (relabel .openStaging (openCache env))
  relabel .lock (lock env)
  let staged ← within opened.2 (stageExport env (← read).own)
  step .publish (.io .other) id
  pure staged

end NixSeal.Cache
