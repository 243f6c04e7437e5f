import NixSeal.Cache.Disk
import Std.Data.TreeSet

/-!
# Reading a ciphertext cache

The functions of the cache crate that do not change the file system: addresses, single reads with
their checks, the aggregate limits and the inventories.
-/

namespace NixSeal

/-- A cache to read from: its files, and whether another user may own them. -/
structure Cache where
  root : Cache.Root
  allowForeignOwner : Bool

namespace Cache

/-- A cache of the effective user. -/
def Root.own (root : Root) : Cache := ⟨root, false⟩

def maxCiphertextBytes : Nat := 70 * 1024 * 1024
def maxEnvelopeBytes : Nat := 2 * 1024 * 1024
def maxTransferEntries : Nat := 10000
def maxTransferBytes : Nat := 8 * 1024 * 1024 * 1024
def maxInventoryEnvelopeBytes : Nat := 64 * 1024 * 1024
def artifactFormat : String := "nix-seal.cache-artifact.v3"

/-- The name of the ciphertext in a bundle. -/
def ciphertextName : String := "ciphertext.age"

/-- The name of the signed envelope in a bundle. -/
def envelopeName : String := "manifest.dsse.json"

/-- `ArtifactAddress`. -/
structure ArtifactAddress where
  artifactPolicyHash : String
  sourceCiphertextHash : String
  recipientFingerprint : String
  targetId : String
  secretId : String
  artifactGeneration : UInt64
  deriving DecidableEq, Repr

/-- `is_id`. -/
def isId (value : String) : Bool :=
  !value.toList.isEmpty && !startsWith "/" value &&
    (segments value).all fun segment =>
      !segment.isEmpty && segment != ['.'] && segment != ['.', '.'] &&
        segment.all fun char =>
          isAsciiLowercase char || isAsciiDigit char || char == '.' || char == '_' || char == '-'

/-- `u64::to_be_bytes`. -/
def beU64 (value : Nat) : Bytes :=
  (List.range 8).map fun index => UInt8.ofNat (value / 256 ^ (7 - index))

namespace ArtifactAddress

/-- `ArtifactAddress::validate`. -/
def validate (address : ArtifactAddress) : Except CacheError Unit :=
  if [address.artifactPolicyHash, address.sourceCiphertextHash,
        address.recipientFingerprint].all isDigest && isId address.targetId &&
      isId address.secretId && address.artifactGeneration > 0 then .ok ()
  else .error .invalidAddress

/-- `ArtifactAddress::key`. -/
def key (env : Environment) (address : ArtifactAddress) : Except CacheError String := do
  address.validate
  let fields := [artifactFormat, address.artifactPolicyHash, address.sourceCiphertextHash,
    address.recipientFingerprint, address.targetId, address.secretId]
  return env.digest (utf8 "nix-seal.cache-address.v3\x00" ++
    fields.flatMap (fun field => beU64 field.utf8ByteSize ++ utf8 field) ++
      beU64 address.artifactGeneration.toNat)

end ArtifactAddress

/-- `ArtifactRecord`; paths are relative to the cache root. -/
structure ArtifactRecord where
  key : String
  artifactCiphertextHash : String
  envelope : Bytes
  ciphertextPath : List String
  envelopePath : List String
  deriving DecidableEq, Repr

/-- The record of a bundle: its paths follow from its key. -/
def artifactRecord (key artifactCiphertextHash : String) (envelope : Bytes) : ArtifactRecord where
  key := key
  artifactCiphertextHash := artifactCiphertextHash
  envelope := envelope
  ciphertextPath := ["artifacts", key, ciphertextName]
  envelopePath := ["artifacts", key, envelopeName]

/-- `CacheInventory`. -/
structure CacheInventory where
  objectCount : Nat := 0
  objectBytes : Nat := 0
  artifactCount : Nat := 0
  artifactCiphertextBytes : Nat := 0
  artifactEnvelopeBytes : Nat := 0
  deriving DecidableEq, Repr

/-- `CacheTransferReport`. -/
structure CacheTransferReport where
  objectCount : Nat := 0
  artifactCount : Nat := 0
  bytes : Nat := 0
  deriving DecidableEq, Repr

/-- `checked_transfer_bytes`. -/
def checkedTransferBytes (total additional : Nat) : Except CacheError Nat := do
  let total ← checkedAdd total additional
  if total > maxTransferBytes then .error .limit else .ok total

/-- `enforce_transfer_entry_limit`. -/
def enforceTransferEntryLimit (objects artifacts : Nat) : Except CacheError Unit := do
  let total ← checkedAdd objects artifacts
  if total > maxTransferEntries then .error .limit else .ok ()

/-- The name of a directory entry that must be a digest. -/
def digestName (name : FileName) : Except CacheError String :=
  match name.toStr with
  | none => .error .unsafeMetadata
  | some text => if isDigest text then .ok text else .error .unsafeMetadata

/-- The names of a directory in the order of one listing, none when it is missing. -/
def listNames {α : Type} (env : Environment) (scan : Scan) (path : Option (Node α)) :
    Except CacheError (List FileName) := do
  match ← readDirectoryIfPresent path with
  | none => return []
  | some entries => return env.listing scan entries.keys

section Reading

variable (env : Environment) (cache : Cache)

def requireOwner : Bool := !cache.allowForeignOwner

/-- `Cache::validate_private_metadata`. -/
def validatePrivate (metadata : Metadata) (directory : Bool) : Except CacheError Unit :=
  validatePrivateMetadata env metadata directory cache.requireOwner

/-- `Cache::file_length`. -/
def fileLength (file : Except IoKind Leaf) : Except CacheError Nat :=
  match file with
  | .error kind => .error (.io kind)
  | .ok node => do
      cache.validatePrivate env node.metadata false
      return node.metadata.length

/-- The entry of an object. -/
def objectFile (digest : String) : Except IoKind Leaf :=
  child cache.root.objects (.text digest)

/-- The directory of a bundle. -/
def bundleDirectory (key : String) : Except IoKind (Node Leaf) :=
  child cache.root.artifacts (.text key)

/-- A file of a bundle. -/
def bundleFile (key file : String) : Except IoKind Leaf := do
  child (some (← cache.bundleDirectory key)) (.text file)

/-- Whether `get` accepts a digest: hexadecimal digits of either case. -/
def isHexDigest (digest : String) : Bool :=
  digest.utf8ByteSize == 64 &&
    digest.toList.all fun char =>
      isAsciiDigit char || (0x61 ≤ char.toNat && char.toNat ≤ 0x66) ||
        (0x41 ≤ char.toNat && char.toNat ≤ 0x46)

/-- `Cache::get`. -/
def get (digest : String) : Except CacheError Bytes :=
  if !isHexDigest digest then .error .hashMismatch
  else do
    let file ← openPrivateRegular env cache.requireOwner (cache.objectFile digest)
    let bytes ← readBounded file maxCiphertextBytes
    if env.digest bytes ≠ digest then .error .hashMismatch else .ok bytes

/-- One entry of `Cache::artifact_keys`. -/
def addArtifactKey (keys : Std.TreeSet String compare) (name : FileName) :
    Except CacheError (Std.TreeSet String compare) := do
  let key ← digestName name
  if key ∈ keys then .error .unsafeMetadata
  else if (keys.insert key).size > maxTransferEntries then .error .limit
  else .ok (keys.insert key)

/-- `Cache::artifact_keys`, listing the directory as `scan` does. -/
def artifactKeys (scan : Scan) : Except CacheError (Std.TreeSet String compare) := do
  let names ← listNames env scan cache.root.artifacts
  names.foldlM addArtifactKey ∅

/-- One name of a bundle in `Cache::artifact_layout`. -/
def addBundleName (names : Std.TreeSet String compare) (name : FileName) :
    Except CacheError (Std.TreeSet String compare) :=
  match name.toStr with
  | none => .error .unsafeMetadata
  | some text => .ok (names.insert text)

/-- The names in a bundle. -/
def bundleNames (key : String) (entries : Folder Leaf) :
    Except CacheError (Std.TreeSet String compare) :=
  (env.listing (.bundle key) entries.keys).foldlM addBundleName ∅

/-- `Cache::artifact_layout`, for the two lengths it returns. -/
def artifactLayout (key : String) : Except CacheError (Nat × Nat) :=
  if !isDigest key then .error .invalidAddress
  else
    match cache.bundleDirectory key with
    | .error kind => .error (.io kind)
    | .ok node => do
        cache.validatePrivate env node.metadata true
        let entries ← node.entries.mapError .io
        let names ← bundleNames env key entries
        if names.toList ≠ [ciphertextName, envelopeName] then .error .unsafeMetadata
        else do
          let ciphertextBytes ← cache.fileLength env (cache.bundleFile key ciphertextName)
          let envelopeBytes ← cache.fileLength env (cache.bundleFile key envelopeName)
          if ciphertextBytes > maxCiphertextBytes ∨ envelopeBytes > maxEnvelopeBytes then
            .error .limit
          else .ok (ciphertextBytes, envelopeBytes)

/-- `Cache::load_artifact_by_key`. -/
def loadArtifactByKey (key : String) : Except CacheError ArtifactRecord := do
  let _ ← cache.artifactLayout env key
  let ciphertext ← openPrivateRegular env cache.requireOwner (cache.bundleFile key ciphertextName)
  let artifactCiphertextHash ← hashBounded env ciphertext maxCiphertextBytes
  let file ← openPrivateRegular env cache.requireOwner (cache.bundleFile key envelopeName)
  let envelope ← readBounded file maxEnvelopeBytes
  return artifactRecord key artifactCiphertextHash envelope

/-- `Cache::load_artifact`. -/
def loadArtifact (address : ArtifactAddress) : Except CacheError (Option ArtifactRecord) := do
  let key ← address.key env
  match cache.bundleDirectory key with
  | .ok node =>
      if node.metadata.kind ≠ .directory then .error .unsafeMetadata
      else do
        cache.validatePrivate env node.metadata true
        return some (← cache.loadArtifactByKey env key)
  | .error .notFound => return none
  | .error kind => .error (.io kind)

/-- One object of `Cache::inventory`. -/
def inventoryObject (inventory : CacheInventory) (name : FileName) :
    Except CacheError CacheInventory := do
  let digest ← digestName name
  let file ← openPrivateRegular env cache.requireOwner (cache.objectFile digest)
  let bytes ← readBounded file maxCiphertextBytes
  if env.digest bytes ≠ digest then .error .hashMismatch
  else do
    let objectCount ← checkedAdd inventory.objectCount 1
    let objectBytes ← checkedAdd inventory.objectBytes bytes.length
    return { inventory with objectCount, objectBytes }

/-- One bundle of `Cache::inventory`. -/
def inventoryArtifact (inventory : CacheInventory) (name : FileName) :
    Except CacheError CacheInventory := do
  let key ← digestName name
  let record ← cache.loadArtifactByKey env key
  let artifactCount ← checkedAdd inventory.artifactCount 1
  let length ← cache.fileLength env (cache.bundleFile key ciphertextName)
  let artifactCiphertextBytes ← checkedAdd inventory.artifactCiphertextBytes length
  let artifactEnvelopeBytes ← checkedAdd inventory.artifactEnvelopeBytes record.envelope.length
  return { inventory with artifactCount, artifactCiphertextBytes, artifactEnvelopeBytes }

/-- `Cache::inventory`. -/
def inventory : Except CacheError CacheInventory := do
  let objects ← listNames env .inventoryObjects cache.root.objects
  let counted ← objects.foldlM (cache.inventoryObject env) {}
  let artifacts ← listNames env .inventoryArtifacts cache.root.artifacts
  artifacts.foldlM (cache.inventoryArtifact env) counted

/-- One key of `Cache::artifact_records`. -/
def addRecord (collected : List ArtifactRecord × Nat) (key : String) :
    Except CacheError (List ArtifactRecord × Nat) := do
  let record ← cache.loadArtifactByKey env key
  let envelopeBytes ← checkedAdd collected.2 record.envelope.length
  if envelopeBytes > maxInventoryEnvelopeBytes then .error .limit
  else return (collected.1 ++ [record], envelopeBytes)

/-- `Cache::artifact_records`. -/
def artifactRecords : Except CacheError (List ArtifactRecord) := do
  let keys ← cache.artifactKeys env .recordKeys
  let collected ← keys.toList.foldlM (cache.addRecord env) ([], 0)
  return collected.1

/-- One object of `Cache::preflight_transfer_limits`. -/
def limitObject (totals : Nat × Nat) (name : FileName) : Except CacheError (Nat × Nat) := do
  let digest ← digestName name
  let objectCount ← checkedAdd totals.1 1
  enforceTransferEntryLimit objectCount 0
  let length ← cache.fileLength env (cache.objectFile digest)
  if length > maxCiphertextBytes then .error .limit
  else do
    let bytes ← checkedTransferBytes totals.2 length
    return (objectCount, bytes)

/-- Running totals of the bundles in `Cache::preflight_transfer_limits`. -/
structure LimitTotals where
  artifactCount : Nat
  bytes : Nat
  envelopeBytes : Nat

/-- One bundle of `Cache::preflight_transfer_limits`. -/
def limitArtifact (objectCount : Nat) (totals : LimitTotals) (key : String) :
    Except CacheError LimitTotals := do
  let artifactCount ← checkedAdd totals.artifactCount 1
  enforceTransferEntryLimit objectCount artifactCount
  let lengths ← cache.artifactLayout env key
  let bytes ← checkedTransferBytes totals.bytes lengths.1
  let bytes ← checkedTransferBytes bytes lengths.2
  let envelopeBytes ← checkedAdd totals.envelopeBytes lengths.2
  if envelopeBytes > maxInventoryEnvelopeBytes then .error .limit
  else return ⟨artifactCount, bytes, envelopeBytes⟩

/-- `Cache::preflight_transfer_limits`. -/
def preflightTransferLimits : Except CacheError Unit := do
  let objects ← listNames env .limitObjects cache.root.objects
  let totals ← objects.foldlM (cache.limitObject env) (0, 0)
  let keys ← cache.artifactKeys env .limitKeys
  let _ ← keys.toList.foldlM (cache.limitArtifact env totals.1) ⟨0, totals.2, 0⟩
  return ()

/-- One object of `Cache::preflight_destination`. -/
def preflightObject (destination : Cache) (name : FileName) : Except CacheError Unit :=
  match name.toStr with
  | none => .error .unsafeMetadata
  | some digest => do
      let _ ← cache.get env digest
      match destination.objectFile digest with
      | .ok _ => do
          let _ ← destination.get env digest
          return ()
      | .error .notFound => return ()
      | .error kind => .error (.io kind)

/-- One record of `Cache::preflight_destination`. -/
def preflightRecord (destination : Cache) (record : ArtifactRecord) : Except CacheError Unit :=
  match destination.bundleDirectory record.key with
  | .ok _ => do
      let existing ← destination.loadArtifactByKey env record.key
      if existing.artifactCiphertextHash ≠ record.artifactCiphertextHash ∨
          existing.envelope ≠ record.envelope then .error .conflict
      else return ()
  | .error .notFound => return ()
  | .error kind => .error (.io kind)

/-- The directory checks of `Cache::preflight_destination`. -/
def preflightStore {α : Type} (path : Option (Node α)) : Except CacheError Unit :=
  match path with
  | none => return ()
  | some node => cache.validatePrivate env node.metadata true

/-- `Cache::preflight_destination`. -/
def preflightDestination (destination : Cache) : Except CacheError Unit := do
  destination.preflightStore env destination.root.objects
  destination.preflightStore env destination.root.artifacts
  let objects ← listNames env .preflightObjects cache.root.objects
  objects.forM (cache.preflightObject env destination)
  let records ← cache.artifactRecords env
  records.forM (preflightRecord env destination)

end Reading

end Cache

end NixSeal
