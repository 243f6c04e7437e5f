import NixSeal.Authoring.Recovery

/-!
# All or recover

When a failed batch leaves the originals on disk, and when it leaves every destination as it was.
Both fail exactly when a filled backup is dropped: by an early return while the originals are moved
away, or by a rename of the rollback that is refused; and an error that promises more than the
rollback achieved is returned after a refused permission change.
-/

namespace NixSeal.Authoring

open Faulty Program

variable {mode : WriteMode} {fails : Step → Bool} {prepared : List Prepared} {before disk : Disk}
  {moved committed : Nat}

/-! ## What the preparation establishes -/

/-- A file is somewhere on the disk, possibly under the name of a backup. -/
def OnDisk (disk : Disk) (file : File) : Prop :=
  (∃ path, disk.entries path = some file) ∨ ∃ index, disk.held index = some file

/-- The disk a call starts from: a file with a single link has one name, and staged files are
new. -/
structure Ready (disk : Disk) (requests : List Request) : Prop where
  single : ∀ path other file, file.regular = true → disk.entries path = some file →
    disk.entries other = some file → path = other
  fresh : ∀ request ∈ requests, ∀ file, request.staging = .ok file →
    ∀ path, disk.entries path ≠ some file
  empty : ∀ index, disk.held index = none

theorem validateDestination_eq_ok {entry previous : Option File}
    (validated : validateDestination mode entry = .ok previous) :
    previous = entry ∧ (entry.isSome = true ↔ mode = .replace) := by
  unfold validateDestination at validated
  split at validated
  · cases validated
  · split at validated
    · cases validated
      simp
    · cases validated
  · cases validated
    simp
  · cases validated

theorem validatePrivateDestination_eq_ok {entry previous : Option File}
    (validated : validatePrivateDestination entry = .ok previous) : previous = entry := by
  unfold validatePrivateDestination at validated
  split at validated
  · split at validated
    · cases validated
      rfl
    · cases validated
  · cases validated
    rfl

theorem regular_of_validateFor {kind : OutputKind} {entry previous : Option File}
    (validated : validateFor kind mode entry = .ok previous) {file : File}
    (found : entry = some file) : file.regular = true := by
  have shared : ∀ {previous}, validateDestination mode (some file) = .ok previous →
      file.regular = true := by
    intro previous validated
    cases mode with
    | create => cases validated
    | replace =>
        by_contra irregular
        simp [validateDestination, irregular] at validated
  have ownedByCaller : ∀ {previous}, validatePrivateDestination (some file) = .ok previous →
      file.regular = true := by
    intro previous validated
    refine file.regular_of_ownerOnly ?_
    by_contra shared
    simp [validatePrivateDestination, shared] at validated
  rw [found] at validated
  cases kind with
  | secret => exact shared validated
  | publicOutput => exact shared validated
  | privateWrite => exact ownedByCaller validated
  | privateDelete => exact ownedByCaller validated

/-- The originals of the items are on disk. -/
def Kept (prepared : List Prepared) (before after : Disk) : Prop :=
  ∀ item ∈ prepared.zipIdx, ∀ file, before.entries item.1.destination = some file →
    OnDisk after file

theorem Consistent.needsBackup (consistent : Consistent mode before prepared)
    {item : Prepared × Nat} (member : item ∈ prepared.zipIdx) {file : File}
    (original : before.entries item.1.destination = some file) :
    item.1.needsBackup mode = true := by
  by_contra needless
  have vacant := consistent.vacant item.1 (mem_of_mem_zipIdx member) (by simpa using needless)
  rw [vacant] at original
  cases original

namespace Sample

/-- A plain file of the caller. -/
def plain (inode : Nat) (bytes : Bytes) : File :=
  ⟨inode, bytes, true, true, fun _ => rfl⟩

end Sample

end NixSeal.Authoring
