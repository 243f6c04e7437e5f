import NixSeal.Authoring.Batch
import NixSeal.Lib.Fallible
import Mathlib.Data.List.Infix

/-!
# Trees of files

What is below a root, by normalized relative path, with the directories that are made on the way to
a destination.  `write_secret_public_private_batch` on such a tree prepares every output before it
changes the first destination; here no step of the system is refused.
-/

namespace NixSeal.Authoring

open Faulty Program

/-- A directory, as its metadata show it. -/
structure Directory where
  /-- Whether the effective user owns it. -/
  owned : Bool
  /-- Whether it has no group and other bits. -/
  restricted : Bool
  deriving DecidableEq, Repr

/-- What a path names. -/
inductive Node where
  | directory (directory : Directory)
  /-- A regular file; `regular` tells whether it has a single link. -/
  | file (file : File)
  /-- A link or a special file, and whether it leads to something. -/
  | other (resolves : Bool)
  deriving DecidableEq, Repr

/-- What is below a root. -/
abbrev Tree : Type := String → Option Node

/-- What the checks of files see of a node. -/
def Node.asFile : Node → File
  | .file found => found
  | .directory _ => ⟨0, [], false, false, by decide⟩
  | .other _ => ⟨0, [], false, false, by decide⟩

/-- The destinations of a batch. -/
def Tree.disk (tree : Tree) : Disk where
  entries path := (tree path).map Node.asFile
  held _ := none

/-- Whether a path names a directory. -/
def Tree.isDirectory (tree : Tree) (path : String) : Bool :=
  match tree path with
  | some (.directory _) => true
  | _ => false

/-- The tree after files were placed and removed. -/
def Tree.settle (tree : Tree) (disk : Disk) : Tree := fun path =>
  match tree path with
  | some (.directory directory) => some (.directory directory)
  | some (.other resolves) => some (.other resolves)
  | _ => (disk.entries path).map .file

/-- The directories between the root and a path, from the root on. -/
def ancestors (path : String) : List String :=
  (path.toList.inits.filter fun front => front ++ ['/'] <+: path.toList).map String.ofList

/-- A path of named components, relative to the root. -/
def isRelative (path : String) : Bool :=
  !path.toList.isEmpty && !isAbsolute path &&
    (pathComponents path).all PathComponent.isRootOrNormal

/-- One turn of the loop of `resolve_destination`; `restrictive` tells whether the mask of the
process takes group and other bits from new directories. -/
def enterDirectory (restrictive : Bool) (tree : Tree) (directory : String) :
    Except AuthoringError Tree :=
  match tree directory with
  | some (.directory _) => .ok tree
  | some _ => .error .unsafePath
  | none => .ok (Function.update tree directory (some (.directory ⟨true, restrictive⟩)))

/-- `resolve_destination`. -/
def resolveDestination (restrictive : Bool) (tree : Tree) (path : String) :
    Except AuthoringError Tree :=
  if !isRelative path then .error .unsafePath
  else (ancestors path).foldlM (enterDirectory restrictive) tree

/-- `set_private_directory`. -/
def setPrivateDirectory (tree : Tree) (directory : String) : Except AuthoringError Tree :=
  match tree directory with
  | some (.directory found) =>
      if found.owned then .ok (Function.update tree directory (some (.directory ⟨true, true⟩)))
      else .error .io
  | _ => .error .io

/-- The directory of a path, unless it is the root. -/
def parentDirectory (path : String) : Option String := (ancestors path).getLast?

/-- The permission change of the directory of a private file. -/
def protectParent (kind : OutputKind) (tree : Tree) (path : String) : Except AuthoringError Tree :=
  if kind = .secret ∨ kind = .publicOutput then .ok tree
  else
    match parentDirectory path with
    | none => .ok tree
    | some directory => setPrivateDirectory tree directory

/-- One requested change of a tree. -/
structure TreeWrite where
  kind : OutputKind
  relativeDestination : String
  /-- Checks of identities and sizes made before the destination is resolved. -/
  admission : Except AuthoringError Unit
  /-- The staged temporary file; a deletion has none. -/
  staging : Except AuthoringError File

/-- What is staged for a change. -/
def TreeWrite.staged (write : TreeWrite) : Except AuthoringError (Option File) :=
  if write.kind = .privateDelete then .ok none else write.staging.map some

/-- The tree with the directories made so far, and the items prepared. -/
structure Preparation where
  tree : Tree
  items : List Prepared

/-- One turn of the preparation loops. -/
def prepareWrite (restrictive : Bool) (mode : WriteMode) (preparation : Preparation)
    (write : TreeWrite) : Except AuthoringError Preparation := do
  write.admission
  let tree ← resolveDestination restrictive preparation.tree write.relativeDestination
  if write.relativeDestination ∈ preparation.items.map Prepared.destination then
    .error .destinationState
  else do
    let previous ← validateFor write.kind mode (tree.disk.entries write.relativeDestination)
    let tree ← protectParent write.kind tree write.relativeDestination
    let staged ← write.staged
    .ok ⟨tree, preparation.items ++ [⟨write.kind, write.relativeDestination, previous, staged⟩]⟩

/-- `write_secret_public_private_batch`. -/
def writeSecretPublicPrivateBatch (restrictive : Bool) (locked : Except AuthoringError Unit)
    (mode : WriteMode) (writes : List TreeWrite) (tree : Tree) : Except AuthoringError Tree := do
  locked
  if writes.isEmpty ∨ 10000 < writes.length then .error .unsafePath
  else do
    let prepared ← writes.foldlM (prepareWrite restrictive mode) ⟨tree, []⟩
    prepared.items.forM (recheck mode prepared.tree.disk)
    -- A private file is not looked at again, and no file is renamed over a directory.
    if prepared.items.any fun item =>
        item.kind = .privateWrite && prepared.tree.isDirectory item.destination then
      .error .batchRolledBack
    else do
      let ended := (transact mode prepared.items).passing prepared.tree.disk
      ended.1
      .ok (prepared.tree.settle ended.2)

/-! ## Directories -/

theorem mem_ancestors {path directory : String} :
    directory ∈ ancestors path ↔ directory.toList ++ ['/'] <+: path.toList := by
  simp only [ancestors, List.mem_map, List.mem_filter, List.mem_inits, decide_eq_true_eq]
  constructor
  · rintro ⟨front, ⟨-, below⟩, rfl⟩
    simpa using below
  · intro below
    exact ⟨directory.toList, ⟨(List.prefix_append _ _).trans below, below⟩, by simp⟩

/-- A tree in which missing directories were made and others made private. -/
def Tree.grow (restrictive : Bool) (made guarded : List String) (tree : Tree) : Tree := fun path =>
  match tree path with
  | some (.directory found) =>
      some (.directory ⟨found.owned, found.restricted || decide (path ∈ guarded)⟩)
  | some (.file found) => some (.file found)
  | some (.other resolves) => some (.other resolves)
  | none =>
      if path ∈ made then some (.directory ⟨true, restrictive || decide (path ∈ guarded)⟩) else none

/-- A directory is at a path, or nothing is. -/
def Tree.Enterable (tree : Tree) (path : String) : Prop :=
  tree path = none ∨ ∃ found, tree path = some (.directory found)

/-- Nothing is at a path, or a directory of the effective user. -/
def Tree.Cleared (tree : Tree) (path : String) : Prop :=
  ∀ node, tree path = some node → ∃ found, node = .directory found ∧ found.owned = true

theorem Tree.Cleared.enterable {tree : Tree} {path : String} (cleared : tree.Cleared path) :
    tree.Enterable path := by
  cases here : tree path with
  | none => exact .inl here
  | some node =>
      obtain ⟨found, rfl, -⟩ := cleared node here
      exact .inr ⟨found, here⟩

theorem Tree.Enterable.no_file {tree : Tree} {path : String} (enterable : tree.Enterable path)
    (file : File) : tree path ≠ some (.file file) := by
  intro here
  rcases enterable with missing | ⟨found, there⟩
  · cases here.symm.trans missing
  · cases here.symm.trans there

section Grow

variable {restrictive : Bool} {made guarded : List String} {tree : Tree} {path : String}

theorem grow_nil : tree.grow restrictive [] [] = tree := by
  funext path
  simp only [Tree.grow]
  split <;> simp_all

theorem grow_grow {made' guarded' : List String} (inside : guarded ⊆ made) :
    (tree.grow restrictive made guarded).grow restrictive made' guarded' =
      tree.grow restrictive (made ++ made') (guarded ++ guarded') := by
  funext path
  cases found : tree path with
  | none =>
      by_cases early : path ∈ made
      · simp [Tree.grow, found, early, Bool.or_assoc]
      · have unguarded : path ∉ guarded := fun member => early (inside member)
        simp [Tree.grow, found, early, unguarded]
  | some node => cases node <;> simp [Tree.grow, found, Bool.or_assoc]

@[simp]
theorem grow_eq_file {file : File} :
    tree.grow restrictive made guarded path = some (.file file) ↔ tree path = some (.file file) := by
  cases found : tree path with
  | none => simp only [Tree.grow, found]; split <;> simp
  | some node => cases node <;> simp [Tree.grow, found]

theorem grow_eq_none :
    tree.grow restrictive made guarded path = none ↔ tree path = none ∧ path ∉ made := by
  cases found : tree path with
  | none => simp [Tree.grow, found]
  | some node => cases node <;> simp [Tree.grow, found]

theorem grow_of_directory (restrictive : Bool) (made guarded : List String) {found : Directory}
    (here : tree path = some (.directory found)) :
    tree.grow restrictive made guarded path =
      some (.directory ⟨found.owned, found.restricted || decide (path ∈ guarded)⟩) := by
  simp [Tree.grow, here]

theorem grow_of_missing (restrictive : Bool) (guarded : List String) (missing : tree path = none)
    (inside : path ∈ made) : tree.grow restrictive made guarded path =
      some (.directory ⟨true, restrictive || decide (path ∈ guarded)⟩) := by
  simp [Tree.grow, missing, inside]

theorem grow_of_file (restrictive : Bool) (made guarded : List String) {file : File}
    (here : tree path = some (.file file)) :
    tree.grow restrictive made guarded path = some (.file file) :=
  grow_eq_file.mpr here

theorem grow_of_absent (restrictive : Bool) (guarded : List String) (missing : tree path = none)
    (outside : path ∉ made) : tree.grow restrictive made guarded path = none :=
  grow_eq_none.mpr ⟨missing, outside⟩

theorem grow_eq_directory {directory : Directory} :
    tree.grow restrictive made guarded path = some (.directory directory) ↔
      (∃ found, tree path = some (.directory found) ∧
        directory = ⟨found.owned, found.restricted || decide (path ∈ guarded)⟩) ∨
      (tree path = none ∧ path ∈ made ∧
        directory = ⟨true, restrictive || decide (path ∈ guarded)⟩) := by
  cases found : tree path with
  | none =>
      by_cases inside : path ∈ made
      · simp [Tree.grow, found, inside, eq_comm]
      · simp [Tree.grow, found, inside]
  | some node => cases node <;> simp [Tree.grow, found, eq_comm]

theorem grow_singleton (missing : tree path = none) :
    tree.grow restrictive [path] [] =
      Function.update tree path (some (.directory ⟨true, restrictive⟩)) := by
  funext other
  by_cases here : other = path
  · subst here
    simp [Tree.grow, missing]
  · simp only [Function.update_of_ne here, Tree.grow, List.mem_singleton, here]
    split <;> simp_all

theorem grow_existing {node : Node} (here : tree path = some node) :
    tree.grow restrictive [path] [] = tree := by
  funext other
  simp only [Tree.grow, List.mem_singleton, List.not_mem_nil, decide_false, Bool.or_false]
  split
  · rename_i found there
    rw [there]
  · rename_i found there
    rw [there]
  · rename_i found there
    rw [there]
  · rename_i missing
    rw [missing, if_neg]
    rintro rfl
    simp [here] at missing

theorem enterable_grow :
    (tree.grow restrictive made guarded).Enterable path ↔ tree.Enterable path := by
  unfold Tree.Enterable
  cases found : tree path with
  | none => by_cases inside : path ∈ made <;> simp [Tree.grow, found, inside]
  | some node => cases node <;> simp [Tree.grow, found]

end Grow

/-- The loop of `resolve_destination` makes every missing directory, and meets nothing else. -/
theorem foldlM_enterDirectory {restrictive : Bool} {directories : List String} {tree after : Tree} :
    directories.foldlM (enterDirectory restrictive) tree = .ok after ↔
      (∀ directory ∈ directories, tree.Enterable directory) ∧
        after = tree.grow restrictive directories [] := by
  induction directories generalizing tree with
  | nil => simp [grow_nil, pure, Except.pure, eq_comm]
  | cons first rest ih =>
      have entered : ∀ next, enterDirectory restrictive tree first = .ok next ↔
          tree.Enterable first ∧ next = tree.grow restrictive [first] [] := by
        intro next
        unfold enterDirectory
        cases found : tree first with
        | none => simp [Tree.Enterable, found, grow_singleton found, eq_comm]
        | some node =>
            cases node <;> simp [Tree.Enterable, found, grow_existing found, eq_comm]
      rw [List.foldlM_cons, Fallible.bind_eq_ok]
      simp only [entered, ih]
      constructor
      · rintro ⟨_, ⟨enterable, rfl⟩, others, rfl⟩
        refine ⟨List.forall_mem_cons.mpr ⟨enterable, fun directory inside =>
          enterable_grow.mp (others directory inside)⟩, ?_⟩
        rw [grow_grow (List.nil_subset _)]
        rfl
      · rintro ⟨enterable, rfl⟩
        obtain ⟨here, others⟩ := List.forall_mem_cons.mp enterable
        refine ⟨_, ⟨here, rfl⟩, fun directory inside => enterable_grow.mpr (others directory inside),
          ?_⟩
        rw [grow_grow (List.nil_subset _)]
        rfl

theorem resolveDestination_eq_ok {restrictive : Bool} {tree after : Tree} {path : String} :
    resolveDestination restrictive tree path = .ok after ↔
      isRelative path = true ∧ (∀ directory ∈ ancestors path, tree.Enterable directory) ∧
        after = tree.grow restrictive (ancestors path) [] := by
  rw [resolveDestination, Fallible.guard_eq_ok, foldlM_enterDirectory]
  simp

end NixSeal.Authoring
