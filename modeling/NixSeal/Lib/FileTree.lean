import NixSeal.Lib.Fallible
import Mathlib.Data.List.Perm.Basic

/-!
# Trees of files

What lies below a directory, and the calls that extend it.  A path is read from the directory;
the empty path is the directory itself.  Files created at several paths coexist exactly when no
path extends another, and then the order of creation does not matter.
-/

namespace NixSeal
namespace FileTree

open Fallible

variable {Name Status ε : Type}

/-- What a path names. -/
inductive Node (Status : Type) where
  | file (status : Status)
  | directory (status : Status)

/-- The status of a node. -/
def Node.status : Node Status → Status
  | .file status | .directory status => status

/-- What lies below a directory. -/
abbrev Tree (Name Status : Type) := List Name → Option (Node Status)

/-- How a call fails. -/
inductive Errno where
  /-- The path names something already. -/
  | exist
  /-- The path names nothing. -/
  | noEntry
  /-- The path names no directory. -/
  | notDirectory
  /-- The file system cannot store the name. -/
  | invalidName
  deriving DecidableEq

/-- A directory without entries. -/
def empty : Tree Name Status := fun _ => none

section Put

variable [DecidableEq Name]

/-- A tree with another node at a path. -/
def put (tree : Tree Name Status) (path : List Name) (node : Node Status) : Tree Name Status :=
  fun other => if other = path then some node else tree other

@[simp]
theorem put_self (tree : Tree Name Status) (path : List Name) (node : Node Status) :
    put tree path node path = some node :=
  if_pos rfl

theorem put_of_ne {path other : List Name} (elsewhere : other ≠ path) (tree : Tree Name Status)
    (node : Node Status) : put tree path node other = tree other :=
  if_neg elsewhere

/-- A new node in an open directory; an entry of that name is never replaced. -/
def createAt (fits : Name → Bool) (node : Node Status) (tree : Tree Name Status)
    (parent : List Name) (name : Name) : Except Errno (Tree Name Status) :=
  if !fits name then .error .invalidName
  else if (tree (parent ++ [name])).isSome then .error .exist
  else .ok (put tree (parent ++ [name]) node)

end Put

/-- The status of a directory in an open directory. -/
def openDirectoryAt (fits : Name → Bool) (tree : Tree Name Status) (parent : List Name)
    (name : Name) : Except Errno Status :=
  if !fits name then .error .invalidName
  else
    match tree (parent ++ [name]) with
    | none => .error .noEntry
    | some (.file _) => .error .notDirectory
    | some (.directory status) => .ok status

/-- Neither path leads to the other or past it. -/
def Apart (left right : List Name) : Prop := ¬left <+: right ∧ ¬right <+: left

theorem Apart.symm {left right : List Name} (apart : Apart left right) : Apart right left :=
  ⟨apart.2, apart.1⟩

/-- A tree that holds files at given paths, the directories above them, and those down to an
opened one. -/
structure Holds (own : Status → Prop) (tree : Tree Name Status) (files : List (List Name))
    (opened : List Name) : Prop where
  root : tree [] = none
  file : ∀ path, (∃ status, tree path = some (.file status)) ↔ path ∈ files
  directory : ∀ path, (∃ status, tree path = some (.directory status)) ↔
    path ≠ [] ∧ ((∃ file ∈ files, path <+: file ∧ path ≠ file) ∨ path <+: opened)
  own : ∀ path node, tree path = some node → own node.status

variable {own : Status → Prop} {tree : Tree Name Status} {files : List (List Name)}
  {opened : List Name}

theorem holds_empty : Holds own (empty : Tree Name Status) [] [] where
  root := rfl
  file path := by simp [empty]
  directory path := by simp [empty]
  own path node := by simp [empty]

namespace Holds

/-- A path is free unless it is a file, leads to one, or leads to the opened directory. -/
theorem eq_none_iff (holds : Holds own tree files opened) {path : List Name} (nonempty : path ≠ []) :
    tree path = none ↔ (∀ file ∈ files, ¬path <+: file) ∧ ¬path <+: opened := by
  cases found : tree path with
  | none =>
      refine iff_of_true rfl ⟨?_, ?_⟩
      · intro file member leads
        by_cases same : path = file
        · obtain ⟨status, stored⟩ := (holds.file path).mpr (same ▸ member)
          rw [found] at stored
          cases stored
        · obtain ⟨status, stored⟩ :=
            (holds.directory path).mpr ⟨nonempty, .inl ⟨file, member, leads, same⟩⟩
          rw [found] at stored
          cases stored
      · intro leads
        obtain ⟨status, stored⟩ := (holds.directory path).mpr ⟨nonempty, .inr leads⟩
        rw [found] at stored
        cases stored
  | some node =>
      refine iff_of_false nofun ?_
      rintro ⟨apart, unopened⟩
      cases node with
      | file status => exact apart path ((holds.file path).mp ⟨status, found⟩) List.prefix_rfl
      | directory status =>
          obtain ⟨-, ⟨file, member, leads, -⟩ | leads⟩ := (holds.directory path).mp ⟨status, found⟩
          · exact apart file member leads
          · exact unopened leads

variable {fits : Name → Bool} {status : Status} {name : Name}

theorem openDirectoryAt_file (holds : Holds own tree files opened) (known : fits name = true)
    {parent : List Name} (member : parent ++ [name] ∈ files) :
    openDirectoryAt fits tree parent name = .error .notDirectory := by
  obtain ⟨found, stored⟩ := (holds.file _).mpr member
  simp [openDirectoryAt, known, stored]

theorem enter_old (holds : Holds own tree files opened) (known : fits name = true)
    {found : Node Status} (stored : tree (opened ++ [name]) = some found)
    (free : opened ++ [name] ∉ files) :
    ∃ old, openDirectoryAt fits tree opened name = .ok old ∧ own old ∧
      Holds own tree files (opened ++ [name]) := by
  cases found with
  | file other => exact absurd ((holds.file _).mp ⟨other, stored⟩) free
  | directory old =>
      refine ⟨old, by simp [openDirectoryAt, known, stored], holds.own _ _ stored, ?_⟩
      refine { root := holds.root, file := holds.file, directory := ?_, own := holds.own }
      intro path
      rw [holds.directory]
      refine and_congr_right fun nonempty => ?_
      rw [List.prefix_concat_iff]
      refine ⟨Or.imp_right .inr, ?_⟩
      rintro (below | rfl | above)
      · exact .inl below
      · exact ((holds.directory _).mp ⟨old, stored⟩).2
      · exact .inr above

variable [DecidableEq Name]

theorem enter_new (holds : Holds own tree files opened) (known : fits name = true)
    (free : tree (opened ++ [name]) = none) (owned : own status) :
    createAt fits (.directory status) tree opened name =
        .ok (put tree (opened ++ [name]) (.directory status)) ∧
      openDirectoryAt fits (put tree (opened ++ [name]) (.directory status)) opened name =
        .ok status ∧
      Holds own (put tree (opened ++ [name]) (.directory status)) files (opened ++ [name]) := by
  obtain ⟨apart, -⟩ := (holds.eq_none_iff (by simp)).mp free
  refine ⟨by simp [createAt, known, free], by simp [openDirectoryAt, known], ?_⟩
  refine { root := ?_, file := ?_, directory := ?_, own := ?_ }
  · rw [put_of_ne (by simp), holds.root]
  · intro path
    by_cases here : path = opened ++ [name]
    · subst here
      refine iff_of_false ?_ fun member => apart _ member List.prefix_rfl
      simp
    · simp only [put_of_ne here, holds.file]
  · intro path
    by_cases here : path = opened ++ [name]
    · subst here
      simp
    · simp only [put_of_ne here, holds.directory, List.prefix_concat_iff, here, false_or]
  · intro path node
    by_cases here : path = opened ++ [name]
    · rw [here, put_self]
      rintro ⟨⟩
      exact owned
    · rw [put_of_ne here]
      exact holds.own path node

theorem create (holds : Holds own tree files opened) (known : fits name = true)
    (free : ∀ file ∈ files, ¬opened ++ [name] <+: file) (owned : own status) :
    createAt fits (.file status) tree opened name =
        .ok (put tree (opened ++ [name]) (.file status)) ∧
      Holds own (put tree (opened ++ [name]) (.file status)) (files ++ [opened ++ [name]]) [] := by
  have unopened : ¬opened ++ [name] <+: opened := by
    intro leads
    have short := leads.length_le
    rw [List.length_append, List.length_singleton] at short
    omega
  have absent : tree (opened ++ [name]) = none :=
    (holds.eq_none_iff (by simp)).mpr ⟨free, unopened⟩
  refine ⟨by simp [createAt, known, absent], ?_⟩
  refine { root := ?_, file := ?_, directory := ?_, own := ?_ }
  · rw [put_of_ne (by simp), holds.root]
  · intro path
    by_cases here : path = opened ++ [name]
    · simp [here]
    · simp only [put_of_ne here, holds.file, List.mem_append, List.mem_singleton, here, or_false]
  · intro path
    by_cases here : path = opened ++ [name]
    · subst here
      refine iff_of_false (by simp) ?_
      rintro ⟨-, ⟨file, member, leads, other⟩ | leads⟩
      · rcases List.mem_append.mp member with member | same
        · exact free file member leads
        · exact other (List.mem_singleton.mp same).symm
      · simp at leads
    · simp only [put_of_ne here, holds.directory, List.mem_append,
        List.mem_singleton, or_and_right, exists_or, exists_eq_left, List.prefix_concat_iff, here,
        false_or, List.prefix_nil, ne_eq, not_false_eq_true, and_true]
      exact and_congr_right fun nonempty => (or_iff_left nonempty).symm
  · intro path node
    by_cases here : path = opened ++ [name]
    · rw [here, put_self]
      rintro ⟨⟩
      exact owned
    · rw [put_of_ne here]
      exact holds.own path node

theorem create_refused (holds : Holds own tree files opened) {node : Node Status}
    {file : List Name} (member : file ∈ files) (leads : opened ++ [name] <+: file) :
    ∀ next, createAt fits node tree opened name ≠ .ok next := by
  have taken : tree (opened ++ [name]) ≠ none := by
    rw [ne_eq, holds.eq_none_iff (by simp)]
    exact fun absent => absent.1 file member leads
  intro next created
  rw [createAt, guard_eq_ok, guard_eq_ok] at created
  exact created.2.1 (Option.isSome_iff_ne_none.mpr taken)

end Holds

/-- A program opens a directory in the opened one, creating it where nothing is: it succeeds when
it accepts the name and no file has it. -/
def Enters (own : Status → Prop) (accepted : Name → Prop)
    (enter : Tree Name Status × List Name → Name → Except ε (Tree Name Status × List Name)) :
    Prop :=
  ∀ tree files opened name, Holds own tree files opened →
    ((∃ next, enter (tree, opened) name = .ok next) ↔
      accepted name ∧ opened ++ [name] ∉ files) ∧
    ∀ next, enter (tree, opened) name = .ok next →
      next.2 = opened ++ [name] ∧ Holds own next.1 files next.2

/-- Opening one directory after another. -/
theorem Enters.foldlM {accepted : Name → Prop}
    {enter : Tree Name Status × List Name → Name → Except ε (Tree Name Status × List Name)}
    (enters : Enters own accepted enter) (holds : Holds own tree files opened) (names : List Name) :
    ((∃ final, names.foldlM enter (tree, opened) = .ok final) ↔
      (∀ name ∈ names, accepted name) ∧
        ∀ front, front ≠ [] → front <+: names → opened ++ front ∉ files) ∧
    ∀ final, names.foldlM enter (tree, opened) = .ok final →
      final.2 = opened ++ names ∧ Holds own final.1 files final.2 := by
  induction names generalizing tree opened with
  | nil =>
      have fronts : ∀ front, front ≠ [] → front <+: [] → opened ++ front ∉ files :=
        fun front nonempty begins => absurd (List.prefix_nil.mp begins) nonempty
      simp only [List.foldlM_nil, pure, Except.pure, Except.ok.injEq, exists_eq', List.not_mem_nil,
        false_imp_iff, implies_true, true_and, true_iff]
      refine ⟨fronts, ?_⟩
      rintro final rfl
      exact ⟨(List.append_nil opened).symm, holds⟩
  | cons name rest ih =>
      obtain ⟨opens, reached⟩ := enters tree files opened name holds
      have fronts : (∀ front, front ≠ [] → front <+: name :: rest → opened ++ front ∉ files) ↔
          opened ++ [name] ∉ files ∧
            ∀ front, front ≠ [] → front <+: rest → opened ++ [name] ++ front ∉ files := by
        simp only [List.append_assoc, List.singleton_append]
        constructor
        · intro free
          refine ⟨free [name] (by simp) (by simp), fun front _ begins => ?_⟩
          exact free (name :: front) (by simp) (List.cons_prefix_cons.mpr ⟨rfl, begins⟩)
        · rintro ⟨here, later⟩ front nonempty begins
          obtain rfl | ⟨tail, rfl, further⟩ := List.prefix_cons_iff.mp begins
          · exact absurd rfl nonempty
          · by_cases last : tail = []
            · exact last ▸ here
            · exact later tail last further
      have unfolded : (name :: rest).foldlM enter (tree, opened) =
          enter (tree, opened) name >>= fun next => rest.foldlM enter next := rfl
      refine ⟨?_, ?_⟩
      · rw [fronts, List.forall_mem_cons, and_and_and_comm, ← opens, unfolded]
        constructor
        · rintro ⟨final, folded⟩
          obtain ⟨⟨middle, inside⟩, entered, folded⟩ := bind_eq_ok.mp folded
          obtain ⟨rfl, holds⟩ := reached _ entered
          exact ⟨⟨_, entered⟩, (ih holds).1.mp ⟨final, folded⟩⟩
        · rintro ⟨⟨⟨middle, inside⟩, entered⟩, rest_free⟩
          obtain ⟨rfl, holds⟩ := reached _ entered
          obtain ⟨final, folded⟩ := (ih holds).1.mpr rest_free
          exact ⟨final, bind_eq_ok.mpr ⟨_, entered, folded⟩⟩
      · intro final folded
        rw [unfolded] at folded
        obtain ⟨⟨middle, inside⟩, entered, folded⟩ := bind_eq_ok.mp folded
        obtain ⟨rfl, holds⟩ := reached _ entered
        obtain ⟨ended, holds⟩ := (ih holds).2 final folded
        exact ⟨by simpa using ended, holds⟩

/-- A program creates one file and the directories above it: it succeeds when it accepts the path
and the path is apart from the files that are there. -/
def Creates (own : Status → Prop) (accepted : List Name → Prop)
    (create : Tree Name Status → List Name → Except ε (Tree Name Status)) : Prop :=
  ∀ tree files path, Holds own tree files [] →
    ((∃ next, create tree path = .ok next) ↔ accepted path ∧ ∀ file ∈ files, Apart file path) ∧
      ∀ next, create tree path = .ok next → Holds own next (files ++ [path]) []

theorem creates_of_enters [DecidableEq Name] {fits : Name → Bool} (status : Status)
    {enter : Tree Name Status × List Name → Name → Except ε (Tree Name Status × List Name)}
    {create : Tree Name Status → List Name → Except ε (Tree Name Status)}
    (enters : Enters own (fun name => fits name = true) enter) (owned : own status)
    (opens : ∀ tree path final, create tree path = .ok final ↔
      ∃ parent name opened, path = parent ++ [name] ∧
        parent.foldlM enter (tree, []) = .ok opened ∧
        createAt fits (.file status) opened.1 opened.2 name = .ok final) :
    Creates own (fun path => path ≠ [] ∧ ∀ name ∈ path, fits name = true) create := by
  intro tree files path holds
  rcases List.eq_nil_or_concat' path with rfl | ⟨parent, name, rfl⟩
  · refine ⟨iff_of_false ?_ fun accepted => accepted.1.1 rfl, ?_⟩
    · rintro ⟨final, created⟩
      obtain ⟨parent, name, opened, split, -⟩ := (opens tree [] final).mp created
      simp at split
    · intro final created
      obtain ⟨parent, name, opened, split, -⟩ := (opens tree [] final).mp created
      simp at split
  · have split : ∀ final, create tree (parent ++ [name]) = .ok final ↔
        ∃ opened, parent.foldlM enter (tree, []) = .ok opened ∧
          createAt fits (.file status) opened.1 opened.2 name = .ok final := by
      intro final
      rw [opens]
      constructor
      · rintro ⟨front, last, opened, same, entered, created⟩
        obtain ⟨rfl, ends⟩ := List.append_inj' same rfl
        cases ends
        exact ⟨opened, entered, created⟩
      · rintro ⟨opened, entered, created⟩
        exact ⟨parent, name, opened, rfl, entered, created⟩
    obtain ⟨entering, reached⟩ := enters.foldlM holds parent
    have apart : (∀ file ∈ files, Apart file (parent ++ [name])) ↔
        (∀ front, front ≠ [] → front <+: parent → [] ++ front ∉ files) ∧
          ∀ file ∈ files, ¬parent ++ [name] <+: file := by
      constructor
      · intro apart
        refine ⟨?_, fun file member => (apart file member).2⟩
        intro front _ begins member
        exact (apart front member).1 (begins.trans (List.prefix_append _ _))
      · rintro ⟨fronts, beyond⟩ file member
        refine ⟨fun begins => ?_, beyond file member⟩
        rcases List.prefix_concat_iff.mp begins with rfl | begins
        · exact beyond _ member List.prefix_rfl
        · have nonempty : file ≠ [] := by
            rintro rfl
            obtain ⟨found, stored⟩ := (holds.file []).mpr member
            rw [holds.root] at stored
            cases stored
          exact fronts file nonempty begins member
    have creating : ∀ opened, parent.foldlM enter (tree, []) = .ok opened →
        ((∃ final, createAt fits (.file status) opened.1 opened.2 name = .ok final) ↔
          fits name = true ∧ ∀ file ∈ files, ¬parent ++ [name] <+: file) ∧
        ∀ final, createAt fits (.file status) opened.1 opened.2 name = .ok final →
          Holds own final (files ++ [parent ++ [name]]) [] := by
      rintro ⟨middle, inside⟩ entered
      obtain ⟨ended, holds⟩ := reached _ entered
      obtain rfl : parent = inside := ended.symm
      have needs : ∀ final, createAt fits (.file status) middle parent name = .ok final →
          fits name = true ∧ ∀ file ∈ files, ¬parent ++ [name] <+: file := by
        intro final created
        refine ⟨?_, fun file member leads => holds.create_refused member leads final created⟩
        rw [createAt, guard_eq_ok] at created
        simpa using created.1
      refine ⟨⟨fun ⟨final, created⟩ => needs final created, ?_⟩, ?_⟩
      · rintro ⟨known, free⟩
        exact ⟨_, (holds.create known free owned).1⟩
      · intro final created
        obtain ⟨known, free⟩ := needs final created
        obtain ⟨same, extended⟩ := holds.create known free owned
        cases same.symm.trans created
        exact extended
    refine ⟨?_, ?_⟩
    · rw [apart]
      simp only [split, List.forall_mem_append, List.forall_mem_singleton]
      constructor
      · rintro ⟨final, opened, entered, created⟩
        obtain ⟨known, fronts⟩ := entering.mp ⟨opened, entered⟩
        obtain ⟨fit, free⟩ := (creating opened entered).1.mp ⟨final, created⟩
        exact ⟨⟨by simp, known, fit⟩, fronts, free⟩
      · rintro ⟨⟨-, known, fit⟩, fronts, free⟩
        obtain ⟨opened, entered⟩ := entering.mpr ⟨known, fronts⟩
        obtain ⟨final, created⟩ := (creating opened entered).1.mpr ⟨fit, free⟩
        exact ⟨final, opened, entered, created⟩
    · intro final created
      obtain ⟨opened, entered, created⟩ := (split final).mp created
      exact (creating opened entered).2 final created

namespace Creates

variable {accepted : List Name → Prop}
  {create : Tree Name Status → List Name → Except ε (Tree Name Status)}

theorem holds_of_foldlM (creates : Creates own accepted create) {paths : List (List Name)}
    {final : Tree Name Status} (created : paths.foldlM create empty = .ok final) :
    Holds own final paths [] := by
  refine foldlM_eq_ok_induction created (fun done state => Holds own state done []) holds_empty ?_
  intro done path state next _ stepped holds
  exact (creates state done path holds).2 next stepped

/-- Several files are created when each path is accepted and no path leads to another. -/
theorem foldlM_isOk_iff (creates : Creates own accepted create) {paths : List (List Name)} :
    (∃ final, paths.foldlM create empty = .ok final) ↔
      (∀ path ∈ paths, accepted path) ∧ paths.Pairwise Apart :=
  Fallible.foldlM_isOk_iff (fun done state => Holds own state done []) holds_empty
    (fun done state path holds => (creates state done path holds).1)
    fun done state path next holds stepped => (creates state done path holds).2 next stepped

end Creates

/-- Splitting two texts at a separator: the parts of one begin those of the other when the text is
the same or goes on with a separator. -/
theorem splitOn_prefix_iff [DecidableEq Name] {separator : Name} {left right : List Name} :
    left.splitOn separator <+: right.splitOn separator ↔
      left = right ∨ left ++ [separator] <+: right := by
  constructor
  · rintro ⟨rest, split⟩
    have joined := congrArg ([separator].intercalate) split
    rw [List.intercalate_splitOn] at joined
    cases rest with
    | nil =>
        rw [List.append_nil, List.intercalate_splitOn] at joined
        exact .inl joined
    | cons part parts =>
        have general : ∀ front : List (List Name), front ≠ [] →
            [separator].intercalate (front ++ part :: parts) =
              [separator].intercalate front ++ [separator] ++
                [separator].intercalate (part :: parts) := by
          intro front
          induction front with
          | nil => exact fun nonempty => absurd rfl nonempty
          | cons first others ih =>
              intro _
              cases others with
              | nil => simp
              | cons second more =>
                  have later := ih (List.cons_ne_nil _ _)
                  simp only [List.cons_append, List.intercalate_cons_cons] at later ⊢
                  rw [later]
                  simp
        rw [general _ (List.splitOn_ne_nil _ _), List.intercalate_splitOn] at joined
        exact .inr ⟨_, joined⟩
  · rintro (rfl | ⟨rest, rfl⟩)
    · exact List.prefix_rfl
    · rw [List.append_assoc, List.singleton_append, List.splitOn_append_cons_self]
      exact List.prefix_append _ _

end FileTree
end NixSeal
