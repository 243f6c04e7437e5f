import NixSeal.Runtime.Destinations
import NixSeal.Runtime.Generations
import NixSeal.Runtime.Rendering

/-!
# The content of a generation

Before a new generation replaces the current one, `activate` compares their content: it counts the
files of the current generation and compares each output with the file of the same name.
-/

namespace NixSeal.Runtime.Contents

open Cache (FileName Status)

/-- What is read of an open file. -/
structure Stored where
  status : Status
  group : Nat
  bytes : Bytes
  deriving DecidableEq

/-- What a name in a directory of a generation stands for. -/
inductive Entry where
  | file (stored : Stored)
  /-- A directory, its owner and what is in it. -/
  | directory (owner : Nat) (entries : List (FileName × Entry))
  | symlink (target : FileName)
  | special

/-- The entries of a directory; names are unique. -/
abbrev Entries : Type := List (FileName × Entry)

/-- A path from the directory of a generation. -/
abbrev Path : Type := List FileName

/-- The path of an output identifier. -/
def outputPath (output : String) : Path :=
  (segments output).map fun name => .text (String.ofList name)

/-! ## Counting -/

/-- How directories are listed. -/
structure Listing where
  order : Entries → Entries
  perm : ∀ entries, (order entries).Perm entries

/-- The inner loop of `count_regular_files`: the directories still to be read, the last found first,
and the files so far. -/
def scanEntries (directories : List Entries) (files : Nat) :
    Entries → Except RuntimeError (List Entries × Nat)
  | [] => .ok (directories, files)
  | (_, .directory _ entries) :: rest => scanEntries (entries :: directories) files rest
  | (_, .file _) :: rest => scanEntries directories (files + 1) rest
  | (_, .symlink _) :: _ | (_, .special) :: _ => .error .invalidDestination

mutual

/-- The directories in a tree. -/
def Entry.directories : Entry → Nat
  | .directory _ entries => directoriesIn entries + 1
  | .file _ | .symlink _ | .special => 0

def directoriesIn : Entries → Nat
  | [] => 0
  | (_, entry) :: rest => entry.directories + directoriesIn rest

end

/-- The directories that a stack leads to. -/
def pending (stack : List Entries) : Nat := (stack.map fun entries => directoriesIn entries + 1).sum

theorem directoriesIn_eq_sum (entries : Entries) :
    directoriesIn entries = (entries.map fun entry => entry.2.directories).sum := by
  induction entries with
  | nil => rfl
  | cons entry rest ih => rw [directoriesIn, ih, List.map_cons, List.sum_cons]

theorem Listing.directoriesIn_order (listing : Listing) (entries : Entries) :
    directoriesIn (listing.order entries) = directoriesIn entries := by
  rw [directoriesIn_eq_sum, directoriesIn_eq_sum]
  exact ((listing.perm entries).map _).sum_eq

/-- Reading a directory leaves the directories in it to be read. -/
theorem pending_scanEntries {stack next : List Entries} {files found : Nat} {entries : Entries}
    (scanned : scanEntries stack files entries = .ok (next, found)) :
    pending next = pending stack + directoriesIn entries := by
  induction entries generalizing stack files with
  | nil =>
      cases scanned
      rfl
  | cons entry rest ih =>
      obtain ⟨name, entry⟩ := entry
      cases entry with
      | file stored => simpa [directoriesIn, Entry.directories] using ih scanned
      | directory owner entries =>
          have later := ih scanned
          simp only [pending, List.map_cons, List.sum_cons] at later ⊢
          simp only [directoriesIn, Entry.directories]
          omega
      | symlink target => cases scanned
      | special => cases scanned

/-- The outer loop of `count_regular_files`. -/
def countFrom (listing : Listing) (stack : List Entries) (files : Nat) : Except RuntimeError Nat :=
  match stack with
  | [] => .ok files
  | directory :: directories =>
      if 10000 < directories.length || 10000 < files then .error .limit
      else
        match _scanned : scanEntries directories files (listing.order directory) with
        | .error error => .error error
        | .ok (next, found) => countFrom listing next found
termination_by pending stack
decreasing_by
  rw [pending_scanEntries _scanned, listing.directoriesIn_order]
  simp only [pending, List.map_cons, List.sum_cons]
  omega

/-- `count_regular_files`. -/
def countRegularFiles (listing : Listing) (root : Entries) : Except RuntimeError Nat :=
  countFrom listing [root] 0

/-! ## Comparing -/

/-- How a file is not opened: nothing is there, or an error that is passed on. -/
inductive OpenFailure where
  | notFound
  | refused (error : RuntimeError)

/-- The error of `open_regular_nofollow`. -/
def OpenFailure.error : OpenFailure → RuntimeError
  | .notFound => .io
  | .refused error => error

/-- What the process can open. -/
structure Process where
  /-- Whether it may read a file. -/
  readable : Stored → Bool
  /-- What is opened through a link to a directory above a file; a generation with links is refused
  before. -/
  linked : Path → Except OpenFailure Stored

/-- The part of `open_regular_nofollow` on what is there. -/
def openEntry (process : Process) : Option Entry → Except OpenFailure Stored
  | none => .error .notFound
  | some (.file stored) =>
      if !process.readable stored then .error (.refused .io)
      else if stored.status.links ≠ 1 then .error (.refused .unsafeSource)
      else .ok stored
  | some (.directory _ _) | some (.symlink _) | some .special => .error (.refused .unsafeSource)

/-- `open_regular_nofollow` below the directory of a generation, which is not in `/nix/store`.  The
directories above a file are opened one by one; a file among them is found out when it is opened as
a directory, or when another name is looked up in it. -/
def openFrom (process : Process) (path : Path) : Entries → Path → Except OpenFailure Stored
  | _, [] => .error (.refused .unsafeSource)
  | entries, [name] => openEntry process (entries.lookup name)
  | entries, name :: next :: rest =>
      match entries.lookup name with
      | none => .error .notFound
      | some (.directory _ inner) => openFrom process path inner (next :: rest)
      | some (.symlink _) => process.linked path
      | some (.file _) | some .special =>
          .error (.refused (if rest.isEmpty then .invalidDestination else .io))

/-- `open_regular_nofollow` on a path in a generation. -/
def openRegular (process : Process) (entries : Entries) (path : Path) :
    Except OpenFailure Stored :=
  openFrom process path entries path

/-- The part of `regular_files_equal` on two open files. -/
def storedEqual (T : Selection.Tools) (left right : Stored) : Except RuntimeError Bool :=
  if left.status.owner ≠ right.status.owner || left.group ≠ right.group ||
      left.status.mode &&& 0o777 ≠ right.status.mode &&& 0o777 then .ok false
  else if left.bytes.length ≠ right.bytes.length then .ok false
  else do
    let leftHash ← hashBounded T left.bytes maxTemplateOutputBytes
    let rightHash ← hashBounded T right.bytes maxTemplateOutputBytes
    .ok (leftHash = rightHash)

/-- `regular_files_equal`, given what opening the two files returns. -/
def regularFilesEqual (T : Selection.Tools) (left right : Except OpenFailure Stored) :
    Except RuntimeError Bool :=
  match left with
  | .error failure => .error failure.error
  | .ok left =>
      match right with
      | .error .notFound => .ok false
      | .error (.refused error) => .error error
      | .ok right => storedEqual T left right

/-- The loop of `matching_current`. -/
def outputsEqual (T : Selection.Tools) (process : Process) (transaction current : Entries) :
    List Path → Except RuntimeError Bool
  | [] => .ok true
  | output :: rest => do
      let same ← regularFilesEqual T (openRegular process transaction output)
        (openRegular process current output)
      if !same then .ok false else outputsEqual T process transaction current rest

/-- `matching_current`, for what `current` leads to. -/
def matchingCurrent (T : Selection.Tools) (listing : Listing) (process : Process)
    (transaction : Entries) (current : Option Entries) (outputs : List Path) :
    Except RuntimeError Bool :=
  match current with
  | none => .ok false
  | some current => do
      let count ← countRegularFiles listing current
      if count ≠ outputs.length then .ok false
      else outputsEqual T process transaction current outputs

/-! ## Files of a tree -/

mutual

/-- The files of a tree, with their paths. -/
def Entry.files : Entry → List (Path × Stored)
  | .file stored => [([], stored)]
  | .directory _ entries => filesIn entries
  | .symlink _ | .special => []

def filesIn : Entries → List (Path × Stored)
  | [] => []
  | (name, entry) :: rest => entry.files.map (fun file => (name :: file.1, file.2)) ++ filesIn rest

end

mutual

/-- Whether a tree holds nothing but files and directories. -/
def Entry.plain : Entry → Bool
  | .file _ => true
  | .directory _ entries => plainIn entries
  | .symlink _ | .special => false

def plainIn : Entries → Bool
  | [] => true
  | (_, entry) :: rest => entry.plain && plainIn rest

end

mutual

/-- Names are unique in every directory of a tree. -/
def Entry.Tidy : Entry → Prop
  | .directory _ entries => TidyIn entries
  | .file _ | .symlink _ | .special => True

def TidyIn : Entries → Prop
  | [] => True
  | (name, entry) :: rest => name ∉ rest.map Prod.fst ∧ entry.Tidy ∧ TidyIn rest

end

mutual

/-- A tree as activation makes it: of files and of directories with something in them. -/
def Entry.Proper : Entry → Prop
  | .file _ => True
  | .directory _ entries => entries ≠ [] ∧ ProperIn entries
  | .symlink _ | .special => False

def ProperIn : Entries → Prop
  | [] => True
  | (name, entry) :: rest => name ∉ rest.map Prod.fst ∧ entry.Proper ∧ ProperIn rest

end

section Count

/-- The files that a stack leads to. -/
def reached (stack : List Entries) : Nat := (stack.map fun entries => (filesIn entries).length).sum

theorem length_filesIn (entries : Entries) :
    (filesIn entries).length = (entries.map fun entry => entry.2.files.length).sum := by
  induction entries with
  | nil => rfl
  | cons entry rest ih => rw [filesIn, List.length_append, List.length_map, ih, List.map_cons,
      List.sum_cons]

theorem plainIn_iff (entries : Entries) :
    plainIn entries = true ↔ ∀ entry ∈ entries, entry.2.plain = true := by
  induction entries with
  | nil => simp [plainIn]
  | cons entry rest ih => rw [plainIn, Bool.and_eq_true, ih, List.forall_mem_cons]

theorem Listing.length_filesIn_order (listing : Listing) (entries : Entries) :
    (filesIn (listing.order entries)).length = (filesIn entries).length := by
  rw [length_filesIn, length_filesIn]
  exact ((listing.perm entries).map _).sum_eq

theorem Listing.plainIn_order (listing : Listing) (entries : Entries) :
    plainIn (listing.order entries) = plainIn entries := by
  rw [Bool.eq_iff_iff, plainIn_iff, plainIn_iff]
  exact forall_congr' fun entry => imp_congr_left (listing.perm entries).mem_iff

/-- Reading a directory counts its files and leaves those of the directories in it. -/
theorem scanEntries_spec {stack next : List Entries} {files found : Nat} {entries : Entries}
    (scanned : scanEntries stack files entries = .ok (next, found)) :
    found + reached next = files + reached stack + (filesIn entries).length ∧
      ((∀ directory ∈ next, plainIn directory = true) ↔
        (∀ directory ∈ stack, plainIn directory = true) ∧ plainIn entries = true) := by
  induction entries generalizing stack files with
  | nil =>
      cases scanned
      simp [filesIn, plainIn]
  | cons entry rest ih =>
      obtain ⟨name, entry⟩ := entry
      cases entry with
      | file stored =>
          obtain ⟨counted, plain⟩ := ih scanned
          refine ⟨?_, by simp [plain, plainIn, Entry.plain]⟩
          simp only [filesIn, Entry.files, List.length_append, List.length_map, List.length_cons,
            List.length_nil]
          omega
      | directory owner entries =>
          obtain ⟨counted, plain⟩ := ih scanned
          refine ⟨?_, ?_⟩
          · simp only [reached, List.map_cons, List.sum_cons] at counted ⊢
            simp only [filesIn, Entry.files, List.length_append, List.length_map]
            omega
          · rw [plain, List.forall_mem_cons, plainIn, Entry.plain, Bool.and_eq_true]
            tauto
      | symlink target => cases scanned
      | special => cases scanned

theorem scanEntries_isOk {stack : List Entries} {files : Nat} {entries : Entries}
    (plain : plainIn entries = true) :
    ∃ next found, scanEntries stack files entries = .ok (next, found) := by
  induction entries generalizing stack files with
  | nil => exact ⟨stack, files, rfl⟩
  | cons entry rest ih =>
      obtain ⟨name, entry⟩ := entry
      rw [plainIn, Bool.and_eq_true] at plain
      cases entry with
      | file stored => exact ih plain.2
      | directory owner entries => exact ih plain.2
      | symlink target => cases plain.1
      | special => cases plain.1

/-- A count is the number of files of a tree without links and devices. -/
theorem countFrom_eq_ok {listing : Listing} {stack : List Entries} {files count : Nat}
    (counted : countFrom listing stack files = .ok count) :
    (∀ directory ∈ stack, plainIn directory = true) ∧ count = files + reached stack := by
  induction stack, files using countFrom.induct listing with
  | case1 files =>
      rw [countFrom] at counted
      cases counted
      exact ⟨by simp, rfl⟩
  | case2 files directory directories full =>
      rw [countFrom, if_pos full] at counted
      cases counted
  | case3 files directory directories full error scanned =>
      rw [countFrom, if_neg full] at counted
      split at counted
      · cases counted
      · rename_i scanned'
        rw [scanned] at scanned'
        cases scanned'
  | case4 files directory directories full next found scanned ih =>
      rw [countFrom, if_neg full] at counted
      split at counted
      · cases counted
      · rename_i next' found' scanned'
        rw [scanned] at scanned'
        cases scanned'
        obtain ⟨plain, total⟩ := ih counted
        obtain ⟨sum, plain_iff⟩ := scanEntries_spec scanned
        rw [plain_iff, listing.plainIn_order] at plain
        rw [listing.length_filesIn_order] at sum
        refine ⟨List.forall_mem_cons.mpr ⟨plain.2, plain.1⟩, ?_⟩
        simp only [reached, List.map_cons, List.sum_cons] at sum total ⊢
        omega

theorem properIn_iff (entries : Entries) : ProperIn entries ↔
    (entries.map Prod.fst).Nodup ∧ ∀ entry ∈ entries, entry.2.Proper := by
  induction entries with
  | nil => simp [ProperIn]
  | cons entry rest ih =>
      rw [ProperIn, ih, List.map_cons, List.nodup_cons, List.forall_mem_cons]
      tauto

theorem tidyIn_iff (entries : Entries) : TidyIn entries ↔
    (entries.map Prod.fst).Nodup ∧ ∀ entry ∈ entries, entry.2.Tidy := by
  induction entries with
  | nil => simp [TidyIn]
  | cons entry rest ih =>
      rw [TidyIn, ih, List.map_cons, List.nodup_cons, List.forall_mem_cons]
      tauto

mutual

theorem Entry.Proper.facts : ∀ {entry : Entry}, entry.Proper →
    entry.plain = true ∧ entry.Tidy ∧ entry.files ≠ []
  | .file _, _ => ⟨rfl, trivial, by simp [Entry.files]⟩
  | .directory _ _, ⟨nonempty, proper⟩ =>
      have inner := ProperIn.facts proper
      ⟨inner.1, inner.2.1, inner.2.2 nonempty⟩
  | .symlink _, proper => proper.elim
  | .special, proper => proper.elim

theorem ProperIn.facts : ∀ {entries : Entries}, ProperIn entries →
    plainIn entries = true ∧ TidyIn entries ∧ (entries ≠ [] → filesIn entries ≠ [])
  | [], _ => ⟨rfl, trivial, fun nonempty => absurd rfl nonempty⟩
  | (_, _) :: _, ⟨fresh, first, others⟩ =>
      have one := Entry.Proper.facts first
      have rest := ProperIn.facts others
      ⟨by rw [plainIn, one.1, rest.1]; rfl, ⟨fresh, one.2.1, rest.2.1⟩, fun _ => by
        rw [filesIn]
        simp [one.2.2]⟩

end

theorem mem_scanEntries {stack next : List Entries} {files found : Nat} {entries : Entries}
    (scanned : scanEntries stack files entries = .ok (next, found)) :
    ∀ directory ∈ next, directory ∈ stack ∨
      ∃ name owner, (name, Entry.directory owner directory) ∈ entries := by
  induction entries generalizing stack files with
  | nil =>
      cases scanned
      exact fun directory member => .inl member
  | cons entry rest ih =>
      obtain ⟨name, entry⟩ := entry
      intro directory member
      cases entry with
      | file stored =>
          refine (ih scanned directory member).imp_right ?_
          rintro ⟨other, owner, inside⟩
          exact ⟨other, owner, List.mem_cons_of_mem _ inside⟩
      | directory owner entries =>
          rcases ih scanned directory member with listed | ⟨other, owner', inside⟩
          · rcases List.mem_cons.mp listed with rfl | listed
            · exact .inr ⟨name, owner, List.mem_cons_self⟩
            · exact .inl listed
          · exact .inr ⟨other, owner', List.mem_cons_of_mem _ inside⟩
      | symlink target => cases scanned
      | special => cases scanned

theorem length_le_reached {stack : List Entries}
    (proper : ∀ directory ∈ stack, directory ≠ [] ∧ ProperIn directory) :
    stack.length ≤ reached stack := by
  induction stack with
  | nil => exact Nat.zero_le _
  | cons directory rest ih =>
      obtain ⟨⟨nonempty, first⟩, others⟩ := List.forall_mem_cons.mp proper
      have some := List.length_pos_iff.mpr (first.facts.2.2 nonempty)
      have rest := ih others
      simp only [reached, List.map_cons, List.sum_cons, List.length_cons] at rest ⊢
      omega

/-- A tree that activation made is counted when it has at most 10,000 files. -/
theorem countFrom_eq {listing : Listing} {stack : List Entries} {files : Nat}
    (proper : ∀ directory ∈ stack, directory ≠ [] ∧ ProperIn directory)
    (few : files + reached stack ≤ 10000) :
    countFrom listing stack files = .ok (files + reached stack) := by
  induction stack, files using countFrom.induct listing with
  | case1 files =>
      rw [countFrom]
      rfl
  | case2 files directory directories full =>
      have bound := length_le_reached (List.forall_mem_cons.mp proper).2
      simp only [reached, List.map_cons, List.sum_cons] at few bound
      simp only [Bool.or_eq_true, decide_eq_true_eq] at full
      omega
  | case3 files directory directories full error scanned =>
      have plain := (List.forall_mem_cons.mp proper).1.2.facts.1
      rw [← listing.plainIn_order] at plain
      obtain ⟨next, found, read⟩ := @scanEntries_isOk directories files _ plain
      rw [scanned] at read
      cases read
  | case4 files directory directories full next found scanned ih =>
      obtain ⟨⟨nonempty, first⟩, others⟩ := List.forall_mem_cons.mp proper
      obtain ⟨sum, -⟩ := scanEntries_spec scanned
      rw [listing.length_filesIn_order] at sum
      have inner : ∀ directory ∈ next, directory ≠ [] ∧ ProperIn directory := by
        intro inside member
        rcases mem_scanEntries scanned inside member with listed | ⟨name, owner, listed⟩
        · exact others inside listed
        · exact ((properIn_iff directory).mp first).2 _ ((listing.perm directory).mem_iff.mp listed)
      have total : files + reached (directory :: directories) = found + reached next := by
        simp only [reached, List.map_cons, List.sum_cons] at sum ⊢
        omega
      rw [countFrom, if_neg full]
      split
      · rename_i scanned'
        rw [scanned] at scanned'
        cases scanned'
      · rename_i next' found' scanned'
        rw [scanned] at scanned'
        cases scanned'
        rw [total]
        exact ih inner (total ▸ few)

theorem countRegularFiles_eq_ok {listing : Listing} {entries : Entries} {count : Nat}
    (counted : countRegularFiles listing entries = .ok count) :
    plainIn entries = true ∧ count = (filesIn entries).length := by
  obtain ⟨plain, total⟩ := countFrom_eq_ok counted
  exact ⟨plain entries List.mem_cons_self, by simpa [reached] using total⟩

theorem countRegularFiles_eq {listing : Listing} {entries : Entries} (nonempty : entries ≠ [])
    (proper : ProperIn entries) (few : (filesIn entries).length ≤ 10000) :
    countRegularFiles listing entries = .ok (filesIn entries).length := by
  have counted := @countFrom_eq listing [entries] 0 (by simp [nonempty, proper])
    (by simpa [reached] using few)
  simpa [countRegularFiles, reached] using counted

end Count

/-! ## Opening -/

section Open

variable {process : Process} {entries : Entries} {path full : Path} {stored : Stored}

theorem lookup_eq_some (distinct : (entries.map Prod.fst).Nodup) {name : FileName} {entry : Entry} :
    entries.lookup name = some entry ↔ (name, entry) ∈ entries := by
  induction entries with
  | nil => simp
  | cons first rest ih =>
      obtain ⟨other, value⟩ := first
      obtain ⟨fresh, distinct⟩ := List.nodup_cons.mp distinct
      by_cases same : name = other
      · subst same
        rw [List.lookup_cons_self, List.mem_cons, Prod.mk.injEq]
        constructor
        · rintro found
          exact .inl ⟨rfl, (Option.some.inj found).symm⟩
        · rintro (⟨-, rfl⟩ | member)
          · rfl
          · exact absurd (List.mem_map_of_mem (f := Prod.fst) member) fresh
      · rw [List.lookup_cons, beq_eq_false_iff_ne.mpr same, ih distinct, List.mem_cons,
          Prod.mk.injEq]
        simp [same]

theorem mem_filesIn_nil : ([], stored) ∉ filesIn entries := by
  induction entries with
  | nil => simp [filesIn]
  | cons entry rest ih => simp [filesIn, ih]

theorem mem_filesIn_cons {name : FileName} :
    (name :: path, stored) ∈ filesIn entries ↔
      ∃ entry, (name, entry) ∈ entries ∧ (path, stored) ∈ entry.files := by
  induction entries with
  | nil => simp [filesIn]
  | cons first rest ih =>
      obtain ⟨other, value⟩ := first
      simp only [filesIn, List.mem_append, List.mem_map, Prod.exists, Prod.mk.injEq,
        List.cons.injEq, List.mem_cons, ih]
      constructor
      · rintro (⟨path', stored', member, ⟨rfl, rfl⟩, rfl⟩ | ⟨entry, listed, member⟩)
        · exact ⟨value, .inl ⟨rfl, rfl⟩, member⟩
        · exact ⟨entry, .inr listed, member⟩
      · rintro ⟨entry, ⟨rfl, rfl⟩ | listed, member⟩
        · exact .inl ⟨path, stored, member, ⟨rfl, rfl⟩, rfl⟩
        · exact .inr ⟨entry, listed, member⟩

theorem openFrom_of_mem (tidy : TidyIn entries) (member : (path, stored) ∈ filesIn entries) :
    openFrom process full entries path = openEntry process (some (.file stored)) := by
  induction path generalizing entries with
  | nil => exact absurd member mem_filesIn_nil
  | cons name rest ih =>
      obtain ⟨distinct, each⟩ := (tidyIn_iff entries).mp tidy
      obtain ⟨entry, listed, inside⟩ := mem_filesIn_cons.mp member
      have found := (lookup_eq_some distinct).mpr listed
      cases entry with
      | file other =>
          rw [Entry.files, List.mem_singleton, Prod.mk.injEq] at inside
          obtain ⟨rfl, rfl⟩ := inside
          rw [openFrom, found]
      | directory owner inner =>
          cases rest with
          | nil => exact absurd inside mem_filesIn_nil
          | cons next rest =>
              simp only [openFrom, found]
              exact ih (each _ listed) inside
      | symlink target => cases inside
      | special => cases inside

theorem openEntry_file_ne : openEntry process (some (.file stored)) ≠ .error .notFound := by
  simp only [openEntry]
  split
  · simp
  · split
    · simp
    · simp

theorem mem_of_openFrom (tidy : TidyIn entries) (plain : plainIn entries = true)
    (opened : openFrom process full entries path = .ok stored) :
    (path, stored) ∈ filesIn entries := by
  induction path generalizing entries with
  | nil => cases opened
  | cons name rest ih =>
      obtain ⟨distinct, each⟩ := (tidyIn_iff entries).mp tidy
      rw [mem_filesIn_cons]
      cases rest with
      | nil =>
          rw [openFrom] at opened
          unfold openEntry at opened
          split at opened
          · cases opened
          · rename_i other found
            rw [Fallible.guard_eq_ok, Fallible.guard_eq_ok] at opened
            obtain ⟨-, -, opened⟩ := opened
            cases opened
            exact ⟨_, (lookup_eq_some distinct).mp found, by simp [Entry.files]⟩
          all_goals cases opened
      | cons next rest =>
          rw [openFrom] at opened
          split at opened
          · cases opened
          · rename_i owner inner found
            have listed := (lookup_eq_some distinct).mp found
            exact ⟨_, listed, ih (each _ listed) ((plainIn_iff entries).mp plain _ listed) opened⟩
          · rename_i found
            have listed := (lookup_eq_some distinct).mp found
            cases (plainIn_iff entries).mp plain _ listed
          all_goals cases opened

mutual

theorem Entry.Tidy.nodup : ∀ {entry : Entry}, entry.Tidy → (entry.files.map Prod.fst).Nodup
  | .file _, _ => List.nodup_singleton _
  | .directory _ _, tidy => nodup_paths tidy
  | .symlink _, _ => List.nodup_nil
  | .special, _ => List.nodup_nil

theorem nodup_paths : ∀ {entries : Entries}, TidyIn entries →
    ((filesIn entries).map Prod.fst).Nodup
  | [], _ => List.nodup_nil
  | (name, entry) :: rest, ⟨fresh, first, others⟩ => by
      have one := Entry.Tidy.nodup first
      have front : (entry.files.map fun file => (name :: file.1, file.2)).map Prod.fst =
          (entry.files.map Prod.fst).map (name :: ·) := by
        rw [List.map_map, List.map_map]
        rfl
      rw [filesIn, List.map_append, front, List.nodup_append]
      refine ⟨one.map fun left right same => (List.cons.inj same).2, nodup_paths others, ?_⟩
      rintro left inside right listed rfl
      obtain ⟨path, -, rfl⟩ := List.mem_map.mp inside
      obtain ⟨⟨path', stored⟩, member, same⟩ := List.mem_map.mp listed
      cases same
      obtain ⟨other, listed, -⟩ := mem_filesIn_cons.mp member
      exact fresh (List.mem_map_of_mem (f := Prod.fst) listed)

end

theorem stored_unique (tidy : TidyIn entries) {other : Stored}
    (first : (path, stored) ∈ filesIn entries) (second : (path, other) ∈ filesIn entries) :
    stored = other := by
  have same := List.inj_on_of_nodup_map (nodup_paths tidy) first second rfl
  exact (Prod.mk.inj same).2

end Open

/-! ## Comparing generations -/

section Compare

variable {T : Selection.Tools} {process : Process} {left right third : Stored}

/-- Two files have the same owner, group, permission bits, length and digest. -/
structure Agree (T : Selection.Tools) (left right : Stored) : Prop where
  owner : left.status.owner = right.status.owner
  group : left.group = right.group
  mode : left.status.mode &&& 0o777 = right.status.mode &&& 0o777
  length : left.bytes.length = right.bytes.length
  digest : T.cache.digest left.bytes = T.cache.digest right.bytes

theorem Agree.refl (stored : Stored) : Agree T stored stored := ⟨rfl, rfl, rfl, rfl, rfl⟩

theorem Agree.symm (agree : Agree T left right) : Agree T right left :=
  ⟨agree.owner.symm, agree.group.symm, agree.mode.symm, agree.length.symm, agree.digest.symm⟩

theorem Agree.trans (first : Agree T left right) (second : Agree T right third) :
    Agree T left third :=
  ⟨first.owner.trans second.owner, first.group.trans second.group, first.mode.trans second.mode,
    first.length.trans second.length, first.digest.trans second.digest⟩

theorem storedEqual_eq_ok {same : Bool} (compared : storedEqual T left right = .ok same) :
    same = true ↔ Agree T left right := by
  unfold storedEqual at compared
  split at compared
  · rename_i differ
    cases compared
    refine iff_of_false Bool.false_ne_true fun agree => ?_
    simp [agree.owner, agree.group, agree.mode] at differ
  · rename_i attributes
    split at compared
    · rename_i lengths
      cases compared
      exact iff_of_false Bool.false_ne_true fun agree => lengths agree.length
    · rename_i lengths
      obtain ⟨first, hashed, compared⟩ := Fallible.bind_eq_ok.mp compared
      obtain ⟨second, hashed', compared⟩ := Fallible.bind_eq_ok.mp compared
      have short := (Fallible.guard_eq_ok.mp hashed).2
      have short' := (Fallible.guard_eq_ok.mp hashed').2
      cases compared
      cases short
      cases short'
      simp only [ne_eq, Bool.or_eq_true, decide_eq_true_eq, not_or, not_not] at attributes
      rw [decide_eq_true_eq]
      exact ⟨fun digest => ⟨attributes.1.1, attributes.1.2, attributes.2, not_not.mp lengths, digest⟩,
        Agree.digest⟩

/-- Files that are not too long are compared. -/
theorem storedEqual_isOk (short : left.bytes.length ≤ maxTemplateOutputBytes) :
    ∃ same, storedEqual T left right = .ok same := by
  unfold storedEqual
  split
  · exact ⟨_, rfl⟩
  · split
    · exact ⟨_, rfl⟩
    · rename_i lengths
      have short' : right.bytes.length ≤ maxTemplateOutputBytes := not_not.mp lengths ▸ short
      rw [hashBounded, if_neg (Nat.not_lt.mpr short), Fallible.ok_bind, hashBounded,
        if_neg (Nat.not_lt.mpr short'), Fallible.ok_bind]
      exact ⟨_, rfl⟩

/-- Two trees have files at the same paths, and these agree. -/
structure SameFiles (T : Selection.Tools) (left right : List (Path × Stored)) : Prop where
  paths : ∀ path, path ∈ left.map Prod.fst ↔ path ∈ right.map Prod.fst
  agree : ∀ path first second, (path, first) ∈ left → (path, second) ∈ right → Agree T first second

theorem SameFiles.refl {entries : Entries} (tidy : TidyIn entries) :
    SameFiles T (filesIn entries) (filesIn entries) where
  paths := fun _ => Iff.rfl
  agree := fun _ _ _ first second => stored_unique tidy first second ▸ Agree.refl _

theorem SameFiles.symm {left right : List (Path × Stored)} (same : SameFiles T left right) :
    SameFiles T right left where
  paths := fun path => (same.paths path).symm
  agree := fun path _ _ first second => (same.agree path _ _ second first).symm

theorem SameFiles.trans {left right third : List (Path × Stored)} (first : SameFiles T left right)
    (second : SameFiles T right third) : SameFiles T left third where
  paths := fun path => (first.paths path).trans (second.paths path)
  agree := by
    intro path before after listed found
    obtain ⟨⟨_, between⟩, member, rfl⟩ := List.mem_map.mp
      ((first.paths path).mp (List.mem_map_of_mem (f := Prod.fst) listed))
    exact (first.agree _ _ _ listed member).trans (second.agree _ _ _ member found)

variable {transaction current : Entries}

/-- The comparison of one output. -/
abbrev compareOutput (T : Selection.Tools) (process : Process) (transaction current : Entries)
    (output : Path) : Except RuntimeError Bool :=
  regularFilesEqual T (openRegular process transaction output) (openRegular process current output)

theorem outputsEqual_eq_true {outputs : List Path} :
    outputsEqual T process transaction current outputs = .ok true ↔
      ∀ output ∈ outputs, compareOutput T process transaction current output = .ok true := by
  induction outputs with
  | nil => simp [outputsEqual]
  | cons output rest ih =>
      rw [outputsEqual, Fallible.bind_eq_ok, List.forall_mem_cons, ← ih]
      constructor
      · rintro ⟨same, compared, continued⟩
        cases same with
        | false => cases continued
        | true => exact ⟨compared, continued⟩
      · rintro ⟨compared, continued⟩
        exact ⟨true, compared, continued⟩

theorem exists_of_outputsEqual {outputs : List Path}
    (compared : outputsEqual T process transaction current outputs = .ok false) :
    ∃ output ∈ outputs, compareOutput T process transaction current output = .ok false := by
  induction outputs with
  | nil => cases compared
  | cons output rest ih =>
      rw [outputsEqual, Fallible.bind_eq_ok] at compared
      obtain ⟨same, first, continued⟩ := compared
      cases same with
      | false => exact ⟨output, List.mem_cons_self, first⟩
      | true =>
          obtain ⟨found, member, differs⟩ := ih continued
          exact ⟨found, List.mem_cons_of_mem _ member, differs⟩

/-- Both trees have a file at a path, and these agree. -/
def Shared (T : Selection.Tools) (transaction current : Entries) (output : Path) : Prop :=
  ∃ left right, (output, left) ∈ filesIn transaction ∧ (output, right) ∈ filesIn current ∧
    Agree T left right

/-- An output that is equal is in both trees, and the files agree. -/
theorem compareOutput_eq_true {output : Path} (tidy : TidyIn transaction)
    (plain : plainIn transaction = true) (tidy' : TidyIn current) (plain' : plainIn current = true)
    (compared : compareOutput T process transaction current output = .ok true) :
    Shared T transaction current output := by
  unfold compareOutput regularFilesEqual at compared
  split at compared
  · cases compared
  · rename_i left opened
    split at compared
    · cases compared
    · cases compared
    · rename_i right opened'
      exact ⟨left, right, mem_of_openFrom tidy plain opened, mem_of_openFrom tidy' plain' opened',
        (storedEqual_eq_ok compared).mp rfl⟩

/-- An output that is not equal is missing in the current tree, or the files do not agree. -/
theorem compareOutput_eq_false {output : Path} (tidy : TidyIn transaction)
    (plain : plainIn transaction = true) (tidy' : TidyIn current) (plain' : plainIn current = true)
    (compared : compareOutput T process transaction current output = .ok false) :
    ∃ left, (output, left) ∈ filesIn transaction ∧
      ∀ right, (output, right) ∈ filesIn current → ¬Agree T left right := by
  unfold compareOutput regularFilesEqual at compared
  split at compared
  · cases compared
  · rename_i left opened
    refine ⟨left, mem_of_openFrom tidy plain opened, fun right member => ?_⟩
    split at compared
    · rename_i absent
      rw [openRegular, openFrom_of_mem tidy' member] at absent
      exact absurd absent openEntry_file_ne
    · cases compared
    · rename_i found opened'
      obtain rfl := stored_unique tidy' (mem_of_openFrom tidy' plain' opened') member
      exact fun agree => Bool.false_ne_true ((storedEqual_eq_ok compared).mpr agree)

/-- When the comparison of a complete transaction with a generation gives an answer, the generation
holds nothing but files and directories, and the answer tells whether both have the same files. -/
theorem matchingCurrent_eq_ok {listing : Listing} {outputs : List Path} {same : Bool}
    (tidy : TidyIn transaction) (plain : plainIn transaction = true) (distinct : outputs.Nodup)
    (complete : ∀ path, path ∈ outputs ↔ path ∈ (filesIn transaction).map Prod.fst)
    (tidy' : TidyIn current)
    (compared : matchingCurrent T listing process transaction (some current) outputs = .ok same) :
    plainIn current = true ∧
      (same = true ↔ SameFiles T (filesIn transaction) (filesIn current)) := by
  obtain ⟨count, counted, compared⟩ := Fallible.bind_eq_ok.mp compared
  obtain ⟨plain', rfl⟩ := countRegularFiles_eq_ok counted
  refine ⟨plain', ?_⟩
  have permuted : outputs.Perm ((filesIn transaction).map Prod.fst) :=
    (List.perm_ext_iff_of_nodup distinct (nodup_paths tidy)).mpr complete
  split at compared
  · rename_i different
    cases compared
    refine iff_of_false Bool.false_ne_true fun both => different ?_
    have equal := (List.perm_ext_iff_of_nodup (nodup_paths tidy) (nodup_paths tidy')).mpr both.paths
    simpa using (permuted.trans equal).length_eq.symm
  · rename_i counts
    cases same with
    | false =>
        refine iff_of_false Bool.false_ne_true fun both => ?_
        obtain ⟨output, listed, differs⟩ := exists_of_outputsEqual compared
        obtain ⟨left, member, apart⟩ := compareOutput_eq_false tidy plain tidy' plain' differs
        obtain ⟨⟨_, right⟩, found, rfl⟩ := List.mem_map.mp
          ((both.paths output).mp (List.mem_map_of_mem (f := Prod.fst) member))
        exact apart right found (both.agree _ _ _ member found)
    | true =>
        refine iff_of_true rfl ?_
        have each := outputsEqual_eq_true.mp compared
        have inside : outputs ⊆ (filesIn current).map Prod.fst := by
          intro output listed
          obtain ⟨-, right, -, found, -⟩ :=
            compareOutput_eq_true tidy plain tidy' plain' (each output listed)
          exact List.mem_map_of_mem (f := Prod.fst) found
        have whole : outputs.Perm ((filesIn current).map Prod.fst) :=
          (List.subperm_of_subset distinct inside).perm_of_length_le (by
            rw [List.length_map]
            exact le_of_eq (not_not.mp counts))
        refine ⟨fun path => (complete path).symm.trans whole.mem_iff, ?_⟩
        intro path first second listed found
        obtain ⟨left, right, member, member', agree⟩ := compareOutput_eq_true tidy plain tidy' plain'
          (each path ((complete path).mpr (List.mem_map_of_mem (f := Prod.fst) listed)))
        rwa [stored_unique tidy listed member, stored_unique tidy' found member']

end Compare

/-! ## Refused comparisons -/

section Refused

variable {T : Selection.Tools} {process : Process} {transaction current entries : Entries}

/-- Every file of a tree can be opened. -/
def Accessible (process : Process) (entries : Entries) : Prop :=
  ∀ path stored, (path, stored) ∈ filesIn entries →
    process.readable stored = true ∧ stored.status.links = 1

/-- A file of the tree stands where an output has a directory, or below where it has its file. -/
def Obstructed (entries : Entries) (output : Path) : Prop :=
  ∃ path ∈ (filesIn entries).map Prod.fst, path ≠ output ∧ (path <+: output ∨ output <+: path)

theorem openEntry_of_accessible {stored : Stored} (readable : process.readable stored = true)
    (single : stored.status.links = 1) : openEntry process (some (.file stored)) = .ok stored := by
  simp [openEntry, readable, single]

theorem mem_paths_cons (distinct : (entries.map Prod.fst).Nodup) {name : FileName} {path : Path}
    {entry : Entry} (found : entries.lookup name = some entry) :
    name :: path ∈ (filesIn entries).map Prod.fst ↔ path ∈ entry.files.map Prod.fst := by
  constructor
  · intro member
    obtain ⟨⟨_, stored⟩, inside, rfl⟩ := List.mem_map.mp member
    obtain ⟨other, listed, below⟩ := mem_filesIn_cons.mp inside
    obtain rfl := Option.some.inj (found.symm.trans ((lookup_eq_some distinct).mpr listed))
    exact List.mem_map_of_mem (f := Prod.fst) below
  · intro member
    obtain ⟨⟨_, stored⟩, below, rfl⟩ := List.mem_map.mp member
    have listed := (lookup_eq_some distinct).mp found
    exact List.mem_map_of_mem (f := Prod.fst) (mem_filesIn_cons.mpr ⟨entry, listed, below⟩)

theorem not_mem_paths_of_lookup {name : FileName} (absent : entries.lookup name = none)
    (distinct : (entries.map Prod.fst).Nodup) (path : Path) :
    name :: path ∉ (filesIn entries).map Prod.fst := by
  intro member
  obtain ⟨⟨_, stored⟩, inside, rfl⟩ := List.mem_map.mp member
  obtain ⟨entry, listed, -⟩ := mem_filesIn_cons.mp inside
  rw [(lookup_eq_some distinct).mpr listed] at absent
  cases absent

theorem nil_not_mem_paths : [] ∉ (filesIn entries).map Prod.fst := by
  intro member
  obtain ⟨⟨_, stored⟩, inside, rfl⟩ := List.mem_map.mp member
  exact mem_filesIn_nil inside

theorem obstructed_cons {name : FileName} {path : Path} :
    Obstructed entries (name :: path) ↔
      ∃ rest, name :: rest ∈ (filesIn entries).map Prod.fst ∧ rest ≠ path ∧
        (rest <+: path ∨ path <+: rest) := by
  constructor
  · rintro ⟨found, member, different, leads⟩
    cases found with
    | nil => exact absurd member nil_not_mem_paths
    | cons head rest =>
        have same : head = name := by
          rcases leads with leads | leads
          · exact (List.cons_prefix_cons.mp leads).1
          · exact (List.cons_prefix_cons.mp leads).1.symm
        subst same
        refine ⟨rest, member, fun equal => different (by rw [equal]), ?_⟩
        simpa [List.cons_prefix_cons] using leads
  · rintro ⟨rest, member, different, leads⟩
    exact ⟨name :: rest, member, fun equal => different (List.cons.inj equal).2, by
      simpa [List.cons_prefix_cons] using leads⟩

/-- In a tree that activation made, only what obstructs a path keeps it from being looked up. -/
theorem openFrom_refused_iff {full output : Path} (proper : ProperIn entries)
    (accessible : Accessible process entries) (nonempty : output ≠ []) :
    (∃ error, openFrom process full entries output = .error (.refused error)) ↔
      Obstructed entries output := by
  induction output generalizing entries with
  | nil => exact absurd rfl nonempty
  | cons name rest ih =>
      obtain ⟨distinct, each⟩ := (properIn_iff entries).mp proper
      rw [obstructed_cons]
      cases found : entries.lookup name with
      | none =>
          refine iff_of_false ?_ ?_
          · cases rest with
            | nil => simp [openFrom, found, openEntry]
            | cons next rest => simp [openFrom, found]
          · rintro ⟨other, member, -⟩
            exact not_mem_paths_of_lookup found distinct other member
      | some entry =>
          have listed := (lookup_eq_some distinct).mp found
          simp only [mem_paths_cons distinct found]
          cases entry with
          | file stored =>
              have member : ([name], stored) ∈ filesIn entries :=
                mem_filesIn_cons.mpr ⟨_, listed, by simp [Entry.files]⟩
              obtain ⟨readable, single⟩ := accessible _ _ member
              cases rest with
              | nil =>
                  refine iff_of_false ?_ (by simp [Entry.files])
                  rw [openFrom, found, openEntry_of_accessible readable single]
                  simp
              | cons next rest =>
                  refine iff_of_true ⟨_, by simp only [openFrom, found]; rfl⟩ ?_
                  exact ⟨[], by simp [Entry.files], by simp, .inl List.nil_prefix⟩
          | directory owner inner =>
              obtain ⟨filled, innerProper⟩ : inner ≠ [] ∧ ProperIn inner := each _ listed
              cases rest with
              | nil =>
                  refine iff_of_true ⟨.unsafeSource, by rw [openFrom, found]; rfl⟩ ?_
                  obtain ⟨⟨path, stored⟩, member⟩ :=
                    List.exists_mem_of_ne_nil _ (innerProper.facts.2.2 filled)
                  refine ⟨path, List.mem_map_of_mem (f := Prod.fst) member, ?_, .inr List.nil_prefix⟩
                  rintro rfl
                  exact mem_filesIn_nil member
              | cons next rest =>
                  have inside : Accessible process inner := fun path stored member =>
                    accessible (name :: path) stored
                      (mem_filesIn_cons.mpr ⟨_, listed, member⟩)
                  have continued : openFrom process full entries (name :: next :: rest) =
                      openFrom process full inner (next :: rest) := by
                    simp only [openFrom, found]
                  rw [continued, ih innerProper inside (by simp)]
                  rfl
          | symlink target => exact (each _ listed).elim
          | special => exact (each _ listed).elim

theorem outputsEqual_isOk_iff {outputs : List Path} :
    (∃ same, outputsEqual T process transaction current outputs = .ok same) ↔
      ∀ before output after, outputs = before ++ output :: after →
        (∀ earlier ∈ before, compareOutput T process transaction current earlier = .ok true) →
          ∃ same, compareOutput T process transaction current output = .ok same := by
  induction outputs with
  | nil => simp [outputsEqual]
  | cons output rest ih =>
      constructor
      · rintro ⟨same, compared⟩ before found after split equal
        rw [outputsEqual, Fallible.bind_eq_ok] at compared
        obtain ⟨first, compared', continued⟩ := compared
        cases before with
        | nil =>
            obtain ⟨rfl, -⟩ := List.cons.inj split
            exact ⟨first, compared'⟩
        | cons head before =>
            obtain ⟨rfl, tails⟩ := List.cons.inj split
            obtain ⟨head_equal, others⟩ := List.forall_mem_cons.mp equal
            rw [compareOutput] at head_equal
            rw [head_equal] at compared'
            cases compared'
            exact ih.mp ⟨same, continued⟩ before found after tails others
      · intro each
        obtain ⟨first, compared⟩ := each [] output rest rfl (by simp)
        rw [compareOutput] at compared
        cases first with
        | false => exact ⟨false, by rw [outputsEqual, compared]; rfl⟩
        | true =>
            obtain ⟨same, continued⟩ := ih.mpr fun before found after split equal =>
              each (output :: before) found after (by rw [split, List.cons_append])
                (List.forall_mem_cons.mpr ⟨compared, equal⟩)
            exact ⟨same, by rw [outputsEqual, compared]; exact continued⟩

/-- The files of the transaction are compared unless something obstructs their paths. -/
theorem compareOutput_isOk_iff {output : Path} {left : Stored} (tidy : TidyIn transaction)
    (accessible : Accessible process transaction) (member : (output, left) ∈ filesIn transaction)
    (short : left.bytes.length ≤ maxTemplateOutputBytes) (proper : ProperIn current)
    (accessible' : Accessible process current) :
    (∃ same, compareOutput T process transaction current output = .ok same) ↔
      ¬Obstructed current output := by
  obtain ⟨readable, single⟩ := accessible _ _ member
  have opened : openRegular process transaction output = .ok left := by
    rw [openRegular, openFrom_of_mem tidy member, openEntry_of_accessible readable single]
  have nonempty : output ≠ [] := by
    rintro rfl
    exact mem_filesIn_nil member
  rw [← @openFrom_refused_iff _ _ output _ proper accessible' nonempty]
  rw [compareOutput, opened, openRegular]
  cases openFrom process output current output with
  | ok right => exact iff_of_true (storedEqual_isOk short) (by simp)
  | error failure =>
      cases failure with
      | notFound => exact iff_of_true ⟨false, rfl⟩ (by simp)
      | refused error =>
          refine iff_of_false ?_ (by simp)
          rintro ⟨same, compared⟩
          cases compared

theorem compareOutput_of_shared {output : Path} (tidy : TidyIn transaction)
    (accessible : Accessible process transaction)
    (short : ∀ path stored, (path, stored) ∈ filesIn transaction →
      stored.bytes.length ≤ maxTemplateOutputBytes)
    (tidy' : TidyIn current) (accessible' : Accessible process current)
    (shared : Shared T transaction current output) :
    compareOutput T process transaction current output = .ok true := by
  obtain ⟨left, right, member, found, agree⟩ := shared
  obtain ⟨readable, single⟩ := accessible _ _ member
  obtain ⟨readable', single'⟩ := accessible' _ _ found
  obtain ⟨same, compared⟩ := @storedEqual_isOk T left right (short _ _ member)
  rw [compareOutput, openRegular, openFrom_of_mem tidy member,
    openEntry_of_accessible readable single, openRegular, openFrom_of_mem tidy' found,
    openEntry_of_accessible readable' single']
  change storedEqual T left right = .ok true
  rw [compared, (storedEqual_eq_ok compared).mpr agree]

/-- The comparison with a generation that activation made is refused exactly when there are as many
files as outputs and the first output without an equal file is obstructed: its path leads through a
file or ends at a directory. -/
theorem matchingCurrent_isOk_iff {listing : Listing} {outputs : List Path}
    (tidy : TidyIn transaction) (plain : plainIn transaction = true)
    (accessible : Accessible process transaction)
    (short : ∀ path stored, (path, stored) ∈ filesIn transaction →
      stored.bytes.length ≤ maxTemplateOutputBytes)
    (complete : ∀ path, path ∈ outputs ↔ path ∈ (filesIn transaction).map Prod.fst)
    (made : current ≠ [] ∧ ProperIn current) (accessible' : Accessible process current)
    (few : (filesIn current).length ≤ 10000) :
    (∃ same, matchingCurrent T listing process transaction (some current) outputs = .ok same) ↔
      ¬((filesIn current).length = outputs.length ∧ ∃ before output after,
        outputs = before ++ output :: after ∧
        (∀ earlier ∈ before, Shared T transaction current earlier) ∧
        Obstructed current output) := by
  have compared : matchingCurrent T listing process transaction (some current) outputs =
      if (filesIn current).length ≠ outputs.length then .ok false
      else outputsEqual T process transaction current outputs := by
    rw [matchingCurrent, countRegularFiles_eq made.1 made.2 few, Fallible.ok_bind]
  rw [compared]
  split
  · rename_i different
    exact iff_of_true ⟨false, rfl⟩ fun stops => different stops.1
  · rename_i counts
    rw [outputsEqual_isOk_iff]
    have each : ∀ output ∈ outputs,
        (∃ same, compareOutput T process transaction current output = .ok same) ↔
          ¬Obstructed current output := by
      intro output listed
      obtain ⟨⟨_, left⟩, member, rfl⟩ := List.mem_map.mp ((complete output).mp listed)
      exact compareOutput_isOk_iff tidy accessible member (short _ _ member) made.2 accessible'
    have facts := made.2.facts
    have equal_iff : ∀ output, compareOutput T process transaction current output = .ok true ↔
        Shared T transaction current output := fun output =>
      ⟨compareOutput_eq_true tidy plain facts.2.1 facts.1,
        compareOutput_of_shared tidy accessible short facts.2.1 accessible'⟩
    simp only [equal_iff]
    constructor
    · rintro goes ⟨-, before, output, after, split, equal, obstructed⟩
      have listed : output ∈ outputs := by
        rw [split]
        simp
      exact (each output listed).mp (goes before output after split equal) obstructed
    · intro free before output after split equal
      have listed : output ∈ outputs := by
        rw [split]
        simp
      exact (each output listed).mpr fun obstructed =>
        free ⟨not_not.mp counts, before, output, after, split, equal, obstructed⟩

end Refused

end NixSeal.Runtime.Contents
