import NixSeal.Core.Text
import NixSeal.Lib.Fallible
import NixSeal.Lib.LastMax
import NixSeal.Lib.Lines
import NixSeal.Lib.Occurrence
import NixSeal.Lib.Words

/-!
# The mount under a path

`/proc/self/mountinfo` has one line for every mount.  The volatile runtime looks for the mount that
covers its root: a line that cannot be read is passed over, and then a mount above it is found.
-/

namespace NixSeal.Runtime.Volatile

open LastMax Words Occurrence

/-! ## Reading the table -/

/-- `MountInfo`. -/
structure MountInfo where
  mountpoint : String
  filesystem : String
  options : Std.TreeSet String compare

/-- `decode_mount_field`. -/
def decodeMountField : List Char → Option (List Char)
  | [] => some []
  | '\\' :: '0' :: '4' :: '0' :: rest => (decodeMountField rest).map (' ' :: ·)
  | '\\' :: '0' :: '1' :: '1' :: rest => (decodeMountField rest).map ('\t' :: ·)
  | '\\' :: '1' :: '3' :: '4' :: rest => (decodeMountField rest).map ('\\' :: ·)
  | character :: rest =>
      if character = '\\' then none else (decodeMountField rest).map (character :: ·)

/-- `split_whitespace`. -/
def splitWhitespace (text : List Char) : List (List Char) := words isWhitespace text

/-- The separator of the two halves of a line. -/
def halves : List Char := [' ', '-', ' ']

/-- The options of a mount and of its file system, in the order they are inserted. -/
def optionSet (options : List (List Char)) : Std.TreeSet String compare :=
  options.foldl (fun known option => known.insert (String.ofList option)) ∅

/-- `parse_mountinfo_line`. -/
def parseMountinfoLine (line : List Char) : Option MountInfo := do
  let (left, right) ← breakOn halves line
  let leftFields := splitWhitespace left
  let rightFields := splitWhitespace right
  let mountpoint ← decodeMountField (← leftFields[4]?)
  let mountOptions ← leftFields[5]?
  let superOptions ← rightFields[2]?
  let filesystem ← rightFields.head?
  some ⟨String.ofList mountpoint, String.ofList filesystem,
    optionSet (mountOptions.splitOn ',' ++ superOptions.splitOn ',')⟩

/-- A line without its end. -/
def stripLineEnd (line : List Char) : List Char :=
  if line.getLast? = some '\n' then
    if line.dropLast.getLast? = some '\r' then line.dropLast.dropLast else line.dropLast
  else line

/-- `str::lines`. -/
def lines (contents : List Char) : List (List Char) :=
  (Lines.cut '\n' contents).map stripLineEnd

/-- A path lies at a mount point or below it. -/
def Covers (mountpoint root : String) : Prop :=
  pathComponents root = pathComponents mountpoint ∨
    pathComponents mountpoint <+: pathComponents root

instance (mountpoint root : String) : Decidable (Covers mountpoint root) :=
  inferInstanceAs (Decidable (_ ∨ _))

/-- The number of components of a path. -/
def depth (path : String) : Nat := (pathComponents path).length

/-- `find_mount`. -/
def findMount (contents : List Char) (root : String) : Option MountInfo :=
  lastMax (fun mount => depth mount.mountpoint)
    (((lines contents).filterMap parseMountinfoLine).filter fun mount =>
      Covers mount.mountpoint root)

/-! ## The volatile runtime -/

/-- `ROOT`. -/
def runtimeRoot : String := "/run/nix-seal"

/-- `REQUIRED_FLAGS`. -/
def requiredFlags : List String := ["noswap", "nosuid", "nodev", "noexec"]

/-- What `symlink_metadata` tells of a path. -/
structure PathMetadata where
  symlink : Bool
  directory : Bool
  uid : Nat
  gid : Nat
  mode : Nat

/-- `symlink_metadata`, for paths by their components. -/
abbrev Lstat : Type := List PathComponent → Option PathMetadata

/-- The loop of `validate_runtime_path`. -/
def validateComponents (lstat : Lstat) (current : List PathComponent) :
    List PathComponent → Except String Unit
  | [] => .ok ()
  | .normal name :: rest =>
      match lstat (current ++ [.normal name]) with
      | some metadata =>
          if metadata.symlink || !metadata.directory then
            .error "Linux volatile runtime contains an unsafe path component"
          else validateComponents lstat (current ++ [.normal name]) rest
      | none => validateComponents lstat (current ++ [.normal name]) rest
  | _ :: rest => validateComponents lstat current rest

/-- `validate_runtime_path`. -/
def validateRuntimePath (lstat : Lstat) (root : String) : Except String Unit :=
  let base := pathComponents runtimeRoot
  let components := pathComponents root
  if components.any fun component => component = .curDir || component = .parentDir then
    .error "Linux volatile runtime root contains dot path components"
  else if components ≠ base ∧ ¬base ++ pathComponents "system" <+: components ∧
      ¬base ++ pathComponents "users" <+: components then
    .error "Linux volatile runtime root is outside the nix-seal tmpfs"
  else if base <+: components then validateComponents lstat base (components.drop base.length)
  else .error "prefix not found"

/-- The checks of the metadata of the root. -/
def validateRootMetadata (root : String) : Option PathMetadata → Except String Unit
  | none => .ok ()
  | some metadata =>
      let mode := metadata.mode &&& 0o7777
      if metadata.symlink || !metadata.directory then
        .error "Linux volatile runtime root is not a regular directory"
      else if pathComponents root = pathComponents runtimeRoot then
        if metadata.uid ≠ 0 ∨ metadata.gid ≠ 0 ∨ mode ≠ 0o711 then
          .error "Linux volatile runtime mount root has unsafe ownership or mode"
        else .ok ()
      else if mode &&& 0o077 ≠ 0 then
        .error "Linux volatile runtime child root is accessible by group or other users"
      else .ok ()

/-- `ensure_noswap_tmpfs`, given what the mount table reads as. -/
def ensureNoswapTmpfs (lstat : Lstat) (mountinfo : Option (List Char)) (root : String) :
    Except String Unit := do
  validateRuntimePath lstat root
  match mountinfo with
  | none => .error "could not read Linux mount information"
  | some contents =>
      match findMount contents root with
      | none => .error "nix-seal tmpfs mount is missing"
      | some mount =>
          if pathComponents mount.mountpoint ≠ pathComponents runtimeRoot then
            .error "Linux volatile runtime is not mounted at /run/nix-seal"
          else if mount.filesystem ≠ "tmpfs" then
            .error "Linux volatile runtime is not mounted as tmpfs"
          else do
            validateRootMetadata root (lstat (pathComponents root))
            if ¬requiredFlags.all mount.options.contains then
              .error ("Linux volatile runtime tmpfs lacks required noswap or restrictive mount " ++
                "flags")
            else .ok ()

/-! ## The table of the kernel -/

/-- What the kernel knows of a mount. -/
structure Mount where
  id : Nat
  parent : Nat
  major : Nat
  minor : Nat
  /-- The directory of the file system that is mounted. -/
  root : List Char
  /-- The mount point, by the names below `/`. -/
  names : List (List Char)
  options : List (List Char)
  optionalFields : List (List Char)
  filesystem : List Char
  source : List Char
  superOptions : List (List Char)
  named : ∀ name ∈ names, name ≠ [] ∧ name ≠ ['.'] ∧ name ≠ ['.', '.'] ∧ '/' ∉ name

/-- An octal escape for a blank, a tab, a newline or a backslash. -/
def escapeChar (char : Char) : List Char :=
  if char = ' ' then ['\\', '0', '4', '0']
  else if char = '\t' then ['\\', '0', '1', '1']
  else if char = '\n' then ['\\', '0', '1', '2']
  else if char = '\\' then ['\\', '1', '3', '4']
  else [char]

/-- A path as the kernel prints it. -/
def escape (path : List Char) : List Char := path.flatMap escapeChar

namespace Mount

variable (mount : Mount)

/-- The mount point. -/
def path : List Char := '/' :: ['/'].intercalate mount.names

/-- The mount point, as a text. -/
def mountpoint : String := String.ofList mount.path

/-- The fields before the separator. -/
def leftFields : List (List Char) :=
  [(toString mount.id).toList, (toString mount.parent).toList,
    (toString mount.major).toList ++ ':' :: (toString mount.minor).toList, escape mount.root,
    escape mount.path, [','].intercalate mount.options] ++ mount.optionalFields

/-- The fields behind the separator. -/
def rightFields : List (List Char) :=
  [mount.filesystem, escape mount.source, [','].intercalate mount.superOptions]

/-- The line of a mount. -/
def line : List Char :=
  [' '].intercalate mount.leftFields ++ halves ++ [' '].intercalate mount.rightFields

/-- What should be read of a mount. -/
def info : MountInfo :=
  ⟨mount.mountpoint, String.ofList mount.filesystem,
    optionSet (mount.options ++ mount.superOptions)⟩

end Mount

/-- `/proc/self/mountinfo`. -/
def mountinfo (mounts : List Mount) : List Char :=
  (mounts.map fun mount => mount.line ++ ['\n']).flatten

/-! ## The meaning -/

/-- The mount that covers a path: of those with the longest mount point the last one. -/
def IsMountOf (mounts : List Mount) (root : String) (mount : Mount) : Prop :=
  IsLastMax (fun mount => depth mount.mountpoint)
    (mounts.filter fun mount => Covers mount.mountpoint root) mount

/-- Something is said of a mount truthfully. -/
structure MountInfo.Shows (info : MountInfo) (mount : Mount) : Prop where
  mountpoint : info.mountpoint = mount.mountpoint
  filesystem : info.filesystem = String.ofList mount.filesystem
  options : ∀ option, option ∈ info.options ↔
    ∃ flag, (flag ∈ mount.options ∨ flag ∈ mount.superOptions) ∧ option = String.ofList flag

/-- The lookup finds the mount of a path, if there is one. -/
structure Finds (mounts : List Mount) (root : String) : Prop where
  found : ∀ info, findMount (mountinfo mounts) root = some info →
    ∃ mount, IsMountOf mounts root mount ∧ info.Shows mount
  missing : findMount (mountinfo mounts) root = none →
    ∀ mount ∈ mounts, ¬Covers mount.mountpoint root

/-- Every lookup in the table of some mounts is right, and the volatile runtime accepts no root that
a mount below its own covers. -/
structure LooksUp (mounts : List Mount) : Prop where
  finds : ∀ root, Finds mounts root
  safe : ∀ lstat root, ensureNoswapTmpfs lstat (some (mountinfo mounts)) root = .ok () →
    ∀ mount ∈ mounts, Covers mount.mountpoint root →
      depth mount.mountpoint ≤ depth runtimeRoot

/-- A mount point of which the lookup reads every character. -/
def Readable (path : List Char) : Prop :=
  ∀ char ∈ path, isWhitespace char = true → char = ' ' ∨ char = '\t'

theorem readable_iff_all {path : List Char} : Readable path ↔
    (path.all fun char => !isWhitespace char || char == ' ' || char == '\t') = true := by
  simp only [Readable, List.all_eq_true, Bool.or_eq_true, Bool.not_eq_true', beq_iff_eq]
  refine forall₂_congr fun char _ => ?_
  cases isWhitespace char <;> simp

instance : DecidablePred Readable := fun _ => decidable_of_iff _ readable_iff_all.symm

/-- A list of options that is one word. -/
structure PlainOptions (options : List (List Char)) : Prop where
  nonempty : options ≠ []
  whole : ∀ option ∈ options, ',' ∉ option
  word : Word isWhitespace ([','].intercalate options)

theorem plainOptions_iff {options : List (List Char)} : PlainOptions options ↔
    options ≠ [] ∧ (∀ option ∈ options, ',' ∉ option) ∧
      Word isWhitespace ([','].intercalate options) :=
  ⟨fun plain => ⟨plain.nonempty, plain.whole, plain.word⟩,
    fun ⟨nonempty, whole, word⟩ => ⟨nonempty, whole, word⟩⟩

instance : DecidablePred PlainOptions := fun _ => decidable_of_iff _ plainOptions_iff.symm

/-- Every field but the mount point is one word. -/
structure Mount.PlainElsewhere (mount : Mount) : Prop where
  root : Word isWhitespace (escape mount.root) ∧ escape mount.root ≠ ['-']
  options : PlainOptions mount.options ∧ [','].intercalate mount.options ≠ ['-']
  optionalFields : ∀ field ∈ mount.optionalFields, Word isWhitespace field ∧ field ≠ ['-']
  filesystem : Word isWhitespace mount.filesystem
  source : Word isWhitespace (escape mount.source)
  superOptions : PlainOptions mount.superOptions

/-! ## One line -/

theorem decodeMountField_escape {path : List Char} (single : '\n' ∉ path) :
    decodeMountField (escape path) = some path := by
  induction path with
  | nil => rfl
  | cons char rest ih =>
      rw [List.mem_cons, not_or] at single
      have later := ih single.2
      have unfolded : escape (char :: rest) = escapeChar char ++ escape rest := rfl
      rw [unfolded]
      by_cases space : char = ' '
      · subst space
        simp [escapeChar, decodeMountField, later]
      · by_cases tab : char = '\t'
        · subst tab
          simp [escapeChar, decodeMountField, later]
        · by_cases backslash : char = '\\'
          · subst backslash
            simp [escapeChar, decodeMountField, later]
          · rw [escapeChar, if_neg space, if_neg tab, if_neg (Ne.symm single.1), if_neg backslash,
              List.singleton_append, decodeMountField.eq_5, if_neg backslash, later]
            · rfl
            all_goals
              intro rest same
              cases same
              exact absurd rfl backslash

theorem readable_cons {char : Char} {rest : List Char}
    (here : isWhitespace char = true → char = ' ' ∨ char = '\t') (later : Readable rest) :
    Readable (char :: rest) := by
  intro other member
  rcases List.mem_cons.mp member with rfl | member
  · exact here
  · exact later other member

theorem readable_of_decodeMountField {field path : List Char}
    (solid : ∀ char ∈ field, isWhitespace char = false)
    (decoded : decodeMountField field = some path) : Readable path := by
  fun_induction decodeMountField field generalizing path with
  | case1 =>
      cases decoded
      simp [Readable]
  | case2 rest ih =>
      obtain ⟨tail, read, rfl⟩ := Option.map_eq_some_iff.mp decoded
      exact readable_cons (fun _ => .inl rfl) (ih (by simp_all) read)
  | case3 rest ih =>
      obtain ⟨tail, read, rfl⟩ := Option.map_eq_some_iff.mp decoded
      exact readable_cons (fun _ => .inr rfl) (ih (by simp_all) read)
  | case4 rest ih =>
      obtain ⟨tail, read, rfl⟩ := Option.map_eq_some_iff.mp decoded
      exact readable_cons (fun blank => absurd blank (by decide)) (ih (by simp_all) read)
  | case5 => cases decoded
  | case6 character rest _ _ _ _ ih =>
      obtain ⟨tail, read, rfl⟩ := Option.map_eq_some_iff.mp decoded
      refine readable_cons (fun blank => ?_) (ih (by simp_all) read)
      rw [solid character List.mem_cons_self] at blank
      cases blank

theorem word_escape {path : List Char} (nonempty : path ≠ []) (readable : Readable path) :
    Word isWhitespace (escape path) := by
  refine ⟨?_, fun char member => ?_⟩
  · obtain ⟨first, rest, rfl⟩ := List.exists_cons_of_ne_nil nonempty
    have some : escapeChar first ≠ [] := by
      unfold escapeChar
      split_ifs <;> simp
    simp [escape, some]
  · obtain ⟨original, inside, member⟩ := List.mem_flatMap.mp member
    unfold escapeChar at member
    split_ifs at member with space tab newline backslash
    · simp only [List.mem_cons, List.not_mem_nil, or_false] at member
      rcases member with rfl | rfl | rfl | rfl <;> decide
    · simp only [List.mem_cons, List.not_mem_nil, or_false] at member
      rcases member with rfl | rfl | rfl | rfl <;> decide
    · simp only [List.mem_cons, List.not_mem_nil, or_false] at member
      rcases member with rfl | rfl | rfl | rfl <;> decide
    · simp only [List.mem_cons, List.not_mem_nil, or_false] at member
      rcases member with rfl | rfl | rfl | rfl <;> decide
    · rw [List.mem_singleton.mp member]
      by_contra blank
      rw [Bool.not_eq_false] at blank
      exact (readable original inside blank).elim space tab

theorem not_dash {field : List Char} (word : Word isWhitespace field) (other : field ≠ ['-'])
    (more : List Char) : ¬['-', ' '] <+: field ++ more := by
  obtain ⟨first, rest, rfl⟩ := List.exists_cons_of_ne_nil word.nonempty
  intro inside
  rw [List.cons_append, List.cons_prefix_cons] at inside
  obtain ⟨rfl, inside⟩ := inside
  cases rest with
  | nil => exact other rfl
  | cons second rest =>
      rw [List.cons_append, List.cons_prefix_cons] at inside
      obtain ⟨rfl, -⟩ := inside
      have blank := word.solid ' ' (by simp)
      exact absurd blank (by decide)

theorem exists_intercalate_cons (gap : Char) (first : List Char) (rest : List (List Char)) :
    ∃ more, [gap].intercalate (first :: rest) = first ++ more := by
  cases rest with
  | nil => exact ⟨[], by simp [List.intercalate]⟩
  | cons second rest => exact ⟨gap :: [gap].intercalate (second :: rest), by simp [List.intercalate]⟩

theorem breakOn_fields {fields : List (List Char)} (some : fields ≠ [])
    (each : ∀ field ∈ fields, Word isWhitespace field ∧ field ≠ ['-']) (right : List Char) :
    breakOn halves ([' '].intercalate fields ++ halves ++ right) =
      .some ([' '].intercalate fields, right) := by
  induction fields with
  | nil => exact absurd rfl some
  | cons first rest ih =>
      obtain ⟨⟨word, -⟩, others⟩ := List.forall_mem_cons.mp each
      have solid : ' ' ∉ first := fun inside => by
        have blank := word.solid ' ' inside
        exact absurd blank (by decide)
      cases rest with
      | nil =>
          have alone : [' '].intercalate [first] = first := by simp [List.intercalate]
          rw [alone]
          exact breakOn_of_not_mem solid right
      | cons second rest =>
          have joined : [' '].intercalate (first :: second :: rest) =
              first ++ ' ' :: [' '].intercalate (second :: rest) := by
            simp [List.intercalate]
          have later := ih (by simp) others
          obtain ⟨more, front⟩ := exists_intercalate_cons ' ' second rest
          obtain ⟨⟨next, other⟩, -⟩ := List.forall_mem_cons.mp others
          have early : ¬halves <+: ' ' :: ([' '].intercalate (second :: rest) ++ halves ++ right) := by
            rw [front, halves, List.cons_prefix_cons, List.append_assoc, List.append_assoc]
            exact fun inside => not_dash next other _ inside.2
          have step : breakOn halves (' ' :: ([' '].intercalate (second :: rest) ++ halves ++ right)) =
              .some (' ' :: [' '].intercalate (second :: rest), right) := by
            rw [breakOn, if_neg early, later]
            rfl
          have split : first ++ ' ' :: [' '].intercalate (second :: rest) ++ halves ++ right =
              first ++ ' ' :: ([' '].intercalate (second :: rest) ++ halves ++ right) := by
            simp [List.append_assoc]
          rw [joined, split]
          unfold halves at step ⊢
          rw [breakOn_append_of_not_mem solid, step]
          rfl

theorem isDigit_of_mem_toString {number : Nat} {char : Char}
    (member : char ∈ (toString number).toList) : char.isDigit = true := by
  rw [Nat.toString_eq_ofList_toDigits, String.toList_ofList] at member
  exact Nat.isDigit_of_mem_toDigits (by decide) (by decide) member

theorem solid_of_isDigit {char : Char} (digit : char.isDigit = true) :
    isWhitespace char = false := by
  have range : 48 ≤ char.toNat ∧ char.toNat ≤ 57 := Char.isDigit_iff_toNat.mp digit
  simp only [isWhitespace, Bool.or_eq_false_iff, Bool.and_eq_false_iff, decide_eq_false_iff_not,
    beq_eq_false_iff_ne]
  omega

theorem word_toString (number : Nat) :
    Word isWhitespace (toString number).toList ∧ (toString number).toList ≠ ['-'] := by
  refine ⟨⟨toString_toList_ne_nil number, fun char member =>
    solid_of_isDigit (isDigit_of_mem_toString member)⟩, fun dash => ?_⟩
  have digit := @isDigit_of_mem_toString number '-' (by rw [dash]; simp)
  exact absurd digit (by decide)

theorem word_device (major minor : Nat) :
    Word isWhitespace ((toString major).toList ++ ':' :: (toString minor).toList) ∧
      (toString major).toList ++ ':' :: (toString minor).toList ≠ ['-'] := by
  refine ⟨⟨by simp, fun char member => ?_⟩, fun dash => ?_⟩
  · rcases List.mem_append.mp member with member | member
    · exact (word_toString major).1.solid char member
    · rcases List.mem_cons.mp member with rfl | member
      · decide
      · exact (word_toString minor).1.solid char member
  · have colon : ':' ∈ ['-'] := by
      rw [← dash]
      simp
    exact absurd colon (by decide)

section Plain

variable {mount : Mount}

theorem Mount.PlainElsewhere.leftFields (plain : mount.PlainElsewhere)
    (readable : Readable mount.path) :
    ∀ field ∈ mount.leftFields, Word isWhitespace field ∧ field ≠ ['-'] := by
  have mountpoint : Word isWhitespace (escape mount.path) ∧ escape mount.path ≠ ['-'] := by
    refine ⟨word_escape (by simp [Mount.path]) readable, fun dash => ?_⟩
    have first := congrArg List.head? dash
    simp [Mount.path, escape, escapeChar] at first
  intro field member
  rcases List.mem_append.mp member with fixed | optional
  · simp only [List.mem_cons, List.not_mem_nil, or_false] at fixed
    rcases fixed with rfl | rfl | rfl | rfl | rfl | rfl
    · exact word_toString _
    · exact word_toString _
    · exact word_device _ _
    · exact plain.root
    · exact mountpoint
    · exact ⟨plain.options.1.word, plain.options.2⟩
  · exact plain.optionalFields field optional

theorem Mount.PlainElsewhere.rightFields (plain : mount.PlainElsewhere) :
    ∀ field ∈ mount.rightFields, Word isWhitespace field := by
  intro field member
  simp only [Mount.rightFields, List.mem_cons, List.not_mem_nil, or_false] at member
  rcases member with rfl | rfl | rfl
  · exact plain.filesystem
  · exact plain.source
  · exact plain.superOptions.word

theorem Mount.PlainElsewhere.parse_line (plain : mount.PlainElsewhere)
    (readable : Readable mount.path) : parseMountinfoLine mount.line = some mount.info := by
  have left := plain.leftFields readable
  have single : '\n' ∉ mount.path := fun inside =>
    absurd (readable '\n' inside (by decide)) (by decide)
  have fields : splitWhitespace ([' '].intercalate mount.leftFields) = mount.leftFields :=
    words_intercalate (by decide) fun field member => (left field member).1
  have others : splitWhitespace ([' '].intercalate mount.rightFields) = mount.rightFields :=
    words_intercalate (by decide) plain.rightFields
  have options := List.splitOn_intercalate ',' plain.options.1.whole plain.options.1.nonempty
  have superOptions := List.splitOn_intercalate ',' plain.superOptions.whole
    plain.superOptions.nonempty
  rw [parseMountinfoLine, Mount.line, breakOn_fields (by simp [Mount.leftFields]) left]
  simp only [Option.bind_eq_bind, Option.bind_some, fields, others]
  simp only [Mount.leftFields, Mount.rightFields, List.cons_append, List.getElem?_cons_succ,
    List.getElem?_cons_zero, Option.bind_some, decodeMountField_escape single, List.head?_cons,
    options, superOptions]
  rfl

end Plain

/-! ## The whole table -/

section Table

variable {mounts : List Mount}

theorem newline_not_mem {fields : List (List Char)}
    (each : ∀ field ∈ fields, Word isWhitespace field) : '\n' ∉ [' '].intercalate fields := by
  induction fields with
  | nil => simp [List.intercalate]
  | cons first rest ih =>
      obtain ⟨word, others⟩ := List.forall_mem_cons.mp each
      have here : '\n' ∉ first := fun inside => absurd (word.solid '\n' inside) (by decide)
      cases rest with
      | nil => simpa [List.intercalate] using here
      | cons second rest =>
          have joined : [' '].intercalate (first :: second :: rest) =
              first ++ ' ' :: [' '].intercalate (second :: rest) := by
            simp [List.intercalate]
          rw [joined, List.mem_append, List.mem_cons, not_or, not_or]
          exact ⟨here, by decide, ih others⟩

theorem Mount.PlainElsewhere.line_solid {mount : Mount} (plain : mount.PlainElsewhere)
    (readable : Readable mount.path) :
    '\n' ∉ mount.line ∧ mount.line.getLast? ≠ some '\r' := by
  constructor
  · intro inside
    rw [Mount.line, List.mem_append, List.mem_append] at inside
    rcases inside with (left | dash) | right
    · exact newline_not_mem (fun field member => (plain.leftFields readable field member).1) left
    · exact absurd dash (by decide)
    · exact newline_not_mem plain.rightFields right
  · intro ends
    have word := plain.superOptions.word
    have split : mount.line = [' '].intercalate mount.leftFields ++ halves ++
        (mount.filesystem ++ ' ' :: (escape mount.source ++ [' '])) ++
          [','].intercalate mount.superOptions := by
      simp [Mount.line, Mount.rightFields, List.intercalate, List.append_assoc]
    rw [split, List.getLast?_append_of_ne_nil _ word.nonempty] at ends
    have blank := word.solid '\r' (List.mem_of_getLast? ends)
    exact absurd blank (by decide)

theorem stripLineEnd_line {line : List Char} (other : line.getLast? ≠ some '\r') :
    stripLineEnd (line ++ ['\n']) = line := by
  rw [stripLineEnd, List.getLast?_concat, if_pos rfl, List.dropLast_concat, if_neg other]

/-- The lines of the table are those of its mounts. -/
theorem lines_mountinfo (plain : ∀ mount ∈ mounts, mount.PlainElsewhere)
    (readable : ∀ mount ∈ mounts, Readable mount.path) :
    lines (mountinfo mounts) = mounts.map Mount.line := by
  have ended : ∀ line ∈ mounts.map fun mount => mount.line ++ ['\n'], Lines.Ended '\n' line := by
    intro line member
    obtain ⟨mount, inside, rfl⟩ := List.mem_map.mp member
    exact ⟨mount.line, rfl, ((plain mount inside).line_solid (readable mount inside)).1⟩
  rw [lines, mountinfo, Lines.cut_flatten ended, List.map_map]
  refine List.map_congr_left fun mount inside => ?_
  exact stripLineEnd_line ((plain mount inside).line_solid (readable mount inside)).2

theorem filterMap_eq_map {α β γ : Type} {read : β → Option γ} {print : α → β} {value : α → γ}
    {items : List α} (each : ∀ item ∈ items, read (print item) = some (value item)) :
    (items.map print).filterMap read = items.map value := by
  rw [List.filterMap_map, ← List.filterMap_eq_map]
  exact List.filterMap_congr each

/-- The lookup in a readable table is the lookup among its mounts. -/
theorem findMount_mountinfo (plain : ∀ mount ∈ mounts, mount.PlainElsewhere)
    (readable : ∀ mount ∈ mounts, Readable mount.path) (root : String) :
    findMount (mountinfo mounts) root =
      (lastMax (fun mount => depth mount.mountpoint)
        (mounts.filter fun mount => Covers mount.mountpoint root)).map Mount.info := by
  have parsed : (lines (mountinfo mounts)).filterMap parseMountinfoLine = mounts.map Mount.info := by
    rw [lines_mountinfo plain readable]
    exact filterMap_eq_map fun mount inside =>
      (plain mount inside).parse_line (readable mount inside)
  rw [findMount, parsed, List.filter_map, lastMax_map]
  rfl

theorem mem_optionSet {options : List (List Char)} {option : String} :
    option ∈ optionSet options ↔ ∃ flag ∈ options, option = String.ofList flag := by
  have each : ∀ known : Std.TreeSet String compare,
      option ∈ options.foldl (fun known option => known.insert (String.ofList option)) known ↔
        option ∈ known ∨ ∃ flag ∈ options, option = String.ofList flag := by
    induction options with
    | nil => simp
    | cons flag rest ih =>
        intro known
        rw [List.foldl_cons, ih, Std.TreeSet.mem_insert, Std.LawfulEqCmp.compare_eq_iff_eq]
        simp only [List.mem_cons, exists_eq_or_imp, eq_comm (b := option)]
        tauto
  rw [optionSet, each]
  simp

theorem Mount.shows_info (mount : Mount) : mount.info.Shows mount where
  mountpoint := rfl
  filesystem := rfl
  options option := by
    rw [Mount.info, mem_optionSet]
    simp only [List.mem_append]

/-- In a readable table the mount of a path is found. -/
theorem finds_of_readable (plain : ∀ mount ∈ mounts, mount.PlainElsewhere)
    (readable : ∀ mount ∈ mounts, Readable mount.path) (root : String) : Finds mounts root := by
  have looked := findMount_mountinfo plain readable root
  constructor
  · intro info found
    rw [looked] at found
    obtain ⟨mount, picked, rfl⟩ := Option.map_eq_some_iff.mp found
    exact ⟨mount, isLastMax_of_lastMax picked, mount.shows_info⟩
  · intro missing mount inside covers
    rw [looked, Option.map_eq_none_iff, lastMax_eq_none] at missing
    have skipped := List.filter_eq_nil_iff.mp missing mount inside
    exact skipped (decide_eq_true covers)

/-! ## What is never read -/

/-- The lookup says only mount points that it can read. -/
theorem readable_of_findMount {contents : List Char} {root : String} {info : MountInfo}
    (found : findMount contents root = some info) : Readable info.mountpoint.toList := by
  have member := (isLastMax_of_lastMax found).mem
  obtain ⟨line, -, parsed⟩ := List.mem_filterMap.mp (List.mem_filter.mp member).1
  simp only [parseMountinfoLine, Option.bind_eq_bind, Option.bind_eq_some_iff] at parsed
  obtain ⟨⟨left, right⟩, -, field, fourth, path, decoded, own, -, more, -, filesystem, -, same⟩ :=
    parsed
  cases same
  have word := word_of_mem_words (List.mem_of_getElem? fourth)
  rw [String.toList_ofList]
  exact readable_of_decodeMountField word.solid decoded

theorem pathComponents_mountpoint (mount : Mount) :
    pathComponents mount.mountpoint = .rootDir :: mount.names.map .normal := by
  have parts : segments mount.mountpoint = [] :: (['/'].intercalate mount.names).splitOn '/' := by
    rw [segments, Mount.mountpoint, String.toList_ofList, Mount.path]
    exact @List.splitOn_append_cons_self_of_not_mem _ [] _ _ '/' (by simp) _
  have kept : ((['/'].intercalate mount.names).splitOn '/').filter
      (fun part => part != [] && part != ['.']) = mount.names := by
    rcases eq_or_ne mount.names [] with empty | some
    · rw [empty]
      rfl
    · rw [List.splitOn_intercalate '/' (fun name inside => (mount.named name inside).2.2.2) some]
      refine List.filter_eq_self.mpr fun name inside => ?_
      have plain := mount.named name inside
      simp [plain.1, plain.2.1]
  have first : mount.mountpoint.toList.head? = some '/' := by
    rw [Mount.mountpoint, String.toList_ofList]
    rfl
  simp only [pathComponents, parts, if_pos first]
  rw [List.filter_cons_of_neg (by simp), kept]
  refine congrArg (List.cons _) (List.map_congr_left fun name inside => ?_)
  rw [if_neg (mount.named name inside).2.2.1]

theorem path_eq_of_components {left right : Mount}
    (same : pathComponents left.mountpoint = pathComponents right.mountpoint) :
    left.path = right.path := by
  rw [pathComponents_mountpoint, pathComponents_mountpoint, List.cons.injEq] at same
  have names : left.names = right.names :=
    List.map_injective_iff.mpr (fun _ _ => PathComponent.normal.inj) same.2
  rw [Mount.path, Mount.path, names]

/-- If every path is looked up rightly, every mount point can be read. -/
theorem readable_of_finds (finds : ∀ root, Finds mounts root) {mount : Mount}
    (inside : mount ∈ mounts) : Readable mount.path := by
  have covers : Covers mount.mountpoint mount.mountpoint := .inl rfl
  cases looked : findMount (mountinfo mounts) mount.mountpoint with
  | none => exact absurd covers ((finds mount.mountpoint).missing looked mount inside)
  | some info =>
      obtain ⟨other, isMount, shows⟩ := (finds mount.mountpoint).found info looked
      have deeper := isMount.le (List.mem_filter.mpr ⟨inside, decide_eq_true covers⟩)
      have above := (List.mem_filter.mp isMount.mem).2
      have same : pathComponents other.mountpoint = pathComponents mount.mountpoint := by
        rcases of_decide_eq_true above with same | lies
        · exact same.symm
        · exact lies.eq_of_length_le deeper
      rw [← path_eq_of_components same]
      have read := readable_of_findMount looked
      rwa [shows.mountpoint, Mount.mountpoint, String.toList_ofList] at read

/-- The mount that the volatile runtime accepts is its own. -/
theorem exists_of_ensureNoswapTmpfs {lstat : Lstat} {contents : List Char} {root : String}
    (accepted : ensureNoswapTmpfs lstat (some contents) root = .ok ()) :
    ∃ info, findMount contents root = some info ∧
      pathComponents info.mountpoint = pathComponents runtimeRoot := by
  rw [ensureNoswapTmpfs] at accepted
  cases valid : validateRuntimePath lstat root with
  | error message =>
      rw [valid] at accepted
      cases accepted
  | ok done =>
      simp only [valid, Fallible.ok_bind] at accepted
      cases looked : findMount contents root with
      | none => simp [looked] at accepted
      | some info =>
          simp only [looked] at accepted
          split at accepted
          · cases accepted
          · rename_i own
            exact ⟨info, rfl, not_not.mp own⟩

theorem safe_of_finds {lstat : Lstat} {root : String} (finds : Finds mounts root)
    (accepted : ensureNoswapTmpfs lstat (some (mountinfo mounts)) root = .ok ()) {mount : Mount}
    (inside : mount ∈ mounts) (covers : Covers mount.mountpoint root) :
    depth mount.mountpoint ≤ depth runtimeRoot := by
  obtain ⟨info, looked, own⟩ := exists_of_ensureNoswapTmpfs accepted
  obtain ⟨other, isMount, shows⟩ := finds.found info looked
  have deepest := isMount.le (List.mem_filter.mpr ⟨inside, decide_eq_true covers⟩)
  rw [shows.mountpoint] at own
  calc depth mount.mountpoint ≤ depth other.mountpoint := deepest
    _ = depth runtimeRoot := congrArg List.length own

end Table

/-- Where every mount point can be read, and every other field is one word, the mount of every path
is found; where some mount point cannot be read, it is not. -/
theorem looksUp_iff_readable (mounts : List Mount) :
    (LooksUp mounts → ∀ mount ∈ mounts, Readable mount.path) ∧
      ((∀ mount ∈ mounts, mount.PlainElsewhere) →
        (LooksUp mounts ↔ ∀ mount ∈ mounts, Readable mount.path)) := by
  have needed : LooksUp mounts → ∀ mount ∈ mounts, Readable mount.path :=
    fun right mount inside => readable_of_finds right.finds inside
  refine ⟨needed, fun plain => ⟨needed, fun readable => ?_⟩⟩
  have finds := finds_of_readable plain readable
  exact ⟨finds, fun lstat root accepted mount inside covers =>
    safe_of_finds (finds root) accepted inside covers⟩

namespace Sample

/-- The file system of the volatile runtime. -/
def volatileMount : Mount where
  id := 42
  parent := 24
  major := 0
  minor := 40
  root := ['/']
  names := ["run".toList, "nix-seal".toList]
  options := ["rw".toList, "nosuid".toList, "nodev".toList, "noexec".toList]
  optionalFields := []
  filesystem := "tmpfs".toList
  source := "tmpfs".toList
  superOptions := ["rw".toList, "noswap".toList]
  named := by decide

/-- A disk below it, at a mount point with a newline. -/
def diskMount : Mount where
  id := 43
  parent := 42
  major := 8
  minor := 1
  root := ['/']
  names := ["run".toList, "nix-seal".toList, "system".toList, "a\nb".toList]
  options := ["rw".toList]
  optionalFields := []
  filesystem := "ext4".toList
  source := "/dev/sda1".toList
  superOptions := ["rw".toList]
  named := by decide

def table : List Mount := [volatileMount, diskMount]

/-- The same disk at a mount point with a space and a tab, shared with other mounts. -/
def spacedMount : Mount :=
  { diskMount with
    names := ["run".toList, "nix-seal".toList, "a \tb".toList]
    optionalFields := ["shared:7".toList]
    named := by decide }

theorem plain_volatileMount : volatileMount.PlainElsewhere where
  root := by decide
  options := by decide
  optionalFields := nofun
  filesystem := by decide
  source := by decide
  superOptions := by decide

theorem plain_spacedMount : spacedMount.PlainElsewhere where
  root := by decide
  options := by decide
  optionalFields := by decide
  filesystem := by decide
  source := by decide
  superOptions := by decide

end Sample

/-- A mount point with a space and a tab is looked up. -/
theorem looksUp_iff_readable_spaced : LooksUp [Sample.volatileMount, Sample.spacedMount] := by
  refine ((looksUp_iff_readable [Sample.volatileMount, Sample.spacedMount]).2 ?_).mpr ?_
  · intro mount member
    rcases List.mem_pair.mp member with rfl | rfl
    · exact Sample.plain_volatileMount
    · exact Sample.plain_spacedMount
  · decide

theorem not_looksUp_table :
    ensureNoswapTmpfs (fun _ => none) (some (mountinfo Sample.table)) Sample.diskMount.mountpoint =
        .ok () ∧
      ¬LooksUp Sample.table := by
  refine ⟨by decide +kernel, fun right => ?_⟩
  have readable := readable_of_finds right.finds (show Sample.diskMount ∈ Sample.table by simp [Sample.table])
  exact absurd (readable '\n' (by decide) (by decide)) (by decide)

end NixSeal.Runtime.Volatile
