import NixSeal.Runtime.Switching

/-!
# Removing superseded generations

A tree of files and directories is removed as a whole, and a tree with anything else in it is
refused.  The generation that `current` names stays in every case.
-/

namespace NixSeal.Runtime.Generations

open Cache Faulty Program

/-- Some call is refused by the system. -/
def Refused (verdict : Call → Verdict) : Prop := ∃ label, verdict label = .fail

/-! ## Removing one tree -/

section Tree

variable (verdict : Call → Verdict)

mutual

theorem removeEntry_meets (path : List FileName) (name : FileName)
    (rest : List (FileName × Node)) : ∀ node : Node,
      (removeEntry path node).Meets verdict ((name, node) :: rest)
        (fun _ left => left = rest ∧ node.plain = true)
        (fun _ _ => node.plain = true → Refused verdict) fun _ => True
  | .file bytes links => by
      unfold removeEntry
      refine Meets.bind (Meets.step ?_ (fun refused _ => ⟨_, refused⟩) fun _ _ => trivial)
      exact Meets.step ⟨rfl, rfl⟩ (fun refused _ => ⟨_, refused⟩) fun _ _ => trivial
  | .directory entries => by
      unfold removeEntry
      refine Meets.bind (Meets.step ?_ (fun refused _ => ⟨_, refused⟩) fun _ _ => trivial)
      refine Meets.bind (Meets.step ?_ (fun refused _ => ⟨_, refused⟩) fun _ _ => trivial)
      have inner := removeEntries_meets path entries
      refine Meets.bind (Meets.focus (inner.mono ?_ ?_ fun _ _ => trivial))
      · intro _ left emptied
        refine Meets.step ⟨rfl, ?_⟩ (fun refused _ => ⟨_, refused⟩) fun _ _ => trivial
        exact emptied.2
      · intro _ _ cause plain
        exact cause plain
  | .symlink target => by
      unfold removeEntry
      refine Meets.bind (Meets.step ?_ (fun refused _ => ⟨_, refused⟩) fun _ _ => trivial)
      exact Meets.raise fun plain => Bool.noConfusion plain
  | .special => by
      unfold removeEntry
      refine Meets.bind (Meets.step ?_ (fun refused _ => ⟨_, refused⟩) fun _ _ => trivial)
      exact Meets.raise fun plain => Bool.noConfusion plain

/-- All entries are gone, unless one of them is no plain tree or a call is refused. -/
theorem removeEntries_meets (path : List FileName) : ∀ entries : List (FileName × Node),
    (removeEntries path entries).Meets verdict entries
      (fun _ left => left = [] ∧ plainEntries entries = true)
      (fun _ _ => plainEntries entries = true → Refused verdict) fun _ => True
  | [] => Meets.pure ⟨rfl, rfl⟩
  | (name, node) :: rest => by
      unfold removeEntries
      have first := removeEntry_meets (path ++ [name]) name rest node
      refine Meets.bind (first.mono ?_ ?_ fun _ _ => trivial)
      · intro _ left holds
        obtain ⟨removed, plain⟩ := holds
        rw [removed]
        refine (removeEntries_meets path rest).mono ?_ ?_ fun _ _ => trivial
        · intro _ left emptied
          refine ⟨emptied.1, ?_⟩
          simp only [plainEntries, plain, emptied.2, Bool.and_self]
        · intro _ _ cause whole
          simp only [plainEntries, plain, Bool.true_and] at whole
          exact cause whole
      · intro _ _ cause whole
        simp only [plainEntries, Bool.and_eq_true] at whole
        exact cause whole.1

end

theorem removeGenerationTree_meets {name : FileName} {world : World} {node : Node}
    (found : world.lookup name = some node) (directory : node.isDir = true) :
    (removeGenerationTree name).Meets verdict world
      (fun _ left => left.lookup name = none ∧ node.plain = true)
      (fun _ _ => node.plain = true → Refused verdict) fun _ => True := by
  cases node with
  | file bytes links => cases directory
  | symlink target => cases directory
  | special => cases directory
  | directory entries =>
      have listed : world.entriesOf name = entries := by simp [World.entriesOf, found]
      refine Meets.bind (Meets.step ?_ (fun refused _ => ⟨_, refused⟩) fun _ _ => trivial)
      refine Meets.bind (Meets.read (Meets.bind (Meets.require ?_ ?_)))
      · intro _
        refine Meets.bind (Meets.step ?_ (fun refused _ => ⟨_, refused⟩) fun _ _ => trivial)
        have emptying := removeEntries_meets verdict [name] entries
        rw [id, id, listed]
        refine Meets.bind (Meets.focus ?_)
        rw [listed]
        refine emptying.mono ?_ (fun _ _ cause => cause) fun _ _ => trivial
        intro _ left emptied
        exact Meets.step ⟨World.lookup_drop, emptied.2⟩ (fun refused _ => ⟨_, refused⟩)
          fun _ _ => trivial
      · intro unlisted
        exact absurd (by rw [id, found]; rfl) unlisted

theorem removeGenerationTree_keeps (name : FileName) :
    (removeGenerationTree name).Keeps (beside [name]) :=
  Keeps.bind (idle_keeps _) fun _ =>
    Keeps.bind Keeps.read fun _ =>
      Keeps.bind (Keeps.require _) fun _ =>
        Keeps.bind (idle_keeps _) fun _ =>
          Keeps.bind (Keeps.focus fun _ _ => beside_put (by simp)) fun _ =>
            Keeps.step fun _ => beside_drop (by simp)

end Tree

/-! ## Removing all but one -/

/-- The name of another generation than `number`. -/
def superseded (number : Nat) (name : FileName) : Bool :=
  isGeneration name && name ≠ generationName number

/-- What stands at the names of no superseded generation. -/
def settled (number : Nat) (world : World) (name : FileName) : Option Node :=
  if superseded number name = true then none else world.lookup name

section Prune

variable {number : Nat} {name : FileName} {world : World}

theorem lookup_of_settled {after : World} (kept : settled number after = settled number world)
    (other : superseded number name = false) : after.lookup name = world.lookup name := by
  have same := congrFun kept name
  simpa [settled, other] using same

theorem settled_of_beside {after : World} (other : superseded number name = true)
    (kept : beside [name] after = beside [name] world) :
    settled number after = settled number world := by
  funext found
  cases gone : superseded number found with
  | true => simp [settled, gone]
  | false =>
      have different : found ∉ [name] := by
        rw [List.mem_singleton]
        rintro rfl
        rw [other] at gone
        cases gone
      simp only [settled, gone, Bool.false_eq_true, if_false]
      exact lookup_of_beside kept different

/-- A name that is read as another number is superseded. -/
theorem superseded_of_nameNumber {value : Nat} (small : number < 2 ^ 64)
    (read : nameNumber name = some value) (different : value ≠ number) :
    superseded number name = true := by
  have generation : isGeneration name = true := by
    cases found : isGeneration name with
    | true => rfl
    | false =>
        rw [nameNumber, generationSuffix_of_not_isGeneration found] at read
        cases read
  have other : name ≠ generationName number := by
    rintro rfl
    rw [(names_generationName number).nameNumber_eq small] at read
    exact different (Option.some.inj read).symm
  simp [superseded, generation, other]

theorem pruneEntry_of_nameNumber {value : Nat} (read : nameNumber name = some value) :
    pruneEntry number name = (do
      idle (.inspectGeneration name)
      let world ← Program.read
      require ((world.lookup name).isSome = true) .io
      require ((world.lookup name).any Node.isDir = true) .invalidDestination
      Program.when (value ≠ number) (removeGenerationTree name)) := by
  obtain ⟨suffix, split, parsed⟩ := Option.bind_eq_some_iff.mp read
  simp only [pruneEntry, split, parsed]

/-- One turn keeps what the removal of the tree keeps, if there is a removal. -/
theorem pruneEntry_keeps_of {γ : Type} {view : World → γ}
    (keeps : ∀ value, nameNumber name = some value → value ≠ number →
      (removeGenerationTree name).Keeps view) : (pruneEntry number name).Keeps view := by
  cases read : nameNumber name with
  | none =>
      unfold pruneEntry
      split
      · exact Keeps.pure ()
      · rename_i suffix split
        rw [nameNumber, split, Option.bind_some] at read
        simp only [read]
        exact Keeps.raise _
  | some value =>
      rw [pruneEntry_of_nameNumber read]
      refine Keeps.bind (idle_keeps _) fun _ => Keeps.bind Keeps.read fun _ => ?_
      refine Keeps.bind (Keeps.require _) fun _ => Keeps.bind (Keeps.require _) fun _ => ?_
      unfold Program.when
      split
      · exact keeps value read ‹_›
      · exact Keeps.pure ()

/-- From any root and however it ends, one turn changes superseded generations only. -/
theorem pruneEntry_keeps (small : number < 2 ^ 64) (name : FileName) :
    (pruneEntry number name).Keeps (settled number) := by
  refine pruneEntry_keeps_of fun value read different verdict state => ?_
  exact settled_of_beside (superseded_of_nameNumber small read different)
    (removeGenerationTree_keeps name verdict state)

theorem pruneEntry_keeps_beside (number : Nat) (name : FileName) :
    (pruneEntry number name).Keeps (beside [name]) :=
  pruneEntry_keeps_of fun _ _ _ => removeGenerationTree_keeps name

theorem pruneSupersededGenerations_keeps (E : Environment) (small : number < 2 ^ 64) :
    (pruneSupersededGenerations E number).Keeps (settled number) :=
  Keeps.bind (idle_keeps _) fun _ =>
    Keeps.bind Keeps.read fun _ =>
      Keeps.bind (Keeps.foldlM fun _ name => pruneEntry_keeps small name) fun _ => idle_keeps _

/-- Generations are directories, and one name at most is read as `number`. -/
def Prunable (number : Nat) (world : World) : Prop :=
  ∀ name node, world.lookup name = some node → isGeneration name = true →
    node.isDir = true ∧
      ∃ value, nameNumber name = some value ∧ (value = number → name = generationName number)

/-- Superseded generations hold nothing but files and directories. -/
def PlainTrees (number : Nat) (world : World) : Prop :=
  ∀ name node, world.lookup name = some node → superseded number name = true → node.plain = true

theorem not_superseded_generationName (number : Nat) :
    superseded number (generationName number) = false := by
  simp [superseded]

/-- One turn removes a superseded generation, unless it is no plain tree or a call is refused. -/
theorem pruneEntry_meets (verdict : Call → Verdict) {node : Node} (small : number < 2 ^ 64)
    (ready : isGeneration name = true → node.isDir = true ∧
      ∃ value, nameNumber name = some value ∧ (value = number → name = generationName number))
    (found : world.lookup name = some node) :
    (pruneEntry number name).Meets verdict world
      (fun _ left => superseded number name = true → left.lookup name = none ∧ node.plain = true)
      (fun _ _ => (superseded number name = true → node.plain = true) → Refused verdict)
      fun _ => True := by
  cases generation : isGeneration name with
  | false =>
      simp only [pruneEntry, generationSuffix_of_not_isGeneration generation]
      refine Meets.pure fun other => ?_
      simp [superseded, generation] at other
  | true =>
      obtain ⟨directory, value, read, only⟩ := ready generation
      rw [pruneEntry_of_nameNumber read]
      refine Meets.bind (Meets.step ?_ (fun refused _ => ⟨_, refused⟩) fun _ _ => trivial)
      have present : (world.lookup name).isSome = true := by rw [found]; rfl
      have isDir : (world.lookup name).any Node.isDir = true := by rw [found]; exact directory
      refine Meets.bind (Meets.read (Meets.bind ?_))
      refine Meets.require ?_ fun missing => absurd present missing
      intro _
      refine Meets.bind (Meets.require ?_ fun wrong => absurd isDir wrong)
      intro _
      refine Meets.when ?_ ?_
      · intro different
        have other := superseded_of_nameNumber small read different
        refine (removeGenerationTree_meets verdict found directory).mono ?_ ?_ fun _ _ => trivial
        · intro _ left removed _
          exact removed
        · intro _ _ cause plain
          exact cause (plain other)
      · intro same other
        rw [only (not_not.mp same), not_superseded_generationName] at other
        cases other

/-- Pruning returns when it has removed every superseded generation, and it stops with an error only
when one of them is no plain tree or a call is refused. -/
theorem pruneSupersededGenerations_meets (E : Environment) (verdict : Call → Verdict)
    (small : number < 2 ^ 64) (ready : Prunable number world) :
    (pruneSupersededGenerations E number).Meets verdict world
      (fun _ left => (∀ name, superseded number name = true → left.lookup name = none) ∧
        PlainTrees number world)
      (fun _ _ => PlainTrees number world → Refused verdict) fun _ => True := by
  refine Meets.bind (Meets.step ?_ (fun refused _ => ⟨_, refused⟩) fun _ _ => trivial)
  refine Meets.bind (Meets.read (Meets.bind ?_))
  have listed := E.listing_perm .prune world.root.keys
  refine Meets.foldlM
    (fun done _ left => (∀ name, name ∉ done → left.lookup name = world.lookup name) ∧
      ∀ name ∈ done, superseded number name = true →
        left.lookup name = none ∧ ∀ node, world.lookup name = some node → node.plain = true)
    ⟨fun _ _ => rfl, by simp⟩ ?_ ?_
  · intro done name rest _ before split holds
    obtain ⟨untouched, gone⟩ := holds
    have nodup : (done ++ name :: rest).Nodup := split ▸ listed.nodup_iff.mpr world.root.keys_nodup
    have fresh : name ∉ done := fun member =>
      (List.nodup_append.mp nodup).2.2 name member name (by simp) rfl
    have member : name ∈ world.root.keys := listed.mem_iff.mp (split ▸ by simp)
    obtain ⟨node, found⟩ := lookup_isSome_of_mem member
    have turn := pruneEntry_meets verdict small (ready name node found)
      ((untouched name fresh).trans found)
    refine (turn.keeping (pruneEntry_keeps_beside number name)).mono ?_ ?_ fun _ _ => trivial
    · intro _ left holds
      obtain ⟨removed, kept⟩ := holds
      have elsewhere : ∀ other, other ≠ name → left.lookup other = before.lookup other :=
        fun other different => lookup_of_beside kept (by simpa using different)
      constructor
      · intro other outside
        simp only [List.mem_append, List.mem_singleton, not_or] at outside
        rw [elsewhere other outside.2, untouched other outside.1]
      · intro other inside later
        rcases List.mem_append.mp inside with inside | same
        · have different : other ≠ name := fun same => fresh (same ▸ inside)
          rw [elsewhere other different]
          exact gone other inside later
        · obtain rfl := List.mem_singleton.mp same
          obtain ⟨absent, plain⟩ := removed later
          refine ⟨absent, fun tree present => ?_⟩
          rw [World.lookup, found] at present
          exact Option.some.inj present ▸ plain
    · intro _ _ stopped plain
      exact stopped.1 fun other => plain name node found other
  · intro _ left holds
    obtain ⟨untouched, gone⟩ := holds
    refine Meets.step ⟨?_, ?_⟩ (fun refused _ => ⟨_, refused⟩) fun _ _ => trivial
    · intro name other
      by_cases inside : name ∈ E.listing .prune world.root.keys
      · exact (gone name inside other).1
      · rw [id, untouched name inside]
        exact AList.lookup_eq_none.mpr fun member => inside (listed.mem_iff.mpr member)
    · intro name node found other
      have member := mem_keys_of_lookup found
      exact (gone name (listed.mem_iff.mpr member) other).2 node found

end Prune

/-! ## Numbers of generations -/

/-- `current` names the generation `number`, whose directory is `tree`, and its number is read back
from the path. -/
structure Current (number : Nat) (tree : Node) (world : World) : Prop where
  held : world.lookup (generationName number) = some tree
  linked : world.lookup currentName = some (.symlink (generationName number))
  path : currentGeneration world.root = .ok (some [generationName number])
  numbered : generationNumber [generationName number] = .ok number

theorem Current.of_lookups {number : Nat} {tree : Node} {world : World} (small : number < 2 ^ 64)
    (directory : tree.isDir = true) (held : world.lookup (generationName number) = some tree)
    (linked : world.lookup currentName = some (.symlink (generationName number))) :
    Current number tree world where
  held := held
  linked := linked
  path := currentGeneration_generationName linked held directory
  numbered := generationNumber_generationName small

theorem Current.of_settled {number : Nat} {tree : Node} {before after : World}
    (current : Current number tree before) (small : number < 2 ^ 64) (directory : tree.isDir = true)
    (kept : settled number after = settled number before) : Current number tree after := by
  have held := lookup_of_settled kept (not_superseded_generationName number)
  have linked : after.lookup currentName = before.lookup currentName := lookup_of_settled kept rfl
  exact .of_lookups small directory (held.trans current.held) (linked.trans current.linked)

/-- Every generation holds nothing but files and directories. -/
def PlainGenerations (root : Entries) : Prop :=
  ∀ name node, root.lookup name = some node → isGeneration name = true → node.plain = true

/-- No generation but `number` is left. -/
def Alone (number : Nat) (world : World) : Prop :=
  ∀ name ∈ world.root, isGeneration name = true → name = generationName number

section After

variable {before after : World} {transaction : FileName} {number : Nat} {tree : Node}

theorem Switched.current (switched : Switched before transaction number tree after)
    (small : number < 2 ^ 64) : Current number tree after :=
  Current.of_lookups small switched.directory switched.published switched.linked

/-- After a switch to a number above all others, every other generation can be removed. -/
theorem Switched.prunable (switched : Switched before transaction number tree after)
    (usable : Usable before.root) (small : number < 2 ^ 64)
    (above : greatest before.root < number) : Prunable number after := by
  intro name node found generation
  by_cases same : name = generationName number
  · subst same
    obtain rfl := Option.some.inj (found.symm.trans switched.published)
    have read := (names_generationName number).nameNumber_eq small
    exact ⟨switched.directory, number, read, fun _ => rfl⟩
  · rw [switched.others name generation same] at found
    obtain ⟨directory, value, named, bound⟩ := usable name node found generation
    have read := named.nameNumber_eq (by omega)
    have below := nameNumber_le_greatest (mem_keys_of_lookup found) read
    exact ⟨directory, value, read, fun equal => by omega⟩

theorem Switched.plainTrees_iff (switched : Switched before transaction number tree after)
    (absent : before.lookup (generationName number) = none) :
    PlainTrees number after ↔ PlainGenerations before.root := by
  constructor
  · intro plain name node found generation
    have different : name ≠ generationName number := by
      rintro rfl
      rw [World.lookup, found] at absent
      cases absent
    exact plain name node ((switched.others name generation different).trans found)
      (by simp [superseded, generation, different])
  · intro plain name node found other
    obtain ⟨generation, different⟩ : isGeneration name = true ∧ name ≠ generationName number := by
      simpa [superseded] using other
    rw [switched.others name generation different] at found
    exact plain name node found generation

/-- How pruning ends after a switch to a number above all others. -/
theorem Switched.prune_meets (switched : Switched before transaction number tree after)
    (E : Environment) (verdict : Call → Verdict) (usable : Usable before.root)
    (small : number < 2 ^ 64) (above : greatest before.root < number) :
    (pruneSupersededGenerations E number).Meets verdict after
      (fun _ left => Current number tree left ∧ Alone number left ∧ PlainGenerations before.root)
      (fun _ left => Current number tree left ∧ (PlainGenerations before.root → Refused verdict))
      fun left => Current number tree left := by
  have current := switched.current small
  have pruned := pruneSupersededGenerations_meets E verdict small
    (switched.prunable usable small above)
  rw [switched.plainTrees_iff (lookup_generationName_eq_none above small)] at pruned
  refine (pruned.keeping (pruneSupersededGenerations_keeps E small)).mono ?_ ?_ ?_
  · intro _ left holds
    obtain ⟨⟨gone, plain⟩, kept⟩ := holds
    refine ⟨current.of_settled small switched.directory kept, ?_, plain⟩
    intro name member generation
    by_contra different
    have absent := gone name (by simp [superseded, generation, different])
    exact AList.lookup_eq_none.mp absent member
  · intro _ left stopped
    exact ⟨current.of_settled small switched.directory stopped.2, stopped.1⟩
  · intro left stopped
    exact current.of_settled small switched.directory stopped.2

end After

/-- A commit that may choose its number, or asks for the next one, switches to the next one. -/
theorem switchGeneration_next {E : Environment} {generation : Generation} {commit : Commit}
    {verdict : Call → Verdict} {world after : World} {number : Nat} (usable : Usable world.root)
    (asked : commit.generation = none ∨ commit.generation = some (greatest world.root + 1))
    (returned : switchGeneration E generation commit verdict world = .ok number after) :
    number = greatest world.root + 1 ∧
      ∃ tree, Switched world generation.transaction number tree after := by
  obtain ⟨choice, result⟩ := switchGeneration_ok returned
  refine ⟨?_, result⟩
  rcases choice with given | ⟨-, computed⟩
  · rcases asked with none | some
    · rw [none] at given
      cases given
    · exact Option.some.inj (given.symm.trans some)
  · rw [usable.nextGeneration_eq (E.listing_perm .next _)] at computed
    exact (Except.ok.inj computed).symm

/-- The next number of a root is above every number in it, and its name is free.  Once a commit has
switched to it, `current` leads back to that number however pruning ends.  Pruning returns when it
has left no other generation, and with trees of files and directories it always does unless the
system refuses a call. -/
theorem generations_fresh_and_pruned {world : World} (usable : Usable world.root) :
    ∃ number,
      (∀ listing : List FileName, listing.Perm world.root.keys →
        nextGeneration listing world.root = .ok number) ∧
      world.lookup (generationName number) = none ∧
      (∀ name ∈ world.root, isGeneration name = true →
        ∃ value, nameNumber name = some value ∧ value < number) ∧
      ∀ (E : Environment) (generation : Generation) (commit : Commit),
        commit.generation = none ∨ commit.generation = some number →
          (∀ verdict switched after,
            switchGeneration E generation commit verdict world = .ok switched after →
              switched = number ∧
              ∃ tree, world.lookup generation.transaction = some tree ∧ tree.plain = true ∧
                Current number tree after ∧
                ∀ verdict, (pruneSupersededGenerations E number).Meets verdict after
                  (fun _ left => Current number tree left ∧ Alone number left ∧
                    PlainGenerations world.root)
                  (fun _ left => Current number tree left ∧
                    (PlainGenerations world.root → Refused verdict))
                  fun left => Current number tree left) ∧
          ∀ verdict path left,
            commitAndSwitchOptional E generation commit verdict world = .ok path left →
              path = [generationName number] ∧ Alone number left ∧
              ∃ tree, world.lookup generation.transaction = some tree ∧
                Current number tree left := by
  have room := usable.greatest_lt
  have small : greatest world.root + 1 < 2 ^ 64 := by omega
  have above : greatest world.root < greatest world.root + 1 := Nat.lt_succ_self _
  refine ⟨greatest world.root + 1, fun _ listed => usable.nextGeneration_eq listed,
    lookup_generationName_eq_none above small, ?_, ?_⟩
  · intro name member generation
    obtain ⟨value, -, read, -⟩ := usable.nameNumber_lt member generation
    exact ⟨value, read, Nat.lt_succ_of_le (nameNumber_le_greatest member read)⟩
  intro E generation commit asked
  constructor
  · intro verdict switched after returned
    obtain ⟨rfl, tree, result⟩ := switchGeneration_next usable asked returned
    exact ⟨rfl, tree, result.committed, result.plain, result.current small, fun _ =>
      result.prune_meets E _ usable small above⟩
  · intro verdict path left returned
    obtain ⟨number, after, switched, rest⟩ := bind_eq_ok.mp returned
    obtain ⟨rfl, tree, result⟩ := switchGeneration_next usable asked switched
    obtain ⟨_, _, pruned, rest⟩ := bind_eq_ok.mp rest
    obtain ⟨rfl, rfl⟩ := pure_eq_ok.mp rest
    have pruning := (result.prune_meets E verdict usable small above).of_ok pruned
    exact ⟨rfl, pruning.2.1, tree, result.committed, pruning.1⟩

namespace Sample

/-- A system that lists names as they stand and whose manager succeeds. -/
def environment : Environment where
  listing _ names := names
  listing_perm _ _ := .refl _
  manager _ _ _ := .ok (some 0)
  user := 0

def generation : Generation := ⟨"x"⟩

def commit : Commit := ⟨"/run/nix-seal", none, "plan", none, []⟩

/-- The name of the generation 7, written with zeros. -/
def old : FileName := .text "generation-007"

/-- A root with one generation, and a complete transaction. -/
def world (entries : List (FileName × Node)) : World where
  root := (((∅ : Entries).insert currentName (.symlink old)).insert old (.directory entries)).insert
    generation.transaction (.directory [(.text "token", .file [1] 1)])
  links _ := none

theorem usable (entries : List (FileName × Node)) : Usable (world entries).root := by
  intro name node found isName
  have moved : name ≠ generation.transaction := by
    rintro rfl
    cases isName
  have linked : name ≠ currentName := by
    rintro rfl
    cases isName
  rw [world, AList.lookup_insert_ne moved] at found
  by_cases same : name = old
  · subst same
    rw [AList.lookup_insert, Option.some.injEq] at found
    subst found
    exact ⟨rfl, 7, ⟨"007", rfl, rfl, rfl⟩, by norm_num⟩
  · rw [AList.lookup_insert_ne same, AList.lookup_insert_ne linked] at found
    cases found

/-- A generation with a link in it. -/
def linked : List (FileName × Node) := [(.text "token", .symlink (.text "elsewhere"))]

end Sample

theorem generations_fresh_and_pruned_sample :
    ∃ left tree, commitAndSwitchOptional Sample.environment Sample.generation Sample.commit
        (fun _ => .pass) (Sample.world [(.text "token", .file [0] 1)]) =
          .ok [generationName 8] left ∧
      Alone 8 left ∧ Current 8 tree left := by
  obtain ⟨number, next, -, -, commits⟩ :=
    generations_fresh_and_pruned (Sample.usable [(.text "token", .file [0] 1)])
  have eight : number = 8 := Except.ok.inj ((next _ (.refl _)).symm.trans rfl)
  subst eight
  obtain ⟨left, returned⟩ : ∃ left, commitAndSwitchOptional Sample.environment Sample.generation
      Sample.commit (fun _ => .pass) (Sample.world [(.text "token", .file [0] 1)]) =
        .ok [generationName 8] left := ⟨_, rfl⟩
  obtain ⟨-, alone, tree, -, current⟩ :=
    (commits Sample.environment Sample.generation Sample.commit (.inl rfl)).2 _ _ _ returned
  exact ⟨left, tree, returned, alone, current⟩

/-- A superseded generation with a link in it is refused, and stays. -/
theorem superseded_link_stays :
    Usable (Sample.world Sample.linked).root ∧
      nextGeneration (Sample.world Sample.linked).root.keys (Sample.world Sample.linked).root =
        .ok 8 ∧
      ∃ after left, switchGeneration Sample.environment Sample.generation Sample.commit
          (fun _ => .pass) (Sample.world Sample.linked) = .ok 8 after ∧
        pruneSupersededGenerations Sample.environment 8 (fun _ => .pass) after =
          .err .invalidDestination left ∧
        commitAndSwitchOptional Sample.environment Sample.generation Sample.commit
          (fun _ => .pass) (Sample.world Sample.linked) = .err .invalidDestination left ∧
        left.lookup Sample.old = some (.directory Sample.linked) :=
  ⟨Sample.usable _, rfl, _, _, rfl, rfl, rfl, rfl⟩

end NixSeal.Runtime.Generations
