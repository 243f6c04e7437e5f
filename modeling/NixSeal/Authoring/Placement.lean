import NixSeal.Authoring.AllOrRecover
import NixSeal.Authoring.Tree

/-!
# What an undisturbed batch places

A batch that no step of the system refuses puts every staged file at its destination, leaves no file
where one is deleted, and leaves the other paths as they are, directories on the way apart.
-/

namespace NixSeal.Authoring

open Faulty Program

/-! ## The transaction -/

section Undisturbed

variable {mode : WriteMode} {prepared : List Prepared} {disk : Disk} {item : Prepared × Nat}
  {raises : AuthoringError → Disk → Prop} {stops : Disk → Prop}

/-- What the preparation establishes for a transaction that nothing disturbs. -/
structure Placeable (mode : WriteMode) (before : Disk) (prepared : List Prepared) : Prop where
  distinct : (prepared.map Prepared.destination).Nodup
  vacant : ∀ item ∈ prepared, item.kind ≠ .privateDelete → item.needsBackup mode = false →
    before.entries item.destination = none
  staged : ∀ item ∈ prepared, item.kind ≠ .privateDelete → item.staged.isSome = true

theorem tried_undisturbed {program : Transaction Unit} {returns : Bool → Disk → Prop}
    (holds : program.Meets (fun _ => .pass) disk (fun _ => returns true) (fun _ => returns false)
      stops) :
    (tried program).Meets (fun _ => .pass) disk returns raises stops :=
  Meets.bind (Meets.attempt (holds.mono (fun _ _ kept => kept) (fun _ _ kept => kept)
    fun _ stopped => stopped))

theorem moveOriginal_undisturbed (before : List (Prepared × Nat)) :
    (moveOriginal mode before item).Meets (fun _ => .pass) disk
      (fun items after => items = before ++ [item] ∧ after.entries =
        if item.1.needsBackup mode then Function.update disk.entries item.1.destination none
        else disk.entries) raises stops := by
  unfold moveOriginal
  split
  · rename_i needs
    refine Meets.bind (Meets.step_unrefused (Meets.bind (Meets.step_unrefused (Meets.bind
      (tried_undisturbed (Meets.step_unrefused ?_))))))
    refine Meets.bind ?_
    rw [orRecover, if_pos rfl]
    exact Meets.pure (Meets.pure ⟨rfl, rfl⟩)
  · rename_i needless
    exact Meets.pure ⟨rfl, rfl⟩

theorem commitItem_undisturbed (items : List (Prepared × Nat)) (committed : List String)
    (vacant : item.1.kind ≠ .privateDelete → disk.entries item.1.destination = none)
    (staged : item.1.kind ≠ .privateDelete → item.1.staged.isSome = true) :
    (commitItem mode items committed item).Meets (fun _ => .pass) disk
      (fun _ after => after.entries = if item.1.kind = .privateDelete then disk.entries
        else Function.update disk.entries item.1.destination item.1.staged) raises stops := by
  unfold commitItem
  split
  · exact Meets.pure rfl
  · rename_i writes
    obtain ⟨file, isStaged⟩ := Option.isSome_iff_exists.mp (staged writes)
    rw [isStaged]
    have published : (publish items committed item).Meets (fun _ => .pass) disk
        (fun _ after => after = disk) raises stops := by
      unfold publish
      split
      · refine Meets.bind (tried_undisturbed (Meets.step_unrefused ?_))
        rw [orRecover, if_pos rfl]
        exact Meets.pure rfl
      · exact Meets.pure rfl
    refine published.seq fun _ after same => ?_
    subst same
    refine Meets.bind (tried_undisturbed (Meets.bind (Meets.read (Meets.bind
      (Meets.require (fun _ => Meets.step_unrefused ?_) fun refused => ?_)))))
    · rw [orRecover, if_pos rfl]
      exact Meets.bind (Meets.pure (Meets.pure rfl))
    · exact absurd (fun _ => vacant writes) refused

/-- The destination of an indexed item. -/
def target (item : Prepared × Nat) : String := item.1.destination

/-- A change of the destination of the next item changes no other one. -/
theorem entries_next {done rest : List (Prepared × Nat)} {before changed after : String → Option File}
    {outcome : Prepared × Nat → Option File}
    (distinct : ((done ++ item :: rest).map target).Nodup)
    (placed : ∀ other ∈ done, changed (target other) = outcome other)
    (others : ∀ path, path ∉ done.map target → changed path = before path)
    (here : after (target item) = outcome item)
    (elsewhere : ∀ path, path ≠ target item → after path = changed path) :
    (∀ other ∈ done ++ [item], after (target other) = outcome other) ∧
    ∀ path, path ∉ (done ++ [item]).map target → after path = before path := by
  have fresh : ∀ other ∈ done, target other ≠ target item := by
    intro other inside same
    rw [List.map_append, List.map_cons, List.nodup_append] at distinct
    exact distinct.2.2 _ (List.mem_map_of_mem inside) _ List.mem_cons_self same
  constructor
  · intro other inside
    rcases List.mem_append.mp inside with early | last
    · rw [elsewhere _ (fresh other early), placed other early]
    · rw [List.mem_singleton.mp last]
      exact here
  · intro path outside
    rw [List.map_append, List.mem_append, not_or, List.map_singleton, List.mem_singleton] at outside
    rw [elsewhere path outside.2, others path outside.1]

/-- What is at the destination of an item while the originals are in their backups. -/
def vacated (mode : WriteMode) (disk : Disk) (item : Prepared × Nat) : Option File :=
  if item.1.needsBackup mode then none else disk.entries (target item)

/-- What is at the destination of an item at the end. -/
def settled (mode : WriteMode) (disk : Disk) (item : Prepared × Nat) : Option File :=
  if item.1.kind = .privateDelete then vacated mode disk item else item.1.staged

/-- The transaction ends with every staged file at its destination. -/
theorem transact_undisturbed (placeable : Placeable mode disk prepared) :
    ∃ after, (transact mode prepared).passing disk = (.ok (), after) ∧
      (∀ item ∈ prepared, after.entries item.destination =
        if item.kind = .privateDelete then
          if item.needsBackup mode then none else disk.entries item.destination
        else item.staged) ∧
      ∀ path, path ∉ prepared.map Prepared.destination →
        after.entries path = disk.entries path := by
  have names : prepared.zipIdx.map target = prepared.map Prepared.destination := by
    rw [show target = Prepared.destination ∘ Prod.fst from rfl, ← List.map_map, List.zipIdx_map_fst]
  have distinct : ∀ done item rest, prepared.zipIdx = done ++ item :: rest →
      ((done ++ item :: rest).map target).Nodup := by
    intro done item rest split
    rw [← split, names]
    exact placeable.distinct
  have fresh : ∀ done item rest, prepared.zipIdx = done ++ item :: rest →
      target item ∉ done.map target := by
    intro done item rest split early
    have apart := distinct _ _ _ split
    rw [List.map_append, List.map_cons, List.nodup_append] at apart
    exact apart.2.2 _ early _ List.mem_cons_self rfl
  have met : (transact mode prepared).Meets (fun _ => .pass) disk (fun _ after =>
      (∀ item ∈ prepared.zipIdx, after.entries (target item) = settled mode disk item) ∧
        ∀ path, path ∉ prepared.zipIdx.map target → after.entries path = disk.entries path)
      (fun _ _ => False) fun _ => False := by
    refine Meets.bind (Meets.foldlM (fun done items moved => items = done ∧
      (∀ item ∈ done, moved.entries (target item) = vacated mode disk item) ∧
        ∀ path, path ∉ done.map target → moved.entries path = disk.entries path)
      ⟨rfl, by simp, fun _ _ => rfl⟩ ?_ ?_)
    · rintro done item rest items moved split ⟨rfl, emptied, others⟩
      refine (moveOriginal_undisturbed items).mono ?_ (fun _ _ => id) fun _ => id
      rintro _ after ⟨rfl, changed⟩
      refine ⟨rfl, entries_next (distinct _ _ _ split) emptied others ?_ fun path other => ?_⟩
      · rw [changed, vacated]
        split
        · exact Function.update_self ..
        · exact others _ (fresh _ _ _ split)
      · rw [changed]
        split
        · exact Function.update_of_ne other ..
        · rfl
    · rintro items moved ⟨rfl, emptied, others⟩
      refine Meets.bind (Meets.foldlM (fun done _ between =>
        (∀ item ∈ done, between.entries (target item) = settled mode disk item) ∧
          ∀ path, path ∉ done.map target → between.entries path = moved.entries path)
        ⟨by simp, fun _ _ => rfl⟩ ?_ ?_)
      · rintro done item rest names between split ⟨placed, untouched⟩
        have inside : item ∈ prepared.zipIdx := by simp [split]
        have member := mem_of_mem_zipIdx inside
        have waiting : between.entries (target item) = vacated mode disk item :=
          (untouched _ (fresh _ _ _ split)).trans (emptied item inside)
        refine (commitItem_undisturbed _ _ (fun writes => ?_)
          (placeable.staged item.1 member)).mono ?_ (fun _ _ => id) fun _ => id
        · refine waiting.trans ?_
          unfold vacated
          split
          · rfl
          · rename_i needless
            exact placeable.vacant item.1 member writes (by simpa using needless)
        · intro _ after changed
          refine entries_next (distinct _ _ _ split) placed untouched ?_ fun path other => ?_
          · rw [changed, settled]
            split
            · exact waiting
            · exact Function.update_self ..
          · rw [changed]
            split
            · rfl
            · exact Function.update_of_ne other ..
      · rintro _ final ⟨placed, untouched⟩
        refine Meets.step_unrefused ⟨placed, fun path outside => ?_⟩
        exact (untouched path outside).trans (others path outside)
  rcases met.passing with ⟨_, after, ended, placed, others⟩ | ⟨_, _, _, impossible⟩
  · refine ⟨after, ended, fun item member => ?_, fun path outside => others path (names ▸ outside)⟩
    obtain ⟨index, bound, here⟩ := List.mem_iff_getElem.mp member
    exact placed (item, index) (List.mem_zipIdx_iff_getElem?.mpr
      (here ▸ List.getElem?_eq_getElem bound))
  · exact impossible.elim

end Undisturbed

/-! ## The preparation -/

section Preparation

variable {restrictive : Bool} {mode : WriteMode} {before after : Tree} {write : TreeWrite}
  {writes : List TreeWrite}

/-- The directory that a private change makes private. -/
def TreeWrite.guarded (write : TreeWrite) : List String :=
  if write.kind = .secret ∨ write.kind = .publicOutput then []
  else (parentDirectory write.relativeDestination).toList

/-- The directories on the way to a destination. -/
def TreeWrite.made (write : TreeWrite) : List String := ancestors write.relativeDestination

theorem guarded_subset_made (write : TreeWrite) : write.guarded ⊆ write.made := by
  intro directory inside
  unfold TreeWrite.guarded at inside
  split at inside
  · cases inside
  · exact List.mem_of_getLast? (Option.mem_toList.mp inside)

/-- A tree with the directories that some changes make. -/
def Tree.growFor (restrictive : Bool) (writes : List TreeWrite) (tree : Tree) : Tree :=
  tree.grow restrictive (writes.flatMap TreeWrite.made) (writes.flatMap TreeWrite.guarded)

theorem flatMap_guarded_subset (writes : List TreeWrite) :
    writes.flatMap TreeWrite.guarded ⊆ writes.flatMap TreeWrite.made := by
  intro directory inside
  obtain ⟨write, member, inside⟩ := List.mem_flatMap.mp inside
  exact List.mem_flatMap.mpr ⟨write, member, guarded_subset_made write inside⟩

/-- What a tree must hold for one change of a batch. -/
structure Fits (mode : WriteMode) (tree : Tree) (write : TreeWrite) : Prop where
  admitted : write.admission = .ok ()
  relative : isRelative write.relativeDestination = true
  enterable : ∀ directory ∈ write.made, tree.Enterable directory
  owned : ∀ directory ∈ write.guarded, ∀ found, tree directory = some (.directory found) →
    found.owned = true
  valid : ∃ previous,
    validateFor write.kind mode (tree.disk.entries write.relativeDestination) = .ok previous
  staged : ∃ staged, write.staged = .ok staged

theorem node_of_validateFor {kind : OutputKind} {tree : Tree} {path : String}
    {previous : Option File} (valid : validateFor kind mode (tree.disk.entries path) = .ok previous) :
    tree path = none ∨ ∃ file, tree path = some (.file file) ∧ file.regular = true := by
  cases found : tree path with
  | none => exact .inl rfl
  | some node =>
      have regular : node.asFile.regular = true :=
        regular_of_validateFor valid (by simp [Tree.disk, found])
      cases node with
      | file file => exact .inr ⟨file, rfl, regular⟩
      | directory directory => cases regular
      | other resolves => cases regular

theorem protectParent_eq_ok (restrictive : Bool)
    (inside : ∀ directory ∈ write.guarded, ∃ found, before directory = some (.directory found)) :
    protectParent write.kind before write.relativeDestination = .ok after ↔
      (∀ directory ∈ write.guarded, ∀ found, before directory = some (.directory found) →
        found.owned = true) ∧ after = before.grow restrictive [] write.guarded := by
  unfold protectParent
  split
  · rename_i shown
    simp only [TreeWrite.guarded, shown, if_true, List.not_mem_nil, false_imp_iff, implies_true,
      grow_nil, true_and, Except.ok.injEq]
    exact eq_comm
  · rename_i hidden
    simp only [TreeWrite.guarded, hidden, if_false] at inside ⊢
    cases parent : parentDirectory write.relativeDestination with
    | none =>
        simp only [Option.toList_none, List.not_mem_nil, false_imp_iff, implies_true, grow_nil,
          true_and, Except.ok.injEq]
        exact eq_comm
    | some directory =>
        obtain ⟨found, here⟩ := inside directory (by simp [parent])
        have guarded : Function.update before directory (some (.directory ⟨found.owned, true⟩)) =
            before.grow restrictive [] [directory] := by
          funext path
          by_cases same : path = directory
          · subst same
            simp [Tree.grow, here]
          · simp only [Function.update_of_ne same, Tree.grow, List.mem_singleton, same,
              List.not_mem_nil, if_false, decide_false, Bool.or_false]
            split <;> simp_all
        cases ownership : found.owned with
        | false => simp [setPrivateDirectory, here, ownership]
        | true =>
            rw [ownership] at guarded
            have owned : ∀ other ∈ (some directory).toList, ∀ found,
                before other = some (.directory found) → found.owned = true := by
              intro other inside found' here'
              rw [Option.mem_toList.mp inside |> Option.some.inj |>.symm, here] at here'
              cases here'
              exact ownership
            simp only [setPrivateDirectory, here, ownership, if_true, guarded, Except.ok.injEq]
            exact ⟨fun same => ⟨owned, same.symm⟩, fun both => both.2.symm⟩

theorem prepareWrite_eq_ok {preparation next : Preparation} :
    prepareWrite restrictive mode preparation write = .ok next ↔
      write.relativeDestination ∉ preparation.items.map Prepared.destination ∧
      write.admission = .ok () ∧ isRelative write.relativeDestination = true ∧
      (∀ directory ∈ write.made, preparation.tree.Enterable directory) ∧
      (∀ directory ∈ write.guarded, ∀ found, preparation.tree directory = some (.directory found) →
        found.owned = true) ∧
      ∃ previous staged,
        validateFor write.kind mode ((preparation.tree.grow restrictive write.made []).disk.entries
          write.relativeDestination) = .ok previous ∧ write.staged = .ok staged ∧
        next = ⟨preparation.tree.grow restrictive write.made write.guarded, preparation.items ++
          [⟨write.kind, write.relativeDestination, previous, staged⟩]⟩ := by
  have entered : ∀ directory ∈ write.made, preparation.tree.Enterable directory →
      ∃ found, preparation.tree.grow restrictive write.made [] directory =
        some (.directory found) := by
    rintro directory inside (missing | ⟨found, here⟩)
    · exact ⟨_, grow_of_missing restrictive [] missing inside⟩
    · exact ⟨_, grow_of_directory restrictive write.made [] here⟩
  have owners : (∀ directory ∈ write.guarded, ∀ found,
        preparation.tree.grow restrictive write.made [] directory = some (.directory found) →
          found.owned = true) ↔
      ∀ directory ∈ write.guarded, ∀ found, preparation.tree directory = some (.directory found) →
        found.owned = true := by
    constructor
    · intro owned directory inside found here
      simpa using owned directory inside _ (grow_of_directory restrictive write.made [] here)
    · intro owned directory inside found here
      rcases grow_eq_directory.mp here with ⟨former, known, rfl⟩ | ⟨-, -, rfl⟩
      · exact owned directory inside former known
      · rfl
  have grown : (preparation.tree.grow restrictive write.made []).grow restrictive [] write.guarded =
      preparation.tree.grow restrictive write.made write.guarded := by
    rw [grow_grow (List.nil_subset _), List.append_nil, List.nil_append]
  simp only [prepareWrite, Fallible.bind_eq_ok, Fallible.guard_eq_ok, resolveDestination_eq_ok]
  constructor
  · rintro ⟨⟨⟩, admitted, _, ⟨relative, enterable, rfl⟩, unused, previous, valid, _, protected',
      staged, isStaged, returned⟩
    obtain ⟨owned, rfl⟩ := (protectParent_eq_ok restrictive fun directory inside =>
      entered directory (guarded_subset_made write inside)
        (enterable directory (guarded_subset_made write inside))).mp protected'
    cases returned
    exact ⟨unused, admitted, relative, enterable, owners.mp owned, previous, staged, valid, isStaged,
      by rw [← grown]⟩
  · rintro ⟨unused, admitted, relative, enterable, owned, previous, staged, valid, isStaged, rfl⟩
    refine ⟨(), admitted, _, ⟨relative, enterable, rfl⟩, unused, previous, valid, _,
      (protectParent_eq_ok restrictive fun directory inside =>
        entered directory (guarded_subset_made write inside)
          (enterable directory (guarded_subset_made write inside))).mpr ⟨owners.mpr owned, rfl⟩,
      staged, isStaged, ?_⟩
    rw [← grown]

/-- What the preparation of some changes leaves behind. -/
structure Prepares (restrictive : Bool) (mode : WriteMode) (writes : List TreeWrite) (before : Tree)
    (preparation : Preparation) : Prop where
  tree : preparation.tree = before.growFor restrictive writes
  names : preparation.items.map Prepared.destination =
    writes.map TreeWrite.relativeDestination
  distinct : (writes.map TreeWrite.relativeDestination).Nodup
  fits : ∀ write ∈ writes, Fits mode before write
  item : ∀ item ∈ preparation.items, ∃ write ∈ writes,
    item.destination = write.relativeDestination ∧ item.kind = write.kind ∧
    write.staged = .ok item.staged ∧ item.previous.isSome = (before item.destination).isSome ∧
    ∀ file, before item.destination = some (.file file) → item.previous = some file
  write : ∀ write ∈ writes, ∃ item ∈ preparation.items,
    item.destination = write.relativeDestination ∧ item.kind = write.kind ∧
    write.staged = .ok item.staged

theorem Fits.of_grow {made guarded : List String}
    (fits : Fits mode (before.grow restrictive made guarded) write) : Fits mode before write where
  admitted := fits.admitted
  relative := fits.relative
  enterable directory inside := enterable_grow.mp (fits.enterable directory inside)
  owned directory inside found here := by
    simpa using fits.owned directory inside _ (grow_of_directory restrictive made guarded here)
  valid := by
    obtain ⟨previous, valid⟩ := fits.valid
    refine ⟨previous, ?_⟩
    rw [← valid]
    rcases node_of_validateFor valid with missing | ⟨file, here, -⟩
    · simp [Tree.disk, missing, (grow_eq_none.mp missing).1]
    · simp [Tree.disk, here, grow_eq_file.mp here]
  staged := fits.staged

theorem Fits.grow {made guarded : List String} (fits : Fits mode before write)
    (kept : before write.relativeDestination = none → write.relativeDestination ∉ made) :
    Fits mode (before.grow restrictive made guarded) write where
  admitted := fits.admitted
  relative := fits.relative
  enterable directory inside := enterable_grow.mpr (fits.enterable directory inside)
  owned directory inside found here := by
    rcases grow_eq_directory.mp here with ⟨former, known, rfl⟩ | ⟨-, -, rfl⟩
    · exact fits.owned directory inside former known
    · rfl
  valid := by
    obtain ⟨previous, valid⟩ := fits.valid
    refine ⟨previous, ?_⟩
    rw [← valid]
    rcases node_of_validateFor valid with missing | ⟨file, here, -⟩
    · simp [Tree.disk, missing, grow_of_absent restrictive guarded missing (kept missing)]
    · simp [Tree.disk, here, grow_of_file restrictive made guarded here]
  staged := fits.staged

theorem previous_of_validateFor {kind : OutputKind} {entry previous : Option File}
    (valid : validateFor kind mode entry = .ok previous) : previous = entry := by
  cases kind with
  | secret => exact (validateDestination_eq_ok valid).1
  | publicOutput => exact (validateDestination_eq_ok valid).1
  | privateWrite => exact validatePrivateDestination_eq_ok valid
  | privateDelete => exact validatePrivateDestination_eq_ok valid

theorem growFor_concat (writes : List TreeWrite) :
    (before.growFor restrictive writes).grow restrictive write.made write.guarded =
      before.growFor restrictive (writes ++ [write]) := by
  rw [Tree.growFor, grow_grow (flatMap_guarded_subset writes)]
  simp [Tree.growFor]

theorem Prepares.next {preparation next : Preparation}
    (prepares : Prepares restrictive mode writes before preparation)
    (stepped : prepareWrite restrictive mode preparation write = .ok next) :
    Prepares restrictive mode (writes ++ [write]) before next := by
  obtain ⟨unused, admitted, relative, enterable, owned, previous, staged, valid, isStaged, rfl⟩ :=
    prepareWrite_eq_ok.mp stepped
  have node := node_of_validateFor valid
  have kept := previous_of_validateFor valid
  have fits : Fits mode before write := by
    have later : Fits mode (preparation.tree.grow restrictive write.made []) write := by
      refine ⟨admitted, relative, fun directory inside => enterable_grow.mpr
        (enterable directory inside), fun directory inside found here => ?_, ⟨previous, valid⟩,
        ⟨staged, isStaged⟩⟩
      rcases grow_eq_directory.mp here with ⟨former, known, rfl⟩ | ⟨-, -, rfl⟩
      · exact owned directory inside former known
      · rfl
    have between := later.of_grow
    rw [prepares.tree] at between
    exact between.of_grow
  rw [prepares.tree] at node kept
  have found : previous.isSome = (before write.relativeDestination).isSome ∧
      ∀ file, before write.relativeDestination = some (.file file) → previous = some file := by
    rcases node with missing | ⟨file, here, -⟩
    · have before_missing := (grow_eq_none.mp (grow_eq_none.mp missing).1).1
      simp [kept, Tree.disk, missing, before_missing]
    · have before_here := grow_eq_file.mp (grow_eq_file.mp here)
      simp [kept, Tree.disk, here, before_here, Node.asFile]
  constructor
  · rw [← growFor_concat, ← prepares.tree]
  · simp [prepares.names]
  · rw [List.map_append, List.map_singleton, ← List.concat_eq_append, List.nodup_concat,
      ← prepares.names]
    exact ⟨unused, prepares.names ▸ prepares.distinct⟩
  · intro other member
    rcases List.mem_append.mp member with early | last
    · exact prepares.fits other early
    · exact List.mem_singleton.mp last ▸ fits
  · intro item member
    rcases List.mem_append.mp member with early | last
    · obtain ⟨other, listed, facts⟩ := prepares.item item early
      exact ⟨other, List.mem_append_left _ listed, facts⟩
    · cases List.mem_singleton.mp last
      exact ⟨write, by simp, rfl, rfl, isStaged, found⟩
  · intro other member
    rcases List.mem_append.mp member with early | last
    · obtain ⟨item, listed, facts⟩ := prepares.write other early
      exact ⟨item, List.mem_append_left _ listed, facts⟩
    · cases List.mem_singleton.mp last
      exact ⟨_, List.mem_append_right _ (List.mem_singleton_self _), rfl, rfl, isStaged⟩

theorem prepares_nil : Prepares restrictive mode [] before ⟨before, []⟩ := by
  constructor <;> simp [Tree.growFor, grow_nil]

theorem prepares_of_foldlM {preparation : Preparation}
    (folded : writes.foldlM (prepareWrite restrictive mode) ⟨before, []⟩ = .ok preparation) :
    Prepares restrictive mode writes before preparation :=
  Fallible.foldlM_eq_ok_induction folded
    (fun done between => Prepares restrictive mode done before between) prepares_nil
    fun _ _ _ _ _ stepped prepares => prepares.next stepped

/-- Changes that fit one by one are prepared together. -/
theorem exists_prepares (fits : ∀ write ∈ writes, Fits mode before write)
    (distinct : (writes.map TreeWrite.relativeDestination).Nodup)
    (kept : ∀ write ∈ writes, before write.relativeDestination = none →
      write.relativeDestination ∉ writes.flatMap TreeWrite.made) :
    ∃ preparation, writes.foldlM (prepareWrite restrictive mode) ⟨before, []⟩ = .ok preparation ∧
      Prepares restrictive mode writes before preparation := by
  refine Fallible.foldlM_split
    (fun done between => Prepares restrictive mode done before between) prepares_nil ?_
  intro done write rest preparation split prepares
  have member : write ∈ writes := by simp [split]
  have fresh : ∀ directories : List String, directories ⊆ writes.flatMap TreeWrite.made →
      before write.relativeDestination = none → write.relativeDestination ∉ directories :=
    fun _ inside missing listed => kept write member missing (inside listed)
  have known : done.flatMap TreeWrite.made ⊆ writes.flatMap TreeWrite.made := by
    intro directory inside
    simp only [split, List.flatMap_append, List.mem_append]
    exact .inl inside
  have own : write.made ⊆ writes.flatMap TreeWrite.made := fun directory inside =>
    List.mem_flatMap.mpr ⟨write, member, inside⟩
  have between : Fits mode preparation.tree write := by
    rw [prepares.tree]
    exact (fits write member).grow (fresh _ known)
  have later : Fits mode (preparation.tree.grow restrictive write.made []) write := by
    refine between.grow fun missing => fresh _ own ?_
    rw [prepares.tree] at missing
    exact (grow_eq_none.mp missing).1
  obtain ⟨previous, valid⟩ := later.valid
  obtain ⟨staged, isStaged⟩ := later.staged
  have unused : write.relativeDestination ∉ preparation.items.map Prepared.destination := by
    rw [prepares.names]
    rw [split, List.map_append, List.map_cons, List.nodup_append] at distinct
    exact fun early => distinct.2.2 _ early _ List.mem_cons_self rfl
  have stepped := (@prepareWrite_eq_ok restrictive mode write preparation _).mpr ⟨unused, between.admitted,
    between.relative, between.enterable, between.owned, previous, staged, valid, isStaged, rfl⟩
  exact ⟨_, stepped, prepares.next stepped⟩

end Preparation

/-! ## The batch -/

section Batch

variable {restrictive : Bool} {locked : Except AuthoringError Unit} {mode : WriteMode}
  {before after : Tree} {writes : List TreeWrite} {preparation : Preparation}

/-- What a batch did. -/
structure Written (restrictive : Bool) (mode : WriteMode) (writes : List TreeWrite)
    (before after : Tree) : Prop where
  fits : ∀ write ∈ writes, Fits mode before write
  distinct : (writes.map TreeWrite.relativeDestination).Nodup
  count : writes.length ≤ 10000
  removed : ∀ write ∈ writes, write.kind = .privateDelete →
    after.Cleared write.relativeDestination
  vacant : ∀ write ∈ writes, write.kind ≠ .privateDelete → ∀ directory,
    before.growFor restrictive writes write.relativeDestination ≠ some (.directory directory)
  placed : ∀ write ∈ writes, write.kind ≠ .privateDelete → ∃ file, write.staging = .ok file ∧
    after write.relativeDestination = some (.file file)
  others : ∀ path, path ∉ writes.map TreeWrite.relativeDestination →
    after path = before.growFor restrictive writes path

theorem staged_of_write {write : TreeWrite} {staged : Option File}
    (isStaged : write.staged = .ok staged) (writes : write.kind ≠ .privateDelete) :
    ∃ file, write.staging = .ok file ∧ staged = some file := by
  unfold TreeWrite.staged at isStaged
  rw [if_neg writes] at isStaged
  cases found : write.staging with
  | error failure => simp [found, Except.map] at isStaged
  | ok file => exact ⟨file, rfl, by simpa [found, Except.map, eq_comm] using isStaged⟩

/-- What may be at a destination when the transaction starts. -/
def Startable (mode : WriteMode) (tree : Tree) (item : Prepared) : Prop :=
  item.kind ≠ .privateDelete →
    (item.needsBackup mode = false → tree item.destination = none) ∧
    ∀ node, tree item.destination = some node → ∃ file, node = .file file

/-- A prepared destination holds the file that was validated, or nothing, or a directory made
since. -/
theorem Prepares.destination (prepares : Prepares restrictive mode writes before preparation)
    {item : Prepared} (member : item ∈ preparation.items) :
    (∃ file, preparation.tree item.destination = some (.file file) ∧
      preparation.tree.disk.entries item.destination = some file ∧ item.previous = some file) ∨
    (item.previous = none ∧ (preparation.tree item.destination = none ∨
      preparation.tree.isDirectory item.destination = true)) := by
  obtain ⟨write, listed, destination, -, -, presence, former⟩ := prepares.item item member
  obtain ⟨previous, valid⟩ := (prepares.fits write listed).valid
  rw [← destination] at valid
  rcases node_of_validateFor valid with missing | ⟨file, here, -⟩
  · refine .inr ⟨Option.not_isSome_iff_eq_none.mp (by simp [presence, missing]), ?_⟩
    by_cases made : item.destination ∈ writes.flatMap TreeWrite.made
    · refine .inr ?_
      rw [prepares.tree, Tree.isDirectory, Tree.growFor,
        grow_of_missing restrictive _ missing made]
    · exact .inl (by rw [prepares.tree]; exact grow_of_absent restrictive _ missing made)
  · have still : preparation.tree item.destination = some (.file file) := by
      rw [prepares.tree]
      exact grow_of_file restrictive _ _ here
    exact .inl ⟨file, still, by simp [Tree.disk, still, Node.asFile], former file here⟩

theorem Prepares.removed (prepares : Prepares restrictive mode writes before preparation)
    {item : Prepared} (member : item ∈ preparation.items) (deletes : item.kind = .privateDelete)
    {disk : Disk} (arrived : disk.entries item.destination =
      if item.needsBackup mode then none else preparation.tree.disk.entries item.destination) :
    (preparation.tree.settle disk).Cleared item.destination := by
  have needs : item.needsBackup mode = item.previous.isSome := by
    simp [Prepared.needsBackup, deletes]
  intro node left
  rcases prepares.destination member with ⟨file, here, -, previous⟩ | ⟨previous, missing | above⟩
  · simp [Tree.settle, here, arrived, needs, previous] at left
  · simp [Tree.settle, missing, arrived, Tree.disk] at left
  · unfold Tree.isDirectory at above
    split at above
    · rename_i directory here
      simp only [Tree.settle, here, Option.some.injEq] at left
      refine ⟨directory, left.symm, ?_⟩
      obtain ⟨_, -, -, -, -, presence, -⟩ := prepares.item item member
      rw [prepares.tree] at here
      rcases grow_eq_directory.mp here with ⟨found, known, -⟩ | ⟨-, -, rfl⟩
      · simp [previous, known] at presence
      · rfl
    · cases above

/-- The transaction on a prepared tree. -/
theorem settled_of_prepares (prepares : Prepares restrictive mode writes before preparation)
    (startable : ∀ item ∈ preparation.items, Startable mode preparation.tree item) :
    ∃ disk, (transact mode preparation.items).passing preparation.tree.disk = (.ok (), disk) ∧
      (∀ write ∈ writes, write.kind = .privateDelete →
        (preparation.tree.settle disk).Cleared write.relativeDestination) ∧
      (∀ write ∈ writes, write.kind ≠ .privateDelete → ∃ file, write.staging = .ok file ∧
        preparation.tree.settle disk write.relativeDestination = some (.file file)) ∧
      ∀ path, path ∉ writes.map TreeWrite.relativeDestination →
        preparation.tree.settle disk path = before.growFor restrictive writes path := by
  have placeable : Placeable mode preparation.tree.disk preparation.items := by
    refine ⟨prepares.names ▸ prepares.distinct, fun item member writes needless => ?_,
      fun item member writes => ?_⟩
    · simp [Tree.disk, (startable item member writes).1 needless]
    · obtain ⟨write, -, -, kind, isStaged, -⟩ := prepares.item item member
      obtain ⟨file, -, found⟩ := staged_of_write isStaged (kind ▸ writes)
      simp [found]
  obtain ⟨disk, ended, placed, others⟩ := transact_undisturbed placeable
  refine ⟨disk, ended, fun write member deletes => ?_, fun write member writing => ?_,
    fun path outside => ?_⟩
  · obtain ⟨item, listed, destination, kind, -⟩ := prepares.write write member
    have arrived := placed item listed
    rw [if_pos (kind.trans deletes)] at arrived
    rw [← destination]
    exact prepares.removed listed (kind.trans deletes) arrived
  · obtain ⟨item, listed, destination, kind, isStaged⟩ := prepares.write write member
    obtain ⟨file, source, found⟩ := staged_of_write isStaged writing
    have arrived := placed item listed
    rw [if_neg (kind ▸ writing), destination, found] at arrived
    have files := (startable item listed (kind ▸ writing)).2
    rw [destination] at files
    refine ⟨file, source, ?_⟩
    unfold Tree.settle
    split
    · rename_i directory here
      obtain ⟨_, impossible⟩ := files _ here
      cases impossible
    · rename_i resolves here
      obtain ⟨_, impossible⟩ := files _ here
      cases impossible
    · simp [arrived]
  · rw [← prepares.names] at outside
    have same := others path outside
    rw [← prepares.tree]
    unfold Tree.settle
    cases found : preparation.tree path with
    | none => simp [same, Tree.disk, found]
    | some node => cases node <;> simp [same, Tree.disk, found, Node.asFile]

theorem startable_of_rechecked (prepares : Prepares restrictive mode writes before preparation)
    {item : Prepared} (member : item ∈ preparation.items)
    (rechecked : recheck mode preparation.tree.disk item = .ok ())
    (clear : item.kind = .privateWrite → preparation.tree.isDirectory item.destination = false) :
    Startable mode preparation.tree item := by
  intro writing
  rcases prepares.destination member with ⟨file, here, entry, previous⟩ | ⟨previous, vacant⟩
  · refine ⟨fun needless => ?_, fun node found => ⟨file, by simpa [here, eq_comm] using found⟩⟩
    cases kind : item.kind with
    | secret =>
        cases mode <;> simp [Prepared.needsBackup, kind, recheck, entry] at needless rechecked
    | publicOutput =>
        cases mode <;> simp [Prepared.needsBackup, kind, recheck, entry] at needless rechecked
    | privateWrite => simp [Prepared.needsBackup, kind, previous] at needless
    | privateDelete => exact absurd kind writing
  · have missing : preparation.tree item.destination = none := by
      refine vacant.resolve_right fun directory => ?_
      have entered : (preparation.tree.disk.entries item.destination).isSome = true := by
        unfold Tree.isDirectory at directory
        split at directory
        · rename_i found here
          simp [Tree.disk, here]
        · cases directory
      cases kind : item.kind with
      | secret => cases mode <;> simp [recheck, kind, entered, previous, ensureUnchanged] at rechecked
      | publicOutput =>
          cases mode <;> simp [recheck, kind, entered, previous, ensureUnchanged] at rechecked
      | privateWrite => simp [clear kind] at directory
      | privateDelete => exact writing kind
    exact ⟨fun _ => missing, fun node found => by simp [missing] at found⟩

theorem written_of_batch
    (ended : writeSecretPublicPrivateBatch restrictive locked mode writes before = .ok after) :
    Written restrictive mode writes before after := by
  obtain ⟨⟨⟩, -, ended⟩ := Fallible.bind_eq_ok.mp ended
  rw [Fallible.guard_eq_ok] at ended
  obtain ⟨counts, ended⟩ := ended
  obtain ⟨preparation, folded, ended⟩ := Fallible.bind_eq_ok.mp ended
  obtain ⟨⟨⟩, rechecked, ended⟩ := Fallible.bind_eq_ok.mp ended
  rw [Fallible.guard_eq_ok] at ended
  obtain ⟨clear, ended⟩ := ended
  obtain ⟨⟨⟩, transacted, returned⟩ := Fallible.bind_eq_ok.mp ended
  have prepares := prepares_of_foldlM folded
  have startable : ∀ item ∈ preparation.items, Startable mode preparation.tree item := by
    intro item member
    refine startable_of_rechecked prepares member (Fallible.forM_eq_ok.mp rechecked item member) ?_
    intro kind
    by_contra directory
    simp only [List.any_eq_true, not_exists, not_and] at clear
    exact clear item member (by simpa [kind] using directory)
  obtain ⟨disk, passed, removed, placed, others⟩ := settled_of_prepares prepares startable
  rw [passed] at returned
  cases returned
  refine ⟨prepares.fits, prepares.distinct, by omega, removed,
    fun write member writing directory here => ?_, placed, others⟩
  obtain ⟨item, listed, destination, kind, -⟩ := prepares.write write member
  obtain ⟨_, impossible⟩ := (startable item listed (kind ▸ writing)).2 (.directory directory)
    (by rw [destination, prepares.tree, here])
  cases impossible

theorem Written.directory_of_grown (written : Written restrictive mode writes before after)
    (kinds : ∀ write ∈ writes, write.kind ≠ .privateDelete) {path : String} {found : Directory}
    (grown : before.growFor restrictive writes path = some (.directory found)) :
    after path = some (.directory found) := by
  rw [written.others path, grown]
  intro member
  obtain ⟨write, inside, rfl⟩ := List.mem_map.mp member
  exact written.vacant write inside (kinds write inside) found grown

theorem Written.grown_of_directory (written : Written restrictive mode writes before after)
    (kinds : ∀ write ∈ writes, write.kind ≠ .privateDelete) {path : String} {found : Directory}
    (here : after path = some (.directory found)) :
    before.growFor restrictive writes path = some (.directory found) := by
  rw [← written.others path, here]
  intro member
  obtain ⟨write, inside, rfl⟩ := List.mem_map.mp member
  obtain ⟨file, -, placed⟩ := written.placed write inside (kinds write inside)
  rw [placed] at here
  cases here

theorem Written.made (written : Written restrictive mode writes before after)
    (kinds : ∀ write ∈ writes, write.kind ≠ .privateDelete) {write : TreeWrite}
    (member : write ∈ writes) {directory : String} (inside : directory ∈ write.made) :
    ∃ found, after directory = some (.directory found) := by
  have made : directory ∈ writes.flatMap TreeWrite.made := List.mem_flatMap.mpr ⟨write, member, inside⟩
  rcases (written.fits write member).enterable directory inside with missing | ⟨found, here⟩
  · exact ⟨_, written.directory_of_grown kinds (grow_of_missing _ _ missing made)⟩
  · exact ⟨_, written.directory_of_grown kinds (grow_of_directory _ _ _ here)⟩

/-- A batch that replaces files that are there is written. -/
theorem exists_written (free : locked = .ok ()) (some_writes : writes ≠ [])
    (count : writes.length ≤ 10000) (fits : ∀ write ∈ writes, Fits .replace before write)
    (distinct : (writes.map TreeWrite.relativeDestination).Nodup)
    (kept : ∀ write ∈ writes, before write.relativeDestination = none →
      write.relativeDestination ∉ writes.flatMap TreeWrite.made) :
    ∃ after, writeSecretPublicPrivateBatch restrictive locked .replace writes before = .ok after ∧
      Written restrictive .replace writes before after := by
  obtain ⟨preparation, folded, prepares⟩ := exists_prepares fits distinct kept
  have apart : ∀ item ∈ preparation.items, item.previous = none →
      preparation.tree item.destination = none := by
    intro item member vacant
    obtain ⟨write, listed, destination, -, -, presence, -⟩ := prepares.item item member
    have missing : before item.destination = none := by
      rw [vacant] at presence
      exact Option.not_isSome_iff_eq_none.mp (by simp [← presence])
    rw [prepares.tree]
    refine grow_of_absent restrictive _ missing ?_
    rw [destination] at missing ⊢
    exact kept write listed missing
  have clear : ∀ item ∈ preparation.items,
      preparation.tree.isDirectory item.destination = false := by
    intro item member
    rcases prepares.destination member with ⟨file, here, -⟩ | ⟨vacant, -⟩
    · simp [Tree.isDirectory, here]
    · simp [Tree.isDirectory, apart item member vacant]
  have rechecked : ∀ item ∈ preparation.items,
      recheck .replace preparation.tree.disk item = .ok () := by
    intro item member
    have unchanged : item.previous.isSome = true →
        ensureUnchanged (preparation.tree.disk.entries item.destination) item.previous = .ok () := by
      intro present
      rcases prepares.destination member with ⟨file, here, entry, previous⟩ | ⟨vacant, -⟩
      · obtain ⟨write, listed, destination, -⟩ := prepares.item item member
        obtain ⟨_, valid⟩ := (prepares.fits write listed).valid
        have regular : file.regular = true := by
          rw [← destination] at valid
          rw [prepares.tree] at here
          exact regular_of_validateFor valid (by simp [Tree.disk, grow_eq_file.mp here, Node.asFile])
        simp [entry, previous, ensureUnchanged, regular]
      · simp [vacant] at present
    unfold recheck
    split
    · rename_i shown
      obtain ⟨write, listed, destination, kind, -, presence, -⟩ := prepares.item item member
      obtain ⟨previous, valid⟩ := (prepares.fits write listed).valid
      refine unchanged ?_
      rw [presence]
      rw [← destination] at valid
      rw [← kind] at valid
      have there : (before.disk.entries item.destination).isSome = true := by
        rcases shown with shown | shown <;> rw [shown] at valid <;>
          exact (validateDestination_eq_ok valid).2.mpr rfl
      simpa [Tree.disk] using there
    · split
      · rename_i present
        exact unchanged present
      · rfl
  have startable : ∀ item ∈ preparation.items, Startable .replace preparation.tree item := by
    intro item member
    exact startable_of_rechecked prepares member (rechecked item member) fun _ => clear item member
  obtain ⟨disk, passed, -⟩ := settled_of_prepares prepares startable
  have ended : writeSecretPublicPrivateBatch restrictive locked .replace writes before =
      .ok (preparation.tree.settle disk) := by
    refine Fallible.bind_eq_ok.mpr ⟨(), free, Fallible.guard_eq_ok.mpr
      ⟨by simp [some_writes, count], Fallible.bind_eq_ok.mpr ⟨preparation, folded,
        Fallible.bind_eq_ok.mpr ⟨(), Fallible.forM_eq_ok.mpr rechecked,
          Fallible.guard_eq_ok.mpr ⟨?_, ?_⟩⟩⟩⟩⟩
    · simp only [List.any_eq_true, not_exists, not_and, Bool.and_eq_true, decide_eq_true_eq,
        Bool.not_eq_true]
      intro item member kind
      exact clear item member
    · rw [passed]
      rfl
  exact ⟨_, ended, written_of_batch ended⟩

end Batch

end NixSeal.Authoring
