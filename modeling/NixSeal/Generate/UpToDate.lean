import NixSeal.Generate.Repository
import NixSeal.Policy.OutputPaths

/-!
# Outputs that are up to date

What `run_generate` looks at before it leaves a generator alone: its outputs, the private
directories above its state, and a state that matches the declaration.
-/

namespace NixSeal.Generate

open Authoring Fallible

/-! ## Normalized paths -/

/-- A path of components that are neither empty nor dots. -/
structure Normal (path : String) : Prop where
  nonempty : path.toList ≠ []
  relative : path.toList.head? ≠ some '/'
  segments : ∀ part ∈ NixSeal.segments path, part ≠ [] ∧ part ≠ ['.'] ∧ part ≠ ['.', '.']

namespace Normal

variable {path : String}

theorem not_isAbsolute (normal : Normal path) : isAbsolute path = false := by
  simpa [isAbsolute] using normal.relative

theorem components (normal : Normal path) :
    (pathComponents path).all PathComponent.isRootOrNormal = true := by
  have named : ∀ part ∈ (NixSeal.segments path).filter fun part => part != [] && part != ['.'],
      (if part = ['.', '.'] then PathComponent.parentDir else .normal part).isRootOrNormal = true := by
    intro part member
    rw [if_neg (normal.segments part (List.mem_filter.mp member).1).2.2]
    rfl
  have front : (NixSeal.segments path).head? ≠ some ['.'] := by
    intro first
    exact (normal.segments _ (List.mem_of_head? first)).2.1 rfl
  unfold pathComponents
  simp only [if_neg normal.relative, if_neg front, List.all_map, List.all_eq_true]
  exact fun part member => named part member

theorem isRelative (normal : Normal path) : Authoring.isRelative path = true := by
  unfold Authoring.isRelative
  rw [normal.components, normal.not_isAbsolute]
  simpa using normal.nonempty

end Normal

theorem normal_of_valid {path : String} (valid : Policy.validRepositoryRelativePath path = true) :
    Normal path := by
  unfold Policy.validRepositoryRelativePath at valid
  simp only [Bool.and_eq_true, List.all_eq_true] at valid
  obtain ⟨⟨nonempty, relative⟩, parts⟩ := valid
  refine ⟨by simpa using nonempty, fun front => ?_, fun part member => ?_⟩
  · obtain ⟨rest, whole⟩ : ∃ rest, path.toList = '/' :: rest := by
      cases chars : path.toList with
      | nil => simp [chars] at front
      | cons first rest =>
          rw [chars, List.head?_cons, Option.some.injEq] at front
          exact ⟨rest, by rw [front]⟩
    simp [startsWith, whole] at relative
  · have each := parts part member
    simp only [bne_iff_ne, ne_eq, Bool.not_eq_true'] at each
    exact ⟨by simpa using each.1.1.1, each.1.1.2, each.1.2⟩

theorem infix_intercalate {α : Type} {separator part : List α} {parts : List (List α)}
    (member : part ∈ parts) : part <:+: separator.intercalate parts := by
  induction parts with
  | nil => cases member
  | cons first rest ih =>
      cases rest with
      | nil =>
          rw [List.mem_singleton.mp member, List.intercalate_singleton]
      | cons next others =>
          rw [List.intercalate_cons_cons]
          rcases List.mem_cons.mp member with rfl | later
          · rw [List.append_assoc]
            exact (List.prefix_append _ _).isInfix
          · exact (ih later).trans (List.suffix_append _ _).isInfix

theorem segments_of_id (id : Id) : ∀ part ∈ segments id.value,
    part ≠ [] ∧ part ≠ ['.'] ∧ part ≠ ['.', '.'] := by
  intro part member
  have accepted := id.accepted
  simp only [Id.accepts, Bool.and_eq_true, Bool.not_eq_true', Bool.or_eq_false_iff,
    List.any_eq_false, beq_iff_eq, List.isEmpty_iff, containsText, decide_eq_false_iff_not,
    Bool.or_eq_true, not_or] at accepted
  obtain ⟨⟨-, dotless⟩, parts, -⟩ := accepted
  refine ⟨(parts part member).1, (parts part member).2, fun dots => dotless ?_⟩
  have inside := @infix_intercalate Char ['/'] part _ member
  rw [segments, List.intercalate_splitOn, dots] at inside
  exact inside

theorem toList_join (front middle back : String) :
    (front ++ middle ++ back).toList = front.toList ++ middle.toList ++ back.toList := by
  rw [String.toList_append, String.toList_append]

theorem toList_generatorStateRelativePath (id : Id) : (generatorStateRelativePath id).toList =
    ".nix-seal/generator-state/v1".toList ++ '/' :: (id.value.toList ++ '/' ::
      "state.json".toList) := by
  have front : ".nix-seal/generator-state/v1/".toList =
      ".nix-seal/generator-state/v1".toList ++ ['/'] := by decide
  have back : "/state.json".toList = '/' :: "state.json".toList := by decide
  have joined := toList_join ".nix-seal/generator-state/v1/" id.value "/state.json"
  rw [front, back, List.append_assoc, List.append_assoc] at joined
  exact joined

theorem normal_generatorStateRelativePath (id : Id) : Normal (generatorStateRelativePath id) := by
  have chars := toList_generatorStateRelativePath id
  have first : (generatorStateRelativePath id).toList.head? = some '.' := by
    rw [chars]
    rfl
  refine ⟨fun empty => ?_, fun slash => ?_, fun part member => ?_⟩
  · simp [empty] at first
  · rw [first] at slash
    simp at slash
  · rw [NixSeal.segments, chars, List.splitOn_append_cons_self, List.splitOn_append_cons_self,
      List.mem_append, List.mem_append] at member
    have literal : ∀ part ∈ ".nix-seal/generator-state/v1".toList.splitOn '/' ++
        "state.json".toList.splitOn '/', part ≠ [] ∧ part ≠ ['.'] ∧ part ≠ ['.', '.'] := by
      decide
    rcases member with early | inside | last
    · exact literal part (List.mem_append_left _ early)
    · exact segments_of_id id part inside
    · exact literal part (List.mem_append_right _ last)

/-- Different generators have different states. -/
theorem generatorStateRelativePath_injective {id other : Id}
    (same : generatorStateRelativePath id = generatorStateRelativePath other) : id = other := by
  have chars := congrArg String.toList same
  rw [toList_generatorStateRelativePath, toList_generatorStateRelativePath,
    List.append_cancel_left_eq, List.cons.injEq, List.append_cancel_right_eq] at chars
  exact Id.ext_value (String.toList_inj.mp chars.2)

/-! ## Outputs that are there -/

/-- A regular file is at a path, below directories. -/
def OutputThere (tree : Tree) (path : String) : Prop :=
  (∀ directory ∈ ancestors path, ∃ found, tree directory = some (.directory found)) ∧
    ∃ file, tree path = some (.file file)

theorem existingAncestor_eq_ok {tree : Tree} {directory : String} :
    existingAncestor tree directory = .ok () ↔
      ∃ found, tree directory = some (.directory found) := by
  unfold existingAncestor
  cases tree directory with
  | none => simp
  | some node => cases node <;> simp

theorem existingFile_eq_ok {tree : Tree} {path : String} :
    existingFile tree path = .ok () ↔ ∃ file, tree path = some (.file file) := by
  unfold existingFile
  cases tree path with
  | none => simp
  | some node => cases node <;> simp

theorem existingSecretPath_eq_ok {tree : Tree} {path : String} (normal : Normal path) :
    existingSecretPath tree path = .ok () ↔ OutputThere tree path := by
  rw [existingSecretPath, guard_eq_ok, guard_eq_ok, normal.not_isAbsolute, normal.components]
  constructor
  · rintro ⟨-, -, checked⟩
    obtain ⟨⟨⟩, above, here⟩ := bind_eq_ok.mp checked
    exact ⟨fun directory inside => existingAncestor_eq_ok.mp (forM_eq_ok.mp above directory inside),
      existingFile_eq_ok.mp here⟩
  · rintro ⟨above, here⟩
    exact ⟨by simp, by simp, bind_eq_ok.mpr ⟨(), forM_eq_ok.mpr fun directory inside =>
      existingAncestor_eq_ok.mpr (above directory inside), existingFile_eq_ok.mpr here⟩⟩

theorem isPresent_eq_ok {tree : Tree} {path : String} (normal : Normal path) :
    isPresent tree path = .ok true ↔ OutputThere tree path := by
  rw [← existingSecretPath_eq_ok normal]
  unfold isPresent
  split
  · rename_i found
    simp [found]
  · rename_i found
    simp [found]
  · rename_i found
    simp [found]

theorem OutputThere.grow {tree : Tree} {path : String} (there : OutputThere tree path)
    (restrictive : Bool) (made guarded : List String) :
    OutputThere (tree.grow restrictive made guarded) path := by
  obtain ⟨above, file, here⟩ := there
  refine ⟨fun directory inside => ?_, file, grow_of_file restrictive made guarded here⟩
  obtain ⟨found, known⟩ := above directory inside
  exact ⟨_, grow_of_directory restrictive made guarded known⟩

/-! ## Private directories -/

/-- A directory of the effective user that nobody else can enter. -/
abbrev privateDirectory : Node := .directory ⟨true, true⟩

/-- `ensure_private_directory` over some directories makes the missing ones, and finds no other
that is not private. -/
theorem foldlM_ensurePrivateDirectory {refusals : DirectoryRefusals} {directories : List String}
    {tree after : Tree} :
    directories.foldlM (ensurePrivateDirectory refusals) tree = .ok after ↔
      (∀ directory ∈ directories, tree directory = none ∨
        tree directory = some privateDirectory) ∧ after = tree.grow true directories [] := by
  induction directories generalizing tree with
  | nil => simp [grow_nil, pure, Except.pure, eq_comm]
  | cons first rest ih =>
      have ensured : ∀ next, ensurePrivateDirectory refusals tree first = .ok next ↔
          (tree first = none ∨ tree first = some privateDirectory) ∧
            next = tree.grow true [first] [] := by
        intro next
        unfold ensurePrivateDirectory
        cases found : tree first with
        | none => simp [grow_singleton found, eq_comm]
        | some node =>
            cases node with
            | directory directory =>
                obtain ⟨owned, restricted⟩ := directory
                cases owned <;> cases restricted <;>
                  simp [privateDirectory, grow_existing found, eq_comm]
            | file file => simp [privateDirectory]
            | other resolves => simp [privateDirectory]
      have stays : ∀ directory, (tree.grow true [first] [] directory = none ∨
          tree.grow true [first] [] directory = some privateDirectory) ∧
          (tree first = none ∨ tree first = some privateDirectory) ↔
          (tree directory = none ∨ tree directory = some privateDirectory) ∧
          (tree first = none ∨ tree first = some privateDirectory) := by
        intro directory
        refine and_congr_left fun head => ?_
        rcases head with missing | present
        · rw [grow_singleton missing]
          by_cases here : directory = first
          · simp [here, missing, privateDirectory]
          · rw [Function.update_of_ne here]
        · rw [grow_existing present]
      rw [List.foldlM_cons, bind_eq_ok]
      simp only [ensured, ih]
      constructor
      · rintro ⟨_, ⟨private_, rfl⟩, others, rfl⟩
        refine ⟨List.forall_mem_cons.mpr ⟨private_, fun directory inside =>
          ((stays directory).mp ⟨others directory inside, private_⟩).1⟩, ?_⟩
        rw [grow_grow (List.nil_subset _)]
        rfl
      · rintro ⟨every, rfl⟩
        obtain ⟨here, others⟩ := List.forall_mem_cons.mp every
        refine ⟨_, ⟨here, rfl⟩, fun directory inside =>
          ((stays directory).mpr ⟨others directory inside, here⟩).1, ?_⟩
        rw [grow_grow (List.nil_subset _)]
        rfl

theorem generatorStatePath_eq_ok {tree after : Tree} {id : Id} :
    generatorStatePath tree id = .ok after ↔
      (∀ directory ∈ ancestors (generatorStateRelativePath id), tree directory = none ∨
        tree directory = some privateDirectory) ∧
        after = tree.grow true (ancestors (generatorStateRelativePath id)) [] :=
  foldlM_ensurePrivateDirectory

theorem grow_private {tree : Tree} {directory : String} (restrictive : Bool)
    (made guarded : List String) (found : tree directory = some privateDirectory) :
    tree.grow restrictive made guarded directory = some privateDirectory := by
  simp [Tree.grow, found, privateDirectory]

theorem grow_complete {tree : Tree} {restrictive : Bool} {made : List String}
    (complete : ∀ directory ∈ made, tree directory ≠ none) :
    tree.grow restrictive made [] = tree := by
  funext path
  cases found : tree path with
  | none =>
      refine grow_of_absent restrictive [] found fun inside => complete path inside found
  | some node => cases node <;> simp [Tree.grow, found]

/-! ## Recorded states -/

section States

variable {M : Machine} {plan : Plan} {tree after : Tree} {id : Id} {generator : Generator}

theorem openState_eq_ok {path : String} {bytes : Bytes} :
    openState tree path = .ok bytes ↔ ∃ file, tree path = some (.file file) ∧
      file.ownerOnly = true ∧ file.bytes.length ≤ 64 * 1024 ∧ bytes = file.bytes := by
  unfold openState
  split
  · rename_i file here
    simp only [guard_eq_ok, List.length_take, Except.ok.injEq, Bool.not_eq_true',
      Bool.not_eq_false, not_lt]
    constructor
    · rintro ⟨owner, short, rfl⟩
      have bound : file.bytes.length ≤ 64 * 1024 := by omega
      exact ⟨file, here, owner, bound, List.take_of_length_le (by omega)⟩
    · rintro ⟨other, same, owner, bound, rfl⟩
      cases here.symm.trans same
      exact ⟨owner, by omega, List.take_of_length_le (by omega)⟩
  · rename_i other
    simp only [reduceCtorEq, false_iff, not_exists, not_and]
    exact fun file here => absurd here (other file)

theorem parseState_eq_ok {bytes : Bytes} {state : GeneratorStateV1} :
    parseState M id bytes = .ok state ↔ M.stateFromJson bytes = some state ∧
      state.schema = generatorStateSchema ∧ state.generatorId = id := by
  unfold parseState
  split
  · rename_i malformed
    simp [malformed]
  · rename_i found parsed
    simp only [guard_eq_ok, not_or, not_not, Except.ok.injEq, parsed, Option.some.injEq]
    constructor
    · rintro ⟨same, rfl⟩
      exact ⟨rfl, same⟩
    · rintro ⟨rfl, same⟩
      exact ⟨same, rfl⟩

/-- The repository holds a state that matches the declaration of a generator. -/
def Recorded (M : Machine) (tree : Tree) (id : Id) (generator : Generator) : Prop :=
  ∃ validation file, generator.validation = some validation ∧
    tree (generatorStateRelativePath id) = some (.file file) ∧ file.ownerOnly = true ∧
    file.bytes.length ≤ 64 * 1024 ∧
    M.stateFromJson file.bytes = some (stateOf id generator validation)

/-- Nothing is left to do for a generator. -/
structure UpToDate (M : Machine) (plan : Plan) (tree : Tree) (id : Id) (generator : Generator) :
    Prop where
  outputs : ∀ path ∈ Policy.outputPaths plan generator, OutputThere tree path
  directories : ∀ directory ∈ ancestors (generatorStateRelativePath id),
    tree directory = some privateDirectory
  recorded : Recorded M tree id generator

/-- A state that is read and matches. -/
theorem readGeneratorState_eq_ok {state : GeneratorStateV1} :
    readGeneratorState M tree id = .ok (some state, after) ↔
      generatorStatePath tree id = .ok after ∧ ∃ bytes,
        openState after (generatorStateRelativePath id) = .ok bytes ∧
          parseState M id bytes = .ok state := by
  constructor
  · intro found
    obtain ⟨grown, opened, found⟩ := bind_eq_ok.mp found
    split at found
    · simp at found
    · obtain ⟨bytes, read, found⟩ := bind_eq_ok.mp found
      obtain ⟨parsed, accepted, returned⟩ := bind_eq_ok.mp found
      cases returned
      exact ⟨opened, bytes, read, accepted⟩
  · rintro ⟨opened, bytes, read, parsed⟩
    obtain ⟨file, here, -⟩ := openState_eq_ok.mp read
    refine bind_eq_ok.mpr ⟨after, opened, ?_⟩
    rw [if_neg (by simp [pathExists, here])]
    exact bind_eq_ok.mpr ⟨bytes, read, bind_eq_ok.mpr ⟨state, parsed, rfl⟩⟩

theorem all_there {α : Type} {items : List α} {present : List Bool} {there : α → Prop}
    (each : List.Forall₂ (fun item found => found = true → there item) items present)
    (full : ∀ found ∈ present, found = true) : ∀ item ∈ items, there item := by
  induction each with
  | nil => simp
  | cons head _ ih =>
      obtain ⟨first, others⟩ := List.forall_mem_cons.mp full
      exact List.forall_mem_cons.mpr ⟨head first, ih others⟩

theorem full_of_counts {left right : List Bool} {leftCount rightCount : Nat}
    (left_length : left.length = leftCount) (right_length : right.length = rightCount)
    (total : left.count true + right.count true = leftCount + rightCount) :
    (∀ found ∈ left, found = true) ∧ ∀ found ∈ right, found = true := by
  have left_bound := List.count_le_length (a := true) (l := left)
  have right_bound := List.count_le_length (a := true) (l := right)
  refine ⟨fun found member => ?_, fun found member => ?_⟩
  · exact (List.count_eq_length.mp (show left.count true = left.length by omega) found member).symm
  · exact (List.count_eq_length.mp (show right.count true = right.length by omega) found member).symm

/-- The state that makes a generator unchanged. -/
theorem stateAction_eq_unchanged {validation : String} {state : Option GeneratorStateV1}
    {totalPresent totalOutputs : Nat} :
    stateAction id generator validation state totalPresent totalOutputs = .ok .unchanged ↔
      totalPresent = totalOutputs ∧ ∃ found, state = some found ∧ found.validation = validation ∧
        found.outputs = generator.outputs ∧
        found.publicOutputs = generator.publicOutputs.map GeneratorPublicOutput.id := by
  unfold stateAction
  cases state with
  | none => by_cases none_there : totalPresent = 0 <;> simp [none_there]
  | some found =>
      by_cases same : found.validation = validation ∧ found.outputs = generator.outputs ∧
          found.publicOutputs = generator.publicOutputs.map GeneratorPublicOutput.id
      · by_cases all : totalPresent = totalOutputs <;> simp [same, all]
      · by_cases all : totalPresent = totalOutputs <;> simp [same, all]

theorem outputs_there (accepted : Policy.validate M.policy plan = .ok ())
    (stored : plan.generators[id]? = some generator) {present publicPresent : List Bool}
    (pairs : List.Forall₂ (fun output found => secretPresent plan tree output = .ok found)
      generator.outputs present)
    (publicPairs : List.Forall₂ (fun (output : GeneratorPublicOutput) found =>
      isPresent tree output.destination = .ok found) generator.publicOutputs publicPresent)
    (total : present.count true + publicPresent.count true =
      generator.outputs.length + generator.publicOutputs.length) :
    ∀ path ∈ Policy.outputPaths plan generator, OutputThere tree path := by
  obtain ⟨full, publicFull⟩ := full_of_counts pairs.length_eq.symm publicPairs.length_eq.symm total
  have secrets : ∀ output ∈ generator.outputs, secretPresent plan tree output = .ok true :=
    all_there (pairs.imp fun _ _ checked same => same ▸ checked) full
  have shown : ∀ output ∈ generator.publicOutputs, isPresent tree output.destination = .ok true :=
    all_there (publicPairs.imp fun _ _ checked same => same ▸ checked) publicFull
  intro path member
  have normal := normal_of_valid (Policy.valid_of_mem_outputPaths accepted stored member)
  rw [← isPresent_eq_ok normal]
  rcases List.mem_append.mp member with secret | listed
  · obtain ⟨output, inside, found⟩ := List.mem_filterMap.mp secret
    obtain ⟨declared, known, rfl⟩ := Option.map_eq_some_iff.mp found
    have checked := secrets output inside
    rwa [secretPresent, known] at checked
  · obtain ⟨output, inside, rfl⟩ := List.mem_map.mp listed
    exact shown output inside

/-- A generator that is left alone has nothing left to do. -/
theorem upToDate_of_unchanged (accepted : Policy.validate M.policy plan = .ok ())
    (stored : plan.generators[id]? = some generator)
    (unchanged : generatorAction M plan tree id generator false = .ok (.unchanged, after)) :
    after = tree.grow true (ancestors (generatorStateRelativePath id)) [] ∧
      (∀ path ∈ Policy.outputPaths plan generator, OutputThere tree path) ∧
      Recorded M tree id generator ∧ UpToDate M plan after id generator := by
  simp only [generatorAction, Bool.false_eq_true, if_false] at unchanged
  obtain ⟨present, found, unchanged⟩ := bind_eq_ok.mp unchanged
  obtain ⟨publicPresent, publicFound, unchanged⟩ := bind_eq_ok.mp unchanged
  rw [guard_eq_ok] at unchanged
  obtain ⟨-, unchanged⟩ := unchanged
  split at unchanged
  · cases unchanged
  rename_i validation declared
  obtain ⟨⟨state, grown⟩, read, unchanged⟩ := bind_eq_ok.mp unchanged
  obtain ⟨action, chosen, returned⟩ := bind_eq_ok.mp unchanged
  cases returned
  obtain ⟨total, held, rfl, same⟩ := stateAction_eq_unchanged.mp chosen
  obtain ⟨opened, bytes, openedState, parsed⟩ := readGeneratorState_eq_ok.mp read
  obtain ⟨file, here, owner, bound, rfl⟩ := openState_eq_ok.mp openedState
  obtain ⟨decoded, schema, named⟩ := parseState_eq_ok.mp parsed
  obtain ⟨entered, rfl⟩ := generatorStatePath_eq_ok.mp opened
  have there := outputs_there accepted stored (mapM_eq_ok.mp found) (mapM_eq_ok.mp publicFound) total
  have recorded : M.stateFromJson file.bytes = some (stateOf id generator validation) := by
    rw [decoded]
    obtain ⟨rfl, outputs, publicOutputs⟩ := same
    cases held
    simp only at schema named outputs publicOutputs
    subst schema named outputs publicOutputs
    rfl
  refine ⟨rfl, there, ⟨validation, file, declared, grow_eq_file.mp here, owner, bound, recorded⟩,
    fun path member => (there path member).grow true _ [], fun directory inside => ?_,
    validation, file, declared, here, owner, bound, recorded⟩
  rcases entered directory inside with missing | found
  · exact grow_of_missing true [] missing inside
  · exact grow_private true _ [] found

theorem stored_of_output (accepted : Policy.validate M.policy plan = .ok ())
    (stored : plan.generators[id]? = some generator) {output : Id}
    (member : output ∈ generator.outputs) :
    ∃ secret, plan.secrets[output]? = some secret ∧
      secret.source ∈ Policy.outputPaths plan generator := by
  have known := ((Policy.acceptedPlan_of_validate accepted).generator stored).outputs output member
  obtain ⟨secret, found⟩ := Option.isSome_iff_exists.mp
    (Std.TreeMap.mem_iff_isSome_getElem?.mp known)
  exact ⟨secret, found, List.mem_append_left _
    (List.mem_filterMap.mpr ⟨output, member, by rw [found]; rfl⟩)⟩

theorem count_replicate_true (count : Nat) : (List.replicate count true).count true = count :=
  List.count_replicate_self

theorem mapM_eq_replicate {α : Type} {items : List α} {check : α → Except RunError Bool}
    (every : ∀ item ∈ items, check item = .ok true) :
    items.mapM check = .ok (List.replicate items.length true) := by
  rw [mapM_eq_ok, List.forall₂_iff_get]
  refine ⟨by simp, fun index bound _ => ?_⟩
  simpa using every _ (List.get_mem items ⟨index, bound⟩)

/-- Outputs that are there and a state that matches leave a generator alone. -/
theorem unchanged_of_read (accepted : Policy.validate M.policy plan = .ok ())
    (stored : plan.generators[id]? = some generator)
    (outputs : ∀ path ∈ Policy.outputPaths plan generator, OutputThere tree path)
    {validation : String} (declared : generator.validation = some validation)
    (read : readGeneratorState M tree id = .ok (some (stateOf id generator validation), after)) :
    generatorAction M plan tree id generator false = .ok (.unchanged, after) := by
  have there : ∀ path ∈ Policy.outputPaths plan generator, isPresent tree path = .ok true := by
    intro path member
    rw [isPresent_eq_ok (normal_of_valid (Policy.valid_of_mem_outputPaths accepted stored member))]
    exact outputs path member
  have present : generator.outputs.mapM (secretPresent plan tree) =
      .ok (List.replicate generator.outputs.length true) := by
    refine mapM_eq_replicate fun output member => ?_
    obtain ⟨secret, known, inside⟩ := stored_of_output accepted stored member
    rw [secretPresent, known]
    exact there _ inside
  have publicPresent := mapM_eq_replicate fun output
      (member : output ∈ generator.publicOutputs) =>
    there output.destination (List.mem_append_right _ (List.mem_map_of_mem member))
  simp only [generatorAction, Bool.false_eq_true, if_false, present, publicPresent, ok_bind,
    count_replicate_true, declared, read]
  rw [if_neg (by simp)]
  exact bind_eq_ok.mpr ⟨.unchanged, stateAction_eq_unchanged.mpr
    ⟨rfl, stateOf id generator validation, rfl, rfl, rfl, rfl⟩, rfl⟩

/-- A generator with nothing left to do is left alone, and the tree stays as it is. -/
theorem unchanged_of_upToDate (accepted : Policy.validate M.policy plan = .ok ())
    (stored : plan.generators[id]? = some generator)
    (upToDate : UpToDate M plan tree id generator) :
    generatorAction M plan tree id generator false = .ok (.unchanged, tree) := by
  have opened : generatorStatePath tree id = .ok tree := by
    rw [generatorStatePath_eq_ok]
    refine ⟨fun directory inside => .inr (upToDate.directories directory inside), ?_⟩
    rw [grow_complete]
    intro directory inside
    simp [upToDate.directories directory inside]
  obtain ⟨validation, file, declared, here, owner, bound, decoded⟩ := upToDate.recorded
  exact unchanged_of_read accepted stored upToDate.outputs declared
    (readGeneratorState_eq_ok.mpr ⟨opened, file.bytes,
      openState_eq_ok.mpr ⟨file, here, owner, bound, rfl⟩, parseState_eq_ok.mpr ⟨decoded, rfl, rfl⟩⟩)

/-- The lines of a generator that is left alone. -/
def unchangedLines (plan : Plan) (id : Id) (generator : Generator) : List OutputReport :=
  generator.outputs.map (fun output =>
    ⟨id, output, (plan.secrets[output]?.map Secret.source).getD "", .unchanged⟩) ++
  generator.publicOutputs.map fun output => ⟨id, output.id, output.destination, .unchanged⟩

theorem unchangedReports_of_there (accepted : Policy.validate M.policy plan = .ok ())
    (stored : plan.generators[id]? = some generator)
    (there : ∀ path ∈ Policy.outputPaths plan generator, OutputThere tree path) :
    unchangedReports plan tree id generator = .ok (unchangedLines plan id generator) := by
  have existing : ∀ path ∈ Policy.outputPaths plan generator,
      existingSecretPath tree path = .ok () := by
    intro path member
    rw [existingSecretPath_eq_ok
      (normal_of_valid (Policy.valid_of_mem_outputPaths accepted stored member))]
    exact there path member
  refine bind_eq_ok.mpr ⟨_, mapM_eq_ok.mpr (List.forall₂_map_right_iff.mpr
    (List.forall₂_same.mpr fun output member => ?_)), bind_eq_ok.mpr ⟨_,
      mapM_eq_ok.mpr (List.forall₂_map_right_iff.mpr
        (List.forall₂_same.mpr fun output member => ?_)), rfl⟩⟩
  · obtain ⟨secret, known, inside⟩ := stored_of_output accepted stored member
    simp only [unchangedSecret, known, existing _ inside, ok_bind, Option.map_some,
      Option.getD_some]
  · simp only [unchangedPublic, ok_bind,
      existing output.destination (List.mem_append_right _ (List.mem_map_of_mem member))]

/-- A turn without anything to do only reports. -/
theorem generateOne_of_upToDate {args : GenerateArgs} {sources : Std.TreeMap Id (Option String)}
    {generation : Generation} (accepted : Policy.validate M.policy plan = .ok ())
    (kept : args.replace = false) (stored : plan.generators[id]? = some generator)
    (upToDate : UpToDate M plan generation.repository id generator) :
    generateOne M plan args sources generation id = .ok
      { generation with outputs := generation.outputs ++ unchangedLines plan id generator } := by
  simp only [generateOne, stored, kept, unchanged_of_upToDate accepted stored upToDate, ok_bind,
    if_true, unchangedReports_of_there accepted stored upToDate.outputs]

end States

end NixSeal.Generate
