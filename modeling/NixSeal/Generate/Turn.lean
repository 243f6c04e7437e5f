import NixSeal.Authoring.Placement
import NixSeal.Generate.UpToDate

/-!
# One generator at a time

What one turn of the loop of `run_generate` does to the repository: which directories are private
afterwards, which files stay, and what is written.
-/

namespace NixSeal.Generate

open Authoring Fallible

/-! ## Trees and places -/

/-- Whatever is in a tree lies below directories. -/
def Rooted (tree : Tree) : Prop :=
  ∀ path, tree path ≠ none → ∀ directory ∈ ancestors path,
    ∃ found, tree directory = some (.directory found)

/-- What `encrypt` gives is not read as the state of a generator: an age file is no JSON. -/
def Sealed (M : Machine) : Prop :=
  ∀ destination recipients plaintext ciphertext,
    M.encrypt destination recipients plaintext = some ciphertext →
      M.stateFromJson ciphertext = none

/-! ## What a turn changes -/

section Turns

variable {M : Machine} {plan : Plan} {replace : Bool} {id : Id} {generator : Generator}
  {before after : Tree}

/-- What the turn of a generator can put something at. -/
def Reachable (plan : Plan) (id : Id) (generator : Generator) (path : String) : Prop :=
  ∃ destination ∈ Policy.outputPaths plan generator ++ [generatorStateRelativePath id],
    path = destination ∨ path ∈ ancestors destination

/-- A file is at a path that is not the state of a generator: it is not private, or it holds
something else. -/
def Foreign (M : Machine) (tree : Tree) (path : String) : Prop :=
  ∃ file, tree path = some (.file file) ∧
    (file.ownerOnly = true → M.stateFromJson file.bytes = none)

/-- The turn of a generator that is left alone. -/
structure Idle (M : Machine) (plan : Plan) (replace : Bool) (id : Id) (generator : Generator)
    (before after : Tree) : Prop where
  keeps : replace = false
  outputs : ∀ path ∈ Policy.outputPaths plan generator, OutputThere before path
  recorded : Recorded M before id generator
  files : ∀ path file, after path = some (.file file) ↔ before path = some (.file file)

/-- The turn of a generator that writes its outputs and its state. -/
structure Busy (M : Machine) (plan : Plan) (replace : Bool) (id : Id) (generator : Generator)
    (before after : Tree) : Prop where
  due : replace = false → (∀ path ∈ Policy.outputPaths plan generator, OutputThere before path) →
    ¬Recorded M before id generator
  unwritten : generatorStateRelativePath id ∉ Policy.outputPaths plan generator
  foreign : ∀ path ∈ Policy.outputPaths plan generator, Foreign M after path
  state : ∃ validation bytes file, generator.validation = some validation ∧
    M.stateToJcs (stateOf id generator validation) = some bytes ∧
    after (generatorStateRelativePath id) = some (.file file) ∧ file.ownerOnly = true ∧
    file.bytes = bytes

/-- What the turn of a generator with a validation value does to the repository. -/
structure Turn (M : Machine) (plan : Plan) (replace : Bool) (id : Id) (generator : Generator)
    (before after : Tree) : Prop where
  outputs : ∀ path ∈ Policy.outputPaths plan generator, OutputThere after path
  files : ∀ path, path ∉ Policy.outputPaths plan generator →
    path ≠ generatorStateRelativePath id → ∀ file,
      after path = some (.file file) ↔ before path = some (.file file)
  absent : ∀ path, after path = none → before path = none
  appears : ∀ path, before path = none → after path ≠ none → Reachable plan id generator path
  entered : ∀ path directory, after path = some (.directory directory) → before.Enterable path
  kept : ∀ path directory, before path = some (.directory directory) →
    ∃ found, after path = some (.directory found) ∧ found.owned = directory.owned ∧
      (directory.restricted = true → found.restricted = true)
  made : ∀ path, after path = some privateDirectory → before path = some privateDirectory ∨
    (before path = none ∧ (M.restrictive = true ∨ replace = false)) ∨
      parentDirectory (generatorStateRelativePath id) = some path
  fresh : ∀ path directory, after path = some (.directory directory) → before path = none →
    M.restrictive = true → directory = ⟨true, true⟩
  opened : ∀ directory ∈ ancestors (generatorStateRelativePath id),
    ∃ found, after directory = some (.directory found)
  checked : replace = false → ∀ directory ∈ ancestors (generatorStateRelativePath id),
    after directory = some privateDirectory
  guarded : ∀ directory, parentDirectory (generatorStateRelativePath id) = some directory →
    after directory = some privateDirectory
  readable : replace = false → ¬Foreign M before (generatorStateRelativePath id)
  state : Idle M plan replace id generator before after ∨
    Busy M plan replace id generator before after

theorem sources_of_zip {E : Policy.Environment} {outputs : List Id} {values : List Bytes}
    {writes : List BatchSecretWrite} (length : values.length = outputs.length)
    (pairs : List.Forall₂ (fun output write => secretWrite E plan output = .ok write)
      (outputs.zip values) writes) :
    writes.map BatchSecretWrite.relativeDestination =
      outputs.filterMap fun output => plan.secrets[output]?.map Secret.source := by
  induction outputs generalizing values writes with
  | nil =>
      cases pairs
      rfl
  | cons output rest ih =>
      cases values with
      | nil => simp at length
      | cons value others =>
          rw [List.zip_cons_cons] at pairs
          cases pairs with
          | cons first remaining =>
              obtain ⟨secret, known, destination, -⟩ := secretWrite_eq_ok first
              have later := ih (by simpa using length) remaining
              simp [known, destination, later]

/-- The secrets of a batch go to the sources of the outputs of its generator. -/
theorem sources_of_generateBatch {E : Policy.Environment} {run : GeneratorRun} {batch : Batch}
    (generated : generateBatch E plan generator run = .ok batch) :
    batch.secrets.map BatchSecretWrite.relativeDestination =
      generator.outputs.filterMap fun output => plan.secrets[output]?.map Secret.source := by
  obtain ⟨values, computed, generated⟩ := bind_eq_ok.mp generated
  rw [guard_eq_ok, not_or, not_not, not_not] at generated
  obtain ⟨⟨count, -⟩, generated⟩ := generated
  obtain ⟨secrets, written, returned⟩ := bind_eq_ok.mp generated
  cases returned
  exact sources_of_zip count (mapM_eq_ok.mp written)

theorem paths_of_generateBatch {E : Policy.Environment} {run : GeneratorRun} {batch : Batch}
    (generated : generateBatch E plan generator run = .ok batch) :
    batch.secrets.map BatchSecretWrite.relativeDestination ++
      batch.publicWrites.map BatchPublicWrite.relativeDestination =
        Policy.outputPaths plan generator := by
  rw [Policy.outputPaths, sources_of_generateBatch generated]
  obtain ⟨values, computed, generated⟩ := bind_eq_ok.mp generated
  rw [guard_eq_ok, not_or, not_not, not_not] at generated
  obtain ⟨⟨-, publicCount⟩, generated⟩ := generated
  obtain ⟨secrets, written, returned⟩ := bind_eq_ok.mp generated
  cases returned
  rw [List.map_map]
  congr 1
  rw [show BatchPublicWrite.relativeDestination ∘ (fun output : GeneratorPublicOutput × Bytes =>
      (⟨output.1.destination, output.2⟩ : BatchPublicWrite)) =
    GeneratorPublicOutput.destination ∘ Prod.fst from rfl, ← List.map_map,
    List.map_fst_zip (by omega)]

theorem destinations_of_batchWrites {E : Policy.Environment} {run : GeneratorRun} {batch : Batch}
    (generated : generateBatch E plan generator run = .ok batch) {tree : Tree} {state : TreeWrite}
    (named : state.relativeDestination = generatorStateRelativePath id) :
    (batchWrites M tree batch state).map TreeWrite.relativeDestination =
      Policy.outputPaths plan generator ++ [generatorStateRelativePath id] := by
  rw [← paths_of_generateBatch generated, batchWrites, List.map_append, List.map_append,
    List.map_map, List.map_map, List.map_singleton, named]
  rfl

/-- The directories that the choice of an action makes. -/
def inspected (replace : Bool) (id : Id) : List String :=
  if replace then [] else ancestors (generatorStateRelativePath id)

theorem readGeneratorState_opened {found : Option GeneratorStateV1}
    (read : readGeneratorState M before id = .ok (found, after)) :
    generatorStatePath before id = .ok after := by
  obtain ⟨grown, opened, read⟩ := bind_eq_ok.mp read
  split at read
  · cases read
    exact opened
  · obtain ⟨bytes, -, read⟩ := bind_eq_ok.mp read
    obtain ⟨parsed, -, returned⟩ := bind_eq_ok.mp read
    cases returned
    exact opened

/-- The choice of an action finds or makes private directories. -/
theorem inspected_of_action {action : GeneratorAction} {validation : String}
    (declared : generator.validation = some validation)
    (chosen : generatorAction M plan before id generator replace = .ok (action, after)) :
    after = before.grow true (inspected replace id) [] ∧
      ∀ directory ∈ inspected replace id, before directory = none ∨
        before directory = some privateDirectory := by
  unfold generatorAction at chosen
  cases replace with
  | true =>
      cases chosen
      exact ⟨grow_nil.symm, by simp [inspected]⟩
  | false =>
      simp only [Bool.false_eq_true, if_false] at chosen
      obtain ⟨present, -, chosen⟩ := bind_eq_ok.mp chosen
      obtain ⟨publicPresent, -, chosen⟩ := bind_eq_ok.mp chosen
      rw [guard_eq_ok] at chosen
      simp only [declared] at chosen
      obtain ⟨⟨state, grown⟩, read, chosen⟩ := bind_eq_ok.mp chosen.2
      obtain ⟨chosenAction, -, returned⟩ := bind_eq_ok.mp chosen
      cases returned
      obtain ⟨entered, rfl⟩ := generatorStatePath_eq_ok.mp (readGeneratorState_opened read)
      exact ⟨rfl, entered⟩

theorem not_foreign_of_action {action : GeneratorAction} {validation : String}
    (declared : generator.validation = some validation)
    (chosen : generatorAction M plan before id generator false = .ok (action, after)) :
    ¬Foreign M before (generatorStateRelativePath id) := by
  rintro ⟨file, here, unreadable⟩
  simp only [generatorAction, Bool.false_eq_true, if_false] at chosen
  obtain ⟨present, -, chosen⟩ := bind_eq_ok.mp chosen
  obtain ⟨publicPresent, -, chosen⟩ := bind_eq_ok.mp chosen
  rw [guard_eq_ok] at chosen
  simp only [declared] at chosen
  obtain ⟨⟨state, last⟩, read, -⟩ := bind_eq_ok.mp chosen.2
  obtain ⟨grown, opened, read⟩ := bind_eq_ok.mp read
  obtain ⟨-, rfl⟩ := generatorStatePath_eq_ok.mp opened
  have there := grow_of_file true (ancestors (generatorStateRelativePath id)) [] here
  rw [if_neg (by simp [pathExists, there])] at read
  obtain ⟨bytes, openedState, read⟩ := bind_eq_ok.mp read
  obtain ⟨parsed, accepted, -⟩ := bind_eq_ok.mp read
  obtain ⟨found, same, owner, -, rfl⟩ := openState_eq_ok.mp openedState
  cases there.symm.trans same
  have decoded := (parseState_eq_ok.mp accepted).1
  rw [unreadable owner] at decoded
  cases decoded

/-- A generator whose outputs are there and whose state matches is left alone. -/
theorem unchanged_of_recorded (accepted : Policy.validate M.policy plan = .ok ())
    (stored : plan.generators[id]? = some generator) {action : GeneratorAction}
    (chosen : generatorAction M plan before id generator false = .ok (action, after))
    (there : ∀ path ∈ Policy.outputPaths plan generator, OutputThere before path)
    (recorded : Recorded M before id generator) : action = .unchanged := by
  obtain ⟨validation, file, declared, here, owner, bound, decoded⟩ := recorded
  obtain ⟨rfl, entered⟩ := inspected_of_action declared chosen
  have opened : generatorStatePath before id = .ok (before.grow true (inspected false id) []) :=
    generatorStatePath_eq_ok.mpr ⟨entered, rfl⟩
  have alone := unchanged_of_read accepted stored there declared
    (readGeneratorState_eq_ok.mpr ⟨opened, file.bytes, openState_eq_ok.mpr
      ⟨file, grow_of_file true _ [] here, owner, bound, rfl⟩,
      parseState_eq_ok.mpr ⟨decoded, rfl, rfl⟩⟩)
  rw [chosen] at alone
  cases alone
  rfl

/-! ### Written outputs -/

/-- A batch whose last change writes a state. -/
structure WritesState (M : Machine) (id : Id) (writes : List TreeWrite) (paths : List String)
    (bytes : Bytes) : Prop where
  destinations : writes.map TreeWrite.relativeDestination =
    paths ++ [generatorStateRelativePath id]
  kinds : ∀ write ∈ writes, write.kind ≠ .privateDelete
  guarded : writes.flatMap TreeWrite.guarded =
    (parentDirectory (generatorStateRelativePath id)).toList
  state : ∃ write ∈ writes, write.relativeDestination = generatorStateRelativePath id ∧
    write.guarded = (parentDirectory (generatorStateRelativePath id)).toList ∧
    ∀ file, write.staging = .ok file → file.ownerOnly = true ∧ file.bytes = bytes
  values : ∀ path ∈ paths, ∃ write ∈ writes, write.relativeDestination = path ∧
    ∀ file, write.staging = .ok file → file.ownerOnly = true → M.stateFromJson file.bytes = none

variable {writes : List TreeWrite} {paths : List String} {bytes : Bytes} {mode : WriteMode}

/-- A batch that writes a state is a turn. -/
theorem turn_of_written {middle : Tree} {validation : String}
    (entered : middle = before.grow true (inspected replace id) [] ∧
      ∀ directory ∈ inspected replace id, before directory = none ∨
        before directory = some privateDirectory)
    (declared : generator.validation = some validation)
    (serialized : M.stateToJcs (stateOf id generator validation) = some bytes)
    (due : replace = false → (∀ path ∈ Policy.outputPaths plan generator, OutputThere before path) →
      ¬Recorded M before id generator)
    (readable : replace = false → ¬Foreign M before (generatorStateRelativePath id))
    (writes_state : WritesState M id writes (Policy.outputPaths plan generator) bytes)
    (written : Written M.restrictive mode writes middle after) :
    Turn M plan replace id generator before after := by
  obtain ⟨same, checked⟩ := entered
  have kinds := writes_state.kinds
  obtain ⟨state, listed, named, guards, content⟩ := writes_state.state
  have guarded : ∀ directory, directory ∈ writes.flatMap TreeWrite.guarded ↔
      parentDirectory (generatorStateRelativePath id) = some directory := by
    intro directory
    rw [writes_state.guarded, Option.mem_toList]
  have above : ∀ directory ∈ ancestors (generatorStateRelativePath id),
      ∃ found, after directory = some (.directory found) := by
    intro directory inside
    refine written.made kinds listed ?_
    rw [TreeWrite.made, named]
    exact inside
  have outside : ∀ path, path ∉ Policy.outputPaths plan generator →
      path ≠ generatorStateRelativePath id →
        after path = middle.growFor M.restrictive writes path := by
    intro path unwritten other
    refine written.others path ?_
    rw [writes_state.destinations, List.mem_append, List.mem_singleton]
    exact fun member => member.elim unwritten other
  constructor
  case outputs =>
    intro path member
    obtain ⟨write, inside, rfl⟩ : ∃ write ∈ writes, write.relativeDestination = path := by
      rw [← List.mem_map, writes_state.destinations]
      exact List.mem_append_left _ member
    obtain ⟨file, -, placed⟩ := written.placed write inside (kinds write inside)
    exact ⟨fun directory higher => written.made kinds inside higher, file, placed⟩
  case files =>
    intro path unwritten other file
    rw [outside path unwritten other, Tree.growFor, grow_eq_file, same, grow_eq_file]
  case absent =>
    intro path missing
    by_cases destination : path ∈ writes.map TreeWrite.relativeDestination
    · obtain ⟨write, inside, rfl⟩ := List.mem_map.mp destination
      obtain ⟨file, -, placed⟩ := written.placed write inside (kinds write inside)
      rw [placed] at missing
      cases missing
    · rw [written.others path destination, Tree.growFor, grow_eq_none, same, grow_eq_none] at missing
      exact missing.1.1
  case appears =>
    intro path missing here
    have reached : path ∈ writes.map TreeWrite.relativeDestination ∨
        path ∈ writes.flatMap TreeWrite.made ∨ path ∈ inspected replace id := by
      by_contra outside
      rw [not_or, not_or] at outside
      refine here ?_
      rw [written.others path outside.1, Tree.growFor, grow_eq_none, same, grow_eq_none]
      exact ⟨⟨missing, outside.2.2⟩, outside.2.1⟩
    rw [Reachable, ← writes_state.destinations]
    rcases reached with destination | above | looked
    · exact ⟨path, destination, .inl rfl⟩
    · obtain ⟨write, inside, made⟩ := List.mem_flatMap.mp above
      exact ⟨_, List.mem_map_of_mem inside, .inr made⟩
    · refine ⟨_, List.mem_map_of_mem listed, .inr ?_⟩
      rw [named]
      unfold inspected at looked
      split at looked
      · cases looked
      · exact looked
  case entered =>
    intro path directory here
    have between := enterable_grow.mp
      (.inr ⟨directory, written.grown_of_directory kinds here⟩)
    rw [same] at between
    exact enterable_grow.mp between
  case kept =>
    intro path directory here
    have between : middle path = some (.directory ⟨directory.owned, directory.restricted ||
        decide (path ∈ ([] : List String))⟩) := by
      rw [same]
      exact grow_of_directory true _ [] here
    refine ⟨_, written.directory_of_grown kinds (grow_of_directory _ _ _ between), rfl, ?_⟩
    intro restricted
    simp [restricted]
  case made =>
    intro path here
    by_cases protects : path ∈ writes.flatMap TreeWrite.guarded
    · exact .inr (.inr ((guarded path).mp protects))
    rcases grow_eq_directory.mp (written.grown_of_directory kinds here) with
      ⟨found, between, shape⟩ | ⟨missing, -, shape⟩
    · have found_private : found = ⟨true, true⟩ := by
        obtain ⟨owned, restricted⟩ := found
        simpa [protects, eq_comm] using shape
      rw [same, found_private] at between
      rcases grow_eq_directory.mp between with ⟨former, known, shape⟩ | ⟨absent, inside, -⟩
      · obtain ⟨owned, restricted⟩ := former
        have former_private : owned = true ∧ restricted = true := by simpa [eq_comm] using shape
        rw [former_private.1, former_private.2] at known
        exact .inl known
      · refine .inr (.inl ⟨absent, .inr ?_⟩)
        by_contra replaces
        simp [inspected, replaces] at inside
    · rw [same] at missing
      have masked : M.restrictive = true := by
        simpa [protects] using congrArg Directory.restricted shape
      exact .inr (.inl ⟨(grow_eq_none.mp missing).1, .inl masked⟩)
  case fresh =>
    intro path directory here missing masked
    rcases grow_eq_directory.mp (written.grown_of_directory kinds here) with
      ⟨found, between, rfl⟩ | ⟨-, -, rfl⟩
    · rw [same] at between
      rcases grow_eq_directory.mp between with ⟨former, known, -⟩ | ⟨-, -, rfl⟩
      · rw [missing] at known
        cases known
      · simp
    · simp [masked]
  case opened => exact above
  case checked =>
    intro keeps directory inside
    have looked : directory ∈ inspected replace id := by simpa [inspected, keeps] using inside
    have between : middle directory = some privateDirectory := by
      rw [same]
      rcases checked directory looked with missing | found
      · exact grow_of_missing true [] missing looked
      · exact grow_private true _ [] found
    exact written.directory_of_grown kinds (grow_private _ _ _ between)
  case guarded =>
    intro directory parent
    have protects := (guarded directory).mpr parent
    obtain ⟨found, here⟩ := above directory (List.mem_of_getLast? parent)
    have private_found : found = ⟨true, true⟩ := by
      rcases grow_eq_directory.mp (written.grown_of_directory kinds here) with
        ⟨former, between, rfl⟩ | ⟨-, -, rfl⟩
      · have own : directory ∈ state.guarded := by
          rw [guards]
          exact Option.mem_toList.mpr parent
        simp [protects, (written.fits state listed).owned directory own former between]
      · simp [protects]
    rw [here, private_found]
  case readable => exact readable
  case state =>
    refine .inr ⟨due, ?_, fun path member => ?_, ?_⟩
    · have distinct := written.distinct
      rw [writes_state.destinations, ← List.concat_eq_append, List.nodup_concat] at distinct
      exact distinct.1
    · obtain ⟨write, inside, rfl, unreadable⟩ := writes_state.values path member
      obtain ⟨file, isStaged, placed⟩ := written.placed write inside (kinds write inside)
      exact ⟨file, placed, unreadable file isStaged⟩
    · obtain ⟨file, isStaged, placed⟩ := written.placed state listed (kinds state listed)
      rw [named] at placed
      exact ⟨validation, bytes, file, declared, serialized, placed, content file isStaged⟩

/-! ### Turns of the loop -/

variable {args : GenerateArgs} {sources : Std.TreeMap Id (Option String)}
  {generation next : Generation}

/-- A turn that wrote the outputs of its generator. -/
structure Wrote (M : Machine) (plan : Plan) (args : GenerateArgs)
    (sources : Std.TreeMap Id (Option String)) (generation : Generation) (id : Id)
    (generator : Generator) (next : Generation) (action : GeneratorAction) (middle : Tree)
    (responses : List Bytes) (batch : Batch) (state : TreeWrite) (mode : WriteMode) : Prop where
  chosen : generatorAction M plan generation.repository id generator args.replace =
    .ok (action, middle)
  due : action ≠ .unchanged
  answered : M.readGeneratorPrompts generator sources generation.home = .ok responses
  generated : generateBatch M.policy plan generator (M.run id responses middle) = .ok batch
  serialized : stateWrite M middle id generator = .ok state
  selected : action.mode = .ok mode
  written : writeSecretPublicPrivateBatch M.restrictive M.locked mode
    (batchWrites M middle batch state) middle = .ok next.repository
  persisted : persistGeneratorPrompts M id generator responses generation.home = .ok next.home
  reported : next.outputs = generation.outputs ++ writtenReports id generator batch action
  executed : next.executed = generation.executed ++ [(id, batch)]

/-- Everything a turn can do. -/
theorem generateOne_cases (stored : plan.generators[id]? = some generator)
    (stepped : generateOne M plan args sources generation id = .ok next) :
    (∃ reports, generatorAction M plan generation.repository id generator args.replace =
        .ok (.unchanged, next.repository) ∧
      unchangedReports plan next.repository id generator = .ok reports ∧
      next.home = generation.home ∧ next.outputs = generation.outputs ++ reports ∧
      next.executed = generation.executed) ∨
    ∃ action middle responses batch state mode,
      Wrote M plan args sources generation id generator next action middle responses batch state
        mode := by
  simp only [generateOne, stored] at stepped
  obtain ⟨⟨action, middle⟩, chosen, stepped⟩ := bind_eq_ok.mp stepped
  dsimp only at stepped
  split at stepped
  · rename_i alone
    subst alone
    obtain ⟨reports, reported, returned⟩ := bind_eq_ok.mp stepped
    cases returned
    exact .inl ⟨reports, chosen, reported, rfl, rfl, rfl⟩
  · rename_i due
    obtain ⟨responses, answered, stepped⟩ := bind_eq_ok.mp stepped
    obtain ⟨batch, generated, stepped⟩ := bind_eq_ok.mp stepped
    obtain ⟨state, serialized, stepped⟩ := bind_eq_ok.mp stepped
    obtain ⟨mode, selected, stepped⟩ := bind_eq_ok.mp stepped
    obtain ⟨repository, written, stepped⟩ := bind_eq_ok.mp stepped
    obtain ⟨home, persisted, returned⟩ := bind_eq_ok.mp stepped
    cases returned
    exact .inr ⟨action, middle, responses, batch, state, mode, chosen, due, answered,
      mapError_eq_ok.mp generated, serialized, selected, mapError_eq_ok.mp written, persisted, rfl,
      rfl⟩

theorem writesState_of_stateWrite {run : GeneratorRun} {batch : Batch} {middle : Tree}
    {state : TreeWrite} {validation : String} (declared : generator.validation = some validation)
    (sealed : Sealed M) (generated : generateBatch M.policy plan generator run = .ok batch)
    (serialized : stateWrite M middle id generator = .ok state) :
    ∃ bytes, M.stateToJcs (stateOf id generator validation) = some bytes ∧
      WritesState M id (batchWrites M middle batch state) (Policy.outputPaths plan generator)
        bytes := by
  simp only [stateWrite, declared] at serialized
  obtain ⟨bytes, encoded, returned⟩ := bind_eq_ok.mp serialized
  cases returned
  have found : M.stateToJcs (stateOf id generator validation) = some bytes := by
    unfold serializeGeneratorState at encoded
    split at encoded
    · cases encoded
    · rename_i known
      cases encoded
      exact known
  refine ⟨bytes, found, destinations_of_batchWrites generated rfl, ?_, ?_, ?_, ?_⟩
  · intro write member
    simp only [batchWrites, List.mem_append, List.mem_map, List.mem_singleton] at member
    rcases member with (⟨secret, -, rfl⟩ | ⟨shown, -, rfl⟩) | rfl
    · simp [secretChange]
    · simp [publicChange]
    · simp [stateChange]
  · have none_guarded : ∀ write ∈ batch.secrets.map (secretChange M middle) ++
        batch.publicWrites.map (publicChange M middle), write.guarded = [] := by
      intro write member
      rcases List.mem_append.mp member with secret | shown
      · obtain ⟨_, -, rfl⟩ := List.mem_map.mp secret
        rfl
      · obtain ⟨_, -, rfl⟩ := List.mem_map.mp shown
        rfl
    rw [batchWrites, List.flatMap_append, List.flatMap_eq_nil_iff.mpr none_guarded]
    simp [TreeWrite.guarded, stateChange]
  · refine ⟨_, List.mem_append_right _ (List.mem_singleton_self _), rfl, ?_, ?_⟩
    · simp [TreeWrite.guarded, stateChange]
    · rintro file staged
      cases staged
      exact ⟨rfl, rfl⟩
  · intro path member
    rw [← paths_of_generateBatch generated] at member
    rcases List.mem_append.mp member with secret | shown
    · obtain ⟨write, inside, rfl⟩ := List.mem_map.mp secret
      refine ⟨secretChange M middle write, List.mem_append_left _
        (List.mem_append_left _ (List.mem_map_of_mem inside)), rfl, fun file staged _ => ?_⟩
      simp only [secretChange] at staged
      split at staged
      · cases staged
      · rename_i ciphertext encrypted
        split at staged
        · cases staged
        · split at staged
          · cases staged
            exact sealed _ _ _ _ encrypted
          · cases staged
    · obtain ⟨write, inside, rfl⟩ := List.mem_map.mp shown
      refine ⟨publicChange M middle write, List.mem_append_left _
        (List.mem_append_right _ (List.mem_map_of_mem inside)), rfl, fun file staged owner => ?_⟩
      cases staged
      cases owner

/-- The turn of a generator with a validation value. -/
theorem turn_of_generateOne (accepted : Policy.validate M.policy plan = .ok ()) (sealed : Sealed M)
    (stored : plan.generators[id]? = some generator)
    {validation : String} (declared : generator.validation = some validation)
    (stepped : generateOne M plan args sources generation id = .ok next) :
    Turn M plan args.replace id generator generation.repository next.repository := by
  rcases generateOne_cases stored stepped with
    ⟨reports, chosen, -⟩ | ⟨action, middle, responses, batch, state, mode, wrote⟩
  · cases replaces : args.replace with
    | true => simp [generatorAction, replaces] at chosen
    | false =>
        rw [replaces] at chosen
        obtain ⟨same, there, recorded, upToDate⟩ := upToDate_of_unchanged accepted stored chosen
        obtain ⟨-, entered⟩ := inspected_of_action declared chosen
        rw [same]
        rw [same] at upToDate
        constructor
        case outputs => exact upToDate.outputs
        case files => exact fun path _ _ file => grow_eq_file
        case absent => exact fun path missing => (grow_eq_none.mp missing).1
        case appears =>
          intro path missing here
          refine ⟨_, List.mem_append_right _ (List.mem_singleton_self _), .inr ?_⟩
          by_contra outside
          exact here (grow_of_absent true [] missing outside)
        case entered =>
          exact fun path directory here => enterable_grow.mp (.inr ⟨directory, here⟩)
        case kept =>
          intro path directory here
          exact ⟨_, grow_of_directory true _ [] here, rfl, by simp⟩
        case made =>
          intro path here
          rcases grow_eq_directory.mp here with ⟨former, known, shape⟩ | ⟨missing, -, -⟩
          · obtain ⟨owned, restricted⟩ := former
            have former_private : owned = true ∧ restricted = true := by simpa [eq_comm] using shape
            rw [former_private.1, former_private.2] at known
            exact .inl known
          · exact .inr (.inl ⟨missing, .inr rfl⟩)
        case fresh =>
          intro path directory here missing _
          rcases grow_eq_directory.mp here with ⟨former, known, -⟩ | ⟨-, -, rfl⟩
          · rw [missing] at known
            cases known
          · simp
        case opened => exact fun directory inside => ⟨_, upToDate.directories directory inside⟩
        case checked => exact fun _ => upToDate.directories
        case guarded =>
          exact fun directory parent => upToDate.directories directory (List.mem_of_getLast? parent)
        case readable => exact fun _ => not_foreign_of_action declared chosen
        case state => exact .inl ⟨rfl, there, recorded, fun path file => grow_eq_file⟩
  · obtain ⟨bytes, serialized, writes_state⟩ :=
      writesState_of_stateWrite declared sealed wrote.generated wrote.serialized
    have chosen := wrote.chosen
    refine turn_of_written (inspected_of_action declared chosen) declared serialized ?_ ?_
      writes_state (written_of_batch wrote.written)
    · intro keeps there recorded
      rw [keeps] at chosen
      exact wrote.due (unchanged_of_recorded accepted stored chosen there recorded)
    · intro keeps
      rw [keeps] at chosen
      exact not_foreign_of_action declared chosen

end Turns

/-! ## Whole runs -/

theorem nodup_split {α : Type} {items front back : List α} {item : α} (distinct : items.Nodup)
    (whole : items = front ++ item :: back) :
    item ∉ front ∧ item ∉ back ∧ ∀ other ∈ front, other ∉ back := by
  subst whole
  have unique := (List.nodup_cons.mp (List.nodup_middle.mp distinct)).1
  rw [List.mem_append, not_or] at unique
  refine ⟨unique.1, unique.2, fun other inside later => ?_⟩
  exact (List.nodup_append.mp distinct).2.2 other inside other (List.mem_cons_of_mem _ later) rfl

/-- One generator reaches another through dependencies. -/
abbrev Reaches (plan : Plan) : Id → Id → Prop := Relation.ReflTransGen (DependsOn plan)

section Order

variable {E : Policy.Environment} {plan : Plan} {root : Id} {order : List Id}

theorem mem_of_generatorOrder (found : generatorOrder plan root = .ok order) :
    root ∈ plan.generators := by
  rw [Std.TreeMap.mem_iff_isSome_getElem?, Option.isSome_iff_exists]
  by_contra missing
  have absent : plan.generators[root]? = none :=
    Option.eq_none_iff_forall_ne_some.mpr fun generator here => missing ⟨generator, here⟩
  simp [generatorOrder, collectGeneratorOrder, absent] at found

theorem eq_order_of_collected {walk : Walk} (found : generatorOrder plan root = .ok order)
    (collected : ∀ depth, plan.generators.size ≤ depth →
      collectGeneratorOrder plan depth {} root = .ok walk) : order = walk.order := by
  rw [generatorOrder, collected _ (by omega)] at found
  cases found
  rfl

/-- The order of a run. -/
theorem generatorOrder_exact (accepted : Policy.validate E plan = .ok ())
    (found : generatorOrder plan root = .ok order) :
    root ∈ order ∧ order.Nodup ∧ ((· ∈ order) = Reaches plan root) ∧
      ∀ id ∈ order, ∃ generator, plan.generators[id]? = some generator := by
  have member := mem_of_generatorOrder found
  obtain ⟨walk, collected, listed, distinct, exact, -⟩ :=
    collectGeneratorOrder_exact accepted member
  cases eq_order_of_collected found collected
  refine ⟨listed, distinct, funext fun id => propext (exact id), fun id walked => ?_⟩
  have known : id ∈ plan.generators := by
    have reached := (exact id).mp walked
    clear walked
    induction reached with
    | refl => exact member
    | tail _ needed _ => exact (Policy.acceptedPlan_of_validate accepted).generatorNeeds_mem needed
  exact Option.isSome_iff_exists.mp (Std.TreeMap.mem_iff_isSome_getElem?.mp known)

end Order

section Ran

variable {M : Machine} {plan : Plan} {args : GenerateArgs} {repository home : Tree}
  {done : Generation}

/-- What a finished run went through. -/
structure Ran (M : Machine) (plan : Plan) (args : GenerateArgs) (repository home : Tree)
    (order : List Id) (prompts : PromptSources) (done : Generation) : Prop where
  clear : rejectLegacyRepositoryPromptState repository = .ok ()
  ordered : generatorOrder plan args.generator = .ok order
  authorized : order.forM (authorizeOutputs M plan) = .ok ()
  answered : validateGeneratorPromptFiles M plan order args home = .ok prompts
  folded : order.foldlM (generateOne M plan args prompts.sources)
    { repository, home := prompts.home } = .ok done

theorem runGenerate_eq_ok : runGenerate M plan args repository home = .ok done ↔
    ∃ order prompts, Ran M plan args repository home order prompts done := by
  constructor
  · intro ran
    obtain ⟨⟨⟩, clear, ran⟩ := bind_eq_ok.mp ran
    obtain ⟨order, ordered, ran⟩ := bind_eq_ok.mp ran
    obtain ⟨⟨⟩, authorized, ran⟩ := bind_eq_ok.mp ran
    obtain ⟨prompts, answered, folded⟩ := bind_eq_ok.mp ran
    exact ⟨order, prompts, clear, ordered, authorized, answered, folded⟩
  · rintro ⟨order, prompts, clear, ordered, authorized, answered, folded⟩
    exact bind_eq_ok.mpr ⟨(), clear, bind_eq_ok.mpr ⟨order, ordered,
      bind_eq_ok.mpr ⟨(), authorized, bind_eq_ok.mpr ⟨prompts, answered, folded⟩⟩⟩⟩

end Ran

end NixSeal.Generate
