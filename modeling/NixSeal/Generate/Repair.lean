import NixSeal.Generate.Idempotence

/-!
# Replacing outputs

`--replace` selects the writer that replaces files.  It replaces only files that exist, so a run
succeeds, and leaves the values of the generators behind, exactly when no output is missing and no
generator writes over what another one needs.
-/

namespace NixSeal.Generate

open Authoring Fallible

/-! ## What a turn needs and does -/

/-- A regular file with a single link is at every output path of a generator. -/
def Present (plan : Plan) (tree : Tree) (generator : Generator) : Prop :=
  ∀ path ∈ Policy.outputPaths plan generator, ∃ file, tree path = some (.file file) ∧
    file.regular = true

/-- The place of the state of a generator can be used after the turns of some others, which may
leave their states. -/
structure StateUsable (tree : Tree) (front : List Id) (id : Id) : Prop where
  entered : ∀ directory ∈ ancestors (generatorStateRelativePath id), tree.Enterable directory ∨
    ∃ other ∈ front, directory = generatorStateRelativePath other
  owned : ∀ directory, parentDirectory (generatorStateRelativePath id) = some directory →
    ∀ found, tree directory = some (.directory found) → found.owned = true
  state : tree (generatorStateRelativePath id) = none ∨
    ∃ file, tree (generatorStateRelativePath id) = some (.file file) ∧ file.ownerOnly = true

theorem StateUsable.enterable {tree : Tree} {id : Id} (usable : StateUsable tree [] id) :
    ∀ directory ∈ ancestors (generatorStateRelativePath id), tree.Enterable directory := by
  intro directory inside
  rcases usable.entered directory inside with enterable | ⟨_, impossible, -⟩
  · exact enterable
  · cases impossible

/-- The directories that the turn of a generator makes where they are missing. -/
def madeFor (plan : Plan) (id : Id) (generator : Generator) : List String :=
  (Policy.outputPaths plan generator ++ [generatorStateRelativePath id]).flatMap ancestors

/-- What a turn that replaces the outputs of a generator does to the repository. -/
structure Rewritten (M : Machine) (plan : Plan) (id : Id) (generator : Generator) (batch : Batch)
    (before after : Tree) : Prop where
  generated : ∃ responses, generateBatch M.policy plan generator (M.run id responses before) =
    .ok batch
  present : Present plan before generator
  usable : StateUsable before [] id
  count : generator.outputs.length + generator.publicOutputs.length < 10000
  unwritten : generatorStateRelativePath id ∉ Policy.outputPaths plan generator
  elsewhere : ∀ path, path ∉ Policy.outputPaths plan generator →
    path ≠ generatorStateRelativePath id → after path = before.grow M.restrictive
      (madeFor plan id generator) (parentDirectory (generatorStateRelativePath id)).toList path
  secrets : ∀ write ∈ batch.secrets, ∃ file,
    after write.relativeDestination = some (.file file) ∧
      M.decrypt file.bytes = some write.plaintext
  publicOutputs : ∀ write ∈ batch.publicWrites, ∃ file,
    after write.relativeDestination = some (.file file) ∧ file.ownerOnly = false ∧
      file.bytes = write.plaintext
  removed : generator.validation = none → after.Cleared (generatorStateRelativePath id)
  state : ∀ validation, generator.validation = some validation → ∃ file,
    after (generatorStateRelativePath id) = some (.file file) ∧ file.ownerOnly = true ∧
      M.stateToJcs (stateOf id generator validation) = some file.bytes

section Turn

variable {M : Machine} {plan : Plan} {id : Id} {generator : Generator} {batch : Batch}
  {before after middle : Tree} {state : TreeWrite}

/-- The change of the state of a generator. -/
theorem stateWrite_eq_ok (serialized : stateWrite M middle id generator = .ok state) :
    state.relativeDestination = generatorStateRelativePath id ∧
      state.guarded = (parentDirectory (generatorStateRelativePath id)).toList ∧
      (∀ mode entry, validateFor state.kind mode entry = validatePrivateDestination entry) ∧
      (generator.validation = none → state.kind = .privateDelete) ∧
      ∀ validation, generator.validation = some validation → state.kind = .privateWrite ∧
        ∃ bytes, M.stateToJcs (stateOf id generator validation) = some bytes ∧
          ∀ file, state.staging = .ok file → file.ownerOnly = true ∧ file.bytes = bytes := by
  unfold stateWrite at serialized
  split at serialized
  · rename_i undeclared
    cases serialized
    refine ⟨rfl, by simp [TreeWrite.guarded, stateRemoval], fun _ _ => rfl, fun _ => rfl, ?_⟩
    simp [undeclared]
  · rename_i validation declared
    obtain ⟨bytes, encoded, returned⟩ := bind_eq_ok.mp serialized
    cases returned
    refine ⟨rfl, by simp [TreeWrite.guarded, stateChange], fun _ _ => rfl, by simp [declared], ?_⟩
    intro given same
    cases declared.symm.trans same
    have found : M.stateToJcs (stateOf id generator validation) = some bytes := by
      unfold serializeGeneratorState at encoded
      split at encoded
      · cases encoded
      · rename_i known
        cases encoded
        exact known
    refine ⟨rfl, bytes, found, ?_⟩
    rintro file staged
    cases staged
    exact ⟨rfl, rfl⟩

theorem guarded_of_batchWrites (serialized : stateWrite M middle id generator = .ok state) :
    (batchWrites M middle batch state).flatMap TreeWrite.guarded =
      (parentDirectory (generatorStateRelativePath id)).toList := by
  have none_guarded : ∀ write ∈ batch.secrets.map (secretChange M middle) ++
      batch.publicWrites.map (publicChange M middle), write.guarded = [] := by
    intro write member
    rcases List.mem_append.mp member with secret | shown
    · obtain ⟨_, -, rfl⟩ := List.mem_map.mp secret
      rfl
    · obtain ⟨_, -, rfl⟩ := List.mem_map.mp shown
      rfl
  rw [batchWrites, List.flatMap_append, List.flatMap_eq_nil_iff.mpr none_guarded,
    List.flatMap_singleton, (stateWrite_eq_ok serialized).2.1, List.nil_append]

theorem made_of_batchWrites {run : GeneratorRun}
    (generated : generateBatch M.policy plan generator run = .ok batch)
    (serialized : stateWrite M middle id generator = .ok state) :
    (batchWrites M middle batch state).flatMap TreeWrite.made = madeFor plan id generator := by
  rw [madeFor, ← destinations_of_batchWrites generated (stateWrite_eq_ok serialized).1,
    List.flatMap_map]
  rfl

theorem length_outputPaths (accepted : Policy.validate M.policy plan = .ok ())
    (stored : plan.generators[id]? = some generator) :
    (Policy.outputPaths plan generator).length =
      generator.outputs.length + generator.publicOutputs.length := by
  have known := ((Policy.acceptedPlan_of_validate accepted).generator stored).outputs
  have mapped : generator.outputs.filterMap (fun output => plan.secrets[output]?.map Secret.source) =
      generator.outputs.map fun output => (plan.secrets[output]?.map Secret.source).getD "" := by
    rw [← List.filterMap_eq_map]
    refine List.filterMap_congr fun output member => ?_
    obtain ⟨secret, found⟩ :=
      Option.isSome_iff_exists.mp (Std.TreeMap.mem_iff_isSome_getElem?.mp (known output member))
    simp [found]
  rw [Policy.outputPaths, mapped, List.length_append, List.length_map, List.length_map]

/-- Only a batch that replaces regular files is written. -/
theorem rewritten_of_written (accepted : Policy.validate M.policy plan = .ok ())
    (stored : plan.generators[id]? = some generator) {responses : List Bytes}
    (generated : generateBatch M.policy plan generator (M.run id responses before) = .ok batch)
    (serialized : stateWrite M middle id generator = .ok state)
    (written : Written M.restrictive .replace (batchWrites M middle batch state) before after) :
    Rewritten M plan id generator batch before after := by
  obtain ⟨named, guards, private_, removal, content⟩ := stateWrite_eq_ok serialized
  have destinations : (batchWrites M middle batch state).map TreeWrite.relativeDestination =
      Policy.outputPaths plan generator ++ [generatorStateRelativePath id] :=
    destinations_of_batchWrites generated named
  have listed : state ∈ batchWrites M middle batch state :=
    List.mem_append_right _ (List.mem_singleton_self _)
  have secret_listed : ∀ write ∈ batch.secrets,
      secretChange M middle write ∈ batchWrites M middle batch state := fun write member =>
    List.mem_append_left _ (List.mem_append_left _ (List.mem_map_of_mem member))
  have public_listed : ∀ write ∈ batch.publicWrites,
      publicChange M middle write ∈ batchWrites M middle batch state := fun write member =>
    List.mem_append_left _ (List.mem_append_right _ (List.mem_map_of_mem member))
  have replaced : ∀ write ∈ batchWrites M middle batch state,
      write.kind = .secret ∨ write.kind = .publicOutput → ∃ file,
        before write.relativeDestination = some (.file file) ∧ file.regular = true := by
    intro write member kind
    obtain ⟨previous, valid⟩ := (written.fits write member).valid
    have there : (before.disk.entries write.relativeDestination).isSome = true := by
      rcases kind with kind | kind <;> rw [kind] at valid <;>
        exact (validateDestination_eq_ok valid).2.mpr rfl
    rcases node_of_validateFor valid with missing | ⟨file, here⟩
    · simp [Tree.disk, missing] at there
    · exact ⟨file, here⟩
  constructor
  case generated => exact ⟨responses, generated⟩
  case present =>
    intro path member
    rw [← paths_of_generateBatch generated] at member
    rcases List.mem_append.mp member with secret | shown
    · obtain ⟨write, inside, rfl⟩ := List.mem_map.mp secret
      exact replaced _ (secret_listed write inside) (.inl rfl)
    · obtain ⟨write, inside, rfl⟩ := List.mem_map.mp shown
      exact replaced _ (public_listed write inside) (.inr rfl)
  case usable =>
    have fits := written.fits state listed
    refine ⟨fun directory inside => .inl (fits.enterable directory (by rwa [TreeWrite.made, named])),
      fun directory parent found here => fits.owned directory
        (by rw [guards]; exact Option.mem_toList.mpr parent) found here, ?_⟩
    obtain ⟨previous, valid⟩ := fits.valid
    rw [named] at valid
    rcases node_of_validateFor valid with missing | ⟨file, here, -⟩
    · exact .inl missing
    · refine .inr ⟨file, here, ?_⟩
      rw [private_] at valid
      simp only [validatePrivateDestination, Tree.disk, here, Option.map_some, Node.asFile] at valid
      split at valid
      · rename_i owner
        exact owner
      · cases valid
  case count =>
    have bound := written.count
    have length := congrArg List.length destinations
    rw [List.length_map, List.length_append, List.length_singleton,
      length_outputPaths accepted stored] at length
    omega
  case unwritten =>
    have distinct := written.distinct
    rw [destinations, ← List.concat_eq_append, List.nodup_concat] at distinct
    exact distinct.1
  case removed =>
    intro undeclared
    rw [← named]
    exact written.removed state listed (removal undeclared)
  case elsewhere =>
    intro path unwritten other
    rw [written.others path, Tree.growFor, guarded_of_batchWrites serialized,
      made_of_batchWrites generated serialized]
    rw [destinations, List.mem_append, List.mem_singleton]
    exact fun member => member.elim unwritten other
  case secrets =>
    intro write member
    obtain ⟨file, staged, placed⟩ := written.placed _ (secret_listed write member)
      (by simp [secretChange])
    refine ⟨file, placed, ?_⟩
    simp only [secretChange] at staged
    split at staged
    · cases staged
    · split at staged
      · cases staged
      · rename_i verified decrypted
        split at staged
        · rename_i same
          cases staged
          rw [decrypted, same]
        · cases staged
  case publicOutputs =>
    intro write member
    obtain ⟨file, staged, placed⟩ := written.placed _ (public_listed write member)
      (by simp [publicChange])
    cases staged
    exact ⟨_, placed, rfl, rfl⟩
  case state =>
    intro validation declared
    obtain ⟨kind, bytes, encoded, stages⟩ := content validation declared
    obtain ⟨file, staged, placed⟩ := written.placed state listed (by simp [kind])
    obtain ⟨owner, same⟩ := stages file staged
    rw [named] at placed
    exact ⟨file, placed, owner, same ▸ encoded⟩

/-! ### What stays -/

namespace Rewritten

theorem placed (turn : Rewritten M plan id generator batch before after) {path : String}
    (member : path ∈ Policy.outputPaths plan generator) :
    ∃ file, after path = some (.file file) := by
  obtain ⟨_, generated⟩ := turn.generated
  rw [← paths_of_generateBatch generated] at member
  rcases List.mem_append.mp member with secret | shown
  · obtain ⟨write, inside, rfl⟩ := List.mem_map.mp secret
    obtain ⟨file, here, -⟩ := turn.secrets write inside
    exact ⟨file, here⟩
  · obtain ⟨write, inside, rfl⟩ := List.mem_map.mp shown
    obtain ⟨file, here, -⟩ := turn.publicOutputs write inside
    exact ⟨file, here⟩

theorem file_iff (turn : Rewritten M plan id generator batch before after) {path : String}
    (unwritten : path ∉ Policy.outputPaths plan generator)
    (other : path ≠ generatorStateRelativePath id) {file : File} :
    after path = some (.file file) ↔ before path = some (.file file) := by
  rw [turn.elsewhere path unwritten other, grow_eq_file]

theorem directory (turn : Rewritten M plan id generator batch before after) {path : String}
    {directory : Directory} (here : before path = some (.directory directory)) :
    ∃ found, after path = some (.directory found) ∧ found.owned = directory.owned := by
  have unwritten : path ∉ Policy.outputPaths plan generator := by
    intro member
    obtain ⟨file, there, -⟩ := turn.present path member
    cases here.symm.trans there
  have other : path ≠ generatorStateRelativePath id := by
    rintro rfl
    rcases turn.usable.state with missing | ⟨file, there, -⟩
    · cases here.symm.trans missing
    · cases here.symm.trans there
  exact ⟨_, (turn.elsewhere path unwritten other).trans (grow_of_directory _ _ _ here), rfl⟩

theorem entered (turn : Rewritten M plan id generator batch before after) {path : String}
    (other : path ≠ generatorStateRelativePath id) {directory : Directory}
    (here : after path = some (.directory directory)) :
    (∃ found, before path = some (.directory found) ∧ directory.owned = found.owned) ∨
      (before path = none ∧ directory.owned = true) := by
  have unwritten : path ∉ Policy.outputPaths plan generator := by
    intro member
    obtain ⟨file, there⟩ := turn.placed member
    cases here.symm.trans there
  rw [turn.elsewhere path unwritten other] at here
  rcases grow_eq_directory.mp here with ⟨found, known, rfl⟩ | ⟨missing, -, rfl⟩
  · exact .inl ⟨found, known, rfl⟩
  · exact .inr ⟨missing, rfl⟩

theorem absent (turn : Rewritten M plan id generator batch before after) {path : String}
    (other : path ≠ generatorStateRelativePath id) (missing : after path = none) :
    before path = none := by
  have unwritten : path ∉ Policy.outputPaths plan generator := by
    intro member
    obtain ⟨file, there⟩ := turn.placed member
    cases missing.symm.trans there
  rw [turn.elsewhere path unwritten other, grow_eq_none] at missing
  exact missing.1

theorem stays_absent (turn : Rewritten M plan id generator batch before after) {path : String}
    (unwritten : path ∉ Policy.outputPaths plan generator)
    (other : path ≠ generatorStateRelativePath id) (outside : path ∉ madeFor plan id generator)
    (missing : before path = none) : after path = none := by
  rw [turn.elsewhere path unwritten other, grow_eq_none]
  exact ⟨missing, outside⟩

theorem enterable (turn : Rewritten M plan id generator batch before after) {path : String}
    (other : path ≠ generatorStateRelativePath id) (last : after.Enterable path) :
    before.Enterable path := by
  rcases last with missing | ⟨found, here⟩
  · exact .inl (turn.absent other missing)
  · rcases turn.entered other here with ⟨former, known, -⟩ | ⟨missing, -⟩
    · exact .inr ⟨former, known⟩
    · exact .inl missing

theorem stays_enterable (turn : Rewritten M plan id generator batch before after) {path : String}
    (other : path ≠ generatorStateRelativePath id) (first : before.Enterable path) :
    after.Enterable path := by
  have unwritten : path ∉ Policy.outputPaths plan generator := by
    intro member
    obtain ⟨file, here, -⟩ := turn.present path member
    exact first.no_file file here
  rw [Tree.Enterable, turn.elsewhere path unwritten other]
  exact enterable_grow.mpr first

/-- A file stays one, unless it is the state. -/
theorem file_stays (turn : Rewritten M plan id generator batch before after) {path : String}
    (other : path ≠ generatorStateRelativePath id) {file : File}
    (here : before path = some (.file file)) : ∃ file, after path = some (.file file) := by
  by_cases member : path ∈ Policy.outputPaths plan generator
  · exact turn.placed member
  · exact ⟨file, (turn.file_iff member other).mpr here⟩

/-- A usable place stays usable when a state above it is removed. -/
theorem usable_after (turn : Rewritten M plan id generator batch before after) {front : List Id}
    {other : Id} (unwritten : generatorStateRelativePath other ∉ Policy.outputPaths plan generator)
    (different : generatorStateRelativePath other ≠ generatorStateRelativePath id)
    (above : generatorStateRelativePath other ∉ ancestors (generatorStateRelativePath id))
    (below : generatorStateRelativePath id ∈ ancestors (generatorStateRelativePath other) →
      generator.validation = none)
    (rooted : ∀ path ∈ Policy.outputPaths plan generator, ∀ directory ∈ ancestors path,
      ∃ found, before directory = some (.directory found))
    (usable : StateUsable before (id :: front) other) : StateUsable after front other where
  entered := by
    intro directory inside
    by_cases state : directory = generatorStateRelativePath id
    · rw [state] at inside ⊢
      exact .inl (turn.removed (below inside)).enterable
    · rcases usable.entered directory inside with enterable | ⟨earlier, listed, same⟩
      · exact .inl (turn.stays_enterable state enterable)
      · rcases List.mem_cons.mp listed with rfl | member
        · exact absurd same state
        · exact .inr ⟨earlier, member, same⟩
  owned := by
    intro directory parent found here
    have inside := List.mem_of_getLast? parent
    by_cases state : directory = generatorStateRelativePath id
    · rw [state] at inside here
      obtain ⟨_, same, owned⟩ := turn.removed (below inside) _ here
      cases same
      exact owned
    · rcases turn.entered state here with ⟨former, known, same⟩ | ⟨-, owned⟩
      · rw [same]
        exact usable.owned directory parent former known
      · exact owned
  state := by
    rcases usable.state with missing | ⟨file, here, owner⟩
    · refine .inl (turn.stays_absent unwritten different ?_ missing)
      intro made
      obtain ⟨destination, member, inside⟩ := List.mem_flatMap.mp made
      rcases List.mem_append.mp member with output | state
      · obtain ⟨found, there⟩ := rooted destination output _ inside
        cases missing.symm.trans there
      · rw [List.mem_singleton.mp state] at inside
        exact above inside
    · exact .inr ⟨file, (turn.file_iff unwritten different).mpr here, owner⟩

end Rewritten

/-! ### When a batch is written -/

/-- What the values of a generator must satisfy to be written. -/
structure Writable (M : Machine) (batch : Batch) : Prop where
  secrets : ∀ write ∈ batch.secrets, write.recipients.any M.identityMatchesRecipient = true ∧
    ∃ ciphertext, M.encrypt write.relativeDestination write.recipients write.plaintext =
      some ciphertext ∧ M.decrypt ciphertext = some write.plaintext
  publicOutputs : ∀ write ∈ batch.publicWrites, write.plaintext.length ≤ maxMetadataBytes

/-- Every state can be serialized. -/
def Serializes (M : Machine) (id : Id) (generator : Generator) : Prop :=
  ∀ validation, generator.validation = some validation → ∃ bytes,
    M.stateToJcs (stateOf id generator validation) = some bytes ∧ bytes.length ≤ maxMetadataBytes

theorem exists_stateWrite (serializes : Serializes M id generator) :
    ∃ state, stateWrite M middle id generator = .ok state ∧ state.admission = .ok () ∧
      ∃ staged, state.staged = .ok staged := by
  unfold stateWrite
  cases declared : generator.validation with
  | none => exact ⟨_, rfl, rfl, none, rfl⟩
  | some validation =>
      obtain ⟨bytes, encoded, short⟩ := serializes validation declared
      refine ⟨stateChange M middle id bytes, ?_, ?_, _, rfl⟩
      · refine bind_eq_ok.mpr ⟨bytes, ?_, rfl⟩
        simp [serializeGeneratorState, encoded]
      · exact if_neg (by omega)

/-- Outputs that are there, at a usable place for the state, can be replaced. -/
theorem exists_replaced (accepted : Policy.validate M.policy plan = .ok ())
    (stored : plan.generators[id]? = some generator) (free : M.locked = .ok ())
    (apart : generatorStateRelativePath id ∉ Policy.outputPaths plan generator)
    (count : generator.outputs.length + generator.publicOutputs.length < 10000)
    (present : Present plan before generator) (rooted : ∀ path ∈ Policy.outputPaths plan generator,
      ∀ directory ∈ ancestors path, ∃ found, before directory = some (.directory found))
    (usable : StateUsable before [] id) {run : GeneratorRun}
    (generated : generateBatch M.policy plan generator run = .ok batch)
    (writable : Writable M batch) (serialized : stateWrite M before id generator = .ok state)
    (admitted : state.admission = .ok ()) (staged : ∃ staged, state.staged = .ok staged) :
    ∃ after, writeSecretPublicPrivateBatch M.restrictive M.locked .replace
      (batchWrites M before batch state) before = .ok after ∧
        Written M.restrictive .replace (batchWrites M before batch state) before after := by
  obtain ⟨named, guards, private_, -, -⟩ := stateWrite_eq_ok serialized
  have destinations : (batchWrites M before batch state).map TreeWrite.relativeDestination =
      Policy.outputPaths plan generator ++ [generatorStateRelativePath id] :=
    destinations_of_batchWrites generated named
  have outputs : ∀ path ∈ Policy.outputPaths plan generator, isRelative path = true ∧
      (∀ directory ∈ ancestors path, before.Enterable directory) ∧
      ∃ previous, validateDestination .replace (before.disk.entries path) = .ok previous := by
    intro path member
    obtain ⟨file, here, regular⟩ := present path member
    refine ⟨(normal_of_valid (Policy.valid_of_mem_outputPaths accepted stored member)).isRelative,
      fun directory inside => .inr (rooted path member directory inside), some file, ?_⟩
    simp [validateDestination, Tree.disk, here, Node.asFile, regular]
  have fits : ∀ write ∈ batchWrites M before batch state, Fits .replace before write := by
    intro write member
    rcases List.mem_append.mp member with values | last
    · rcases List.mem_append.mp values with secret | shown
      · obtain ⟨value, inside, rfl⟩ := List.mem_map.mp secret
        obtain ⟨matching, ciphertext, encrypted, decrypted⟩ := writable.secrets value inside
        obtain ⟨relative, enterable, valid⟩ := outputs value.relativeDestination (by
          rw [← paths_of_generateBatch generated]
          exact List.mem_append_left _ (List.mem_map_of_mem inside))
        exact ⟨if_pos matching, relative, enterable, by simp [TreeWrite.guarded, secretChange], valid,
          by simp [TreeWrite.staged, secretChange, encrypted, decrypted, Except.map]⟩
      · obtain ⟨value, inside, rfl⟩ := List.mem_map.mp shown
        have short := writable.publicOutputs value inside
        obtain ⟨relative, enterable, valid⟩ := outputs value.relativeDestination (by
          rw [← paths_of_generateBatch generated]
          exact List.mem_append_right _ (List.mem_map_of_mem inside))
        exact ⟨if_neg (by omega), relative, enterable, by simp [TreeWrite.guarded, publicChange], valid,
          _, rfl⟩
    · cases List.mem_singleton.mp last
      refine ⟨admitted, ?_, ?_, ?_, ?_, staged⟩
      · rw [named]
        exact (normal_generatorStateRelativePath id).isRelative
      · intro directory inside
        rw [TreeWrite.made, named] at inside
        exact usable.enterable directory inside
      · intro directory inside
        rw [guards, Option.mem_toList] at inside
        exact usable.owned directory inside
      · rw [named, private_]
        rcases usable.state with missing | ⟨file, here, owner⟩
        · exact ⟨none, by simp [validatePrivateDestination, Tree.disk, missing]⟩
        · exact ⟨some file, by simp [validatePrivateDestination, Tree.disk, here, Node.asFile, owner]⟩
  refine exists_written free (by simp [batchWrites]) ?_ fits ?_ ?_
  · have length := congrArg List.length destinations
    rw [List.length_map, List.length_append, List.length_singleton,
      length_outputPaths accepted stored] at length
    omega
  · rw [destinations, ← List.concat_eq_append, List.nodup_concat]
    exact ⟨apart, Policy.nodup_outputPaths accepted stored⟩
  · intro write member missing
    have destination : write.relativeDestination ∈ Policy.outputPaths plan generator ++
        [generatorStateRelativePath id] := by
      rw [← destinations]
      exact List.mem_map_of_mem member
    rw [made_of_batchWrites generated serialized]
    intro made
    obtain ⟨path, reached, inside⟩ := List.mem_flatMap.mp made
    rcases List.mem_append.mp destination with output | last
    · obtain ⟨file, here, -⟩ := present _ output
      cases missing.symm.trans here
    · rw [List.mem_singleton.mp last] at missing inside
      rcases List.mem_append.mp reached with output | state
      · obtain ⟨found, there⟩ := rooted path output _ inside
        cases missing.symm.trans there
      · rw [List.mem_singleton.mp state, mem_ancestors] at inside
        exact absurd (List.IsPrefix.length_le inside) (by simp)

end Turn

/-! ## Runs -/

/-- No generator puts an output where one of the generators has its state. -/
def StatesApart (plan : Plan) (order : List Id) : Prop :=
  ∀ id ∈ order, ∀ generator, plan.generators[id]? = some generator →
    ∀ other ∈ order, generatorStateRelativePath other ∉ Policy.outputPaths plan generator

/-- Where the generators of a run may have their outputs, inputs and states: no output is at a
state, no input is at the state of an earlier generator, and a state is above another one only when
it is removed before the other one is placed. -/
structure PathsApart (plan : Plan) (order : List Id) : Prop where
  outputs : StatesApart plan order
  inputs : ∀ front id back, order = front ++ id :: back →
    ∀ generator, plan.generators[id]? = some generator →
    ∀ input ∈ generator.secretDependencies, ∀ secret, plan.secrets[input]? = some secret →
      ∀ other ∈ front, secret.source ≠ generatorStateRelativePath other
  states : ∀ front id back, order = front ++ id :: back → ∀ other ∈ order,
    generatorStateRelativePath other ∈ ancestors (generatorStateRelativePath id) →
      other ∈ front ∧ ∀ generator, plan.generators[other]? = some generator →
        generator.validation = none

/-- The turns of some generators that replace their outputs. -/
inductive Rewrites (M : Machine) (plan : Plan) : List (Id × Batch) → Tree → Tree → Prop where
  | nil (tree : Tree) : Rewrites M plan [] tree tree
  | cons {id : Id} {generator : Generator} {batch : Batch} {rest : List (Id × Batch)}
      {before middle after : Tree} (stored : plan.generators[id]? = some generator)
      (turn : Rewritten M plan id generator batch before middle)
      (others : Rewrites M plan rest middle after) :
      Rewrites M plan ((id, batch) :: rest) before after

section Runs

variable {M : Machine} {plan : Plan} {order : List Id} {before after : Tree}
  {batches : List (Id × Batch)}

namespace Rewrites

theorem split (rewrites : Rewrites M plan batches before after) {front back : List Id} {id : Id}
    (names : batches.map Prod.fst = front ++ id :: back) :
    ∃ early batch late generator first second, early.map Prod.fst = front ∧
      late.map Prod.fst = back ∧ (id, batch) ∈ batches ∧ plan.generators[id]? = some generator ∧
      Rewrites M plan early before first ∧ Rewritten M plan id generator batch first second ∧
      Rewrites M plan late second after := by
  induction rewrites generalizing front with
  | nil => simp at names
  | @cons head generator batch rest before middle after stored turn others ih =>
      cases front with
      | nil =>
          cases names
          exact ⟨[], batch, rest, generator, before, middle, rfl, rfl, List.mem_cons_self, stored,
            .nil _, turn, others⟩
      | cons earlier front =>
          rw [List.map_cons, List.cons_append, List.cons.injEq] at names
          obtain ⟨early, found, late, second, _, _, rfl, same, member, known, pre, here, post⟩ :=
            ih names.2
          exact ⟨(head, batch) :: early, found, late, second, _, _, by rw [List.map_cons, names.1],
            same, List.mem_cons_of_mem _ member, known, .cons stored turn pre, here, post⟩

theorem file_iff (rewrites : Rewrites M plan batches before after) {path : String}
    (unwritten : ∀ id ∈ batches.map Prod.fst, ∀ generator,
      plan.generators[id]? = some generator → path ∉ Policy.outputPaths plan generator)
    (other : ∀ id ∈ batches.map Prod.fst, path ≠ generatorStateRelativePath id) {file : File} :
    after path = some (.file file) ↔ before path = some (.file file) := by
  induction rewrites with
  | nil => rfl
  | cons stored turn _ ih =>
      rw [ih (fun id listed => unwritten id (List.mem_cons_of_mem _ listed))
        fun id listed => other id (List.mem_cons_of_mem _ listed)]
      exact turn.file_iff (unwritten _ List.mem_cons_self _ stored) (other _ List.mem_cons_self)

theorem file_stays (rewrites : Rewrites M plan batches before after) {path : String}
    (other : ∀ id ∈ batches.map Prod.fst, path ≠ generatorStateRelativePath id) {file : File}
    (here : before path = some (.file file)) : ∃ file, after path = some (.file file) := by
  induction rewrites generalizing file with
  | nil => exact ⟨file, here⟩
  | cons _ turn _ ih =>
      obtain ⟨next, there⟩ := turn.file_stays (other _ List.mem_cons_self) here
      exact ih (fun id listed => other id (List.mem_cons_of_mem _ listed)) there

theorem directory (rewrites : Rewrites M plan batches before after) {path : String}
    {directory : Directory} (here : before path = some (.directory directory)) :
    ∃ found, after path = some (.directory found) ∧ found.owned = directory.owned := by
  induction rewrites generalizing directory with
  | nil => exact ⟨directory, here, rfl⟩
  | cons _ turn _ ih =>
      obtain ⟨between, there, same⟩ := turn.directory here
      obtain ⟨found, last, owned⟩ := ih there
      exact ⟨found, last, owned.trans same⟩

theorem absent (rewrites : Rewrites M plan batches before after) {path : String}
    (other : ∀ id ∈ batches.map Prod.fst, path ≠ generatorStateRelativePath id)
    (missing : after path = none) : before path = none := by
  induction rewrites with
  | nil => exact missing
  | cons _ turn _ ih =>
      exact turn.absent (other _ List.mem_cons_self)
        (ih (fun id listed => other id (List.mem_cons_of_mem _ listed)) missing)

theorem enterable (rewrites : Rewrites M plan batches before after) {path : String}
    (other : ∀ id ∈ batches.map Prod.fst, path ≠ generatorStateRelativePath id)
    (last : after.Enterable path) : before.Enterable path := by
  induction rewrites with
  | nil => exact last
  | cons _ turn _ ih =>
      exact turn.enterable (other _ List.mem_cons_self)
        (ih (fun id listed => other id (List.mem_cons_of_mem _ listed)) last)

/-- A place that is usable when the turn of its generator comes was usable before the run. -/
theorem usable_before (rewrites : Rewrites M plan batches before after) {id : Id}
    (outside : id ∉ batches.map Prod.fst) (unwritten : ∀ other ∈ batches.map Prod.fst,
      ∀ generator, plan.generators[other]? = some generator →
        generatorStateRelativePath id ∉ Policy.outputPaths plan generator)
    (usable : StateUsable after [] id) : StateUsable before (batches.map Prod.fst) id where
  entered := by
    intro directory inside
    by_cases state : ∃ other ∈ batches.map Prod.fst, directory = generatorStateRelativePath other
    · exact .inr state
    · exact .inl (rewrites.enterable (fun other listed same => state ⟨other, listed, same⟩)
        (usable.enterable directory inside))
  owned := by
    intro directory parent found here
    obtain ⟨last, there, same⟩ := rewrites.directory here
    rw [← same]
    exact usable.owned directory parent last there
  state := by
    have different := states_differ outside
    rcases usable.state with missing | ⟨file, here, owner⟩
    · exact .inl (rewrites.absent different missing)
    · exact .inr ⟨file, (rewrites.file_iff unwritten different).mp here, owner⟩

end Rewrites

theorem outputs_differ (accepted : Policy.validate M.policy plan = .ok ()) {id : Id}
    {generator : Generator} (stored : plan.generators[id]? = some generator) {others : List Id}
    (outside : id ∉ others) {path : String} (member : path ∈ Policy.outputPaths plan generator) :
    ∀ other ∈ others, ∀ found, plan.generators[other]? = some found →
      path ∉ Policy.outputPaths plan found := by
  intro other inside found known
  have different : id ≠ other := fun same => outside (same ▸ inside)
  exact Policy.disjoint_outputPaths accepted stored known different member

/-! ### When a run succeeds -/

/-- The operator can decrypt what is at a path. -/
def Decryptable (M : Machine) (tree : Tree) (path : String) : Prop :=
  ∃ file plaintext, tree path = some (.file file) ∧ M.decrypt file.bytes = some plaintext

/-- The secrets that a generator reads can be decrypted. -/
def Inputs (M : Machine) (plan : Plan) (tree : Tree) (generator : Generator) : Prop :=
  ∀ input ∈ generator.secretDependencies, ∀ secret, plan.secrets[input]? = some secret →
    Decryptable M tree secret.source

/-- No generator of the plan produces a secret. -/
def External (plan : Plan) (input : Id) : Prop :=
  ∀ (producerId : Id) (producer : Generator), plan.generators[producerId]? = some producer →
    input ∉ producer.outputs

/-- The responses to the prompts of some generators are read and remembered. -/
inductive Supplied (M : Machine) (plan : Plan) (sources : Std.TreeMap Id (Option String)) :
    List Id → Tree → Prop where
  | nil (home : Tree) : Supplied M plan sources [] home
  | cons {id : Id} {generator : Generator} {rest : List Id} {home next : Tree}
      {responses : List Bytes} (stored : plan.generators[id]? = some generator)
      (answered : M.readGeneratorPrompts generator sources home = .ok responses)
      (persisted : persistGeneratorPrompts M id generator responses home = .ok next)
      (others : Supplied M plan sources rest next) : Supplied M plan sources (id :: rest) home

/-- What a run meets besides the outputs: an authorized operator, supplied prompts, generators that
produce what they declare from inputs that can be read, and do not run without them, and nothing
that fails. -/
structure Attended (M : Machine) (plan : Plan) (args : GenerateArgs) (order : List Id)
    (repository home : Tree) : Prop where
  free : M.locked = .ok ()
  authorized : order.forM (authorizeOutputs M plan) = .ok ()
  prompts : ∃ prompts, validateGeneratorPromptFiles M plan order args home = .ok prompts ∧
    Supplied M plan prompts.sources order prompts.home
  produces : ∀ id ∈ order, ∀ generator, plan.generators[id]? = some generator →
    ∀ responses tree, Inputs M plan tree generator → ∃ batch,
      generateBatch M.policy plan generator (M.run id responses tree) = .ok batch ∧
      (∀ write ∈ batch.secrets, write.recipients.any M.identityMatchesRecipient = true →
        ∃ ciphertext, M.encrypt write.relativeDestination write.recipients write.plaintext =
          some ciphertext ∧ M.decrypt ciphertext = some write.plaintext) ∧
      ∀ write ∈ batch.publicWrites, write.plaintext.length ≤ maxMetadataBytes
  reads : ∀ id ∈ order, ∀ generator, plan.generators[id]? = some generator →
    ∀ responses tree batch,
      generateBatch M.policy plan generator (M.run id responses tree) = .ok batch →
        Inputs M plan tree generator
  serializes : ∀ id ∈ order, ∀ generator, plan.generators[id]? = some generator →
    Serializes M id generator
  inputs : ∀ id ∈ order, ∀ generator, plan.generators[id]? = some generator →
    ∀ input ∈ generator.secretDependencies, External plan input → ∀ secret,
      plan.secrets[input]? = some secret → Decryptable M repository secret.source

theorem recipients_of_authorized {id : Id} {generator : Generator} {batch : Batch}
    {run : GeneratorRun} (stored : plan.generators[id]? = some generator)
    (authorized : authorizeOutputs M plan id = .ok ())
    (generated : generateBatch M.policy plan generator run = .ok batch) :
    ∀ write ∈ batch.secrets, write.recipients.any M.identityMatchesRecipient = true := by
  simp only [authorizeOutputs, stored] at authorized
  have allowed := forM_eq_ok.mp authorized
  obtain ⟨values, -, generated⟩ := bind_eq_ok.mp generated
  rw [guard_eq_ok] at generated
  obtain ⟨-, generated⟩ := generated
  obtain ⟨secrets, written, returned⟩ := bind_eq_ok.mp generated
  cases returned
  have pairs := mapM_eq_ok.mp written
  have each : ∀ write ∈ secrets, ∃ output ∈ generator.outputs.zip values.secrets,
      secretWrite M.policy plan output = .ok write := by
    intro write member
    obtain ⟨index, bound, rfl⟩ := List.mem_iff_getElem.mp member
    have first : index < (generator.outputs.zip values.secrets).length := by
      rw [pairs.length_eq]
      exact bound
    exact ⟨_, List.getElem_mem first, (List.forall₂_iff_get.mp pairs).2 index first bound⟩
  intro write member
  obtain ⟨output, listed, computed⟩ := each write member
  have permitted := allowed output.1 (List.of_mem_zip listed).1
  unfold secretWrite at computed
  split at computed
  · cases computed
  · split at computed
    · cases computed
    · rename_i recipients found
      cases computed
      simp only [ensureCanonicalAuthoringIdentityAuthorized, found, guard_eq_ok, Bool.not_eq_true',
        Bool.not_eq_false, and_true, List.any_eq_true, Bool.and_eq_true] at permitted
      obtain ⟨recipient, inside, -, matching⟩ := permitted
      refine List.any_eq_true.mpr ⟨recipient.2, ?_, matching⟩
      rw [Ordered.values_eq_map_toList]
      exact List.mem_map_of_mem inside

/-- How far a run has come. -/
structure Progress (M : Machine) (plan : Plan) (finished rest : List Id) (tree : Tree) : Prop where
  present : ∀ id ∈ rest, ∀ generator, plan.generators[id]? = some generator →
    Present plan tree generator
  rooted : ∀ id ∈ rest, ∀ generator, plan.generators[id]? = some generator →
    ∀ path ∈ Policy.outputPaths plan generator, ∀ directory ∈ ancestors path,
      ∃ found, tree directory = some (.directory found)
  usable : ∀ front id back, rest = front ++ id :: back → StateUsable tree front id
  produced : ∀ id ∈ finished, ∀ generator, plan.generators[id]? = some generator →
    ∀ output ∈ generator.outputs, ∀ secret, plan.secrets[output]? = some secret →
      Decryptable M tree secret.source
  inputs : ∀ id ∈ rest, ∀ generator, plan.generators[id]? = some generator →
    ∀ input ∈ generator.secretDependencies, External plan input → ∀ secret,
      plan.secrets[input]? = some secret → Decryptable M tree secret.source

theorem Decryptable.turn {id : Id} {generator : Generator} {batch : Batch} {path : String}
    (decryptable : Decryptable M before path)
    (turn : Rewritten M plan id generator batch before after)
    (unwritten : path ∉ Policy.outputPaths plan generator)
    (other : path ≠ generatorStateRelativePath id) : Decryptable M after path := by
  obtain ⟨file, plaintext, here, decrypted⟩ := decryptable
  exact ⟨file, plaintext, (turn.file_iff unwritten other).mpr here, decrypted⟩

theorem source_mem_outputPaths {generator : Generator} {output : Id} {secret : Secret}
    (member : output ∈ generator.outputs) (known : plan.secrets[output]? = some secret) :
    secret.source ∈ generator.outputs.filterMap fun output =>
      plan.secrets[output]?.map Secret.source :=
  List.mem_filterMap.mpr ⟨output, member, by rw [known]; rfl⟩

/-- What no generator produces is written by none. -/
theorem source_unwritten (accepted : Policy.validate M.policy plan = .ok ()) {input id : Id}
    {secret : Secret} {generator : Generator} (external : External plan input)
    (known : plan.secrets[input]? = some secret) (stored : plan.generators[id]? = some generator) :
    secret.source ∉ Policy.outputPaths plan generator := by
  intro member
  rcases List.mem_append.mp member with produced | shown
  · obtain ⟨output, inside, found⟩ := List.mem_filterMap.mp produced
    obtain ⟨second, also, same⟩ := Option.map_eq_some_iff.mp found
    cases Policy.eq_of_source accepted known also same.symm
    exact external id generator stored inside
  · obtain ⟨output, inside, same⟩ := List.mem_map.mp shown
    exact Policy.source_ne_destination accepted stored known inside same.symm

/-- One turn carries a run on. -/
theorem Progress.next (accepted : Policy.validate M.policy plan = .ok ())
    (apart : PathsApart plan order) {finished rest : List Id} {id : Id} {generator : Generator}
    {batch : Batch} (whole : order = finished ++ id :: rest) (distinct : order.Nodup)
    (stored : plan.generators[id]? = some generator)
    (progress : Progress M plan finished (id :: rest) before)
    (turn : Rewritten M plan id generator batch before after) :
    Progress M plan (finished ++ [id]) rest after := by
  have listed : id ∈ order := by simp [whole]
  have unique := nodup_split distinct whole
  have later : ∀ other ∈ rest, other ∈ order ∧ other ≠ id := fun other member =>
    ⟨by simp [whole, member], fun same => unique.2.1 (same ▸ member)⟩
  have here := progress.rooted id List.mem_cons_self generator stored
  constructor
  case present =>
    intro other member second known path output
    obtain ⟨walked, different⟩ := later other member
    obtain ⟨file, found, regular⟩ :=
      progress.present other (List.mem_cons_of_mem _ member) second known path output
    refine ⟨file, (turn.file_iff ?_ ?_).mpr found, regular⟩
    · exact Policy.disjoint_outputPaths accepted known stored different output
    · rintro rfl
      exact apart.outputs other walked second known id listed output
  case rooted =>
    intro other member second known path output directory inside
    obtain ⟨found, between⟩ := progress.rooted other (List.mem_cons_of_mem _ member) second known
      path output directory inside
    obtain ⟨found, last, -⟩ := turn.directory between
    exact ⟨found, last⟩
  case usable =>
    rintro front other back rfl
    obtain ⟨walked, different⟩ := later other (by simp)
    refine turn.usable_after (apart.outputs id listed generator stored other walked)
      (fun same => different (generatorStateRelativePath_injective same)) ?_ ?_ here
      (progress.usable (id :: front) other back rfl)
    · intro above
      have earlier := (apart.states finished id _ whole other walked above).1
      exact unique.2.2 other earlier (by simp)
    · intro below
      exact (apart.states (finished ++ id :: front) other back (by simp [whole]) id listed
        below).2 generator stored
  case produced =>
    intro other member second known output inside secret found
    have written := source_mem_outputPaths inside found
    rcases List.mem_append.mp member with early | last
    · have walked : other ∈ order := by simp [whole, early]
      have different : other ≠ id := fun same => unique.1 (same ▸ early)
      have output_path : secret.source ∈ Policy.outputPaths plan second :=
        List.mem_append_left _ written
      refine (progress.produced other early second known output inside secret found).turn turn
        (Policy.disjoint_outputPaths accepted known stored different output_path) ?_
      intro same
      exact apart.outputs other walked second known id listed (same ▸ output_path)
    · cases List.mem_singleton.mp last
      cases stored.symm.trans known
      obtain ⟨_, generated⟩ := turn.generated
      rw [← sources_of_generateBatch generated] at written
      obtain ⟨write, placed, same⟩ := List.mem_map.mp written
      obtain ⟨file, there, decrypted⟩ := turn.secrets write placed
      exact ⟨file, _, same ▸ there, decrypted⟩
  case inputs =>
    intro other member second known input inside external secret found
    obtain ⟨front, back, rfl⟩ := List.append_of_mem member
    refine (progress.inputs other (by simp) second known input inside external secret found).turn
      turn (source_unwritten accepted external found stored) ?_
    exact apart.inputs (finished ++ id :: front) other back (by simp [whole]) second known input
      inside secret found id (by simp)

theorem exists_foldlM {args : GenerateArgs} {repository home : Tree}
    {sources : Std.TreeMap Id (Option String)}
    (accepted : Policy.validate M.policy plan = .ok ()) (replaces : args.replace = true)
    (apart : PathsApart plan order) (distinct : order.Nodup)
    (producers : ∀ front node back, order = front ++ node :: back →
      ∀ (generator : Generator), plan.generators[node]? = some generator →
      ∀ secretId ∈ generator.secretDependencies, ∀ (producerId : Id) (producer : Generator),
        plan.generators[producerId]? = some producer → secretId ∈ producer.outputs →
          producerId ∈ front)
    (attended : Attended M plan args order repository home)
    (counts : ∀ id ∈ order, ∀ generator, plan.generators[id]? = some generator →
      generator.outputs.length + generator.publicOutputs.length < 10000)
    {finished rest : List Id} (whole : order = finished ++ rest) {generation : Generation}
    (supplied : Supplied M plan sources rest generation.home)
    (progress : Progress M plan finished rest generation.repository) :
    ∃ done, rest.foldlM (generateOne M plan args sources) generation = .ok done := by
  induction rest generalizing finished generation with
  | nil => exact ⟨generation, rfl⟩
  | cons id rest ih =>
      cases supplied with
      | @cons _ generator _ _ home responses stored answered persisted others =>
          have listed : id ∈ order := by simp [whole]
          have inputs : Inputs M plan generation.repository generator := by
            intro input inside secret known
            by_cases external : External plan input
            · exact progress.inputs id List.mem_cons_self generator stored input inside external
                secret known
            · simp only [External, not_forall, not_not] at external
              obtain ⟨producerId, producer, producing, output⟩ := external
              have front := producers finished id rest whole generator stored input inside
                producerId producer producing output
              exact progress.produced producerId front producer producing input output secret known
          obtain ⟨batch, generated, encrypts, short⟩ :=
            attended.produces id listed generator stored responses generation.repository inputs
          have writable : Writable M batch := by
            refine ⟨fun write member => ?_, short⟩
            have matching := recipients_of_authorized stored
              (forM_eq_ok.mp attended.authorized id listed) generated write member
            exact ⟨matching, encrypts write member matching⟩
          obtain ⟨state, serialized, admitted, staged⟩ :=
            @exists_stateWrite M id generator generation.repository
              (attended.serializes id listed generator stored)
          obtain ⟨after, wrote, written⟩ := exists_replaced accepted stored attended.free
            (apart.outputs id listed generator stored id listed) (counts id listed generator stored)
            (progress.present id List.mem_cons_self generator stored)
            (progress.rooted id List.mem_cons_self generator stored)
            (progress.usable [] id rest rfl) generated writable serialized admitted staged
          have turn := rewritten_of_written accepted stored generated serialized written
          let next : Generation :=
            { repository := after
              home
              outputs := generation.outputs ++ writtenReports id generator batch .replace
              executed := generation.executed ++ [(id, batch)] }
          have stepped : generateOne M plan args sources generation id = .ok next := by
            simp only [generateOne, stored, generatorAction, replaces, if_true, ok_bind,
              reduceCtorEq, if_false, writeOutputs, answered, generated, serialized, wrote,
              persisted, GeneratorAction.mode, Except.mapError, next]
          obtain ⟨done, folded⟩ := @ih (finished ++ [id]) (by simp [whole]) next others
            (progress.next accepted apart whole distinct stored turn)
          exact ⟨done, by rw [List.foldlM_cons, stepped, ok_bind]; exact folded⟩

/-! ### Repairs -/

/-- Every declared output and every state of a run is there, with what the generators gave. -/
structure Repaired (M : Machine) (plan : Plan) (order : List Id) (done : Generation) : Prop where
  outputs : ∀ id ∈ order, ∀ generator, plan.generators[id]? = some generator → ∃ batch,
    (id, batch) ∈ done.executed ∧
      (∃ responses tree, generateBatch M.policy plan generator (M.run id responses tree) =
        .ok batch) ∧
      batch.secrets.map BatchSecretWrite.relativeDestination ++
        batch.publicWrites.map BatchPublicWrite.relativeDestination =
          Policy.outputPaths plan generator ∧
      (∀ write ∈ batch.secrets, ∃ file,
        done.repository write.relativeDestination = some (.file file) ∧
          M.decrypt file.bytes = some write.plaintext) ∧
      ∀ write ∈ batch.publicWrites, ∃ file,
        done.repository write.relativeDestination = some (.file file) ∧
          file.bytes = write.plaintext
  states : ∀ id ∈ order, ∀ generator, plan.generators[id]? = some generator →
    ∀ validation, generator.validation = some validation → ∃ file,
      done.repository (generatorStateRelativePath id) = some (.file file) ∧ file.ownerOnly = true ∧
        M.stateToJcs (stateOf id generator validation) = some file.bytes

/-- What must hold before a run with `--replace` so that it writes everything. -/
structure Repairable (plan : Plan) (order : List Id) (repository : Tree) : Prop where
  legacy : rejectLegacyRepositoryPromptState repository = .ok ()
  apart : PathsApart plan order
  present : ∀ id ∈ order, ∀ generator, plan.generators[id]? = some generator →
    Present plan repository generator
  usable : ∀ front id back, order = front ++ id :: back → StateUsable repository front id
  counts : ∀ id ∈ order, ∀ generator, plan.generators[id]? = some generator →
    generator.outputs.length + generator.publicOutputs.length < 10000

/-- `serde_jcs::to_vec` gives no ciphertext: JSON is no age file. -/
def Plain (M : Machine) : Prop :=
  ∀ state bytes, M.stateToJcs state = some bytes → M.decrypt bytes = none

section Necessary

variable {done : Generation}

theorem Repaired.no_state_at_secret (repaired : Repaired M plan order done) (plain : Plain M)
    {id : Id} {generator : Generator} (listed : id ∈ order)
    (stored : plan.generators[id]? = some generator) {path : String}
    (member : path ∈ generator.outputs.filterMap fun output =>
      plan.secrets[output]?.map Secret.source) {file : File}
    (here : done.repository path = some (.file file)) (state : GeneratorStateV1) :
    M.stateToJcs state ≠ some file.bytes := by
  intro encoded
  obtain ⟨batch, -, ⟨_, _, generated⟩, -, secrets, -⟩ := repaired.outputs id listed generator stored
  rw [← sources_of_generateBatch generated] at member
  obtain ⟨write, inside, rfl⟩ := List.mem_map.mp member
  obtain ⟨_, there, decrypted⟩ := secrets write inside
  cases here.symm.trans there
  rw [plain _ _ encoded] at decrypted
  cases decrypted

theorem Repaired.output_there (repaired : Repaired M plan order done) {id : Id}
    {generator : Generator} (listed : id ∈ order)
    (stored : plan.generators[id]? = some generator) {path : String}
    (member : path ∈ Policy.outputPaths plan generator) :
    ∃ file, done.repository path = some (.file file) := by
  obtain ⟨batch, -, -, paths, secrets, publicOutputs⟩ := repaired.outputs id listed generator stored
  rw [← paths] at member
  rcases List.mem_append.mp member with secret | shown
  · obtain ⟨write, inside, rfl⟩ := List.mem_map.mp secret
    obtain ⟨file, here, -⟩ := secrets write inside
    exact ⟨file, here⟩
  · obtain ⟨write, inside, rfl⟩ := List.mem_map.mp shown
    obtain ⟨file, here, -⟩ := publicOutputs write inside
    exact ⟨file, here⟩

theorem Rewritten.shared {id : Id} {generator : Generator} {batch : Batch}
    (turn : Rewritten M plan id generator batch before after) {path : String}
    (member : path ∈ generator.publicOutputs.map GeneratorPublicOutput.destination) :
    ∃ file, after path = some (.file file) ∧ file.ownerOnly = false := by
  obtain ⟨_, generated⟩ := turn.generated
  have paths := paths_of_generateBatch generated
  rw [Policy.outputPaths, sources_of_generateBatch generated, List.append_cancel_left_eq] at paths
  rw [← paths] at member
  obtain ⟨write, inside, rfl⟩ := List.mem_map.mp member
  obtain ⟨file, here, shown, -⟩ := turn.publicOutputs write inside
  exact ⟨file, here, shown⟩

/-- A run that repairs everything has no output at a state: the later of the two writes would leave
something else there. -/
theorem Rewrites.statesApart (accepted : Policy.validate M.policy plan = .ok ()) (plain : Plain M)
    (distinct : order.Nodup) (names : batches.map Prod.fst = order)
    (rewrites : Rewrites M plan batches before done.repository)
    (repaired : Repaired M plan order done) : StatesApart plan order := by
  intro id listed generator stored other walked member
  obtain ⟨front, back, whole⟩ := List.append_of_mem listed
  have unique := nodup_split distinct whole
  obtain ⟨early, batch, late, found, first, second, rfl, rfl, -, known, pre, turn, post⟩ :=
    rewrites.split (names.trans whole)
  cases stored.symm.trans known
  obtain ⟨last, there⟩ := repaired.output_there listed stored member
  have divided := walked
  rw [whole, List.mem_append, List.mem_cons] at divided
  rcases divided with earlier | rfl | later
  · obtain ⟨start, rest, split⟩ := List.append_of_mem earlier
    have apart := nodup_split (List.nodup_append.mp (whole ▸ distinct)).1 split
    have aside : id ∉ rest := fun inside => unique.1 (by simp [split, inside])
    obtain ⟨_, _, between, placing, _, _, -, rfl, -, declared, -, moved, until_id⟩ := pre.split split
    cases validation : placing.validation with
    | none =>
        obtain ⟨file, here, -⟩ := turn.present _ member
        have kept := (until_id.file_iff (outputs_differ accepted stored aside member)
          (states_differ apart.2.1)).mp here
        exact (moved.removed validation).enterable.no_file file kept
    | some value =>
        obtain ⟨file, here, owner, encoded⟩ :=
          repaired.states other walked placing declared value validation
        rcases List.mem_append.mp member with secret | shown
        · exact repaired.no_state_at_secret plain listed stored secret here _ encoded
        · obtain ⟨shared, written, readable⟩ := turn.shared shown
          have kept := (post.file_iff (outputs_differ accepted stored unique.2.1 member)
            (states_differ (unique.2.2 other earlier))).mpr written
          cases here.symm.trans kept
          rw [owner] at readable
          cases readable
  · exact turn.unwritten member
  · obtain ⟨start, rest, split⟩ := List.append_of_mem later
    have tail := (List.nodup_cons.mp (List.nodup_append.mp (whole ▸ distinct)).2.1).2
    have apart := nodup_split tail split
    have aside : id ∉ start ∧ id ∉ rest :=
      ⟨fun inside => unique.2.1 (by simp [split, inside]),
        fun inside => unique.2.1 (by simp [split, inside])⟩
    obtain ⟨_, _, remaining, placing, third, fourth, rfl, rfl, -, declared, until_other, moved,
      onward⟩ := post.split split
    have stays : ∀ {file}, done.repository (generatorStateRelativePath other) = some (.file file) ↔
        fourth (generatorStateRelativePath other) = some (.file file) :=
      onward.file_iff (outputs_differ accepted stored aside.2 member) (states_differ apart.2.1)
    cases validation : placing.validation with
    | none => exact (moved.removed validation).enterable.no_file last (stays.mp there)
    | some value =>
        obtain ⟨file, here, -, encoded⟩ := moved.state value validation
        rcases List.mem_append.mp member with secret | shown
        · exact repaired.no_state_at_secret plain listed stored secret (stays.mpr here) _ encoded
        · obtain ⟨shared, written, readable⟩ := turn.shared shown
          have kept := (until_other.file_iff (outputs_differ accepted stored aside.1 member)
            (states_differ apart.1)).mpr written
          rcases moved.usable.state with missing | ⟨_, still, owner⟩
          · cases kept.symm.trans missing
          · cases kept.symm.trans still
            rw [owner] at readable
            cases readable

/-- A run reads no input where an earlier generator had its state. -/
theorem Rewrites.inputsApart {args : GenerateArgs} {repository home : Tree} (plain : Plain M)
    (attended : Attended M plan args order repository home) (distinct : order.Nodup)
    (names : batches.map Prod.fst = order) (rewrites : Rewrites M plan batches repository after)
    (apart : StatesApart plan order) {front back : List Id} {id : Id}
    (whole : order = front ++ id :: back) {generator : Generator}
    (stored : plan.generators[id]? = some generator) {input : Id} {secret : Secret}
    (inside : input ∈ generator.secretDependencies) (known : plan.secrets[input]? = some secret)
    {other : Id} (earlier : other ∈ front) : secret.source ≠ generatorStateRelativePath other := by
  intro same
  have unique := nodup_split distinct whole
  obtain ⟨early, batch, _, _, first, _, rfl, -, -, found, pre, turn, -⟩ :=
    rewrites.split (names.trans whole)
  cases stored.symm.trans found
  obtain ⟨responses, generated⟩ := turn.generated
  obtain ⟨file, plaintext, here, decrypted⟩ := attended.reads id (by simp [whole]) generator stored
    responses first batch generated input inside secret known
  obtain ⟨start, rest, split⟩ := List.append_of_mem earlier
  have fresh := nodup_split (List.nodup_append.mp (whole ▸ distinct)).1 split
  obtain ⟨_, _, _, placing, _, _, -, rfl, -, declared, -, moved, until_id⟩ := pre.split split
  have walked : other ∈ order := by simp [whole, earlier]
  rw [same] at here
  have kept := (until_id.file_iff (fun later inside found known =>
    apart later (by simp [whole, split, inside]) found known other walked)
    (states_differ fresh.2.1)).mp here
  cases validation : placing.validation with
  | none => exact (moved.removed validation).enterable.no_file file kept
  | some value =>
      obtain ⟨_, there, -, encoded⟩ := moved.state value validation
      cases kept.symm.trans there
      rw [plain _ _ encoded] at decrypted
      cases decrypted

/-- A state above another one is removed before that one is placed. -/
theorem Rewrites.statesBelow (distinct : order.Nodup) (names : batches.map Prod.fst = order)
    (rewrites : Rewrites M plan batches before after) {front back : List Id} {id other : Id}
    (whole : order = front ++ id :: back) (walked : other ∈ order)
    (above : generatorStateRelativePath other ∈ ancestors (generatorStateRelativePath id)) :
    other ∈ front ∧ ∀ generator, plan.generators[other]? = some generator →
      generator.validation = none := by
  obtain ⟨early, batch, late, generator, first, second, rfl, rfl, -, -, pre, turn, post⟩ :=
    rewrites.split (names.trans whole)
  have unique := nodup_split distinct whole
  have enterable := turn.usable.enterable _ above
  have divided := walked
  rw [whole, List.mem_append, List.mem_cons] at divided
  rcases divided with earlier | rfl | later
  · obtain ⟨start, rest, split⟩ := List.append_of_mem earlier
    have fresh := nodup_split (List.nodup_append.mp (whole ▸ distinct)).1 split
    obtain ⟨_, _, _, placing, _, _, -, rfl, -, declared, -, moved, until_id⟩ := pre.split split
    refine ⟨earlier, fun found known => ?_⟩
    cases declared.symm.trans known
    rw [Option.eq_none_iff_forall_ne_some]
    intro value validation
    obtain ⟨file, here, -⟩ := moved.state value validation
    obtain ⟨last, there⟩ := until_id.file_stays (states_differ fresh.2.1) here
    exact enterable.no_file last there
  · exact absurd (List.IsPrefix.length_le (mem_ancestors.mp above)) (by simp)
  · obtain ⟨start, rest, split⟩ := List.append_of_mem later
    obtain ⟨_, _, _, _, _, _, rfl, -, -, -, until_other, moved, -⟩ := post.split split
    have unwritten : generatorStateRelativePath other ∉ Policy.outputPaths plan generator := by
      intro member
      obtain ⟨file, here, -⟩ := turn.present _ member
      exact enterable.no_file file here
    have different : generatorStateRelativePath other ≠ generatorStateRelativePath id := by
      intro same
      exact unique.2.1 (generatorStateRelativePath_injective same ▸ later)
    have made : generatorStateRelativePath other ∈ madeFor plan id generator :=
      List.mem_flatMap.mpr ⟨_, List.mem_append_right _ (List.mem_singleton_self _), above⟩
    obtain ⟨found, here⟩ : ∃ found,
        second (generatorStateRelativePath other) = some (.directory found) := by
      rw [turn.elsewhere _ unwritten different]
      rcases enterable with missing | ⟨found, known⟩
      · exact ⟨_, grow_of_missing _ _ missing made⟩
      · exact ⟨_, grow_of_directory _ _ _ known⟩
    obtain ⟨last, there, -⟩ := until_other.directory here
    rcases moved.usable.state with missing | ⟨file, still, -⟩
    · cases there.symm.trans missing
    · cases there.symm.trans still

/-- What a run that repairs everything found. -/
theorem Rewrites.repairable {args : GenerateArgs} {repository home : Tree}
    (accepted : Policy.validate M.policy plan = .ok ()) (plain : Plain M)
    (attended : Attended M plan args order repository home) (distinct : order.Nodup)
    (names : batches.map Prod.fst = order)
    (legacy : rejectLegacyRepositoryPromptState repository = .ok ())
    (rewrites : Rewrites M plan batches repository done.repository)
    (repaired : Repaired M plan order done) : Repairable plan order repository := by
  have apart := rewrites.statesApart accepted plain distinct names repaired
  refine ⟨legacy, ⟨apart, ?_, ?_⟩, ?_, ?_, ?_⟩
  · intro front id back whole generator stored input inside secret known other earlier
    exact rewrites.inputsApart plain attended distinct names apart whole stored inside known earlier
  · intro front id back whole other walked above
    exact rewrites.statesBelow distinct names whole walked above
  · intro id listed generator stored path member
    obtain ⟨front, back, whole⟩ := List.append_of_mem listed
    have unique := nodup_split distinct whole
    obtain ⟨early, _, _, _, _, _, rfl, -, -, known, pre, turn, -⟩ :=
      rewrites.split (names.trans whole)
    cases stored.symm.trans known
    obtain ⟨file, here, regular⟩ := turn.present path member
    refine ⟨file, (pre.file_iff (outputs_differ accepted stored unique.1 member) ?_).mp here, regular⟩
    rintro other inside rfl
    exact apart id listed generator stored other (by simp [whole, inside]) member
  · intro front id back whole
    have unique := nodup_split distinct whole
    obtain ⟨early, _, _, _, _, _, rfl, -, -, -, pre, turn, -⟩ := rewrites.split (names.trans whole)
    refine pre.usable_before unique.1 (fun other inside generator stored => ?_) turn.usable
    exact apart other (by simp [whole, inside]) generator stored id (by simp [whole])
  · intro id listed generator stored
    obtain ⟨front, back, whole⟩ := List.append_of_mem listed
    obtain ⟨_, _, _, _, _, _, -, -, -, known, -, turn, -⟩ := rewrites.split (names.trans whole)
    cases stored.symm.trans known
    exact turn.count

/-- What the turns of a run wrote is there at its end when no output is at a state. -/
theorem Rewrites.repaired (accepted : Policy.validate M.policy plan = .ok ())
    (apart : StatesApart plan order) (distinct : order.Nodup)
    (names : batches.map Prod.fst = order) (executed : done.executed = batches)
    (rewrites : Rewrites M plan batches before done.repository) : Repaired M plan order done := by
  constructor
  case outputs =>
    intro id listed generator stored
    obtain ⟨front, back, whole⟩ := List.append_of_mem listed
    have unique := nodup_split distinct whole
    obtain ⟨_, batch, late, _, first, second, -, rfl, member, known, -, turn, post⟩ :=
      rewrites.split (names.trans whole)
    cases stored.symm.trans known
    obtain ⟨responses, generated⟩ := turn.generated
    have paths := paths_of_generateBatch generated
    have stays : ∀ path ∈ Policy.outputPaths plan generator, ∀ {file},
        done.repository path = some (.file file) ↔ second path = some (.file file) := by
      intro path output
      refine post.file_iff (outputs_differ accepted stored unique.2.1 output) ?_
      rintro other inside rfl
      exact apart id listed generator stored other (by simp [whole, inside]) output
    refine ⟨batch, executed ▸ member, ⟨responses, first, generated⟩, paths, fun write inside => ?_,
      fun write inside => ?_⟩
    · obtain ⟨file, here, decrypted⟩ := turn.secrets write inside
      refine ⟨file, (stays _ ?_).mpr here, decrypted⟩
      rw [← paths]
      exact List.mem_append_left _ (List.mem_map_of_mem inside)
    · obtain ⟨file, here, -, same⟩ := turn.publicOutputs write inside
      refine ⟨file, (stays _ ?_).mpr here, same⟩
      rw [← paths]
      exact List.mem_append_right _ (List.mem_map_of_mem inside)
  case states =>
    intro id listed generator stored validation declared
    obtain ⟨front, back, whole⟩ := List.append_of_mem listed
    have unique := nodup_split distinct whole
    obtain ⟨_, _, late, _, _, second, -, rfl, -, known, -, turn, post⟩ :=
      rewrites.split (names.trans whole)
    cases stored.symm.trans known
    obtain ⟨file, here, facts⟩ := turn.state validation declared
    refine ⟨file, (post.file_iff (fun other inside found other_known => ?_)
      (states_differ unique.2.1)).mpr here, facts⟩
    exact apart other (by simp [whole, inside]) found other_known id listed

end Necessary

end Runs

namespace Sample

/-- A machine whose generators give two values. -/
def paired : Machine := { machine false with run := fun _ _ _ => successfulRun [] [[7], [8]] }

/-- A repository that holds the first output, and perhaps the second one. -/
def halves (complete : Bool) : Tree := fun path =>
  if path = "public/b" ∧ complete = true then some (.file ⟨0, [5], true, false, regular_of_shared⟩)
  else populated path

end Sample

end NixSeal.Generate
