import NixSeal.Lib.Fallible
import NixSeal.Lib.Ordered
import NixSeal.Generate.Outputs

/-!
# Which value reaches which output

Names are read in the order of texts and paired with the declarations in the order of numbers.  The
two orders agree for up to ten names, and from `"10"`, which precedes `"2"`, on they do not.
-/

namespace NixSeal.Generate

open Cache (FileName Folder Leaf Status)

theorem mem_expectedNames {count : Nat} {name : String} :
    name ∈ (expectedNames count).toList ↔ ∃ index < count, name = toString index := by
  rw [Std.TreeSet.mem_toList, expectedNames, Std.TreeSet.mem_ofList, List.contains_iff_mem,
    List.mem_map]
  simp only [List.mem_range, eq_comm]

theorem length_expectedNames (count : Nat) : (expectedNames count).toList.length = count := by
  have distinct : ((List.range count).map (toString : Nat → String)).Nodup :=
    List.Nodup.map_on (fun left _ right _ same => toString_injective same) List.nodup_range
  have permuted : (expectedNames count).toList.Perm ((List.range count).map toString) := by
    refine (List.perm_ext_iff_of_nodup (Ordered.nodup_of_ordered Std.TreeSet.ordered_toList)
      distinct).mpr fun name => ?_
    rw [mem_expectedNames, List.mem_map]
    simp only [List.mem_range, eq_comm]
  rw [permuted.length_eq, List.length_map, List.length_range]

/-- Up to ten names are listed in the order of their numbers. -/
theorem expectedNames_few {count : Nat} (few : count ≤ 10) :
    (expectedNames count).toList = (List.range count).map toString := by
  interval_cases count <;> decide

/-- More than ten names are not. -/
theorem expectedNames_many {count : Nat}
    (second : (expectedNames count).toList[2]? = some "2")
    (tenth : (expectedNames count).toList[10]? = some "10") : False := by
  have ordered : (expectedNames count).toList.Pairwise fun left right =>
      compare left right = .lt := Std.TreeSet.ordered_toList
  obtain ⟨short, second⟩ := List.getElem?_eq_some_iff.mp second
  obtain ⟨long, tenth⟩ := List.getElem?_eq_some_iff.mp tenth
  have less := List.pairwise_iff_getElem.mp ordered 2 10 short long (by omega)
  rw [second, tenth] at less
  revert less
  decide

theorem readGeneratorOutput_eq_ok_iff {user maximum : Nat} {folder : Folder Leaf} {name : String}
    {bytes : Bytes} (word : maximum < 2 ^ 64) :
    readGeneratorOutput user folder maximum name = .ok bytes ↔
      ∃ status : Status, folder.lookup (.text name) = some (.file status bytes) ∧
        status.links = 1 ∧ status.owner = user ∧ bytes.length ≤ maximum := by
  unfold readGeneratorOutput
  split
  · rename_i status found stored
    have whole : found.length ≤ maximum → found.take (min (maximum + 1) (2 ^ 64 - 1)) = found := by
      intro fits
      apply List.take_of_length_le
      omega
    simp only [Fallible.guard_eq_ok, not_or, not_not, not_lt]
    constructor
    · intro ⟨safe, fits, _, read⟩
      rw [whole fits] at read
      cases read
      exact ⟨status, stored, safe.1, safe.2, fits⟩
    · intro ⟨other, same, links, owner, fits⟩
      rw [stored] at same
      cases same
      rw [whole fits]
      exact ⟨⟨links, owner⟩, fits, fits, rfl⟩
  · rename_i other
    constructor
    · intro impossible
      cases impossible
    · intro ⟨status, stored, _⟩
      exact absurd stored (other status bytes)

/-- A directory holds exactly the numbered regular files with the given contents. -/
structure Numbered (folder : Folder Leaf) (contents : List Bytes) : Prop where
  names : ∀ name, name ∈ folder ↔ ∃ index : Nat, index < contents.length ∧ name = .text (toString index)
  files : ∀ (index : Nat) (bytes : Bytes), contents[index]? = some bytes →
    ∃ status, folder.lookup (.text (toString index)) = some (.file status bytes)

/-- The values read are the contents of the expected names, in the order of the names. -/
theorem readOutputs_contents {refusals : Refusals} {user maximum count : Nat}
    {folder : Folder Leaf} {contents values : List Bytes} (word : maximum < 2 ^ 64)
    (numbered : Numbered folder contents) (counted : contents.length = count)
    (read : readOutputs refusals user folder maximum count = .ok values) :
    List.Forall₂ (fun name value => ∀ index : Nat, name = toString index →
      contents[index]? = some value) (expectedNames count).toList values := by
  obtain ⟨actual, -, read⟩ := Fallible.bind_eq_ok.mp read
  rw [Fallible.guard_eq_ok] at read
  have paired := Fallible.mapM_eq_ok.mp read.2
  have members : ∀ name ∈ (expectedNames count).toList, ∃ index < count, name = toString index :=
    fun name member => mem_expectedNames.mp member
  refine List.forall₂_iff_get.mpr ⟨paired.length_eq, fun position inside within => ?_⟩
  intro index named
  have opened := (List.forall₂_iff_get.mp paired).2 position inside within
  obtain ⟨status, stored, -⟩ := (readGeneratorOutput_eq_ok_iff word).mp opened
  obtain ⟨other, bound, listed⟩ := members _ (List.get_mem _ ⟨position, inside⟩)
  have same : other = index := toString_injective (listed.symm.trans named)
  subst same
  have present : contents[other]? = some contents[other] :=
    List.getElem?_eq_getElem (by omega)
  obtain ⟨status', kept⟩ := numbered.files other _ present
  rw [named, kept] at stored
  injection stored with nodes
  injection nodes with _ bytes
  rw [present, bytes]

theorem readOutputs_few {refusals : Refusals} {user maximum count : Nat} {folder : Folder Leaf}
    {contents values : List Bytes} (word : maximum < 2 ^ 64)
    (numbered : Numbered folder contents) (counted : contents.length = count) (few : count ≤ 10)
    (read : readOutputs refusals user folder maximum count = .ok values) : values = contents := by
  have paired := readOutputs_contents word numbered counted read
  rw [expectedNames_few few] at paired
  have lengths := paired.length_eq
  rw [List.length_map, List.length_range] at lengths
  apply List.ext_getElem?
  intro index
  by_cases inside : index < count
  · have named := (List.forall₂_iff_get.mp paired).2 index (by simpa using inside) (by omega)
    rw [named index (by simp), List.getElem?_eq_getElem (by omega)]
    rfl
  · rw [List.getElem?_eq_none (by omega), List.getElem?_eq_none (by omega)]

/-! ## A run with chosen contents -/

/-- The entry of one private numbered file. -/
def numberedEntry (user : Nat) (contents : List Bytes) (index : Nat) :
    Sigma fun _ : FileName => Leaf :=
  ⟨.text (toString index), .file ⟨user, 0o600, 1⟩ (contents.getD index [])⟩

/-- Private numbered files with the given contents. -/
def numberedFolder (user : Nat) (contents : List Bytes) : Folder Leaf where
  entries := (List.range contents.length).map (numberedEntry user contents)
  nodupKeys := by
    rw [List.NodupKeys, List.keys, List.map_map]
    refine List.Nodup.map_on (fun left _ right _ same => ?_) List.nodup_range
    exact toString_injective (FileName.text.inj same)

theorem lookup_numberedFolder {user : Nat} {contents : List Bytes} {index : Nat} {bytes : Bytes}
    (stored : contents[index]? = some bytes) :
    (numberedFolder user contents).lookup (.text (toString index)) =
      some (.file ⟨user, 0o600, 1⟩ bytes) := by
  obtain ⟨inside, listed⟩ := List.getElem?_eq_some_iff.mp stored
  apply AList.mem_lookup_iff.mpr
  refine List.mem_map.mpr ⟨index, List.mem_range.mpr inside, ?_⟩
  rw [numberedEntry, List.getD_eq_getElem?_getD, stored]
  rfl

theorem numbered_numberedFolder (user : Nat) (contents : List Bytes) :
    Numbered (numberedFolder user contents) contents where
  names name := by
    rw [AList.mem_keys, AList.keys, List.keys, numberedFolder, List.map_map, List.mem_map]
    simp only [List.mem_range, Function.comp_apply, numberedEntry, eq_comm]
  files index bytes stored := ⟨_, lookup_numberedFolder stored⟩

theorem actualNames_entries (refusals : Refusals) (user : Nat) (contents : List Bytes)
    (indices : List Nat) (names : Std.TreeSet String) :
    ∃ final : Std.TreeSet String,
      (indices.map (numberedEntry user contents)).foldlM (collectName refusals) names =
          .ok final ∧
        ∀ name, name ∈ final ↔ name ∈ names ∨ ∃ index ∈ indices, name = toString index := by
  induction indices generalizing names with
  | nil => exact ⟨names, rfl, by simp⟩
  | cons index rest ih =>
      obtain ⟨final, folded, members⟩ := ih (names.insert (toString index))
      refine ⟨final, folded, fun name => ?_⟩
      rw [members name, Std.TreeSet.mem_insert, Std.LawfulEqCmp.compare_eq_iff_eq]
      simp only [List.mem_cons, exists_eq_or_imp]
      tauto

theorem readOutputs_numberedFolder (refusals : Refusals) (user : Nat) {maximum : Nat}
    {contents : List Bytes} (word : maximum < 2 ^ 64)
    (fits : ∀ bytes ∈ contents, bytes.length ≤ maximum) :
    ∃ values, readOutputs refusals user (numberedFolder user contents) maximum contents.length =
      .ok values := by
  obtain ⟨actual, found, members⟩ := actualNames_entries refusals user contents
    (List.range contents.length) {}
  have listed : actual.toList = (expectedNames contents.length).toList := by
    refine Ordered.eq_of_mem_iff Std.TreeSet.ordered_toList Std.TreeSet.ordered_toList
      fun name => ?_
    rw [Std.TreeSet.mem_toList, members, mem_expectedNames]
    simp
  have read : ∀ name ∈ (expectedNames contents.length).toList,
      ∃ bytes, readGeneratorOutput user (numberedFolder user contents) maximum name =
        .ok bytes := by
    intro name member
    obtain ⟨index, inside, rfl⟩ := mem_expectedNames.mp member
    have stored := List.getElem?_eq_getElem inside
    exact ⟨_, (readGeneratorOutput_eq_ok_iff word).mpr
      ⟨_, lookup_numberedFolder stored, rfl, rfl, fits _ (List.getElem_mem inside)⟩⟩
  obtain ⟨values, opened⟩ := Fallible.exists_mapM_ok read
  refine ⟨values, ?_⟩
  have named : actualNames refusals (numberedFolder user contents) = .ok actual := found
  rw [readOutputs, named, Fallible.ok_bind, if_neg (not_not.mpr listed), opened]

/-- Contents of which only one is not empty. -/
def markedContents (count mark : Nat) : List Bytes :=
  (List.range count).map fun index => if index = mark then [1] else []

theorem length_markedContents (count mark : Nat) : (markedContents count mark).length = count := by
  simp [markedContents]

theorem markedContents_fits (count mark : Nat) {maximum : Nat} (capacity : 1 ≤ maximum) :
    ∀ bytes ∈ markedContents count mark, bytes.length ≤ maximum := by
  intro bytes member
  obtain ⟨index, -, rfl⟩ := List.mem_map.mp member
  split
  · exact capacity
  · exact Nat.zero_le maximum

/-- If the marked value arrives at its number, the name of that number is listed there. -/
theorem name_of_marked {refusals : Refusals} {user maximum count mark : Nat}
    {values : List Bytes} (word : maximum < 2 ^ 64)
    (read : readOutputs refusals user (numberedFolder user (markedContents count mark)) maximum
      count = .ok values) (arrived : values[mark]? = some [1]) :
    (expectedNames count).toList[mark]? = some (toString mark) := by
  have paired := readOutputs_contents word (numbered_numberedFolder user _)
    (length_markedContents count mark) read
  obtain ⟨inside, value⟩ := List.getElem?_eq_some_iff.mp arrived
  have within : mark < (expectedNames count).toList.length := by
    rw [paired.length_eq]
    exact inside
  obtain ⟨index, bound, named⟩ := mem_expectedNames.mp (List.getElem_mem within)
  have content := (List.forall₂_iff_get.mp paired).2 mark within inside index named
  rw [List.get_eq_getElem, value, markedContents, List.getElem?_map,
    List.getElem?_range bound, Option.map_some] at content
  have same : index = mark := by
    by_contra other
    simp [other] at content
  rw [List.getElem?_eq_getElem within, named, same]

/-- Reading the files of a directory in the order of their names returns the contents in the order
of their numbers, whatever they are, only for up to ten files. -/
theorem few_of_readOutputs (refusals : Refusals) (user : Nat) {maximum count : Nat}
    (word : maximum < 2 ^ 64) (capacity : 1 ≤ maximum)
    (delivered : ∀ contents values, contents.length = count →
      (∀ bytes ∈ contents, bytes.length ≤ maximum) →
        readOutputs refusals user (numberedFolder user contents) maximum count = .ok values →
          values = contents) : count ≤ 10 := by
  by_contra many
  have listed : ∀ mark < count, (expectedNames count).toList[mark]? = some (toString mark) := by
    intro mark inside
    have counted := length_markedContents count mark
    have fits := markedContents_fits count mark capacity
    obtain ⟨values, read⟩ := readOutputs_numberedFolder refusals user word fits
    rw [counted] at read
    refine name_of_marked word read ?_
    rw [delivered _ values counted fits read, markedContents, List.getElem?_map,
      List.getElem?_range inside]
    simp
  exact expectedNames_many (listed 2 (by omega)) (listed 10 (by omega))

/-! ## The batch -/

/-- A run left exactly the numbered regular files of both directories. -/
structure LeavesExactly (generator : Generator) (run : GeneratorRun)
    (contents publicContents : List Bytes) : Prop where
  outputs : Numbered run.outputs contents
  count : contents.length = generator.outputs.length
  publicOutputs : Numbered run.publicOutputs publicContents
  publicCount : publicContents.length = generator.publicOutputs.length

/-- Every declared output is written with the value of its number. -/
structure Delivered (plan : Plan) (generator : Generator) (values publicValues : List Bytes)
    (batch : Batch) : Prop where
  secrets : ∀ (index : Nat) (output : Id), generator.outputs[index]? = some output →
    ∃ (secret : Secret) (write : BatchSecretWrite), plan.secrets[output]? = some secret ∧
      batch.secrets[index]? = some write ∧ write.relativeDestination = secret.source ∧
        values[index]? = some write.plaintext
  publicWrites : ∀ (index : Nat) (output : GeneratorPublicOutput),
    generator.publicOutputs[index]? = some output →
      ∃ write : BatchPublicWrite, batch.publicWrites[index]? = some write ∧
        write.relativeDestination = output.destination ∧
          publicValues[index]? = some write.plaintext

theorem eq_of_delivered {α β : Type} {outputs : List α} (writes : List β) (plaintext : β → Bytes)
    {left right : List Bytes}
    (left_length : left.length = outputs.length) (right_length : right.length = outputs.length)
    (from_left : ∀ (index : Nat) (output : α), outputs[index]? = some output →
      ∃ write, writes[index]? = some write ∧ left[index]? = some (plaintext write))
    (from_right : ∀ (index : Nat) (output : α), outputs[index]? = some output →
      ∃ write, writes[index]? = some write ∧ right[index]? = some (plaintext write)) :
    left = right := by
  apply List.ext_getElem?
  intro index
  by_cases inside : index < outputs.length
  · have declared := List.getElem?_eq_getElem inside
    obtain ⟨write, written, value⟩ := from_left index _ declared
    obtain ⟨other, rewritten, value'⟩ := from_right index _ declared
    rw [written] at rewritten
    cases rewritten
    rw [value, value']
  · rw [List.getElem?_eq_none (by omega), List.getElem?_eq_none (by omega)]

/-- A batch determines the values it delivers. -/
theorem Delivered.unique {plan : Plan} {generator : Generator} {batch : Batch}
    {values publicValues others publicOthers : List Bytes}
    (delivered : Delivered plan generator values publicValues batch)
    (again : Delivered plan generator others publicOthers batch)
    (counts : values.length = generator.outputs.length ∧
      publicValues.length = generator.publicOutputs.length)
    (other_counts : others.length = generator.outputs.length ∧
      publicOthers.length = generator.publicOutputs.length) :
    values = others ∧ publicValues = publicOthers := by
  constructor
  · refine eq_of_delivered batch.secrets BatchSecretWrite.plaintext counts.1 other_counts.1
      (fun index output declared => ?_) fun index output declared => ?_
    · obtain ⟨_, write, _, written, _, value⟩ := delivered.secrets index output declared
      exact ⟨write, written, value⟩
    · obtain ⟨_, write, _, written, _, value⟩ := again.secrets index output declared
      exact ⟨write, written, value⟩
  · refine eq_of_delivered batch.publicWrites BatchPublicWrite.plaintext counts.2 other_counts.2
      (fun index output declared => ?_) fun index output declared => ?_
    · obtain ⟨write, written, _, value⟩ := delivered.publicWrites index output declared
      exact ⟨write, written, value⟩
    · obtain ⟨write, written, _, value⟩ := again.publicWrites index output declared
      exact ⟨write, written, value⟩

theorem secretWrite_eq_ok {E : Policy.Environment} {plan : Plan} {output : Id × Bytes}
    {write : BatchSecretWrite} (written : secretWrite E plan output = .ok write) :
    ∃ secret, plan.secrets[output.1]? = some secret ∧
      write.relativeDestination = secret.source ∧ write.plaintext = output.2 := by
  unfold secretWrite at written
  split at written
  · cases written
  · rename_i secret stored
    split at written
    · cases written
    · cases written
      exact ⟨secret, stored, rfl, rfl⟩

theorem generateBatch_eq_ok {E : Policy.Environment} {plan : Plan} {generator : Generator}
    {run : GeneratorRun} {batch : Batch}
    (generated : generateBatch E plan generator run = .ok batch) :
    ∃ values, generateGeneratorValues generator run = .ok values ∧
      values.secrets.length = generator.outputs.length ∧
      values.publicValues.length = generator.publicOutputs.length ∧
      Delivered plan generator values.secrets values.publicValues batch := by
  obtain ⟨values, computed, generated⟩ := Fallible.bind_eq_ok.mp generated
  rw [Fallible.guard_eq_ok, not_or, not_not, not_not] at generated
  obtain ⟨⟨count, publicCount⟩, generated⟩ := generated
  obtain ⟨secrets, written, returned⟩ := Fallible.bind_eq_ok.mp generated
  cases returned
  have paired := Fallible.mapM_eq_ok.mp written
  refine ⟨values, computed, count, publicCount, ?_, ?_⟩
  · intro index output declared
    obtain ⟨inside, rfl⟩ := List.getElem?_eq_some_iff.mp declared
    have zipped : index < (generator.outputs.zip values.secrets).length := by
      rw [List.length_zip]
      omega
    have counted := paired.length_eq
    have step := (List.forall₂_iff_get.mp paired).2 index zipped (by omega)
    obtain ⟨secret, stored, source, plaintext⟩ := secretWrite_eq_ok step
    simp only [List.get_eq_getElem, List.getElem_zip] at stored source plaintext
    refine ⟨secret, secrets.get ⟨index, by omega⟩, stored, List.getElem?_eq_getElem _, source, ?_⟩
    rw [List.get_eq_getElem, plaintext]
    exact List.getElem?_eq_getElem (by omega)
  · intro index output declared
    obtain ⟨inside, rfl⟩ := List.getElem?_eq_some_iff.mp declared
    refine ⟨⟨generator.publicOutputs[index].destination, values.publicValues[index]⟩, ?_, rfl, ?_⟩
    · rw [List.getElem?_map, List.getElem?_eq_getElem (by rw [List.length_zip]; omega),
        List.getElem_zip]
      rfl
    · exact List.getElem?_eq_getElem (by omega)

theorem generateBatch_exists {E : Policy.Environment} {plan : Plan} {generator : Generator}
    {run : GeneratorRun} {values : GeneratedValues} (accepted : Policy.validate E plan = .ok ())
    (encodes : (E.planToJcs plan).isSome = true)
    (declared : ∀ output ∈ generator.outputs, output ∈ plan.secrets)
    (computed : generateGeneratorValues generator run = .ok values)
    (count : values.secrets.length = generator.outputs.length)
    (publicCount : values.publicValues.length = generator.publicOutputs.length) :
    ∃ batch, generateBatch E plan generator run = .ok batch := by
  have writes : ∀ output ∈ generator.outputs.zip values.secrets,
      ∃ write, secretWrite E plan output = .ok write := by
    intro output member
    have known := declared output.1 (List.of_mem_zip member).1
    obtain ⟨secret, stored⟩ := Option.isSome_iff_exists.mp
      (Std.TreeMap.mem_iff_isSome_getElem?.mp known)
    obtain ⟨result, collected, -⟩ := Policy.secretRecipients_ok accepted encodes stored
    refine ⟨⟨secret.source, output.2, result.recipients.values⟩, ?_⟩
    simp only [secretWrite, stored, collected]
  obtain ⟨secrets, mapped⟩ := Fallible.exists_mapM_ok writes
  refine ⟨⟨secrets, (generator.publicOutputs.zip values.publicValues).map fun output =>
    ⟨output.1.destination, output.2⟩⟩, ?_⟩
  rw [generateBatch, computed, Fallible.ok_bind, if_neg (by simp [count, publicCount]), mapped,
    Fallible.ok_bind]

/-- Whatever a run leaves, the declared outputs are written with the contents of their files. -/
def DeliversEveryRun (E : Policy.Environment) (plan : Plan) (generator : Generator) : Prop :=
  ∀ run contents publicContents batch, LeavesExactly generator run contents publicContents →
    generateBatch E plan generator run = .ok batch →
      Delivered plan generator contents publicContents batch

/-- A successful run of an external generator that left files with the given contents. -/
def successfulRun (contents publicContents : List Bytes) : GeneratorRun where
  builtin := .error (.message "built-in generators do not accept prompts")
  workspace := .ok ()
  completion := some true
  outputs := numberedFolder 0 contents
  publicOutputs := numberedFolder 0 publicContents
  user := 0

theorem generateGeneratorValues_external {generator : Generator} {run : GeneratorRun}
    {values : GeneratedValues} (external : startsWith "builtin:" generator.executable = false)
    (computed : generateGeneratorValues generator run = .ok values) :
    readOutputs secretRefusals run.user run.outputs generator.maxOutputBytes.toNat
        generator.outputs.length = .ok values.secrets ∧
      readOutputs publicRefusals run.user run.publicOutputs generator.maxOutputBytes.toNat
        generator.publicOutputs.length = .ok values.publicValues := by
  rw [generateGeneratorValues, external] at computed
  obtain ⟨⟨⟩, -, computed⟩ := Fallible.bind_eq_ok.mp computed
  split at computed
  · cases computed
  · cases computed
  · obtain ⟨secrets, read, computed⟩ := Fallible.bind_eq_ok.mp computed
    obtain ⟨publicValues, publicRead, returned⟩ := Fallible.bind_eq_ok.mp computed
    cases returned
    exact ⟨read, publicRead⟩

/-- The values of a successful run are the batch that is handed over. -/
theorem values_of_delivers {E : Policy.Environment} {plan : Plan} {generator : Generator}
    (accepted : Policy.validate E plan = .ok ()) (encodes : (E.planToJcs plan).isSome = true)
    (external : startsWith "builtin:" generator.executable = false)
    (declared : ∀ output ∈ generator.outputs, output ∈ plan.secrets)
    (delivers : DeliversEveryRun E plan generator)
    {contents publicContents values publicValues : List Bytes}
    (count : contents.length = generator.outputs.length)
    (publicCount : publicContents.length = generator.publicOutputs.length)
    (read : readOutputs secretRefusals 0 (numberedFolder 0 contents)
      generator.maxOutputBytes.toNat generator.outputs.length = .ok values)
    (publicRead : readOutputs publicRefusals 0 (numberedFolder 0 publicContents)
      generator.maxOutputBytes.toNat generator.publicOutputs.length = .ok publicValues) :
    values = contents ∧ publicValues = publicContents := by
  have word := generator.maxOutputBytes.toNat_lt
  have computed : generateGeneratorValues generator (successfulRun contents publicContents) =
      .ok ⟨values, publicValues⟩ := by
    rw [generateGeneratorValues, external]
    simp only [Bool.false_eq_true, if_false, generateExternalValues, successfulRun, read,
      publicRead, Fallible.ok_bind]
  have lengths : values.length = generator.outputs.length ∧
      publicValues.length = generator.publicOutputs.length := by
    have sized := (readOutputs_contents word (numbered_numberedFolder 0 contents) count read)
    have publicSized :=
      readOutputs_contents word (numbered_numberedFolder 0 publicContents) publicCount publicRead
    rw [← sized.length_eq, ← publicSized.length_eq]
    exact ⟨length_expectedNames _, length_expectedNames _⟩
  obtain ⟨batch, generated⟩ := generateBatch_exists accepted encodes declared computed lengths.1
    lengths.2
  have left := delivers _ contents publicContents batch
    ⟨numbered_numberedFolder 0 contents, count, numbered_numberedFolder 0 publicContents,
      publicCount⟩ generated
  obtain ⟨found, again, _, _, right⟩ := generateBatch_eq_ok generated
  rw [computed] at again
  cases again
  exact right.unique left lengths ⟨count, publicCount⟩

/-- Every run of an external generator of an accepted plan delivers the contents of its files to
the declared outputs exactly when it declares at most ten secret and at most ten public outputs. -/
theorem deliversEveryRun_iff {E : Policy.Environment} {plan : Plan} {id : Id}
    {generator : Generator} (accepted : Policy.validate E plan = .ok ())
    (encodes : (E.planToJcs plan).isSome = true)
    (stored : plan.generators[id]? = some generator)
    (external : startsWith "builtin:" generator.executable = false) :
    DeliversEveryRun E plan generator ↔
      generator.outputs.length ≤ 10 ∧ generator.publicOutputs.length ≤ 10 := by
  have facts := (Policy.acceptedPlan_of_validate accepted).generator stored
  have word := generator.maxOutputBytes.toNat_lt
  constructor
  · intro delivers
    have values := @values_of_delivers E plan generator accepted encodes external facts.outputs
      delivers
    constructor
    · refine few_of_readOutputs secretRefusals 0 word facts.capacity ?_
      intro contents found count fits read
      obtain ⟨others, publicRead⟩ := readOutputs_numberedFolder publicRefusals 0 word
        (markedContents_fits generator.publicOutputs.length 0 facts.capacity)
      rw [length_markedContents] at publicRead
      exact (values count (length_markedContents _ _) read publicRead).1
    · refine few_of_readOutputs publicRefusals 0 word facts.capacity ?_
      intro contents found count fits read
      obtain ⟨others, secretRead⟩ := readOutputs_numberedFolder secretRefusals 0 word
        (markedContents_fits generator.outputs.length 0 facts.capacity)
      rw [length_markedContents] at secretRead
      exact (values (length_markedContents _ _) count secretRead read).2
  · intro ⟨few, publicFew⟩ run contents publicContents batch left generated
    obtain ⟨values, computed, count, publicCount, delivered⟩ := generateBatch_eq_ok generated
    obtain ⟨read, publicRead⟩ := generateGeneratorValues_external external computed
    rw [readOutputs_few word left.outputs left.count few read,
      readOutputs_few word left.publicOutputs left.publicCount publicFew publicRead] at delivered
    exact delivered

namespace Sample

/-- A numbered public output of the sample generators. -/
def publicOutput (label : String) : Option GeneratorPublicOutput :=
  match Id.parse label with
  | .ok id => some ⟨id, "public/" ++ label⟩
  | .error _ => none

/-- A generator with two public outputs. -/
def pair : Generator where
  executable := "/nix/store/pair/bin/generate"
  outputs := []
  publicOutputs := ["a", "b"].filterMap publicOutput

/-- A generator with eleven public outputs. -/
def eleven : Generator where
  executable := "/nix/store/eleven/bin/generate"
  outputs := []
  publicOutputs :=
    ["c", "d", "e", "f", "g", "h", "i", "j", "k", "l", "m"].filterMap publicOutput

/-- Identifier of the generator with two outputs. -/
def pairId : Id := ⟨"pair", by decide⟩

/-- Identifier of the generator with eleven outputs. -/
def elevenId : Id := ⟨"eleven", by decide⟩

/-- The sample plan with the two generators. -/
def plan : Plan :=
  { Policy.Sample.plan with
    generators := Std.TreeMap.ofList [(pairId, pair), (elevenId, eleven)] }

theorem validate_generators : Policy.validate Policy.Sample.environment plan = .ok () :=
  Policy.Sample.validate_of_identities rfl rfl rfl (by decide) (by decide +kernel)

/-- Eleven different contents. -/
def contents : List Bytes := (List.range 11).map fun index => [index.toUInt8]

end Sample

theorem deliversEveryRun_pair :
    DeliversEveryRun Policy.Sample.environment Sample.plan Sample.pair := by
  have stored : Sample.plan.generators[Sample.pairId]? = some Sample.pair := rfl
  exact (deliversEveryRun_iff Sample.validate_generators rfl stored (by decide)).mpr (by decide)

/-- With eleven outputs the third output is written with the content of the last file. -/
theorem eleven_outputs_misdelivered :
    Policy.validate Policy.Sample.environment Sample.plan = .ok () ∧
      Sample.plan.generators[Sample.elevenId]? = some Sample.eleven ∧
      LeavesExactly Sample.eleven (successfulRun [] Sample.contents) [] Sample.contents ∧
      ∃ batch, generateBatch Policy.Sample.environment Sample.plan Sample.eleven
          (successfulRun [] Sample.contents) = .ok batch ∧
        batch.publicWrites[2]? = some ⟨"public/e", [10]⟩ ∧ Sample.contents[2]? = some [2] ∧
        ¬Delivered Sample.plan Sample.eleven [] Sample.contents batch := by
  refine ⟨Sample.validate_generators, rfl,
    ⟨numbered_numberedFolder 0 [], rfl, numbered_numberedFolder 0 Sample.contents, rfl⟩, ?_⟩
  have generated : generateBatch Policy.Sample.environment Sample.plan Sample.eleven
      (successfulRun [] Sample.contents) = .ok ⟨[], Sample.eleven.publicOutputs.zipWith
        (fun output value => ⟨output.destination, value⟩)
        [[0], [1], [10], [2], [3], [4], [5], [6], [7], [8], [9]]⟩ := by
    decide
  refine ⟨_, generated, by decide, by decide, fun delivered => ?_⟩
  obtain ⟨write, written, -, value⟩ := delivered.publicWrites 2 ⟨⟨"e", by decide⟩, "public/e"⟩
    (by decide)
  have known : write = ⟨"public/e", [10]⟩ := Option.some.inj (written.symm.trans (by decide))
  rw [known] at value
  revert value
  decide

end NixSeal.Generate
