import NixSeal.Generate.Turn

/-!
# Running a generator again

After a run in which every generator declares a validation value, the same command without
`--replace` has nothing left to do, provided that the state directories became private, that every
recorded state is short enough to be read, that no output was written over a state, and that none
stands where prompt responses used to be kept.
-/

namespace NixSeal.Generate

open Authoring Fallible

/-! ## Several turns -/

/-- The turns of some generators, one after the other. -/
inductive Turns (M : Machine) (plan : Plan) (replace : Bool) : List Id → Tree → Tree → Prop where
  | nil (tree : Tree) : Turns M plan replace [] tree tree
  | cons {id : Id} {generator : Generator} {rest : List Id} {before middle after : Tree}
      (stored : plan.generators[id]? = some generator)
      (turn : Turn M plan replace id generator before middle)
      (others : Turns M plan replace rest middle after) :
      Turns M plan replace (id :: rest) before after

section Turns

variable {M : Machine} {plan : Plan} {replace : Bool} {order : List Id} {before after : Tree}

theorem turns_of_foldlM {args : GenerateArgs} {sources : Std.TreeMap Id (Option String)}
    {generation done : Generation} (accepted : Policy.validate M.policy plan = .ok ())
    (sealed : Sealed M) (declared : ∀ id ∈ order, ∃ generator validation, plan.generators[id]? = some generator ∧
      generator.validation = some validation)
    (folded : order.foldlM (generateOne M plan args sources) generation = .ok done) :
    Turns M plan args.replace order generation.repository done.repository := by
  induction order generalizing generation with
  | nil =>
      cases folded
      exact .nil _
  | cons id rest ih =>
      rw [List.foldlM_cons] at folded
      obtain ⟨next, stepped, folded⟩ := bind_eq_ok.mp folded
      obtain ⟨generator, validation, stored, given⟩ := declared id List.mem_cons_self
      exact .cons stored (turn_of_generateOne accepted sealed stored given stepped)
        (ih (fun other member => declared other (List.mem_cons_of_mem _ member)) folded)

namespace Turns

theorem append {front back : List Id} {middle : Tree}
    (early : Turns M plan replace front before middle)
    (late : Turns M plan replace back middle after) :
    Turns M plan replace (front ++ back) before after := by
  induction early with
  | nil => exact late
  | cons stored turn _ ih => exact .cons stored turn (ih late)

theorem kept (turns : Turns M plan replace order before after) {path : String}
    {directory : Directory} (here : before path = some (.directory directory)) :
    ∃ found, after path = some (.directory found) ∧ found.owned = directory.owned ∧
      (directory.restricted = true → found.restricted = true) := by
  induction turns generalizing directory with
  | nil => exact ⟨directory, here, rfl, id⟩
  | cons _ turn _ ih =>
      obtain ⟨between, there, owned, restricted⟩ := turn.kept path directory here
      obtain ⟨found, last, owner, restriction⟩ := ih there
      exact ⟨found, last, owner.trans owned, fun given => restriction (restricted given)⟩

theorem stays_private (turns : Turns M plan replace order before after) {path : String}
    (here : before path = some privateDirectory) : after path = some privateDirectory := by
  obtain ⟨⟨owned, restricted⟩, found, owner, restriction⟩ := turns.kept here
  have owner : owned = true := owner
  have restriction : restricted = true := restriction rfl
  rw [found, owner, restriction]

theorem entered (turns : Turns M plan replace order before after) {path : String}
    {directory : Directory} (here : after path = some (.directory directory)) :
    before.Enterable path := by
  induction turns with
  | nil => exact .inr ⟨directory, here⟩
  | cons _ turn _ ih =>
      rcases ih here with missing | ⟨found, between⟩
      · exact .inl (turn.absent path missing)
      · exact turn.entered path found between

/-- New directories are private where the mask says so. -/
theorem fresh (turns : Turns M plan replace order before after) {path : String}
    {directory : Directory} (here : after path = some (.directory directory))
    (missing : before path = none) (masked : M.restrictive = true) :
    after path = some privateDirectory := by
  induction turns with
  | nil => simp [missing] at here
  | cons _ turn others ih =>
      rcases others.entered here with absent | ⟨found, between⟩
      · exact ih here absent
      · refine others.stays_private ?_
        rw [between, turn.fresh path found between missing masked]

theorem made (turns : Turns M plan replace order before after) {path : String}
    (here : after path = some privateDirectory) : before path = some privateDirectory ∨
      (before path = none ∧ (M.restrictive = true ∨ replace = false)) ∨
        ∃ id ∈ order, parentDirectory (generatorStateRelativePath id) = some path := by
  induction turns with
  | nil => exact .inl here
  | cons _ turn _ ih =>
      rcases ih here with found | ⟨missing, reason⟩ | ⟨id, listed, parent⟩
      · rcases turn.made path found with early | fresh | parent
        · exact .inl early
        · exact .inr (.inl fresh)
        · exact .inr (.inr ⟨_, List.mem_cons_self, parent⟩)
      · exact .inr (.inl ⟨turn.absent path missing, reason⟩)
      · exact .inr (.inr ⟨id, List.mem_cons_of_mem _ listed, parent⟩)

theorem appears (turns : Turns M plan replace order before after) {path : String}
    (missing : before path = none) (here : after path ≠ none) :
    ∃ id ∈ order, ∃ generator, plan.generators[id]? = some generator ∧
      Reachable plan id generator path := by
  induction turns with
  | nil => exact absurd missing here
  | @cons id generator rest before middle after stored turn others ih =>
      by_cases between : middle path = none
      · obtain ⟨other, listed, found⟩ := ih between here
        exact ⟨other, List.mem_cons_of_mem _ listed, found⟩
      · exact ⟨id, List.mem_cons_self, generator, stored, turn.appears path missing between⟩

theorem split_at {front back : List Id} {id : Id}
    (turns : Turns M plan replace (front ++ id :: back) before after) :
    ∃ generator first second, plan.generators[id]? = some generator ∧
      Turns M plan replace front before first ∧ Turn M plan replace id generator first second ∧
      Turns M plan replace back second after := by
  induction front generalizing before with
  | nil =>
      cases turns with
      | @cons _ generator _ _ middle _ stored turn others =>
          exact ⟨generator, before, middle, stored, .nil _, turn, others⟩
  | cons head front ih =>
      cases turns with
      | cons stored turn others =>
          obtain ⟨generator, first, second, known, pre, here, post⟩ := ih others
          exact ⟨generator, first, second, known, .cons stored turn pre, here, post⟩

theorem split (turns : Turns M plan replace order before after) {id : Id} (listed : id ∈ order) :
    ∃ early late generator first second, order = early ++ id :: late ∧
      plan.generators[id]? = some generator ∧ Turns M plan replace early before first ∧
      Turn M plan replace id generator first second ∧ Turns M plan replace late second after := by
  obtain ⟨early, late, rfl⟩ := List.append_of_mem listed
  obtain ⟨generator, first, second, facts⟩ := turns.split_at
  exact ⟨early, late, generator, first, second, rfl, facts⟩

end Turns

namespace Turn

variable {id : Id} {generator : Generator}

theorem state_there (turn : Turn M plan replace id generator before after) :
    OutputThere after (generatorStateRelativePath id) := by
  refine ⟨turn.opened, ?_⟩
  rcases turn.state with idle | busy
  · obtain ⟨_, file, -, here, -⟩ := idle.recorded
    exact ⟨file, (idle.files _ file).mpr here⟩
  · obtain ⟨_, _, file, -, -, here, -⟩ := busy.state
    exact ⟨file, here⟩

theorem file_stays (turn : Turn M plan replace id generator before after) {path : String}
    (here : ∃ file, before path = some (.file file)) : ∃ file, after path = some (.file file) := by
  by_cases output : path ∈ Policy.outputPaths plan generator
  · exact (turn.outputs path output).2
  · by_cases state : path = generatorStateRelativePath id
    · rw [state]
      exact turn.state_there.2
    · obtain ⟨file, here⟩ := here
      exact ⟨file, (turn.files path output state file).mpr here⟩

end Turn

theorem OutputThere.later {path : String} (there : OutputThere before path)
    (turns : Turns M plan replace order before after) : OutputThere after path := by
  refine ⟨fun directory inside => ?_, ?_⟩
  · obtain ⟨found, known⟩ := there.1 directory inside
    obtain ⟨found, known, -⟩ := turns.kept known
    exact ⟨found, known⟩
  · have here := there.2
    clear there
    induction turns with
    | nil => exact here
    | cons _ turn _ ih => exact ih (turn.file_stays here)

namespace Turns

theorem there (turns : Turns M plan replace order before after) {id : Id} (listed : id ∈ order)
    {generator : Generator} (stored : plan.generators[id]? = some generator) :
    ∀ path ∈ Policy.outputPaths plan generator, OutputThere after path := by
  obtain ⟨_, _, found, _, _, -, known, -, turn, post⟩ := turns.split listed
  cases stored.symm.trans known
  exact fun path member => (turn.outputs path member).later post

theorem state_there (turns : Turns M plan replace order before after) {id : Id}
    (listed : id ∈ order) : OutputThere after (generatorStateRelativePath id) := by
  obtain ⟨_, _, _, _, _, -, -, -, turn, post⟩ := turns.split listed
  exact turn.state_there.later post

/-- The last turn that changes a file writes a state there, or leaves something else. -/
theorem files_or_foreign (turns : Turns M plan replace order before after) {path : String}
    (other : ∀ id ∈ order, path ≠ generatorStateRelativePath id) :
    (∀ file, after path = some (.file file) ↔ before path = some (.file file)) ∨
      (Foreign M after path ∧ ∃ front id back generator first second, order = front ++ id :: back ∧
        plan.generators[id]? = some generator ∧ path ∈ Policy.outputPaths plan generator ∧
        Turns M plan replace front before first ∧ Turn M plan replace id generator first second ∧
        Busy M plan replace id generator first second) := by
  induction turns with
  | nil => exact .inl fun _ => Iff.rfl
  | @cons id generator rest before middle after stored turn others ih =>
      obtain ⟨here, later⟩ := List.forall_mem_cons.mp other
      rcases ih later with same | ⟨foreign, front, last, back, second, _, _, rfl, known, member, pre,
        between, busy⟩
      · by_cases member : path ∈ Policy.outputPaths plan generator
        · rcases turn.state with idle | busy
          · exact .inl fun file => (same file).trans (idle.files path file)
          · obtain ⟨file, there, unreadable⟩ := busy.foreign path member
            exact .inr ⟨⟨file, (same file).mpr there, unreadable⟩, [], id, rest, generator, before,
              middle, rfl, stored, member, .nil _, turn, busy⟩
        · exact .inl fun file => (same file).trans (turn.files path member here file)
      · exact .inr ⟨foreign, id :: front, last, back, second, _, _, rfl, known, member,
          .cons stored turn pre, between, busy⟩

theorem foreign_stays (turns : Turns M plan replace order before after) {path : String}
    (other : ∀ id ∈ order, path ≠ generatorStateRelativePath id)
    (foreign : Foreign M before path) : Foreign M after path := by
  rcases turns.files_or_foreign other with same | ⟨still, -⟩
  · obtain ⟨file, here, unreadable⟩ := foreign
    exact ⟨file, (same file).mpr here, unreadable⟩
  · exact still

end Turns

/-! ## What a run leaves behind -/

/-- The outputs and the state of a generator were there before the run; an output can also be the
state of a generator that runs earlier. -/
def Standing (M : Machine) (plan : Plan) (tree : Tree) (front : List Id) (id : Id)
    (generator : Generator) : Prop :=
  (∀ path ∈ Policy.outputPaths plan generator, OutputThere tree path ∨
    ∃ other ∈ front, path = generatorStateRelativePath other) ∧ Recorded M tree id generator

/-- The state of a generator can be read back. -/
def Short (M : Machine) (id : Id) (generator : Generator) : Prop :=
  ∀ validation bytes, generator.validation = some validation →
    M.stateToJcs (stateOf id generator validation) = some bytes → bytes.length ≤ 64 * 1024

variable {front back : List Id} {id : Id} {generator : Generator} {first second : Tree}

theorem recorded_congr (same : ∀ file, second (generatorStateRelativePath id) = some (.file file) ↔
    first (generatorStateRelativePath id) = some (.file file)) :
    Recorded M second id generator ↔ Recorded M first id generator := by
  simp only [Recorded, same]

theorem Recorded.not_foreign (recorded : Recorded M first id generator) :
    ¬Foreign M first (generatorStateRelativePath id) := by
  rintro ⟨file, here, unreadable⟩
  obtain ⟨_, found, -, same, owner, -, decoded⟩ := recorded
  cases here.symm.trans same
  rw [unreadable owner] at decoded
  cases decoded

theorem states_differ (absent : id ∉ front) :
    ∀ other ∈ front, generatorStateRelativePath id ≠ generatorStateRelativePath other := by
  intro other inside same
  exact absent (generatorStateRelativePath_injective same ▸ inside)

/-- What stands when the turn of a generator comes stood before the run. -/
theorem standing_iff (accepted : Policy.validate M.policy plan = .ok ()) (rooted : Rooted before)
    (pre : Turns M plan false front before first) (absent : id ∉ front)
    (stored : plan.generators[id]? = some generator)
    (readable : ¬Foreign M first (generatorStateRelativePath id)) :
    ((∀ path ∈ Policy.outputPaths plan generator, OutputThere first path) ∧
      Recorded M first id generator) ↔ Standing M plan before front id generator := by
  have recorded : Recorded M first id generator ↔ Recorded M before id generator := by
    rcases pre.files_or_foreign (states_differ absent) with same | ⟨foreign, -⟩
    · exact recorded_congr same
    · exact absurd foreign readable
  refine and_congr (forall₂_congr fun path member => ⟨fun there => ?_, ?_⟩) recorded
  · by_cases state : ∃ other ∈ front, path = generatorStateRelativePath other
    · exact .inr state
    · obtain ⟨-, file, here⟩ := there
      rcases pre.files_or_foreign fun other inside same => state ⟨other, inside, same⟩ with
        same | ⟨-, _, other, _, found, _, _, rfl, known, written, -⟩
      · have early := (same file).mp here
        exact .inl ⟨rooted path (by simp [early]), file, early⟩
      · have different : id ≠ other := fun same => absent (by simp [same])
        exact absurd written (Policy.disjoint_outputPaths accepted stored known different member)
  · rintro (there | ⟨other, inside, rfl⟩)
    · exact there.later pre
    · exact pre.state_there inside

/-- The directories of states that are private after a run. -/
theorem Turns.directories (turns : Turns M plan replace order before after) (listed : id ∈ order) :
    (∀ directory ∈ ancestors (generatorStateRelativePath id),
      after directory = some privateDirectory) ↔
    (replace = true → ∀ directory ∈ ancestors (generatorStateRelativePath id),
      before directory = some privateDirectory ∨ (before directory = none ∧ M.restrictive = true) ∨
        ∃ other ∈ order, parentDirectory (generatorStateRelativePath other) = some directory) := by
  constructor
  · rintro every rfl directory inside
    rcases turns.made (every directory inside) with early | ⟨missing, masked | kept⟩ | parent
    · exact .inl early
    · exact .inr (.inl ⟨missing, masked⟩)
    · cases kept
    · exact .inr (.inr parent)
  · intro every directory inside
    obtain ⟨_, _, generator, first, second, rfl, stored, pre, turn, post⟩ := turns.split listed
    cases replaces : replace with
    | false => exact post.stays_private (turn.checked replaces directory inside)
    | true =>
        rcases every replaces directory inside with early | ⟨missing, masked⟩ | ⟨other, walked, parent⟩
        · exact turns.stays_private early
        · obtain ⟨found, between⟩ := turn.opened directory inside
          obtain ⟨found, last, -⟩ := post.kept between
          exact turns.fresh last missing masked
        · obtain ⟨_, _, _, _, _, -, -, -, guarding, remaining⟩ := turns.split walked
          exact remaining.stays_private (guarding.guarded directory parent)

/-- The states that match the declarations after a run: those that can be read back, or were there
already, unless an output of another generator was written over them. -/
theorem recorded_of_turns (accepted : Policy.validate M.policy plan = .ok ())
    (codec : ∀ state bytes, M.stateToJcs state = some bytes → M.stateFromJson bytes = some state)
    (distinct : order.Nodup) (rooted : Rooted before)
    (turns : Turns M plan replace order before after) (whole : order = front ++ id :: back)
    (stored : plan.generators[id]? = some generator) :
    Recorded M after id generator ↔
      (Short M id generator ∨ (replace = false ∧ Standing M plan before front id generator)) ∧
      ∀ early other late found, order = early ++ other :: late →
        plan.generators[other]? = some found →
        generatorStateRelativePath id ∈ Policy.outputPaths plan found →
          (replace = true ∧ id ∈ late) ∨
            (replace = false ∧ Standing M plan before early other found) := by
  have alone := nodup_split distinct whole
  obtain ⟨known, first, second, same, pre, turn, post⟩ := (whole ▸ turns).split_at
  cases stored.symm.trans same
  constructor
  · intro recorded
    constructor
    · have unchanged := (post.files_or_foreign (states_differ alone.2.1)).resolve_right
        fun foreign => recorded.not_foreign foreign.1
      rcases turn.state with idle | busy
      · obtain ⟨rfl, outputs, recorded, -⟩ := idle
        exact .inr ⟨rfl, (standing_iff accepted rooted pre alone.1 stored
          (turn.readable rfl)).mp ⟨outputs, recorded⟩⟩
      · obtain ⟨validation, bytes, file, declared, serialized, placed, -, content⟩ := busy.state
        obtain ⟨_, last, -, here, -, bound, -⟩ := recorded
        cases ((unchanged file).mpr placed).symm.trans here
        refine .inl fun given encoded also toJcs => ?_
        cases declared.symm.trans also
        cases serialized.symm.trans toJcs
        rwa [← content]
    · intro early other late found divided other_stored member
      have apart := nodup_split distinct divided
      obtain ⟨_, before_other, after_other, same, earlier, moving, later⟩ :=
        (divided ▸ turns).split_at
      cases other_stored.symm.trans same
      rcases moving.state with idle | busy
      · obtain ⟨rfl, outputs, recorded, -⟩ := idle
        exact .inr ⟨rfl, (standing_iff accepted rooted earlier apart.1 other_stored
          (moving.readable rfl)).mp ⟨outputs, recorded⟩⟩
      · have foreign := busy.foreign _ member
        have listed : id ∈ early ++ other :: late := by simp [← divided, whole]
        rcases List.mem_append.mp listed with inside | inside
        · exact absurd (later.foreign_stays (states_differ (apart.2.2 id inside)) foreign)
            recorded.not_foreign
        rcases List.mem_cons.mp inside with rfl | inside
        · cases stored.symm.trans other_stored
          exact absurd member busy.unwritten
        cases replaces : replace with
        | true => exact .inl ⟨rfl, inside⟩
        | false =>
            obtain ⟨between, rest, rfl⟩ := List.append_of_mem inside
            obtain ⟨_, _, _, -, until_id, reading, -⟩ := later.split_at
            have fresh : id ∉ between := by
              have whole : order = (early ++ other :: between) ++ id :: rest := by simp [divided]
              intro repeated
              exact (nodup_split distinct whole).1 (by simp [repeated])
            exact absurd (until_id.foreign_stays (states_differ fresh) foreign)
              (reading.readable replaces)
  · rintro ⟨readable, clear⟩
    have recorded : Recorded M second id generator := by
      rcases turn.state with idle | busy
      · exact (recorded_congr (idle.files _)).mpr idle.recorded
      · obtain ⟨validation, bytes, file, declared, serialized, placed, owner, content⟩ := busy.state
        rcases readable with short | ⟨rfl, standing⟩
        · exact ⟨validation, file, declared, placed, owner,
            content ▸ short validation bytes declared serialized,
            content ▸ codec _ bytes serialized⟩
        · obtain ⟨outputs, recorded⟩ := (standing_iff accepted rooted pre alone.1 stored
            (turn.readable rfl)).mpr standing
          exact absurd recorded (busy.due rfl outputs)
    rcases post.files_or_foreign (states_differ alone.2.1) with same | ⟨-, early, other, late, found,
      _, _, rfl, other_stored, member, until_other, moving, busy⟩
    · exact (recorded_congr same).mpr recorded
    · have divided : order = (front ++ id :: early) ++ other :: late := by simp [whole]
      have apart := nodup_split distinct divided
      rcases clear _ other late found divided other_stored member with ⟨-, later⟩ | ⟨rfl, standing⟩
      · exact absurd later (apart.2.2 id (by simp))
      · obtain ⟨outputs, recorded⟩ := (standing_iff accepted rooted
          (pre.append (.cons stored turn until_other)) apart.1 other_stored
          (moving.readable rfl)).mpr standing
        exact absurd recorded (busy.due rfl outputs)

/-! ## Old prompt responses -/

/-- Where the responses to prompts used to be kept. -/
abbrev legacyPromptState : String := ".nix-seal/prompt-state"

theorem rejectLegacyRepositoryPromptState_eq_ok {tree : Tree} :
    rejectLegacyRepositoryPromptState tree = .ok () ↔
      (∀ file, tree ".nix-seal" ≠ some (.file file)) ∧ tree legacyPromptState = none := by
  unfold rejectLegacyRepositoryPromptState
  cases tree ".nix-seal" with
  | none => cases tree ".nix-seal/prompt-state" <;> simp
  | some node => cases node <;> cases tree ".nix-seal/prompt-state" <;> simp

theorem privateRoot_mem_ancestors (id : Id) :
    ".nix-seal" ∈ ancestors (generatorStateRelativePath id) := by
  rw [mem_ancestors, toList_generatorStateRelativePath]
  exact (show ".nix-seal".toList ++ ['/'] <+: ".nix-seal/generator-state/v1".toList by decide).trans
    (List.prefix_append _ _)

theorem legacy_apart (id : Id) : legacyPromptState ≠ generatorStateRelativePath id ∧
    legacyPromptState ∉ ancestors (generatorStateRelativePath id) := by
  have differs : ¬legacyPromptState.toList <+: (generatorStateRelativePath id).toList := by
    rw [toList_generatorStateRelativePath]
    intro front
    have shared := List.prefix_of_prefix_length_le front
      (List.prefix_append ".nix-seal/generator-state/v1".toList _) (by decide)
    exact absurd shared (by decide)
  refine ⟨fun same => differs (same ▸ List.prefix_rfl), fun inside => differs ?_⟩
  exact (List.prefix_append _ _).trans (mem_ancestors.mp inside)

/-- No output stands at or below the old place of prompt responses. -/
def LegacyClear (plan : Plan) (walked : Id → Prop) : Prop :=
  ∀ id, walked id → ∀ generator, plan.generators[id]? = some generator →
    ∀ path ∈ Policy.outputPaths plan generator,
      path ≠ legacyPromptState ∧ legacyPromptState ∉ ancestors path

theorem legacy_of_turns (turns : Turns M plan replace order before after) (some_order : order ≠ [])
    (absent : before legacyPromptState = none) :
    rejectLegacyRepositoryPromptState after = .ok () ↔ LegacyClear plan (· ∈ order) := by
  rw [rejectLegacyRepositoryPromptState_eq_ok]
  constructor
  · rintro ⟨-, missing⟩ id listed generator stored path member
    obtain ⟨above, file, here⟩ := turns.there listed stored path member
    refine ⟨?_, fun inside => ?_⟩
    · rintro rfl
      simp [missing] at here
    · obtain ⟨found, there⟩ := above _ inside
      simp [missing] at there
  · intro clear
    constructor
    · intro file here
      obtain ⟨id, listed⟩ := List.exists_mem_of_ne_nil order some_order
      obtain ⟨found, there⟩ := (turns.state_there listed).1 _ (privateRoot_mem_ancestors id)
      simp [here] at there
    · by_contra present
      obtain ⟨id, listed, generator, stored, destination, member, reached⟩ :=
        turns.appears absent present
      rcases List.mem_append.mp member with output | state
      · obtain ⟨different, outside⟩ := clear id listed generator stored destination output
        rcases reached with same | inside
        · exact different same.symm
        · exact outside inside
      · rw [List.mem_singleton.mp state] at reached
        rcases reached with same | inside
        · exact (legacy_apart id).1 same
        · exact (legacy_apart id).2 inside

end Turns

/-! ## Remembered responses -/

/-- Private directories stay, and what can be followed still can. -/
def Keeps (before after : Tree) : Prop :=
  ∀ path, (before path = some privateDirectory → after path = some privateDirectory) ∧
    (pathExists before path = true → pathExists after path = true)

theorem Keeps.refl (tree : Tree) : Keeps tree tree := fun _ => ⟨id, id⟩

theorem Keeps.trans {first second third : Tree} (early : Keeps first second)
    (late : Keeps second third) : Keeps first third := fun path =>
  ⟨fun here => (late path).1 ((early path).1 here), fun here => (late path).2 ((early path).2 here)⟩

theorem keeps_grow (tree : Tree) (made : List String) : Keeps tree (tree.grow true made []) := by
  refine fun path => ⟨grow_private true made [], fun here => ?_⟩
  unfold pathExists at here ⊢
  cases found : tree path with
  | none => simp [found] at here
  | some node => cases node <;> simp_all [Tree.grow]

theorem keeps_writePrivateBytesAtomic {M : Machine} {home next : Tree} {path : String} {bytes : Bytes}
    (written : writePrivateBytesAtomic M home path bytes = .ok next) : Keeps home next := by
  have replaced : (∀ directory, home path ≠ some (.directory directory)) ∧
      ∃ file, next = Function.update home path (some (.file file)) := by
    unfold writePrivateBytesAtomic at written
    split at written
    · rename_i missing
      cases written
      exact ⟨by simp [missing], _, rfl⟩
    · rename_i file here
      split at written
      · cases written
      · cases written
        exact ⟨by simp [here], _, rfl⟩
    · cases written
  obtain ⟨no_directory, file, rfl⟩ := replaced
  intro other
  by_cases here : other = path
  · subst here
    refine ⟨fun found => absurd found (no_directory _), fun _ => ?_⟩
    simp [pathExists]
  · simp [pathExists, Function.update_of_ne here]

section Prompts

variable {M : Machine} {plan : Plan} {interactive : Bool} {explicit : Std.TreeMap Id String}

theorem generatorPromptStatePath_eq_ok {home after : Tree} {generatorId promptId : Id} :
    generatorPromptStatePath M home generatorId promptId = .ok after ↔ M.stateHome = .ok () ∧
      (∀ directory ∈ ancestors (promptStateRelativePath M generatorId promptId),
        home directory = none ∨ home directory = some privateDirectory) ∧
      after = home.grow true (ancestors (promptStateRelativePath M generatorId promptId)) [] := by
  rw [generatorPromptStatePath, bind_eq_ok]
  simp only [foldlM_ensurePrivateDirectory]
  exact ⟨fun ⟨(), opened⟩ => opened, fun opened => ⟨(), opened⟩⟩

theorem keeps_persistGeneratorPrompts {generatorId : Id} {generator : Generator}
    {responses : List Bytes} {home next : Tree}
    (persisted : persistGeneratorPrompts M generatorId generator responses home = .ok next) :
    Keeps home next := by
  rw [persistGeneratorPrompts, guard_eq_ok] at persisted
  refine foldlM_eq_ok_induction persisted.2 (fun _ (state : Tree) => Keeps home state)
    (.refl home) ?_
  intro _ response before after _ stepped kept
  refine kept.trans ?_
  unfold persistGeneratorPrompt at stepped
  split at stepped
  · obtain ⟨grown, opened, written⟩ := bind_eq_ok.mp stepped
    obtain ⟨-, -, rfl⟩ := generatorPromptStatePath_eq_ok.mp opened
    exact (keeps_grow _ _).trans (keeps_writePrivateBytesAtomic written)
  · cases stepped
    exact .refl _

/-- The response to a prompt can be found without a change of the remembered ones. -/
structure Answered (M : Machine) (interactive : Bool) (home : Tree) (declared : Id × (Id × Bool)) :
    Prop where
  transient : declared.2.2 = false → interactive = true
  free : declared.2.2 = true → M.stateHome = .ok ()
  directories : declared.2.2 = true →
    ∀ directory ∈ ancestors (promptStateRelativePath M declared.2.1 declared.1),
      home directory = some privateDirectory
  response : declared.2.2 = true → interactive = false →
    pathExists home (promptStateRelativePath M declared.2.1 declared.1) = true

theorem Answered.keep {home later : Tree} {declared : Id × (Id × Bool)}
    (answered : Answered M interactive home declared) (keeps : Keeps home later) :
    Answered M interactive later declared where
  transient := answered.transient
  free := answered.free
  directories persistent directory inside :=
    (keeps directory).1 (answered.directories persistent directory inside)
  response persistent remote := (keeps _).2 (answered.response persistent remote)

theorem answered_of_resolvePrompt {resolved next : PromptSources} {declared : Id × (Id × Bool)}
    (stepped : resolvePrompt M interactive explicit resolved declared = .ok next) :
    Keeps resolved.home next.home ∧
      (explicit[declared.1]? = none → Answered M interactive next.home declared) := by
  obtain ⟨promptId, generatorId, persistent⟩ := declared
  unfold resolvePrompt at stepped
  split at stepped
  · rename_i path given
    cases stepped
    exact ⟨.refl _, fun missing => by simp [given] at missing⟩
  · cases persistent with
    | true =>
        obtain ⟨home, opened, stepped⟩ := bind_eq_ok.mp stepped
        obtain ⟨free, entered, rfl⟩ := generatorPromptStatePath_eq_ok.mp opened
        have directories : ∀ directory ∈ ancestors (promptStateRelativePath M generatorId promptId),
            resolved.home.grow true (ancestors (promptStateRelativePath M generatorId promptId)) []
              directory = some privateDirectory := by
          intro directory inside
          rcases entered directory inside with missing | found
          · exact grow_of_missing true [] missing inside
          · exact grow_private true _ [] found
        dsimp only at stepped
        split at stepped
        · rename_i present
          cases stepped
          exact ⟨keeps_grow _ _, fun _ => ⟨nofun, fun _ => free, fun _ => directories,
            fun _ _ => present⟩⟩
        · split at stepped
          · rename_i asked
            cases stepped
            exact ⟨keeps_grow _ _, fun _ => ⟨nofun, fun _ => free, fun _ => directories,
              fun _ remote => absurd asked (by simp [remote])⟩⟩
          · cases stepped
    | false =>
        simp only [Bool.false_eq_true, if_false] at stepped
        split at stepped
        · rename_i asked
          cases stepped
          exact ⟨.refl _, fun _ => ⟨fun _ => asked, nofun, nofun, nofun⟩⟩
        · cases stepped

theorem resolvePrompt_of_answered {resolved : PromptSources} {declared : Id × (Id × Bool)}
    (answered : explicit[declared.1]? = none → Answered M interactive resolved.home declared) :
    ∃ sources, resolvePrompt M interactive explicit resolved declared =
      .ok ⟨sources, resolved.home⟩ := by
  obtain ⟨promptId, generatorId, persistent⟩ := declared
  unfold resolvePrompt
  cases given : explicit[promptId]? with
  | some path => exact ⟨_, rfl⟩
  | none =>
      have known := answered given
      cases persistent with
      | true =>
          have opened : generatorPromptStatePath M resolved.home generatorId promptId =
              .ok resolved.home := by
            refine generatorPromptStatePath_eq_ok.mpr ⟨known.free rfl, fun directory inside =>
              .inr (known.directories rfl directory inside), (grow_complete ?_).symm⟩
            intro directory inside
            simp [known.directories rfl directory inside]
          simp only [if_true, opened, ok_bind]
          cases present : pathExists resolved.home (promptStateRelativePath M generatorId promptId) with
          | true => exact ⟨_, rfl⟩
          | false =>
              cases asked : interactive with
              | true => exact ⟨_, rfl⟩
              | false => simp [known.response rfl asked] at present
      | false =>
          simp only [Bool.false_eq_true, if_false, known.transient rfl, if_true]
          exact ⟨_, rfl⟩

/-- What was answered once is answered again. -/
theorem validateGeneratorPromptFiles_again {order : List Id} {args again : GenerateArgs}
    {home later : Tree} {prompts : PromptSources}
    (validated : validateGeneratorPromptFiles M plan order args home = .ok prompts)
    (files : again.promptFiles = args.promptFiles) (asks : again.interactive = args.interactive)
    (keeps : Keeps prompts.home later) :
    ∃ sources, validateGeneratorPromptFiles M plan order again later = .ok ⟨sources, later⟩ := by
  obtain ⟨explicit, parsed, validated⟩ := bind_eq_ok.mp validated
  obtain ⟨declared, collected, validated⟩ := bind_eq_ok.mp validated
  rw [guard_eq_ok] at validated
  obtain ⟨known, resolved⟩ := validated
  have answered : ∀ entry ∈ declared.toList, explicit[entry.1]? = none →
      Answered M args.interactive prompts.home entry := by
    refine foldlM_eq_ok_induction resolved (fun done (state : PromptSources) =>
      ∀ entry ∈ done, explicit[entry.1]? = none → Answered M args.interactive state.home entry)
      (by simp) ?_
    intro done entry before after _ stepped earlier other member missing
    obtain ⟨kept, last⟩ := answered_of_resolvePrompt stepped
    rcases List.mem_append.mp member with early | here
    · exact (earlier other early missing).keep kept
    · cases List.mem_singleton.mp here
      exact last missing
  obtain ⟨sources, ended⟩ : ∃ sources, declared.toList.foldlM
      (resolvePrompt M args.interactive explicit) ⟨{}, later⟩ = .ok ⟨sources, later⟩ := by
    generalize ({} : Std.TreeMap Id (Option String)) = sources
    revert answered
    generalize declared.toList = entries
    intro answered
    induction entries generalizing sources with
    | nil => exact ⟨sources, rfl⟩
    | cons entry rest ih =>
        obtain ⟨here, others⟩ := List.forall_mem_cons.mp answered
        obtain ⟨next, stepped⟩ := @resolvePrompt_of_answered M args.interactive explicit
          ⟨sources, later⟩ entry fun missing => (here missing).keep keeps
        obtain ⟨final, folded⟩ := ih next others
        exact ⟨final, by rw [List.foldlM_cons, stepped, ok_bind]; exact folded⟩
  refine ⟨sources, bind_eq_ok.mpr ⟨explicit, files ▸ parsed, bind_eq_ok.mpr ⟨declared, collected,
    guard_eq_ok.mpr ⟨known, ?_⟩⟩⟩⟩
  rw [asks]
  exact ended

end Prompts

/-! ## The second run -/

section Again

variable {M : Machine} {plan : Plan} {args : GenerateArgs} {order : List Id}
  {repository home : Tree} {done : Generation}

/-- The same arguments without `--replace`. -/
def GenerateArgs.keeping (args : GenerateArgs) : GenerateArgs := { args with replace := false }

/-- A second run that only finds everything unchanged. -/
structure Repetition (M : Machine) (plan : Plan) (args : GenerateArgs) (done again : Generation) :
    Prop where
  ran : runGenerate M plan args.keeping done.repository done.home = .ok again
  repository : again.repository = done.repository
  home : again.home = done.home
  executed : again.executed = []
  unchanged : ∀ report ∈ again.outputs, report.action = .unchanged
  secrets : ∀ id generator, Reaches plan args.generator id → plan.generators[id]? = some generator →
    ∀ output ∈ generator.outputs, ∃ report ∈ again.outputs,
      report.generator = id ∧ report.output = output
  publicOutputs : ∀ id generator, Reaches plan args.generator id →
    plan.generators[id]? = some generator → ∀ output ∈ generator.publicOutputs,
      ∃ report ∈ again.outputs, report.generator = id ∧ report.output = output.id ∧
        report.path = output.destination

/-- What must hold before a run so that it has nothing left to do when it is repeated. -/
structure Repeatable (M : Machine) (plan : Plan) (args : GenerateArgs) (repository : Tree) :
    Prop where
  legacy : LegacyClear plan (Reaches plan args.generator)
  readable : ∀ front id back generator,
    generatorOrder plan args.generator = .ok (front ++ id :: back) →
    plan.generators[id]? = some generator →
      Short M id generator ∨ (args.replace = false ∧ Standing M plan repository front id generator)
  apart : ∀ front id back generator,
    generatorOrder plan args.generator = .ok (front ++ id :: back) →
    plan.generators[id]? = some generator → ∀ other, Reaches plan args.generator other →
      generatorStateRelativePath other ∈ Policy.outputPaths plan generator →
        (args.replace = true ∧ other ∈ back) ∨
          (args.replace = false ∧ Standing M plan repository front id generator)
  directories : args.replace = true → ∀ id, Reaches plan args.generator id →
    ∀ directory ∈ ancestors (generatorStateRelativePath id),
      repository directory = some privateDirectory ∨
        (repository directory = none ∧ M.restrictive = true) ∨
          ∃ other, Reaches plan args.generator other ∧
            parentDirectory (generatorStateRelativePath other) = some directory

theorem mem_unchangedLines {id : Id} {generator : Generator} :
    (∀ report ∈ unchangedLines plan id generator, report.action = .unchanged) ∧
      (∀ output ∈ generator.outputs, ∃ report ∈ unchangedLines plan id generator,
        report.generator = id ∧ report.output = output) ∧
      ∀ output ∈ generator.publicOutputs, ∃ report ∈ unchangedLines plan id generator,
        report.generator = id ∧ report.output = output.id ∧ report.path = output.destination := by
  refine ⟨fun report member => ?_, fun output member => ?_, fun output member => ?_⟩
  · rcases List.mem_append.mp member with secret | shown
    · obtain ⟨_, -, rfl⟩ := List.mem_map.mp secret
      rfl
    · obtain ⟨_, -, rfl⟩ := List.mem_map.mp shown
      rfl
  · exact ⟨_, List.mem_append_left _ (List.mem_map_of_mem member), rfl, rfl⟩
  · exact ⟨_, List.mem_append_right _ (List.mem_map_of_mem member), rfl, rfl, rfl⟩

/-- The loop leaves generators with nothing left to do alone. -/
theorem foldlM_of_upToDate {sources : Std.TreeMap Id (Option String)} {generation : Generation}
    (accepted : Policy.validate M.policy plan = .ok ()) (kept : args.replace = false)
    (upToDate : ∀ id ∈ order, ∃ generator, plan.generators[id]? = some generator ∧
      UpToDate M plan generation.repository id generator) :
    ∃ reports, order.foldlM (generateOne M plan args sources) generation =
        .ok { generation with outputs := generation.outputs ++ reports } ∧
      (∀ report ∈ reports, report.action = .unchanged) ∧
      ∀ id ∈ order, ∀ generator, plan.generators[id]? = some generator →
        unchangedLines plan id generator ⊆ reports := by
  induction order generalizing generation with
  | nil => exact ⟨[], by simp [pure, Except.pure], by simp, by simp⟩
  | cons id rest ih =>
      obtain ⟨generator, stored, here⟩ := upToDate id List.mem_cons_self
      have stepped := @generateOne_of_upToDate M plan id generator args sources generation accepted
        kept stored here
      obtain ⟨reports, folded, unchanged, lines⟩ :=
        @ih { generation with outputs := generation.outputs ++ unchangedLines plan id generator }
          fun other member => upToDate other (List.mem_cons_of_mem _ member)
      refine ⟨unchangedLines plan id generator ++ reports, ?_, ?_, ?_⟩
      · rw [List.foldlM_cons, stepped, ok_bind, folded, List.append_assoc]
      · exact List.forall_mem_append.mpr ⟨mem_unchangedLines.1, unchanged⟩
      · intro other member second known
        rcases List.mem_cons.mp member with rfl | later
        · cases stored.symm.trans known
          exact List.subset_append_left _ _
        · exact List.Subset.trans (lines other later second known) (List.subset_append_right _ _)

/-- A loop that runs nothing finds every generator with nothing left to do. -/
theorem upToDate_of_foldlM {sources : Std.TreeMap Id (Option String)} {generation again : Generation}
    (accepted : Policy.validate M.policy plan = .ok ()) (kept : args.replace = false)
    (stored : ∀ id ∈ order, ∃ generator, plan.generators[id]? = some generator)
    (folded : order.foldlM (generateOne M plan args sources) generation = .ok again)
    (idle : again.executed = []) : generation.executed = [] ∧
      ∀ id ∈ order, ∀ generator, plan.generators[id]? = some generator →
        UpToDate M plan again.repository id generator := by
  induction order using List.reverseRecOn generalizing again with
  | nil =>
      cases folded
      exact ⟨idle, by simp⟩
  | append_singleton front last ih =>
      rw [List.foldlM_append] at folded
      obtain ⟨middle, early, folded⟩ := bind_eq_ok.mp folded
      rw [List.foldlM_cons] at folded
      obtain ⟨next, stepped, folded⟩ := bind_eq_ok.mp folded
      cases folded
      obtain ⟨generator, known⟩ := stored last (by simp)
      rcases generateOne_cases known stepped with
        ⟨reports, chosen, -, -, -, executed⟩ | ⟨_, _, _, batch, _, _, wrote⟩
      · rw [kept] at chosen
        obtain ⟨grown, -, -, here⟩ := upToDate_of_unchanged accepted known chosen
        obtain ⟨idle_before, earlier⟩ := ih (fun id member => stored id (by simp [member])) early
          (executed ▸ idle)
        refine ⟨idle_before, fun id member second found => ?_⟩
        rcases List.mem_append.mp member with before | here'
        · have upToDate := earlier id before second found
          obtain ⟨validation, file, declared, placed, owner, bound, decoded⟩ := upToDate.recorded
          rw [grown]
          exact ⟨fun path inside => (upToDate.outputs path inside).grow true _ [],
            fun directory inside => grow_private true _ [] (upToDate.directories directory inside),
            validation, file, declared, grow_of_file true _ [] placed, owner, bound, decoded⟩
        · cases List.mem_singleton.mp here'
          cases known.symm.trans found
          exact here
      · simp [wrote.executed] at idle

theorem keeps_of_foldlM {sources : Std.TreeMap Id (Option String)} {generation : Generation}
    (stored : ∀ id ∈ order, ∃ generator, plan.generators[id]? = some generator)
    (folded : order.foldlM (generateOne M plan args sources) generation = .ok done) :
    Keeps generation.home done.home := by
  refine foldlM_eq_ok_induction folded
    (fun _ (state : Generation) => Keeps generation.home state.home) (.refl _) ?_
  intro _ id before after listed stepped kept
  obtain ⟨generator, known⟩ := stored id listed
  refine kept.trans ?_
  rcases generateOne_cases known stepped with ⟨_, -, -, same, -⟩ | ⟨_, _, _, _, _, _, wrote⟩
  · rw [same]
    exact .refl _
  · exact keeps_persistGeneratorPrompts wrote.persisted

/-- A run repeats itself exactly when it leaves everything up to date. -/
theorem repeats_iff_upToDate (accepted : Policy.validate M.policy plan = .ok ())
    {prompts : PromptSources} (ran : Ran M plan args repository home order prompts done) :
    (∃ again, Repetition M plan args done again) ↔
      rejectLegacyRepositoryPromptState done.repository = .ok () ∧
        ∀ id ∈ order, ∀ generator, plan.generators[id]? = some generator →
          UpToDate M plan done.repository id generator := by
  obtain ⟨listed, distinct, exact, stored⟩ := generatorOrder_exact accepted ran.ordered
  constructor
  · rintro ⟨again, repetition⟩
    obtain ⟨_, second, repeated⟩ := runGenerate_eq_ok.mp repetition.ran
    cases ran.ordered.symm.trans repeated.ordered
    refine ⟨repeated.clear, ?_⟩
    rw [← repetition.repository]
    exact (upToDate_of_foldlM accepted rfl stored repeated.folded repetition.executed).2
  · rintro ⟨clear, upToDate⟩
    obtain ⟨sources, answered⟩ := @validateGeneratorPromptFiles_again M plan order args args.keeping
      home done.home prompts ran.answered rfl rfl (keeps_of_foldlM stored ran.folded)
    obtain ⟨reports, folded, unchanged, lines⟩ := @foldlM_of_upToDate M plan args.keeping order
      sources { repository := done.repository, home := done.home } accepted rfl fun id member => by
        obtain ⟨generator, known⟩ := stored id member
        exact ⟨generator, known, upToDate id member generator known⟩
    have again : runGenerate M plan args.keeping done.repository done.home =
        .ok { repository := done.repository, home := done.home, outputs := reports } :=
      runGenerate_eq_ok.mpr ⟨order, ⟨sources, done.home⟩, clear, ran.ordered, ran.authorized,
        answered, folded⟩
    have reported : ∀ id generator, Reaches plan args.generator id →
        plan.generators[id]? = some generator → unchangedLines plan id generator ⊆ reports := by
      intro id generator reaches known
      rw [← exact] at reaches
      exact lines id reaches generator known
    refine ⟨_, again, rfl, rfl, rfl, unchanged, ?_, ?_⟩
    · intro id generator reaches known output member
      obtain ⟨report, inside, facts⟩ := mem_unchangedLines.2.1 output member
      exact ⟨report, reported id generator reaches known inside, facts⟩
    · intro id generator reaches known output member
      obtain ⟨report, inside, facts⟩ := mem_unchangedLines.2.2 output member
      exact ⟨report, reported id generator reaches known inside, facts⟩

/-- The same command without `--replace` has nothing left to do exactly when the states can be read
back, their directories are private, no output stands where responses used to be kept, and a
generator with an output at the state of one of them had nothing to do, or was followed by that one
in a run with `--replace`. -/
theorem runGenerate_again_iff (accepted : Policy.validate M.policy plan = .ok ())
    (codec : ∀ state bytes, M.stateToJcs state = some bytes → M.stateFromJson bytes = some state)
    (sealed : Sealed M)
    (declared : ∀ id generator, Reaches plan args.generator id →
      plan.generators[id]? = some generator → generator.validation ≠ none)
    (rooted : Rooted repository) (ran : runGenerate M plan args repository home = .ok done) :
    (∃ again, Repetition M plan args done again) ↔ Repeatable M plan args repository := by
  obtain ⟨order, prompts, ran⟩ := runGenerate_eq_ok.mp ran
  obtain ⟨listed, distinct, exact, stored⟩ := generatorOrder_exact accepted ran.ordered
  rw [repeats_iff_upToDate accepted ran]
  rw [← exact] at declared
  have turns : Turns M plan args.replace order repository done.repository := by
    refine turns_of_foldlM accepted sealed (fun id member => ?_) ran.folded
    obtain ⟨generator, known⟩ := stored id member
    obtain ⟨validation, given⟩ := Option.ne_none_iff_exists'.mp (declared id generator member known)
    exact ⟨generator, validation, known, given⟩
  have recorded : ∀ front id back generator, order = front ++ id :: back →
      plan.generators[id]? = some generator → _ :=
    fun front id back generator whole known =>
      recorded_of_turns accepted codec distinct rooted turns whole known
  have ordered : ∀ {other}, generatorOrder plan args.generator = .ok other ↔ order = other := by
    intro other
    rw [ran.ordered, Except.ok.injEq]
  rw [legacy_of_turns turns (List.ne_nil_of_mem listed)
    (rejectLegacyRepositoryPromptState_eq_ok.mp ran.clear).2]
  constructor
  · rintro ⟨clear, upToDate⟩
    have matching : ∀ front id back generator, order = front ++ id :: back →
        plan.generators[id]? = some generator → Recorded M done.repository id generator := by
      rintro front id back generator rfl known
      exact (upToDate id (by simp) generator known).recorded
    constructor
    case legacy => rwa [← exact]
    case readable =>
      intro front id back generator whole known
      have divided := ordered.mp whole
      exact ((recorded front id back generator divided known).mp
        (matching front id back generator divided known)).1
    case apart =>
      rw [← exact]
      intro front id back generator whole known other walked member
      obtain ⟨early, late, divided⟩ := List.append_of_mem walked
      obtain ⟨second, other_known⟩ := stored other walked
      exact ((recorded early other late second divided other_known).mp
        (matching early other late second divided other_known)).2 front id back generator
          (ordered.mp whole) known member
    case directories =>
      rw [← exact]
      intro replaces id member
      obtain ⟨generator, known⟩ := stored id member
      exact (turns.directories member).mp (upToDate id member generator known).directories replaces
  · intro repeatable
    have legacy := repeatable.legacy
    have apart := repeatable.apart
    have directories := repeatable.directories
    rw [← exact] at legacy apart directories
    refine ⟨legacy, fun id member generator known => ⟨turns.there member known,
      (turns.directories member).mpr fun replaces => directories replaces id member, ?_⟩⟩
    obtain ⟨front, back, whole⟩ := List.append_of_mem member
    refine (recorded front id back generator whole known).mpr
      ⟨repeatable.readable front id back generator (ordered.mpr whole) known, ?_⟩
    intro early other late second divided other_known inside
    exact apart early other late second (ordered.mpr divided) other_known id member inside

end Again

namespace Sample

/-- A generator with one public output and a validation value. -/
def fingerprinted : Generator where
  executable := "/nix/store/fingerprinted/bin/generate"
  outputs := []
  publicOutputs := ["a"].filterMap publicOutput
  validation := some "1"

/-- The sample plan with this generator. -/
def fingerprintedPlan : Plan :=
  { Policy.Sample.plan with
    generators := Std.TreeMap.ofList [(Policy.Sample.admin, fingerprinted)] }

theorem validate_fingerprinted :
    Policy.validate Policy.Sample.environment fingerprintedPlan = .ok () :=
  Policy.Sample.validate_of_identities rfl rfl rfl (by decide) (by decide +kernel)

/-- The state of the generator. -/
def fingerprintedState : GeneratorStateV1 := stateOf Policy.Sample.admin fingerprinted "1"

/-- The bytes of this state. -/
def fingerprintedBytes : Bytes :=
  utf8 (String.ofList (("('generatorId':'admin','outputs':[],'publicOutputs':['a']," ++
    "'schema':'nix-seal.generator-state.v1','validation':'1')").toList.map Policy.Sample.spell))

/-- A machine that knows this state, with the given mask. -/
def machine (restrictive : Bool) : Machine where
  policy := Policy.Sample.environment
  identityMatchesRecipient _ := false
  encrypt _ _ _ := none
  decrypt _ := none
  stateToJcs state := if state = fingerprintedState then some fingerprintedBytes else none
  stateFromJson bytes := if bytes = fingerprintedBytes then some fingerprintedState else none
  restrictive
  locked := .ok ()
  inode _ _ := 1
  stateHome := .ok ()
  repositoryKey := "repository"
  persistentPromptIdKey _ id := id.value
  readGeneratorPrompts _ _ _ := .ok []
  run _ _ _ := successfulRun [] [[7]]

theorem regular_of_shared : false = true → true = true := fun _ => rfl

/-- A repository that holds the public output and nothing else. -/
def populated : Tree := fun path =>
  if path = "public" then some (.directory ⟨true, false⟩)
  else if path = "public/a" then some (.file ⟨0, [6], true, false, regular_of_shared⟩)
  else none

/-- Generation of the sample output, whether or not it exists. -/
def replaceAll : GenerateArgs where
  generator := Policy.Sample.admin
  replace := true
  promptFiles := []
  interactive := false

theorem stored_fingerprinted {id : Id} {generator : Generator} :
    fingerprintedPlan.generators[id]? = some generator ↔
      id = Policy.Sample.admin ∧ generator = fingerprinted := by
  rw [fingerprintedPlan, Ordered.getElem?_ofList_eq_some (by simp), List.mem_singleton,
    Prod.mk.injEq]

theorem reaches_fingerprinted {id : Id} (reached : Reaches fingerprintedPlan Policy.Sample.admin id) :
    id = Policy.Sample.admin := by
  induction reached with
  | refl => rfl
  | tail _ needed ih =>
      subst ih
      have alone : Policy.generatorNeeds fingerprintedPlan Policy.Sample.admin = [] := by decide
      rw [DependsOn, alone] at needed
      cases needed

theorem codec_machine (restrictive : Bool) (state : GeneratorStateV1) (bytes : Bytes)
    (encoded : (machine restrictive).stateToJcs state = some bytes) :
    (machine restrictive).stateFromJson bytes = some state := by
  simp only [machine, Option.ite_none_right_eq_some, Option.some.injEq] at encoded ⊢
  obtain ⟨rfl, rfl⟩ := encoded
  exact ⟨rfl, rfl⟩

theorem declared_fingerprinted (id : Id) (generator : Generator)
    (_ : Reaches fingerprintedPlan Policy.Sample.admin id)
    (stored : fingerprintedPlan.generators[id]? = some generator) :
    generator.validation ≠ none := by
  obtain ⟨rfl, rfl⟩ := stored_fingerprinted.mp stored
  exact nofun

theorem rooted_populated : Rooted populated := by
  intro path present directory inside
  unfold populated at present
  split at present
  · rename_i same
    subst same
    rw [show ancestors "public" = [] by decide] at inside
    cases inside
  · split at present
    · rename_i same
      subst same
      rw [show ancestors "public/a" = ["public"] by decide, List.mem_singleton] at inside
      subst inside
      exact ⟨_, rfl⟩
    · exact absurd rfl present

theorem sealed_machine (restrictive : Bool) : Sealed (machine restrictive) := by
  intro destination recipients plaintext ciphertext encrypted
  cases encrypted

theorem populated_of_private (directory : String)
    (inside : directory ∈ ancestors (generatorStateRelativePath Policy.Sample.admin)) :
    populated directory = none := by
  have above : ∀ directory ∈ ancestors (generatorStateRelativePath Policy.Sample.admin),
      directory ≠ "public" ∧ directory ≠ "public/a" := by
    decide
  obtain ⟨other, file⟩ := above directory inside
  simp [populated, other, file]

/-- With a restrictive mask every condition is met. -/
theorem repeatable_fingerprinted :
    Repeatable (machine true) fingerprintedPlan replaceAll populated where
  legacy := by
    intro id _ generator stored
    obtain ⟨rfl, rfl⟩ := stored_fingerprinted.mp stored
    decide
  readable := by
    intro _ id _ generator _ stored
    obtain ⟨rfl, rfl⟩ := stored_fingerprinted.mp stored
    refine .inl fun validation bytes _ encoded => ?_
    simp only [machine, Option.ite_none_right_eq_some, Option.some.injEq] at encoded
    rw [← encoded.2]
    decide +kernel
  apart := by
    intro _ id _ generator _ stored other reached member
    obtain ⟨rfl, rfl⟩ := stored_fingerprinted.mp stored
    cases reaches_fingerprinted reached
    exact absurd member (by decide)
  directories := by
    intro _ id reached directory inside
    cases reaches_fingerprinted reached
    exact .inr (.inl ⟨populated_of_private directory inside, rfl⟩)

theorem ran_fingerprinted (restrictive : Bool) : ∃ done,
    runGenerate (machine restrictive) fingerprintedPlan replaceAll populated (fun _ => none) =
      .ok done := by
  have passed : (runGenerate (machine restrictive) fingerprintedPlan replaceAll populated
      (fun _ => none)).toBool = true := by
    cases restrictive <;> decide +kernel
  cases result : runGenerate (machine restrictive) fingerprintedPlan replaceAll populated
      (fun _ => none) with
  | ok done => exact ⟨done, rfl⟩
  | error error => simp [result, Except.toBool] at passed

end Sample

/-- With a restrictive mask the run repeats itself. -/
theorem runGenerate_again_fingerprinted : ∃ done,
    runGenerate (Sample.machine true) Sample.fingerprintedPlan Sample.replaceAll Sample.populated
      (fun _ => none) = .ok done ∧
    ∃ again, Repetition (Sample.machine true) Sample.fingerprintedPlan Sample.replaceAll done
      again := by
  obtain ⟨done, ran⟩ := Sample.ran_fingerprinted true
  have exact := @runGenerate_again_iff (Sample.machine true) Sample.fingerprintedPlan
    Sample.replaceAll Sample.populated (fun _ => none) done Sample.validate_fingerprinted
    (Sample.codec_machine true) (Sample.sealed_machine true) Sample.declared_fingerprinted
    Sample.rooted_populated ran
  exact ⟨done, ran, exact.mpr Sample.repeatable_fingerprinted⟩

/-- With the usual mask the second run refuses the directory that the first one made. -/
theorem runGenerate_again_refused :
    Policy.validate (Sample.machine false).policy Sample.fingerprintedPlan = .ok () ∧
    (∀ id generator, Reaches Sample.fingerprintedPlan Sample.replaceAll.generator id →
      Sample.fingerprintedPlan.generators[id]? = some generator → generator.validation ≠ none) ∧
    ∃ done, runGenerate (Sample.machine false) Sample.fingerprintedPlan Sample.replaceAll
        Sample.populated (fun _ => none) = .ok done ∧
      runGenerate (Sample.machine false) Sample.fingerprintedPlan Sample.replaceAll.keeping
          done.repository done.home =
        .error (bail "generator state directory has unsafe ownership or permissions") ∧
      ¬∃ again, Repetition (Sample.machine false) Sample.fingerprintedPlan Sample.replaceAll done
        again := by
  obtain ⟨done, ran⟩ := Sample.ran_fingerprinted false
  have twice : (runGenerate (Sample.machine false) Sample.fingerprintedPlan Sample.replaceAll
      Sample.populated (fun _ => none) >>= fun done =>
        (runGenerate (Sample.machine false) Sample.fingerprintedPlan Sample.replaceAll.keeping
          done.repository done.home).map fun again => again.executed.length) =
      .error (bail "generator state directory has unsafe ownership or permissions") := by
    decide +kernel
  rw [ran, ok_bind] at twice
  cases again : runGenerate (Sample.machine false) Sample.fingerprintedPlan
      Sample.replaceAll.keeping done.repository done.home with
  | ok second => simp [again, Except.map] at twice
  | error error =>
      rw [again] at twice
      cases twice
      refine ⟨Sample.validate_fingerprinted, Sample.declared_fingerprinted, done, ran, again, ?_⟩
      rintro ⟨second, repetition⟩
      exact absurd (again.symm.trans repetition.ran) nofun

end NixSeal.Generate
