import NixSeal.Lib.FileTree
import NixSeal.Policy.Target
import NixSeal.Runtime.Spec

/-!
# Destinations in a generation

Activation creates every output of a generation as a new file and the directories above it.
Outputs are compared as whole texts when a plan or a document is checked, while their files share
one tree; they coexist exactly when no identifier goes on from another with a separator.
-/

namespace NixSeal.Runtime

open Fallible FileTree

/-- What activation reads from an opened entry; its permission bits are only written. -/
structure EntryStatus where
  owner : Nat
  links : Nat
  deriving DecidableEq

/-- The file system that holds a generation, and the user that fills it. -/
structure Volume where
  /-- The names it can store. -/
  fits : List Char → Bool
  /-- `geteuid`. -/
  user : Nat

/-- A generation that is being filled. -/
abbrev GenerationTree := Tree (List Char) EntryStatus

/-- The error of a failed `openat`. -/
def openError : Errno → RuntimeError
  | .notDirectory => .invalidDestination
  | .exist | .noEntry | .invalidName => .io

/-- The part of `open_or_create_private_directory` from `openat` on. -/
def openPrivateDirectory (volume : Volume) (tree : GenerationTree) (parent : List (List Char))
    (name : List Char) : Except RuntimeError (GenerationTree × List (List Char)) := do
  let status ← (openDirectoryAt volume.fits tree parent name).mapError openError
  if status.owner ≠ volume.user then .error .unsafeSource else .ok (tree, parent ++ [name])

/-- `open_or_create_private_directory`; an open directory is known by its path. -/
def openOrCreatePrivateDirectory (volume : Volume) (opened : GenerationTree × List (List Char))
    (name : List Char) : Except RuntimeError (GenerationTree × List (List Char)) :=
  match createAt volume.fits (.directory ⟨volume.user, 2⟩) opened.1 opened.2 name with
  | .ok tree => openPrivateDirectory volume tree opened.2 name
  | .error .exist => openPrivateDirectory volume opened.1 opened.2 name
  | .error _ => .error .io

/-- The part of `create_secret_file_relative` from `openat` on: the new file belongs to the user
and has one link. -/
def createSecretFile (volume : Volume) (opened : GenerationTree × List (List Char))
    (leaf : List Char) : Except RuntimeError GenerationTree := do
  let status : EntryStatus := ⟨volume.user, 1⟩
  let tree ← (createAt volume.fits (.file status) opened.1 opened.2 leaf).mapError openError
  if status.links ≠ 1 ∨ status.owner ≠ volume.user then .error .unsafeSource else .ok tree

/-- `create_secret_file_relative` on the components of a path. -/
def createSecretComponents (volume : Volume) (tree : GenerationTree) (path : List (List Char)) :
    Except RuntimeError GenerationTree :=
  match path.getLast? with
  | none => .error .invalidDestination
  | some leaf => do
      let opened ← path.dropLast.foldlM (openOrCreatePrivateDirectory volume) (tree, [])
      createSecretFile volume opened leaf

/-- `create_secret_file_relative`. -/
def createSecretFileRelative (volume : Volume) (tree : GenerationTree) (relative : String) :
    Except RuntimeError GenerationTree :=
  createSecretComponents volume tree (segments relative)

/-! ## One file after another -/

section Create

variable {volume : Volume}

/-- Entries of the user. -/
def Volume.Owns (volume : Volume) (status : EntryStatus) : Prop := status.owner = volume.user

theorem openPrivateDirectory_eq_ok {tree : GenerationTree} {parent : List (List Char)}
    {name : List Char} {next : GenerationTree × List (List Char)} :
    openPrivateDirectory volume tree parent name = .ok next ↔
      ∃ status, openDirectoryAt volume.fits tree parent name = .ok status ∧ volume.Owns status ∧
        next = (tree, parent ++ [name]) := by
  simp only [openPrivateDirectory, bind_eq_ok, mapError_eq_ok, guard_eq_ok, not_not,
    Except.ok.injEq, Volume.Owns, eq_comm (a := next)]

theorem enters_openOrCreatePrivateDirectory :
    Enters volume.Owns (fun name => volume.fits name = true)
      (openOrCreatePrivateDirectory volume) := by
  intro tree files opened name holds
  cases known : volume.fits name with
  | false =>
      have refused : openOrCreatePrivateDirectory volume (tree, opened) name = .error .io := by
        simp [openOrCreatePrivateDirectory, createAt, known]
      simp [refused, known]
  | true =>
      have entered : ∀ middle, openOrCreatePrivateDirectory volume (tree, opened) name =
          openPrivateDirectory volume middle opened name → ∀ status,
          openDirectoryAt volume.fits middle opened name = .ok status → volume.Owns status →
          Holds volume.Owns middle files (opened ++ [name]) → opened ++ [name] ∉ files →
          ((∃ next, openOrCreatePrivateDirectory volume (tree, opened) name = .ok next) ↔
            volume.fits name = true ∧ opened ++ [name] ∉ files) ∧
          ∀ next, openOrCreatePrivateDirectory volume (tree, opened) name = .ok next →
            next.2 = opened ++ [name] ∧ Holds volume.Owns next.1 files next.2 := by
        intro middle continues status opens owned reached free
        have result : openOrCreatePrivateDirectory volume (tree, opened) name =
            .ok (middle, opened ++ [name]) := by
          rw [continues]
          exact openPrivateDirectory_eq_ok.mpr ⟨status, opens, owned, rfl⟩
        refine ⟨iff_of_true ⟨_, result⟩ ⟨known, free⟩, ?_⟩
        intro next returned
        cases result.symm.trans returned
        exact ⟨rfl, reached⟩
      cases stored : tree (opened ++ [name]) with
      | none =>
          have free := ((holds.eq_none_iff (by simp)).mp stored).1
          obtain ⟨created, opens, reached⟩ :=
            holds.enter_new known stored (show volume.Owns ⟨volume.user, 2⟩ from rfl)
          refine entered _ ?_ _ opens rfl reached fun member => free _ member List.prefix_rfl
          simp only [openOrCreatePrivateDirectory, created]
      | some found =>
          have exists_already : openOrCreatePrivateDirectory volume (tree, opened) name =
              openPrivateDirectory volume tree opened name := by
            simp [openOrCreatePrivateDirectory, createAt, known, stored]
          by_cases member : opened ++ [name] ∈ files
          · have refused : ∀ next,
                openOrCreatePrivateDirectory volume (tree, opened) name ≠ .ok next := by
              intro next returned
              rw [exists_already, openPrivateDirectory_eq_ok,
                holds.openDirectoryAt_file known member] at returned
              obtain ⟨status, opens, -⟩ := returned
              cases opens
            exact ⟨iff_of_false (fun made => made.elim refused)
              fun accepted => accepted.2 member, fun next returned => absurd returned (refused next)⟩
          · obtain ⟨status, opens, owned, reached⟩ :=
              holds.enter_old known stored member
            exact entered tree exists_already status opens owned reached member

theorem createSecretFile_eq_ok {opened : GenerationTree × List (List Char)} {leaf : List Char}
    {final : GenerationTree} : createSecretFile volume opened leaf = .ok final ↔
      createAt volume.fits (.file ⟨volume.user, 1⟩) opened.1 opened.2 leaf = .ok final := by
  simp only [createSecretFile, bind_eq_ok, mapError_eq_ok, guard_eq_ok, ne_eq, not_true,
    or_self, not_false_eq_true, true_and, Except.ok.injEq, exists_eq_right]

theorem creates_createSecretComponents :
    Creates volume.Owns (fun path => path ≠ [] ∧ ∀ name ∈ path, volume.fits name = true)
      (createSecretComponents volume) := by
  have owned : volume.Owns ⟨volume.user, 1⟩ := rfl
  refine creates_of_enters _ enters_openOrCreatePrivateDirectory owned ?_
  intro tree path final
  rcases List.eq_nil_or_concat' path with rfl | ⟨parent, name, rfl⟩
  · simp [createSecretComponents]
  · simp only [createSecretComponents, List.getLast?_concat, List.dropLast_concat, bind_eq_ok,
      createSecretFile_eq_ok]
    constructor
    · rintro ⟨opened, entered, created⟩
      exact ⟨parent, name, opened, rfl, entered, created⟩
    · rintro ⟨front, last, opened, same, entered, created⟩
      obtain ⟨rfl, ends⟩ := List.append_inj' same rfl
      cases ends
      exact ⟨opened, entered, created⟩

end Create

/-! ## Outputs that coexist -/

/-- The components of one path properly begin those of another. -/
def LeadsTo (left right : String) : Prop :=
  segments left <+: segments right ∧ segments left ≠ segments right

/-- No output leads to another, and none fails for the sake of the others, in whatever order they
are created. -/
structure Coexist (volume : Volume) (outputs : List String) : Prop where
  apart : ∀ left ∈ outputs, ∀ right ∈ outputs, ¬LeadsTo left right
  created : ∀ before output after, (before ++ output :: after).Perm outputs →
    ∀ tree, before.foldlM (createSecretFileRelative volume) empty = .ok tree →
      (∃ alone, createSecretFileRelative volume empty output = .ok alone) →
        ∃ next, createSecretFileRelative volume tree output = .ok next

theorem segments_injective : Function.Injective segments := by
  intro left right same
  have joined := congrArg (List.intercalate ['/']) same
  rw [segments, segments, List.intercalate_splitOn, List.intercalate_splitOn] at joined
  exact String.toList_inj.mp joined

/-- One path leads to another when its text goes on with a separator there. -/
theorem leadsTo_iff {left right : String} :
    LeadsTo left right ↔ startsWith (left ++ "/") right = true := by
  have slash : "/".toList = ['/'] := rfl
  rw [LeadsTo, segments, segments, splitOn_prefix_iff, startsWith, decide_eq_true_eq,
    String.toList_append, slash]
  constructor
  · rintro ⟨same | further, different⟩
    · exact absurd (congrArg _ same) different
    · exact further
  · intro further
    refine ⟨.inr further, fun same => ?_⟩
    have joined := congrArg (List.intercalate ['/']) same
    rw [List.intercalate_splitOn, List.intercalate_splitOn] at joined
    have long := further.length_le
    rw [joined, List.length_append, List.length_singleton] at long
    omega

/-- Distinct outputs coexist when no text goes on from another with a separator. -/
theorem coexist_iff {volume : Volume} {outputs : List String} (distinct : outputs.Nodup) :
    Coexist volume outputs ↔
      ∀ left ∈ outputs, ∀ right ∈ outputs, startsWith (left ++ "/") right = false := by
  have apart_iff : (∀ left ∈ outputs, ∀ right ∈ outputs, ¬LeadsTo left right) ↔
      ∀ left ∈ outputs, ∀ right ∈ outputs, startsWith (left ++ "/") right = false := by
    simp only [leadsTo_iff, Bool.not_eq_true]
  rw [← apart_iff]
  refine ⟨Coexist.apart, fun apart => ⟨apart, ?_⟩⟩
  intro before output after permuted tree created ⟨alone, fits⟩
  have paths : (before.map segments).foldlM (createSecretComponents volume) empty = .ok tree := by
    rw [List.foldlM_map]
    exact created
  have holds := creates_createSecretComponents.holds_of_foldlM paths
  have accepted := ((creates_createSecretComponents _ _ (segments output) holds_empty).1.mp
    ⟨alone, fits⟩).1
  refine (creates_createSecretComponents _ _ (segments output) holds).1.mpr ⟨accepted, ?_⟩
  intro file listed
  obtain ⟨earlier, member, rfl⟩ := List.mem_map.mp listed
  have known : earlier ∈ outputs :=
    permuted.mem_iff.mp (List.mem_append_left _ member)
  have output_known : output ∈ outputs := permuted.mem_iff.mp (by simp)
  have different : segments earlier ≠ segments output := by
    intro same
    have nodup := permuted.nodup_iff.mpr distinct
    exact (List.nodup_append.mp nodup).2.2 earlier member output (by simp) (segments_injective same)
  exact ⟨fun leads => apart earlier known output output_known ⟨leads, different⟩,
    fun leads => apart output output_known earlier known ⟨leads, different.symm⟩⟩

/-- No identifier goes on from another with a separator, as secrets and as templates. -/
structure Unnested (secrets templates : Id → Prop) : Prop where
  amongSecrets : ∀ left right, secrets left → secrets right →
    startsWith (left.value ++ "/") right.value = false
  amongTemplates : ∀ left right, templates left → templates right →
    startsWith (left.value ++ "/") right.value = false
  between : ∀ secret template, secrets secret → templates template →
    startsWith (secret.value ++ "/") ("templates/" ++ template.value) = false ∧
      startsWith ("templates/" ++ template.value ++ "/") secret.value = false

theorem startsWith_append (front left right : String) :
    startsWith (front ++ left) (front ++ right) = startsWith left right := by
  simp only [startsWith, String.toList_append, List.prefix_append_right_inj]

theorem coexist_iff_unnested {volume : Volume} {outputs : List String}
    {secrets templates : Id → Prop} (distinct : outputs.Nodup)
    (listed : ∀ text, text ∈ outputs ↔ (∃ id, secrets id ∧ id.value = text) ∨
      ∃ id, templates id ∧ "templates/" ++ id.value = text) :
    Coexist volume outputs ↔ Unnested secrets templates := by
  have secret : ∀ id, secrets id → id.value ∈ outputs :=
    fun id holds => (listed _).mpr (.inl ⟨id, holds, rfl⟩)
  have template : ∀ id, templates id → "templates/" ++ id.value ∈ outputs :=
    fun id holds => (listed _).mpr (.inr ⟨id, holds, rfl⟩)
  rw [coexist_iff distinct]
  constructor
  · intro apart
    refine ⟨?_, ?_, ?_⟩
    · intro left right left_secret right_secret
      exact apart _ (secret left left_secret) _ (secret right right_secret)
    · intro left right left_template right_template
      have below := apart _ (template left left_template) _ (template right right_template)
      rwa [String.append_assoc, startsWith_append] at below
    · intro left right left_secret right_template
      exact ⟨apart _ (secret left left_secret) _ (template right right_template),
        apart _ (template right right_template) _ (secret left left_secret)⟩
  · intro unnested left left_listed right right_listed
    rcases (listed left).mp left_listed with ⟨left, left_holds, rfl⟩ | ⟨left, left_holds, rfl⟩
    · rcases (listed right).mp right_listed with ⟨right, right_holds, rfl⟩ | ⟨right, right_holds, rfl⟩
      · exact unnested.amongSecrets left right left_holds right_holds
      · exact (unnested.between left right left_holds right_holds).1
    · rcases (listed right).mp right_listed with ⟨right, right_holds, rfl⟩ | ⟨right, right_holds, rfl⟩
      · exact (unnested.between right left right_holds left_holds).2
      · rw [String.append_assoc, startsWith_append]
        exact unnested.amongTemplates left right left_holds right_holds

/-! ## Outputs of a document and of a policy -/

/-- The outputs of a target in a phase, below its runtime generation. -/
def phaseOutputs (policy : Policy.TargetPolicy) (phase : ActivationPhase) : List String :=
  (policy.secrets.toList.filter fun entry => entry.2.phase = phase).map
      (fun entry => entry.1.value) ++
    (policy.templates.toList.filter fun entry => entry.2.phase = phase).map
      fun entry => "templates/" ++ entry.1.value

/-- A secret of a phase that the target consumes. -/
def ConsumedIn (plan : Plan) (targetId : Id) (phase : ActivationPhase) (id : Id) : Prop :=
  ∃ secret, plan.secrets[id]? = some secret ∧ secret.phase = phase ∧
    Policy.targetIsConsumer plan secret targetId = true

/-- A template of a phase all of whose secrets the target consumes. -/
def RenderedIn (plan : Plan) (targetId : Id) (phase : ActivationPhase) (id : Id) : Prop :=
  ∃ template, plan.templates[id]? = some template ∧
    Policy.templatePhase plan id template = .ok phase ∧
    ∀ (name : String) (placeholder : TemplatePlaceholder),
      template.placeholders[name]? = some placeholder →
        ∃ secret, plan.secrets[placeholder.secret]? = some secret ∧
          Policy.targetIsConsumer plan secret targetId = true

section Projected

variable {E : Policy.Environment} {plan : Plan} {targetId : Id} {policy : Policy.TargetPolicy}
  {phase : ActivationPhase}

theorem consumedIn_iff (projection : Policy.Projection E plan targetId policy) {id : Id} :
    (∃ secret, policy.secrets[id]? = some secret ∧ secret.phase = phase) ↔
      ConsumedIn plan targetId phase id := by
  have facts := Policy.acceptedPlan_of_validate projection.accepted
  rw [projection.secrets, ConsumedIn]
  cases stored : plan.secrets[id]? with
  | none => simp
  | some secret =>
      obtain ⟨approval, approved⟩ := Policy.targetApprovalPolicy_ok facts (facts.secret stored)
      simp only [Option.bind_some, Policy.projectedSecret, approved, Except.toOption,
        Option.map_some, Option.some.injEq, exists_eq_left']
      by_cases consumer : Policy.targetIsConsumer plan secret targetId = true
      · simp [consumer]
      · simp [consumer]

theorem mem_secrets_iff (projection : Policy.Projection E plan targetId policy) {id : Id} :
    id ∈ policy.secrets ↔ ∃ secret, plan.secrets[id]? = some secret ∧
      Policy.targetIsConsumer plan secret targetId = true := by
  rw [Std.TreeMap.mem_iff_isSome_getElem?, Option.isSome_iff_exists]
  constructor
  · rintro ⟨secret, stored⟩
    obtain ⟨planned, found, -, consumer⟩ :=
      (@consumedIn_iff _ _ _ _ secret.phase projection id).mp ⟨secret, stored, rfl⟩
    exact ⟨planned, found, consumer⟩
  · rintro ⟨planned, found, consumer⟩
    obtain ⟨secret, stored, -⟩ :=
      (@consumedIn_iff _ _ _ _ planned.phase projection id).mpr ⟨planned, found, rfl, consumer⟩
    exact ⟨secret, stored⟩

theorem renderedIn_iff (projection : Policy.Projection E plan targetId policy) {id : Id} :
    (∃ template, policy.templates[id]? = some template ∧ template.phase = phase) ↔
      RenderedIn plan targetId phase id := by
  have facts := Policy.acceptedPlan_of_validate projection.accepted
  rw [projection.templates, RenderedIn]
  cases stored : plan.templates[id]? with
  | none => simp
  | some template =>
      obtain ⟨common, phased⟩ := Policy.templatePhase_ok facts stored
      have complete : (template.placeholders.toList.all fun placeholder =>
          policy.secrets.contains placeholder.2.secret) = true ↔
          ∀ (name : String) (placeholder : TemplatePlaceholder),
            template.placeholders[name]? = some placeholder →
              ∃ secret, plan.secrets[placeholder.secret]? = some secret ∧
                Policy.targetIsConsumer plan secret targetId = true := by
        simp only [List.all_eq_true, Prod.forall, Std.TreeMap.mem_toList_iff_getElem?_eq_some,
          Std.TreeMap.contains_iff_mem, mem_secrets_iff projection]
      simp only [Option.bind_some, Policy.projectedTemplate, phased, Except.toOption,
        Option.map_some, Option.some.injEq, exists_eq_left', Except.ok.injEq, ← complete]
      by_cases all : (template.placeholders.toList.all fun placeholder =>
          policy.secrets.contains placeholder.2.secret) = true
      · simp [all]
      · simp [all]

theorem mem_phaseOutputs (projection : Policy.Projection E plan targetId policy) {text : String} :
    text ∈ phaseOutputs policy phase ↔ (∃ id, ConsumedIn plan targetId phase id ∧ id.value = text) ∨
      ∃ id, RenderedIn plan targetId phase id ∧ "templates/" ++ id.value = text := by
  rw [phaseOutputs, List.mem_append, List.mem_map, List.mem_map]
  simp only [List.mem_filter, Std.TreeMap.mem_toList_iff_getElem?_eq_some, Prod.exists,
    decide_eq_true_eq, ← consumedIn_iff projection, ← renderedIn_iff projection]
  refine or_congr ?_ ?_
  · exact exists_congr fun id => ⟨fun ⟨secret, stored, same⟩ => ⟨⟨secret, stored⟩, same⟩,
      fun ⟨⟨secret, stored⟩, same⟩ => ⟨secret, stored, same⟩⟩
  · exact exists_congr fun id => ⟨fun ⟨template, stored, same⟩ => ⟨⟨template, stored⟩, same⟩,
      fun ⟨⟨template, stored⟩, same⟩ => ⟨template, stored, same⟩⟩

/-- An accepted plan has no secret where a template is rendered. -/
theorem template_not_secret (facts : Policy.AcceptedPlan E plan) {id secretId : Id}
    {template : Template} (stored : plan.templates[id]? = some template)
    (same : secretId.value = "templates/" ++ id.value) : secretId ∉ plan.secrets := by
  have checked := facts.templates id template stored
  simp only [Policy.validateTemplate, guard_eq_ok] at checked
  obtain ⟨⟨⟩, -, checked⟩ := bind_eq_ok.mp checked.2.2
  obtain ⟨common, -, checked⟩ := bind_eq_ok.mp checked
  have parsed : Id.parse ("templates/" ++ id.value) = .ok secretId := by
    rw [← same, Id.parse, dif_pos secretId.accepted]
  simp only [guard_eq_ok, parsed] at checked
  exact fun member => checked.2.2.1 (Std.TreeMap.contains_iff_mem.mpr member)

theorem nodup_map_filter {α : Type} (entries : Std.TreeMap Id α) (keep : Id × α → Bool)
    {name : Id → String} (injective : Function.Injective name) :
    ((entries.toList.filter keep).map fun entry => name entry.1).Nodup := by
  have keys : ((entries.toList.filter keep).map Prod.fst).Nodup := by
    have all : (entries.toList.map Prod.fst).Nodup := by
      rw [Std.TreeMap.map_fst_toList_eq_keys]
      exact Std.TreeMap.nodup_keys
    exact (List.filter_sublist.map Prod.fst).nodup all
  rw [show (fun entry : Id × α => name entry.1) = name ∘ Prod.fst from rfl, ← List.map_map]
  exact keys.map injective

theorem nodup_phaseOutputs (projection : Policy.Projection E plan targetId policy) :
    (phaseOutputs policy phase).Nodup := by
  have facts := Policy.acceptedPlan_of_validate projection.accepted
  rw [phaseOutputs, List.nodup_append]
  refine ⟨?_, ?_, ?_⟩
  · exact nodup_map_filter _ _ fun left right same => Id.ext_value same
  · exact nodup_map_filter _ _ fun left right same => templates_append_inj.mp same
  · intro left listed right rendered same
    subst same
    obtain ⟨⟨secretId, secret⟩, kept, rfl⟩ := List.mem_map.mp listed
    obtain ⟨⟨templateId, template⟩, declared, same⟩ := List.mem_map.mp rendered
    have secret_stored := Std.TreeMap.mem_toList_iff_getElem?_eq_some.mp (List.mem_filter.mp kept).1
    have template_stored :=
      Std.TreeMap.mem_toList_iff_getElem?_eq_some.mp (List.mem_filter.mp declared).1
    obtain ⟨planned, stored, -⟩ :=
      (@renderedIn_iff _ _ _ _ template.phase projection templateId).mp ⟨template, template_stored, rfl⟩
    obtain ⟨source, found, -⟩ :=
      (@consumedIn_iff _ _ _ _ secret.phase projection secretId).mp ⟨secret, secret_stored, rfl⟩
    refine template_not_secret facts stored same.symm ?_
    rw [Std.TreeMap.mem_iff_isSome_getElem?, found]
    rfl

end Projected

/-- Several outputs are created when the file system takes their names and none leads to another
or to itself. -/
theorem foldlM_createSecretFileRelative_isOk {volume : Volume} {outputs : List String} :
    (∃ tree, outputs.foldlM (createSecretFileRelative volume) empty = .ok tree) ↔
      (∀ output ∈ outputs, ∀ name ∈ segments output, volume.fits name = true) ∧
        outputs.Pairwise fun left right => Apart (segments left) (segments right) := by
  have paths : outputs.foldlM (createSecretFileRelative volume) empty =
      (outputs.map segments).foldlM (createSecretComponents volume) empty := by
    rw [List.foldlM_map]
    rfl
  rw [paths, creates_createSecretComponents.foldlM_isOk_iff, List.forall_mem_map,
    List.pairwise_map]
  have nonempty : ∀ output, segments output ≠ [] := fun output => List.splitOn_ne_nil _ _
  simp only [nonempty, ne_eq, not_false_eq_true, true_and]

/-- The destinations of an accepted document, and those of a target of an accepted plan in a phase,
coexist exactly when no identifier among them goes on from another with a separator. -/
theorem destinations_coexist_iff (volume : Volume) :
    (∀ spec : ActivationSpec, spec.validate = .ok () →
      (Coexist volume spec.outputs ↔
        Unnested (fun id => ∃ artifact ∈ spec.artifacts, artifact.secretId = id)
          fun id => ∃ template ∈ spec.templates, template.templateId = id)) ∧
    ∀ (E : Policy.Environment) (plan : Plan) (targetId : Id) (policy : Policy.TargetPolicy)
      (phase : ActivationPhase), Policy.targetPolicy E plan targetId = .ok policy →
        (Coexist volume (phaseOutputs policy phase) ↔
          Unnested (ConsumedIn plan targetId phase) (RenderedIn plan targetId phase)) := by
  refine ⟨?_, ?_⟩
  · intro spec validated
    have accepted := ActivationSpec.validate_eq_ok.mp validated
    refine coexist_iff_unnested accepted.nodup_outputs fun text => ?_
    rw [ActivationSpec.outputs, List.mem_append, List.mem_map, List.mem_map]
    refine or_congr ?_ ?_
    · constructor
      · rintro ⟨artifact, listed, rfl⟩
        exact ⟨_, ⟨artifact, listed, rfl⟩, rfl⟩
      · rintro ⟨id, ⟨artifact, listed, rfl⟩, rfl⟩
        exact ⟨artifact, listed, rfl⟩
    · constructor
      · rintro ⟨template, listed, rfl⟩
        exact ⟨_, ⟨template, listed, rfl⟩, rfl⟩
      · rintro ⟨id, ⟨template, listed, rfl⟩, rfl⟩
        exact ⟨template, listed, rfl⟩
  · intro E plan targetId policy phase projected
    have projection := Policy.projection_of_targetPolicy projected
    exact coexist_iff_unnested (nodup_phaseOutputs projection) fun _ => mem_phaseOutputs projection

namespace Sample

/-- Names of at most 255 octets, as common file systems store them. -/
def volume : Volume where
  fits := fun name => decide (name.length ≤ 255)
  user := 0

/-- An artifact of the sample host. -/
def artifactSpec (secretId : Id) : ActivationArtifactSpec where
  secretId
  phase := .activation
  mode := "0400"
  owner := "root"
  group := "root"
  compatibilitySymlink := none

/-- A document for the sample host. -/
def spec (secretIds : List Id) : ActivationSpec where
  runtimeRoot := "/run/nix-seal"
  plan := "/etc/nix-seal/plan.json"
  artifactCacheRoot := "/var/cache/nix-seal"
  targetId := Policy.Sample.host
  artifacts := secretIds.map artifactSpec

/-- An identifier. -/
def database : Id := ⟨"db", by decide⟩

/-- An identifier that goes on from it. -/
def password : Id := ⟨"db/password", by decide⟩

/-- An identifier in the same directory. -/
def user : Id := ⟨"db/user", by decide⟩

/-- A secret for the fleet, with a source of its own name. -/
def fleetSecret (id : Id) : Secret :=
  { Policy.Sample.tokenSecret with source := id.value ++ ".age" }

/-- The sample plan with two secrets for the fleet. -/
def pairPlan (first second : Id) : Plan :=
  { Policy.Sample.plan with
    secrets := Std.TreeMap.ofList [(first, fleetSecret first), (second, fleetSecret second)] }

/-- Canonical JSON of a secret of such a plan, spelled as that of the sample plan. -/
def secretPattern (id : Id) : String :=
  "'" ++ id.value ++ "':('administrators':[],'approvalPolicy':null,'consumers':['fleet'],'deli" ++
    "very':'rekeyed','lifecycle':('classification':null,'contact':null,'createdAt':null,'expir" ++
    "esAt':null,'incidentReference':null,'purpose':null,'rotateAfterDays':null,'rotatedAt':nul" ++
    "l),'phase':'activation','repositoryOnly':false,'runtime':('group':'root','mode':'0400','o" ++
    "wner':'root','reloadUnits':[],'restartUnits':[]),'runtimeOverrides':(),'selectors':('conf" ++
    "igurations':[],'environments':[],'groups':[],'kinds':[],'systems':[],'tags':[],'targets':" ++
    "[],'usernames':[]),'source':'" ++ id.value ++ ".age','sourceCiphertextHash':'" ++
    Manifest.Sample.digest ++ "')"

/-- Canonical JSON of such a plan, for secrets in the order of their identifiers. -/
def pairPattern (first second : Id) : String :=
  "('approvalPolicies':(),'backends':(),'generators':(),'groups':('fleet':('members':['host']" ++
    ")),'identities':('admin':('kind':'administrator','public':'age1ql3z7hjy54pw3hyww5ayyfg7zqg" ++
    "vc7w3j2elw8zmrj2kg5sfn9aqmcac8p'),'host-key':('kind':'target','public':'age1lggyhqrw2nlhcx" ++
    "prm67z43rta597azn8gknawjehu9d9dl0jq3yqqvfafg'),'signer':('kind':'signer','public':'nix-sea" ++
    "l-ed25519-v1:11qYAYKxCrfVS/7TyWQHOg7hcvPapiMlrwIaaPcHURo=')),'schema':'nix-seal.plan.v2','" ++
    "secrets':(" ++ secretPattern first ++ "," ++ secretPattern second ++ "),'targets':('host':" ++
    "('configuration':null,'environment':null,'identity':'host-key','kind':'nixOs','system':'x8" ++
    "6_64-linux','tags':[],'username':null)),'templates':())"

/-- The sample environment, with the text of this plan. -/
def pairEnvironment (first second : Id) : Policy.Environment :=
  { Policy.Sample.environment with
    planToJcs := fun _ =>
      some (utf8 (String.ofList ((pairPattern first second).toList.map Policy.Sample.spell))) }

/-- The plan with the two nested identifiers. -/
def nestedPlan : Plan := pairPlan database password

/-- The environment for it. -/
def nestedEnvironment : Policy.Environment := pairEnvironment database password

end Sample

theorem destinations_coexist_siblings :
    Coexist Sample.volume (Sample.spec [Sample.password, Sample.user]).outputs ∧
      ∃ policy, Policy.targetPolicy (Sample.pairEnvironment Sample.password Sample.user)
          (Sample.pairPlan Sample.password Sample.user) Policy.Sample.host = .ok policy ∧
        Coexist Sample.volume (phaseOutputs policy .activation) := by
  have apart : ∀ left ∈ [Sample.password, Sample.user], ∀ right ∈ [Sample.password, Sample.user],
      startsWith (left.value ++ "/") right.value = false := by
    decide
  refine ⟨((destinations_coexist_iff Sample.volume).1 _ (by decide)).mpr ⟨?_, ?_, ?_⟩, ?_⟩
  · rintro left right ⟨artifact, listed, rfl⟩ ⟨other, also, rfl⟩
    obtain ⟨id, member, rfl⟩ := List.mem_map.mp listed
    obtain ⟨another, included, rfl⟩ := List.mem_map.mp also
    exact apart id member another included
  · rintro left right ⟨template, listed, -⟩
    cases listed
  · rintro secret template - ⟨declared, listed, -⟩
    cases listed
  · have found : (Sample.pairPlan Sample.password Sample.user).targets[Policy.Sample.host]? =
        some Policy.Sample.hostTarget := by decide
    have validated : Policy.validate (Sample.pairEnvironment Sample.password Sample.user)
        (Sample.pairPlan Sample.password Sample.user) = .ok () :=
      Policy.Sample.validate_of_identities rfl rfl rfl (by decide) (by decide +kernel)
    obtain ⟨policy, projected, -⟩ := Policy.targetPolicy_ok validated rfl found
    refine ⟨policy, projected,
      ((destinations_coexist_iff Sample.volume).2 _ _ _ policy .activation projected).mpr
        ⟨?_, ?_, ?_⟩⟩
    · have declared : ∀ id (secret : Secret),
          (Sample.pairPlan Sample.password Sample.user).secrets[id]? = some secret →
            id ∈ [Sample.password, Sample.user] := by
        intro id secret stored
        have listed := (Ordered.getElem?_ofList_eq_some (by decide)).mp stored
        exact List.mem_map_of_mem (f := Prod.fst) listed
      rintro left right ⟨secret, stored, -⟩ ⟨other, also, -⟩
      exact apart left (declared left secret stored) right (declared right other also)
    · rintro left right ⟨template, stored, -⟩
      cases stored
    · rintro secret template - ⟨declared, stored, -⟩
      cases stored

/-- Two secrets, one of whose identifiers goes on from the other, are accepted in a plan and in a
document, and their outputs cannot be created in one generation, in either order. -/
theorem destinations_nested :
    (Sample.spec [Sample.database, Sample.password]).validate = .ok () ∧
      ¬Coexist Sample.volume (Sample.spec [Sample.database, Sample.password]).outputs ∧
      (∀ order : List String, order.Perm (Sample.spec [Sample.database, Sample.password]).outputs →
        ∀ tree, order.foldlM (createSecretFileRelative Sample.volume) empty ≠ .ok tree) ∧
      Policy.validate Sample.nestedEnvironment Sample.nestedPlan = .ok () ∧
      ∃ policy, Policy.targetPolicy Sample.nestedEnvironment Sample.nestedPlan
          Policy.Sample.host = .ok policy ∧
        ¬Coexist Sample.volume (phaseOutputs policy .activation) := by
  have leads : LeadsTo Sample.database.value Sample.password.value := leadsTo_iff.mpr (by decide)
  have found : Sample.nestedPlan.targets[Policy.Sample.host]? =
      some Policy.Sample.hostTarget := by decide
  have validated : Policy.validate Sample.nestedEnvironment Sample.nestedPlan = .ok () :=
    Policy.Sample.validate_of_identities rfl rfl rfl (by decide) (by decide +kernel)
  obtain ⟨policy, projected, -⟩ := Policy.targetPolicy_ok validated rfl found
  have projection := Policy.projection_of_targetPolicy projected
  have consumed : ∀ (id : Id) (secret : Secret), Sample.nestedPlan.secrets[id]? = some secret →
      secret.phase = .activation →
      Policy.targetIsConsumer Sample.nestedPlan secret Policy.Sample.host = true →
      id.value ∈ phaseOutputs policy .activation :=
    fun id secret stored phase consumer => (mem_phaseOutputs projection).mpr
      (.inl ⟨id, ⟨secret, stored, phase, consumer⟩, rfl⟩)
  refine ⟨by decide, ?_, ?_, validated, policy, projected, ?_⟩
  · intro coexist
    exact coexist.apart _ (by decide) _ (by decide) leads
  · intro order permuted tree created
    have pairs := (foldlM_createSecretFileRelative_isOk.mp ⟨tree, created⟩).2
    rw [permuted.pairwise_iff fun apart => apart.symm] at pairs
    have apart := List.rel_of_pairwise_cons pairs (List.mem_singleton_self _)
    exact apart.1 leads.1
  · intro coexist
    refine coexist.apart Sample.database.value ?_ Sample.password.value ?_ leads
    · exact consumed _ (Sample.fleetSecret Sample.database)
        ((Ordered.getElem?_ofList_eq_some (by decide)).mpr (by simp)) rfl (by decide)
    · exact consumed _ (Sample.fleetSecret Sample.password)
        ((Ordered.getElem?_ofList_eq_some (by decide)).mpr (by simp)) rfl (by decide)

end NixSeal.Runtime
