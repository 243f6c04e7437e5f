import NixSeal.Lib.Matching
import NixSeal.Policy.Projection
import NixSeal.Runtime.Destinations
import NixSeal.Runtime.Spec

/-!
# Documents against the policy of their target

Before an activation the document is compared with the policy that the plan gives its target: its
artifacts and templates stand for the entries of its phase, and its service actions are those of
the settings of these entries.
-/

namespace NixSeal.Runtime

open Fallible Matching
open Policy (TargetPolicy TargetSecretPolicy TargetTemplatePolicy)

/-! ## Paths -/

/-- `Path::parent` of a path, by its components. -/
def pathParent (path : String) : Option (List PathComponent) :=
  match (pathComponents path).getLast? with
  | none | some .rootDir => none
  | some _ => some (pathComponents path).dropLast

/-- The components of `Path::join`: a `.` that leads the joined path is kept only after nothing. -/
def joinPath (parent : List PathComponent) (path : String) : List PathComponent :=
  if isAbsolute path || parent.isEmpty then pathComponents path
  else parent ++ (pathComponents path).filter (· ≠ .curDir)

/-- The source that a policy names, next to its plan. -/
def expectedSource (planParent : List PathComponent) (source : String) : List PathComponent :=
  if isAbsolute source then pathComponents source else joinPath planParent source

/-- `str::ends_with` with a literal. -/
def endsWith (literal value : String) : Bool := decide (literal.toList <:+ value.toList)

/-! ## `verify_activation_projection` -/

/-- The identifiers of the secrets of a phase. -/
def secretIdsIn (policy : TargetPolicy) (phase : ActivationPhase) : List Id :=
  policy.secrets.toList.filterMap fun entry => if entry.2.phase = phase then some entry.1 else none

/-- The identifiers of the templates of a phase. -/
def templateIdsIn (policy : TargetPolicy) (phase : ActivationPhase) : List Id :=
  policy.templates.toList.filterMap fun entry =>
    if entry.2.phase = phase then some entry.1 else none

/-- The comparison of two `BTreeSet`s. -/
def sameSet {α : Type} [Ord α] [DecidableEq α] (left right : List α) : Bool :=
  (Std.TreeSet.ofList left).toList = (Std.TreeSet.ofList right).toList

/-- The encodings of the two crates, pair by pair. -/
def encodingsMatch : TemplateEncoding → NixSeal.TemplateEncoding → Bool
  | .utf8, .utf8 | .base64, .base64 | .hex, .hex => true
  | _, _ => false

/-- A placeholder of a document and that of the policy. -/
def placeholderMatches (actual : PlaceholderSpec) (expected : TemplatePlaceholder) : Bool :=
  actual.secretId == expected.secret && encodingsMatch actual.encoding expected.encoding

/-- One turn of the loop over artifacts. -/
def verifyArtifact (policy : TargetPolicy) (artifact : ActivationArtifactSpec) :
    Except String Unit :=
  match policy.secrets[artifact.secretId]? with
  | none => .error s!"artifact secret {artifact.secretId} is absent from target policy"
  | some secret =>
      if artifact.phase ≠ secret.phase || artifact.owner ≠ secret.runtime.owner ||
          artifact.group ≠ secret.runtime.group || artifact.mode ≠ secret.runtime.mode ||
          artifact.compatibilitySymlink.map pathComponents ≠
            secret.runtime.compatibilitySymlink.map pathComponents then
        .error s!"runtime policy for secret {artifact.secretId} differs from the canonical plan"
      else .ok ()

/-- One turn of the loop over templates. -/
def verifyTemplate (policy : TargetPolicy) (planParent : List PathComponent)
    (template : ActivationTemplateSpec) : Except String Unit :=
  match policy.templates[template.templateId]? with
  | none => .error s!"template {template.templateId} is absent from target policy"
  | some expected =>
      let placeholdersMatch := template.placeholders.size == expected.placeholders.size &&
        template.placeholders.toList.all fun entry =>
          expected.placeholders[entry.1]?.any (placeholderMatches entry.2)
      if template.phase ≠ expected.phase ||
          pathComponents template.source ≠ expectedSource planParent expected.source ||
          template.owner ≠ expected.runtime.owner || template.group ≠ expected.runtime.group ||
          template.mode ≠ expected.runtime.mode || !placeholdersMatch then
        .error s!"runtime policy for template {template.templateId} differs from the canonical plan"
      else .ok ()

/-- The runtime settings of a phase. -/
def runtimesIn (policy : TargetPolicy) (phase : ActivationPhase) : List RuntimeSettings :=
  (policy.secrets.toList.filterMap fun entry =>
      if entry.2.phase = phase then some entry.2.runtime else none) ++
    policy.templates.toList.filterMap fun entry =>
      if entry.2.phase = phase then some entry.2.runtime else none

/-- The service manager of a target. -/
def expectedManager (policy : TargetPolicy) : Except String ServiceManager :=
  match policy.targetKind with
  | .nixOs => .ok .systemdSystem
  | .darwin => .ok .launchdSystem
  | .homeManager =>
      if endsWith "-linux" policy.system then .ok .systemdUser
      else if endsWith "-darwin" policy.system then .ok .launchdUser
      else .error "Home Manager target has an unsupported system value"

/-- The part of `verify_service_projection` on declared units. -/
def verifyActions (policy : TargetPolicy) (restartUnits reloadUnits : List String)
    (postSwitch : Option PostSwitchSpec) : Except String Unit :=
  match postSwitch, policy.serviceActions with
  | none, _ => .error "activation omits service actions required by target policy"
  | some _, none => .error "target policy omits required post-switch command policy"
  | some actions, some command =>
      if pathComponents actions.executable ≠ pathComponents command.executable ||
          actions.timeoutSeconds ≠ command.timeoutSeconds then
        .error "activation service executable or timeout differs from canonical target policy"
      else do
        let manager ← expectedManager policy
        if actions.manager ≠ manager || !sameSet actions.restartUnits restartUnits ||
            !sameSet actions.reloadUnits reloadUnits then
          .error "activation service actions differ from the canonical target policy"
        else .ok ()

/-- `verify_service_projection`. -/
def verifyServiceProjection (spec : ActivationSpec) (policy : TargetPolicy) : Except String Unit :=
  let runtimes := runtimesIn policy spec.phase
  let restartUnits := runtimes.flatMap RuntimeSettings.restartUnits
  let reloadUnits := runtimes.flatMap RuntimeSettings.reloadUnits
  if restartUnits.any reloadUnits.contains then
    .error "canonical plan assigns a unit to both restart and reload actions"
  else if restartUnits.isEmpty && reloadUnits.isEmpty then
    if spec.postSwitch.isSome then
      .error "activation declares service actions absent from target policy"
    else .ok ()
  else verifyActions policy restartUnits reloadUnits spec.postSwitch

/-- `verify_activation_projection`. -/
def verifyActivationProjection (spec : ActivationSpec) (policy : TargetPolicy) :
    Except String Unit :=
  if spec.targetId ≠ policy.targetId then
    .error "activation metadata does not match the deterministic target policy"
  else if !sameSet (spec.artifacts.map ActivationArtifactSpec.secretId)
      (secretIdsIn policy spec.phase) then
    .error "activation artifact set does not exactly match target policy"
  else do
    spec.artifacts.forM (verifyArtifact policy)
    if !sameSet (spec.templates.map ActivationTemplateSpec.templateId)
        (templateIdsIn policy spec.phase) then
      .error "activation template set does not exactly match target policy"
    else
      match pathParent spec.plan with
      | none => .error "compiled plan path has no parent"
      | some planParent => do
          spec.templates.forM (verifyTemplate policy planParent)
          verifyServiceProjection spec policy

/-! ## Agreement -/

/-- The policy of a secret, if it belongs to a phase. -/
def secretIn (policy : TargetPolicy) (phase : ActivationPhase) (id : Id) :
    Option TargetSecretPolicy :=
  policy.secrets[id]?.filter fun secret => secret.phase = phase

/-- The policy of a template, if it belongs to a phase. -/
def templateIn (policy : TargetPolicy) (phase : ActivationPhase) (id : Id) :
    Option TargetTemplatePolicy :=
  policy.templates[id]?.filter fun template => template.phase = phase

/-- An artifact is delivered as the policy says. -/
structure ActivationArtifactSpec.Agrees (artifact : ActivationArtifactSpec)
    (secret : TargetSecretPolicy) : Prop where
  owner : artifact.owner = secret.runtime.owner
  group : artifact.group = secret.runtime.group
  mode : artifact.mode = secret.runtime.mode
  link : artifact.compatibilitySymlink.map pathComponents =
    secret.runtime.compatibilitySymlink.map pathComponents

/-- A placeholder stands for the secret and the encoding of the policy. -/
def PlaceholderAgrees (actual : PlaceholderSpec) (expected : TemplatePlaceholder) : Prop :=
  actual.secretId = expected.secret ∧ encodingsMatch actual.encoding expected.encoding = true

/-- The directory of a plan. -/
def planDirectory (plan : String) : List PathComponent :=
  (pathComponents plan).dropLast

/-- A template is rendered as the policy says. -/
structure ActivationTemplateSpec.Agrees (plan : String) (template : ActivationTemplateSpec)
    (expected : TargetTemplatePolicy) : Prop where
  source : pathComponents template.source = expectedSource (planDirectory plan) expected.source
  owner : template.owner = expected.runtime.owner
  group : template.group = expected.runtime.group
  mode : template.mode = expected.runtime.mode
  placeholders : Matches PlaceholderAgrees template.placeholders expected.placeholders

/-- The settings of a secret or a template of a phase. -/
def SettingsIn (policy : TargetPolicy) (phase : ActivationPhase) (runtime : RuntimeSettings) :
    Prop :=
  (∃ id secret, secretIn policy phase id = some secret ∧ secret.runtime = runtime) ∨
    ∃ id template, templateIn policy phase id = some template ∧ template.runtime = runtime

/-- A unit is listed by the settings of a phase. -/
def Declares (units : RuntimeSettings → List String) (policy : TargetPolicy)
    (phase : ActivationPhase) (unit : String) : Prop :=
  ∃ runtime, SettingsIn policy phase runtime ∧ unit ∈ units runtime

/-- The manager of a kind of target on a system. -/
inductive Manages : TargetKind → String → ServiceManager → Prop where
  | nixOs (system : String) : Manages .nixOs system .systemdSystem
  | darwin (system : String) : Manages .darwin system .launchdSystem
  | homeLinux {system : String} (linux : endsWith "-linux" system = true) :
      Manages .homeManager system .systemdUser
  | homeDarwin {system : String} (darwin : endsWith "-darwin" system = true) :
      Manages .homeManager system .launchdUser

/-- Service actions are those of the policy. -/
structure PostSwitchSpec.Agrees (policy : TargetPolicy) (phase : ActivationPhase)
    (actions : PostSwitchSpec) (command : TargetServiceActions) : Prop where
  executable : pathComponents actions.executable = pathComponents command.executable
  timeout : actions.timeoutSeconds = command.timeoutSeconds
  manager : Manages policy.targetKind policy.system actions.manager
  restartUnits : ∀ unit, unit ∈ actions.restartUnits ↔
    Declares RuntimeSettings.restartUnits policy phase unit
  reloadUnits : ∀ unit, unit ∈ actions.reloadUnits ↔
    Declares RuntimeSettings.reloadUnits policy phase unit

/-- Some entry of a phase declares a unit. -/
def DeclaresAny (policy : TargetPolicy) (phase : ActivationPhase) : Prop :=
  ∃ unit, Declares RuntimeSettings.restartUnits policy phase unit ∨
    Declares RuntimeSettings.reloadUnits policy phase unit

/-- The service actions of a document are absent when no unit is declared, and those of the policy
otherwise. -/
structure ServicesAgree (spec : ActivationSpec) (policy : TargetPolicy) : Prop where
  absent : ¬ DeclaresAny policy spec.phase → spec.postSwitch = none
  present : DeclaresAny policy spec.phase → ∃ actions command, spec.postSwitch = some actions ∧
    policy.serviceActions = some command ∧ actions.Agrees policy spec.phase command

/-- A document shows exactly what the policy of its target holds for its phase. -/
structure ActivationSpec.Reflects (spec : ActivationSpec) (policy : TargetPolicy) : Prop where
  target : spec.targetId = policy.targetId
  artifacts : Enumerates ActivationArtifactSpec.secretId ActivationArtifactSpec.Agrees
    spec.artifacts (secretIn policy spec.phase)
  templates : Enumerates ActivationTemplateSpec.templateId
    (ActivationTemplateSpec.Agrees spec.plan) spec.templates (templateIn policy spec.phase)
  services : ServicesAgree spec policy

/-! ## What the checks decide -/

section Checks

variable {spec : ActivationSpec} {policy : TargetPolicy} {phase : ActivationPhase}

theorem sameSet_iff {α : Type} [Ord α] [DecidableEq α] [Std.TransOrd α] [Std.LawfulEqOrd α]
    {left right : List α} : sameSet left right = true ↔ ∀ item, item ∈ left ↔ item ∈ right := by
  have mem : ∀ (list : List α) (item : α), item ∈ (Std.TreeSet.ofList list).toList ↔ item ∈ list := by
    intro list item
    rw [Std.TreeSet.mem_toList, Std.TreeSet.mem_ofList]
    simp
  rw [sameSet, decide_eq_true_eq]
  constructor
  · intro same item
    rw [← mem left, same, mem right]
  · intro same
    refine Ordered.eq_of_mem_iff Std.TreeSet.ordered_toList Std.TreeSet.ordered_toList fun item => ?_
    rw [mem, mem, same]

theorem secretIn_eq_some {id : Id} {secret : TargetSecretPolicy} :
    secretIn policy phase id = some secret ↔
      policy.secrets[id]? = some secret ∧ secret.phase = phase := by
  simp [secretIn, Option.filter_eq_some_iff]

theorem templateIn_eq_some {id : Id} {template : TargetTemplatePolicy} :
    templateIn policy phase id = some template ↔
      policy.templates[id]? = some template ∧ template.phase = phase := by
  simp [templateIn, Option.filter_eq_some_iff]

theorem mem_secretIdsIn {id : Id} :
    id ∈ secretIdsIn policy phase ↔ ∃ secret, secretIn policy phase id = some secret := by
  simp only [secretIdsIn, List.mem_filterMap, Option.ite_none_right_eq_some, Option.some.injEq,
    Prod.exists, Std.TreeMap.mem_toList_iff_getElem?_eq_some, secretIn_eq_some]
  constructor
  · rintro ⟨other, secret, stored, here, rfl⟩
    exact ⟨secret, stored, here⟩
  · rintro ⟨secret, stored, here⟩
    exact ⟨id, secret, stored, here, rfl⟩

theorem mem_templateIdsIn {id : Id} :
    id ∈ templateIdsIn policy phase ↔ ∃ template, templateIn policy phase id = some template := by
  simp only [templateIdsIn, List.mem_filterMap, Option.ite_none_right_eq_some, Option.some.injEq,
    Prod.exists, Std.TreeMap.mem_toList_iff_getElem?_eq_some, templateIn_eq_some]
  constructor
  · rintro ⟨other, template, stored, here, rfl⟩
    exact ⟨template, stored, here⟩
  · rintro ⟨template, stored, here⟩
    exact ⟨id, template, stored, here, rfl⟩

theorem mem_runtimesIn {runtime : RuntimeSettings} :
    runtime ∈ runtimesIn policy phase ↔ SettingsIn policy phase runtime := by
  simp only [runtimesIn, List.mem_append, List.mem_filterMap, Option.ite_none_right_eq_some,
    Option.some.injEq, Prod.exists, Std.TreeMap.mem_toList_iff_getElem?_eq_some, SettingsIn,
    secretIn_eq_some, templateIn_eq_some, and_assoc]

theorem mem_units {units : RuntimeSettings → List String} {unit : String} :
    unit ∈ (runtimesIn policy phase).flatMap units ↔ Declares units policy phase unit := by
  simp only [List.mem_flatMap, mem_runtimesIn, Declares]

theorem verifyArtifact_eq_ok {artifact : ActivationArtifactSpec} :
    verifyArtifact policy artifact = .ok () ↔
      ∃ secret, policy.secrets[artifact.secretId]? = some secret ∧
        artifact.phase = secret.phase ∧ artifact.Agrees secret := by
  cases stored : policy.secrets[artifact.secretId]? with
  | none => simp [verifyArtifact, stored]
  | some secret =>
      simp only [verifyArtifact, stored, guard_eq_ok, Bool.or_eq_true, decide_eq_true_eq, not_or,
        not_not, and_true, Option.some.injEq, exists_eq_left']
      constructor
      · rintro ⟨⟨⟨⟨same, owner⟩, group⟩, mode⟩, link⟩
        exact ⟨same, owner, group, mode, link⟩
      · rintro ⟨same, owner, group, mode, link⟩
        exact ⟨⟨⟨⟨same, owner⟩, group⟩, mode⟩, link⟩

theorem placeholderMatches_iff {actual : PlaceholderSpec} {expected : TemplatePlaceholder} :
    placeholderMatches actual expected = true ↔ PlaceholderAgrees actual expected := by
  simp [placeholderMatches, PlaceholderAgrees]

theorem verifyTemplate_eq_ok {plan : String} {template : ActivationTemplateSpec} :
    verifyTemplate policy (planDirectory plan) template = .ok () ↔
      ∃ expected, policy.templates[template.templateId]? = some expected ∧
        template.phase = expected.phase ∧ template.Agrees plan expected := by
  cases stored : policy.templates[template.templateId]? with
  | none => simp [verifyTemplate, stored]
  | some expected =>
      have matched : (template.placeholders.size == expected.placeholders.size &&
          template.placeholders.toList.all fun entry =>
            expected.placeholders[entry.1]?.any (placeholderMatches entry.2)) = true ↔
          Matches PlaceholderAgrees template.placeholders expected.placeholders := by
        rw [matches_iff]
        simp only [Bool.and_eq_true, beq_iff_eq, List.all_eq_true, Prod.forall,
          Std.TreeMap.mem_toList_iff_getElem?_eq_some, Option.any_eq_true, placeholderMatches_iff]
      simp only [verifyTemplate, stored, guard_eq_ok, Bool.or_eq_true, decide_eq_true_eq, not_or,
        not_not, and_true, Option.some.injEq, exists_eq_left', Bool.not_eq_true', Bool.not_eq_false,
        matched]
      constructor
      · rintro ⟨⟨⟨⟨⟨same, source⟩, owner⟩, group⟩, mode⟩, placeholders⟩
        exact ⟨same, source, owner, group, mode, placeholders⟩
      · rintro ⟨same, source, owner, group, mode, placeholders⟩
        exact ⟨⟨⟨⟨⟨same, source⟩, owner⟩, group⟩, mode⟩, placeholders⟩

theorem not_endsWith_darwin {system : String} (linux : endsWith "-linux" system = true) :
    endsWith "-darwin" system = false := by
  rw [endsWith, decide_eq_true_eq] at linux
  rw [endsWith, decide_eq_false_iff_not]
  intro darwin
  rcases List.suffix_or_suffix_of_suffix linux darwin with nested | nested
  · exact absurd nested (by decide)
  · exact absurd nested (by decide)

theorem expectedManager_eq_ok {manager : ServiceManager} :
    expectedManager policy = .ok manager ↔ Manages policy.targetKind policy.system manager := by
  cases kind : policy.targetKind with
  | nixOs =>
      rw [expectedManager, kind]
      exact ⟨fun named => by cases named; exact .nixOs _, fun manages => by cases manages; rfl⟩
  | darwin =>
      rw [expectedManager, kind]
      exact ⟨fun named => by cases named; exact .darwin _, fun manages => by cases manages; rfl⟩
  | homeManager =>
      rw [expectedManager, kind]
      by_cases linux : endsWith "-linux" policy.system = true
      · have other := not_endsWith_darwin linux
        simp only [linux, if_true, Except.ok.injEq]
        constructor
        · rintro rfl
          exact .homeLinux linux
        · intro manages
          cases manages with
          | homeLinux => rfl
          | homeDarwin darwin => simp [other] at darwin
      · simp only [linux, Bool.false_eq_true, if_false]
        by_cases darwin : endsWith "-darwin" policy.system = true
        · simp only [darwin, if_true, Except.ok.injEq]
          constructor
          · rintro rfl
            exact .homeDarwin darwin
          · intro manages
            cases manages with
            | homeLinux also => exact absurd also linux
            | homeDarwin => rfl
        · simp only [darwin, Bool.false_eq_true, if_false, reduceCtorEq, false_iff]
          intro manages
          cases manages with
          | homeLinux also => exact absurd also linux
          | homeDarwin also => exact absurd also darwin

theorem verifyActions_eq_ok {postSwitch : Option PostSwitchSpec} :
    verifyActions policy ((runtimesIn policy phase).flatMap RuntimeSettings.restartUnits)
        ((runtimesIn policy phase).flatMap RuntimeSettings.reloadUnits) postSwitch = .ok () ↔
      ∃ actions command, postSwitch = some actions ∧ policy.serviceActions = some command ∧
        actions.Agrees policy phase command := by
  cases postSwitch with
  | none => simp [verifyActions]
  | some actions =>
      cases stored : policy.serviceActions with
      | none => simp [verifyActions, stored]
      | some command =>
          simp only [verifyActions, stored, guard_eq_ok, bind_eq_ok, expectedManager_eq_ok,
            Bool.or_eq_true, decide_eq_true_eq, not_or, not_not, Bool.not_eq_true',
            Bool.not_eq_false, sameSet_iff, mem_units, and_true, Option.some.injEq]
          constructor
          · rintro ⟨⟨executable, timeout⟩, manager, manages, ⟨rfl, restartUnits⟩, reloadUnits⟩
            exact ⟨actions, command, rfl, rfl, executable, timeout, manages, restartUnits,
              reloadUnits⟩
          · rintro ⟨_, _, rfl, rfl, executable, timeout, manages, restartUnits, reloadUnits⟩
            exact ⟨⟨executable, timeout⟩, _, manages, ⟨rfl, restartUnits⟩, reloadUnits⟩

/-- Units that a policy both restarts and reloads leave no document that agrees: an accepted one
names every unit once. -/
theorem verifyServiceProjection_eq_ok (accepted : spec.Accepted) :
    verifyServiceProjection spec policy = .ok () ↔ ServicesAgree spec policy := by
  have idle : (((runtimesIn policy spec.phase).flatMap RuntimeSettings.restartUnits).isEmpty &&
      ((runtimesIn policy spec.phase).flatMap RuntimeSettings.reloadUnits).isEmpty) = true ↔
      ¬ DeclaresAny policy spec.phase := by
    simp only [Bool.and_eq_true, List.isEmpty_iff, List.eq_nil_iff_forall_not_mem, mem_units,
      DeclaresAny, not_exists, not_or, forall_and]
  have clash : ((runtimesIn policy spec.phase).flatMap RuntimeSettings.restartUnits).any
      (((runtimesIn policy spec.phase).flatMap RuntimeSettings.reloadUnits).contains ·) = true ↔
      ∃ unit, Declares RuntimeSettings.restartUnits policy spec.phase unit ∧
        Declares RuntimeSettings.reloadUnits policy spec.phase unit := by
    simp only [List.any_eq_true, List.contains_iff_mem, mem_units]
  simp only [verifyServiceProjection, guard_eq_ok, clash]
  by_cases declared : DeclaresAny policy spec.phase
  · rw [if_neg (fun empty => idle.mp empty declared), verifyActions_eq_ok]
    constructor
    · rintro ⟨-, agrees⟩
      exact ⟨fun none => absurd declared none, fun _ => agrees⟩
    · intro services
      have agrees := services.present declared
      refine ⟨?_, agrees⟩
      rintro ⟨unit, restarts, reloads⟩
      obtain ⟨actions, command, given, -, same⟩ := agrees
      have distinct := (accepted.postSwitch actions given).distinct
      have apart := (List.nodup_append.mp distinct).2.2
      exact apart unit ((same.reloadUnits unit).mpr reloads) unit
        ((same.restartUnits unit).mpr restarts) rfl
  · rw [if_pos (idle.mpr declared), guard_eq_ok]
    have quiet : ¬ ∃ unit, Declares RuntimeSettings.restartUnits policy spec.phase unit ∧
        Declares RuntimeSettings.reloadUnits policy spec.phase unit :=
      fun ⟨unit, restarts, _⟩ => declared ⟨unit, .inl restarts⟩
    simp only [quiet, not_false_iff, true_and, and_true, Bool.not_eq_true,
      Option.isSome_eq_false_iff, Option.isNone_iff_eq_none]
    exact ⟨fun none => ⟨fun _ => none, fun any => absurd any declared⟩,
      fun services => services.absent declared⟩

theorem pathParent_eq {path : String} (absolute : isAbsolute path = true) :
    pathParent path =
      if pathComponents path = [.rootDir] then none else some (planDirectory path) := by
  rw [isAbsolute, beq_iff_eq] at absolute
  obtain ⟨names, components, named⟩ : ∃ names, pathComponents path = .rootDir :: names ∧
      .rootDir ∉ names := by
    simp only [pathComponents, absolute, if_true]
    refine ⟨_, rfl, ?_⟩
    rw [List.mem_map]
    rintro ⟨part, -, same⟩
    split at same <;> cases same
  rw [pathParent, planDirectory, components]
  rcases List.eq_nil_or_concat' names with rfl | ⟨front, last, rfl⟩
  · rfl
  · have other : last ≠ .rootDir := by
      rintro rfl
      exact named (by simp)
    rw [← List.cons_append, List.getLast?_concat]
    cases last with
    | rootDir => exact absurd rfl other
    | curDir => simp
    | parentDir => simp
    | normal name => simp

theorem verifyArtifacts_iff (accepted : spec.Accepted) :
    sameSet (spec.artifacts.map ActivationArtifactSpec.secretId) (secretIdsIn policy spec.phase) =
          true ∧
        spec.artifacts.forM (verifyArtifact policy) = .ok () ↔
      Enumerates ActivationArtifactSpec.secretId ActivationArtifactSpec.Agrees spec.artifacts
        (secretIn policy spec.phase) := by
  have distinct : (spec.artifacts.map ActivationArtifactSpec.secretId).Nodup := by
    rw [List.nodup_iff_pairwise_ne, List.pairwise_map]
    exact accepted.distinct.imp fun distinct => distinct.1
  rw [enumerates_iff distinct, sameSet_iff, forM_eq_ok]
  simp only [List.mem_map, mem_secretIdsIn]
  refine and_congr_right fun same => forall₂_congr fun artifact member => ?_
  have phase := (accepted.artifacts artifact member).phase
  rw [verifyArtifact_eq_ok]
  constructor
  · rintro ⟨secret, stored, -, agrees⟩ other found
    cases stored.symm.trans (secretIn_eq_some.mp found).1
    exact agrees
  · intro agrees
    obtain ⟨secret, found⟩ := (same artifact.secretId).mp ⟨artifact, member, rfl⟩
    obtain ⟨stored, here⟩ := secretIn_eq_some.mp found
    exact ⟨secret, stored, phase.trans here.symm, agrees secret found⟩

theorem verifyTemplates_iff (accepted : spec.Accepted) :
    sameSet (spec.templates.map ActivationTemplateSpec.templateId)
          (templateIdsIn policy spec.phase) = true ∧
        spec.templates.forM (verifyTemplate policy (planDirectory spec.plan)) = .ok () ↔
      Enumerates ActivationTemplateSpec.templateId (ActivationTemplateSpec.Agrees spec.plan)
        spec.templates (templateIn policy spec.phase) := by
  have distinct : (spec.templates.map ActivationTemplateSpec.templateId).Nodup := by
    rw [List.nodup_iff_pairwise_ne, List.pairwise_map]
    exact accepted.templateIds
  rw [enumerates_iff distinct, sameSet_iff, forM_eq_ok]
  simp only [List.mem_map, mem_templateIdsIn]
  refine and_congr_right fun same => forall₂_congr fun template member => ?_
  have phase := (accepted.templates template member).phase
  rw [verifyTemplate_eq_ok]
  constructor
  · rintro ⟨expected, stored, -, agrees⟩ other found
    cases stored.symm.trans (templateIn_eq_some.mp found).1
    exact agrees
  · intro agrees
    obtain ⟨expected, found⟩ := (same template.templateId).mp ⟨template, member, rfl⟩
    obtain ⟨stored, here⟩ := templateIn_eq_some.mp found
    exact ⟨expected, stored, phase.trans here.symm, agrees expected found⟩

theorem verifyActivationProjection_eq_ok (accepted : spec.Accepted) :
    verifyActivationProjection spec policy = .ok () ↔
      pathComponents spec.plan ≠ [.rootDir] ∧ spec.Reflects policy := by
  have absolute : isAbsolute spec.plan = true := by
    have normalized := accepted.plan
    rw [isNormalizedAbsolutePath, Bool.and_eq_true] at normalized
    exact normalized.1
  simp only [verifyActivationProjection, guard_eq_ok, bind_eq_ok, pathParent_eq absolute, not_not,
    Bool.not_eq_true', Bool.not_eq_false]
  by_cases root : pathComponents spec.plan = [.rootDir]
  · simp [root]
  · simp only [root, if_false, not_false_eq_true, true_and, bind_eq_ok,
      verifyServiceProjection_eq_ok accepted, ne_eq]
    constructor
    · rintro ⟨target, secrets, ⟨⟩, artifacts, names, ⟨⟩, templates, services⟩
      exact ⟨target, (verifyArtifacts_iff accepted).mp ⟨secrets, artifacts⟩,
        (verifyTemplates_iff accepted).mp ⟨names, templates⟩, services⟩
    · rintro ⟨target, artifacts, templates, services⟩
      obtain ⟨secrets, listed⟩ := (verifyArtifacts_iff accepted).mpr artifacts
      obtain ⟨names, rendered⟩ := (verifyTemplates_iff accepted).mpr templates
      exact ⟨target, secrets, (), listed, names, (), rendered, services⟩

end Checks

namespace Sample

section Token

variable {policy : TargetPolicy} (projection : Policy.Projection Policy.Sample.environment
  Policy.Sample.plan Policy.Sample.host policy)

include projection

theorem secretIn_token {id : Id} {secret : TargetSecretPolicy} {phase : ActivationPhase}
    (stored : secretIn policy phase id = some secret) :
    id = Policy.Sample.token ∧ secret.runtime = {} := by
  have found := (secretIn_eq_some.mp stored).1
  rw [projection.secrets, Option.bind_eq_some_iff] at found
  obtain ⟨planned, listed, projected⟩ := found
  have pair := (Ordered.getElem?_ofList_eq_some (by simp)).mp listed
  cases List.mem_singleton.mp pair
  refine ⟨rfl, ?_⟩
  rw [Policy.projectedSecret] at projected
  split at projected
  · obtain ⟨approval, -, rfl⟩ := Option.map_eq_some_iff.mp projected
    rfl
  · cases projected

theorem exists_token : ∃ secret, secretIn policy .activation Policy.Sample.token = some secret := by
  obtain ⟨secret, stored, phase⟩ := (@consumedIn_iff _ _ _ _ .activation projection
    Policy.Sample.token).mpr ⟨Policy.Sample.tokenSecret,
      (Ordered.getElem?_ofList_eq_some (by simp)).mpr (by simp), rfl, by decide⟩
  exact ⟨secret, secretIn_eq_some.mpr ⟨stored, phase⟩⟩

theorem templateIn_none (phase : ActivationPhase) (id : Id) : templateIn policy phase id = none := by
  have absent : Policy.Sample.plan.templates[id]? = none := Std.TreeMap.getElem?_emptyc
  rw [templateIn, projection.templates, absent]
  rfl

/-- The document of the sample host shows its policy, wherever its plan lies. -/
theorem reflects (plan : String) :
    { spec [Policy.Sample.token] with plan }.Reflects policy := by
  obtain ⟨target, identity, -, -, named, -⟩ := projection.target
  refine ⟨named.symm, ⟨?_, ?_⟩, ⟨?_, ?_⟩, ⟨?_, ?_⟩⟩
  · intro artifact member
    cases List.mem_singleton.mp member
    obtain ⟨secret, stored⟩ := exists_token projection
    have settings := (secretIn_token projection stored).2
    refine ⟨secret, stored, ?_⟩
    constructor <;> rw [settings] <;> rfl
  · intro id secret stored
    cases (secretIn_token projection stored).1
    refine ⟨artifactSpec Policy.Sample.token, ⟨List.mem_singleton_self _, rfl⟩, ?_⟩
    rintro other ⟨member, -⟩
    exact List.mem_singleton.mp member
  · intro template member
    cases member
  · intro id template stored
    simp [templateIn_none projection] at stored
  · exact fun _ => rfl
  · rintro ⟨unit, ⟨runtime, settings, listed⟩ | ⟨runtime, settings, listed⟩⟩
    · rcases settings with ⟨id, secret, stored, rfl⟩ | ⟨id, template, stored, -⟩
      · rw [(secretIn_token projection stored).2] at listed
        cases listed
      · simp [templateIn_none projection] at stored
    · rcases settings with ⟨id, secret, stored, rfl⟩ | ⟨id, template, stored, -⟩
      · rw [(secretIn_token projection stored).2] at listed
        cases listed
      · simp [templateIn_none projection] at stored

end Token

theorem exists_projected : ∃ policy, Policy.targetPolicy Policy.Sample.environment
    Policy.Sample.plan Policy.Sample.host = .ok policy := by
  have found : Policy.Sample.plan.targets[Policy.Sample.host]? =
      some Policy.Sample.hostTarget := by decide
  obtain ⟨policy, projected, -⟩ := Policy.targetPolicy_ok Policy.Sample.validate_plan rfl found
  exact ⟨policy, projected⟩

/-- The service actions of the host. -/
def systemctl : TargetServiceActions := ⟨"/run/current-system/sw/bin/systemctl", 30⟩

/-- Settings with a link and a unit that is restarted. -/
def linked : RuntimeSettings :=
  { owner := "app"
    group := "app"
    restartUnits := ["nginx"]
    compatibilitySymlink := some "/etc/app/token" }

/-- Identifier of a template. -/
def config : Id := ⟨"app/config", by decide⟩

/-- A template with the secret in it and a unit that is reloaded. -/
def configTemplate : Template where
  source := "app/config"
  placeholders := Std.TreeMap.ofList [("token", TemplatePlaceholder.mk Policy.Sample.token .utf8)]
  runtime := { reloadUnits := ["app"] }

/-- The sample plan with a link, a template and service actions. -/
def servicePlan : Plan :=
  { Policy.Sample.plan with
    targets := Std.TreeMap.ofList
      [(Policy.Sample.host, { Policy.Sample.hostTarget with serviceActions := some systemctl })]
    secrets := Std.TreeMap.ofList
      [(Policy.Sample.token, { Policy.Sample.tokenSecret with runtime := linked })]
    templates := Std.TreeMap.ofList [(config, configTemplate)] }

/-- Canonical JSON of this plan, spelled as that of the sample plan. -/
def servicePattern : String :=
  "('approvalPolicies':(),'backends':(),'generators':(),'groups':('fleet':('members':['host']" ++
    ")),'identities':('admin':('kind':'administrator','public':'age1ql3z7hjy54pw3hyww5ayyfg7zqg" ++
    "vc7w3j2elw8zmrj2kg5sfn9aqmcac8p'),'host-key':('kind':'target','public':'age1lggyhqrw2nlhcx" ++
    "prm67z43rta597azn8gknawjehu9d9dl0jq3yqqvfafg'),'signer':('kind':'signer','public':'nix-sea" ++
    "l-ed25519-v1:11qYAYKxCrfVS/7TyWQHOg7hcvPapiMlrwIaaPcHURo=')),'schema':'nix-seal.plan.v2','" ++
    "secrets':('token':('administrators':[],'approvalPolicy':null,'consumers':['fleet'],'delive" ++
    "ry':'rekeyed','lifecycle':('classification':null,'contact':null,'createdAt':null,'expiresA" ++
    "t':null,'incidentReference':null,'purpose':null,'rotateAfterDays':null,'rotatedAt':null),'" ++
    "phase':'activation','repositoryOnly':false,'runtime':('compatibilitySymlink':'/etc/app/tok" ++
    "en','group':'app','mode':'0400','owner':'app','reloadUnits':[],'restartUnits':['nginx']),'" ++
    "runtimeOverrides':(),'selectors':('configurations':[],'environments':[],'groups':[],'kinds" ++
    "':[],'systems':[],'tags':[],'targets':[],'usernames':[]),'source':'token.age','sourceCiphe" ++
    "rtextHash':'a5a5a5a5a5a5a5a5a5a5a5a5a5a5a5a5a5a5a5a5a5a5a5a5a5a5a5a5a5a5a5a5')),'targets':" ++
    "('host':('configuration':null,'environment':null,'identity':'host-key','kind':'nixOs','ser" ++
    "viceActions':('executable':'/run/current-system/sw/bin/systemctl','timeoutSeconds':30),'sy" ++
    "stem':'x86_64-linux','tags':[],'username':null)),'templates':('app/config':('placeholders'" ++
    ":('token':('encoding':'utf8','secret':'token')),'runtime':('group':'root','mode':'0400','o" ++
    "wner':'root','reloadUnits':['app'],'restartUnits':[]),'source':'app/config')))"

/-- The sample environment, with the text of this plan. -/
def serviceEnvironment : Policy.Environment :=
  { Policy.Sample.environment with
    deriveKeyHex := fun _ _ => Manifest.Sample.digest
    planToJcs := fun _ =>
      some (utf8 (String.ofList (servicePattern.toList.map Policy.Sample.spell))) }

/-- The policy of the host in this plan. -/
def servicePolicy : TargetPolicy where
  schema := Policy.targetPolicySchema
  planHash := Manifest.Sample.digest
  targetId := Policy.Sample.host
  targetKind := .nixOs
  system := "x86_64-linux"
  username := none
  recipientIdentity := Policy.Sample.hostTarget.identity
  recipient := Policy.Sample.hostRecipient
  serviceActions := some systemctl
  secrets := ({} : Std.TreeMap Id TargetSecretPolicy).insert Policy.Sample.token
    { source := "token.age"
      sourceCiphertextHash := Manifest.Sample.digest
      delivery := .rekeyed
      phase := .activation
      runtime := linked
      approval :=
        { threshold := 1
          signers := ({} : Std.TreeMap Id String).insert Policy.Sample.signer
            (Manifest.encodePublicKey Manifest.Sample.nativeKey) } }
  templates := ({} : Std.TreeMap Id TargetTemplatePolicy).insert config
    { source := "app/config"
      phase := .activation
      placeholders := configTemplate.placeholders
      runtime := configTemplate.runtime }

theorem validate_service : Policy.validate serviceEnvironment servicePlan = .ok () :=
  Policy.Sample.validate_of_identities rfl rfl rfl (by decide) (by decide +kernel)

theorem projected_service : Policy.targetPolicy serviceEnvironment servicePlan Policy.Sample.host =
    .ok servicePolicy := by
  rw [Policy.targetPolicy, validate_service, Fallible.ok_bind]
  rfl

/-- The document of the host. -/
def serviceSpec : ActivationSpec where
  runtimeRoot := "/run/nix-seal"
  plan := "/etc/nix-seal/plan.json"
  artifactCacheRoot := "/var/cache/nix-seal"
  targetId := Policy.Sample.host
  artifacts :=
    [{ artifactSpec Policy.Sample.token with
        owner := "app"
        group := "app"
        compatibilitySymlink := some "/etc/app/token" }]
  templates :=
    [{ templateId := config
       phase := .activation
       source := "/etc/nix-seal/app/config"
       placeholders := Std.TreeMap.ofList [("token", PlaceholderSpec.mk Policy.Sample.token .utf8)]
       mode := "0400"
       owner := "root"
       group := "root" }]
  postSwitch := some
    { executable := "/run/current-system/sw/bin/systemctl"
      manager := .systemdSystem
      reloadUnits := ["app"]
      restartUnits := ["nginx"]
      timeoutSeconds := 30 }

end Sample

/-- The check of an accepted document against a policy is exact: it goes through precisely when the
plan of the document is not the root directory and the document shows what the policy holds for its
phase, no more and no less. -/
theorem verifyActivationProjection_exact {spec : ActivationSpec} (policy : TargetPolicy)
    (validated : spec.validate = .ok ()) :
    verifyActivationProjection spec policy = .ok () ↔
      pathComponents spec.plan ≠ [.rootDir] ∧ spec.Reflects policy :=
  verifyActivationProjection_eq_ok (ActivationSpec.validate_eq_ok.mp validated)

theorem verifyActivationProjection_exact_service :
    Policy.targetPolicy Sample.serviceEnvironment Sample.servicePlan Policy.Sample.host =
        .ok Sample.servicePolicy ∧
      Sample.serviceSpec.Reflects Sample.servicePolicy := by
  have verified : verifyActivationProjection Sample.serviceSpec Sample.servicePolicy = .ok () := by
    decide
  exact ⟨Sample.projected_service,
    ((verifyActivationProjection_exact Sample.servicePolicy (by decide)).mp verified).2⟩

/-- A document whose plan is the root directory is refused, whatever else it shows. -/
theorem verifyActivationProjection_root :
    ¬ ∀ (E : Policy.Environment) (plan : Plan) (targetId : Id) (policy : TargetPolicy)
      (spec : ActivationSpec), Policy.targetPolicy E plan targetId = .ok policy →
        spec.validate = .ok () →
          (verifyActivationProjection spec policy = .ok () ↔ spec.Reflects policy) := by
  intro claim
  obtain ⟨policy, projected⟩ := Sample.exists_projected
  have validated : { Sample.spec [Policy.Sample.token] with plan := "/" }.validate = .ok () := by
    decide
  have verified := (claim _ _ _ policy _ projected validated).mpr
    (Sample.reflects (Policy.projection_of_targetPolicy projected) "/")
  exact ((verifyActivationProjection_eq_ok (ActivationSpec.validate_eq_ok.mp validated)).mp
    verified).1 (by decide)

end NixSeal.Runtime
