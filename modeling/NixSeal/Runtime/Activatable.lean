import NixSeal.Runtime.Verification

/-!
# From a policy to an accepted document

The policy of a target gives the document of a phase.  A validated plan does not check everything
that the document has to pass; what it leaves open is listed, and decides whether the document is
accepted.
-/

namespace NixSeal.Runtime

open Fallible Matching
open Policy (TargetPolicy TargetSecretPolicy TargetTemplatePolicy)

/-! ## The document of a phase -/

/-- The artifact of a secret. -/
def artifactOf (phase : ActivationPhase) (id : Id) (secret : TargetSecretPolicy) :
    ActivationArtifactSpec where
  secretId := id
  phase
  mode := secret.runtime.mode
  owner := secret.runtime.owner
  group := secret.runtime.group
  compatibilitySymlink := secret.runtime.compatibilitySymlink

/-- The encoding of a document for that of a plan. -/
def encodingOf : NixSeal.TemplateEncoding → TemplateEncoding
  | .utf8 => .utf8
  | .base64 => .base64
  | .hex => .hex

/-- The template of a policy, with the spelling of its source. -/
def templateOf (phase : ActivationPhase) (source : String) (id : Id)
    (template : TargetTemplatePolicy) : ActivationTemplateSpec where
  source
  templateId := id
  phase
  placeholders := template.placeholders.map fun _ placeholder =>
    ⟨placeholder.secret, encodingOf placeholder.encoding⟩
  mode := template.runtime.mode
  owner := template.runtime.owner
  group := template.runtime.group

/-- Every unit that the settings of a phase list, once. -/
def unitsIn (units : RuntimeSettings → List String) (policy : TargetPolicy)
    (phase : ActivationPhase) : List String :=
  (Std.TreeSet.ofList ((runtimesIn policy phase).flatMap units)).toList

/-- The service actions of a phase, if any are needed and the policy has what they take. -/
def projectedPostSwitch (policy : TargetPolicy) (phase : ActivationPhase) :
    Option PostSwitchSpec :=
  let restartUnits := unitsIn RuntimeSettings.restartUnits policy phase
  let reloadUnits := unitsIn RuntimeSettings.reloadUnits policy phase
  if restartUnits.isEmpty && reloadUnits.isEmpty then none
  else
    match policy.serviceActions, expectedManager policy with
    | some command, .ok manager =>
        some
          { executable := command.executable
            manager
            reloadUnits
            restartUnits
            timeoutSeconds := command.timeoutSeconds }
    | _, _ => none

/-- Where a document is activated. -/
structure Places where
  runtimeRoot : String
  plan : String
  artifactCacheRoot : String
  /-- The spelling of the source of a template. -/
  source : Id → String

/-- The document of a phase. -/
def projectSpec (places : Places) (policy : TargetPolicy) (phase : ActivationPhase) :
    ActivationSpec where
  runtimeRoot := places.runtimeRoot
  plan := places.plan
  artifactCacheRoot := places.artifactCacheRoot
  targetId := policy.targetId
  phase
  artifacts := (policy.secrets.toList.filter fun entry => entry.2.phase = phase).map fun entry =>
    artifactOf phase entry.1 entry.2
  templates := (policy.templates.toList.filter fun entry => entry.2.phase = phase).map
    fun entry => templateOf phase (places.source entry.1) entry.1 entry.2
  postSwitch := projectedPostSwitch policy phase

/-- The places are normalized absolute paths, the runtime root holds no compatibility link, and
sources are spelled as they are resolved next to the plan. -/
structure Places.Suit (places : Places) (policy : TargetPolicy) (phase : ActivationPhase) :
    Prop where
  runtimeRoot : isNormalizedAbsolutePath places.runtimeRoot = true
  plan : isNormalizedAbsolutePath places.plan = true
  artifactCacheRoot : isNormalizedAbsolutePath places.artifactCacheRoot = true
  outside : ∀ id secret path, secretIn policy phase id = some secret →
    secret.runtime.compatibilitySymlink = some path →
      (pathComponents places.runtimeRoot).isPrefixOf (pathComponents path) = false
  source : ∀ id template, templateIn policy phase id = some template →
    pathComponents (places.source id) = expectedSource (planDirectory places.plan) template.source

/-- What a document of a phase has to pass and a validated plan leaves open. -/
structure Activatable (places : Places) (policy : TargetPolicy) (phase : ActivationPhase) :
    Prop where
  accounts : ∀ runtime, SettingsIn policy phase runtime →
    isAccountName runtime.owner = true ∧ isAccountName runtime.group = true
  templates : (policy.templates.toList.countP fun entry => entry.2.phase = phase) ≤ 1024
  links : ∀ first second secret other path, secretIn policy phase first = some secret →
    secretIn policy phase second = some other →
      secret.runtime.compatibilitySymlink = some path →
        other.runtime.compatibilitySymlink = some path → first = second
  /-- A plan in the root directory has no parent for relative sources. -/
  located : pathComponents places.plan = [.rootDir] →
    ∀ id template, templateIn policy phase id = some template → isAbsolute template.source = true
  command : DeclaresAny policy phase → policy.serviceActions ≠ none
  manager : DeclaresAny policy phase →
    ∃ manager, Manages policy.targetKind policy.system manager
  apart : ∀ unit, Declares RuntimeSettings.restartUnits policy phase unit →
    ¬ Declares RuntimeSettings.reloadUnits policy phase unit
  names : ∀ unit, Declares RuntimeSettings.restartUnits policy phase unit ∨
    Declares RuntimeSettings.reloadUnits policy phase unit → isUnitName unit = true
  restarts : (unitsIn RuntimeSettings.restartUnits policy phase).length ≤ 256
  reloads : (unitsIn RuntimeSettings.reloadUnits policy phase).length ≤ 256
  launchd : ∀ manager, Manages policy.targetKind policy.system manager →
    manager.isLaunchd = true → ∀ unit, ¬ Declares RuntimeSettings.reloadUnits policy phase unit

/-! ## Paths -/

theorem isAbsolute_iff {value : String} :
    isAbsolute value = true ↔ (pathComponents value).head? = some .rootDir := by
  rw [isAbsolute, beq_iff_eq, pathComponents]
  by_cases absolute : value.toList.head? = some '/'
  · simp [absolute]
  · simp only [absolute, if_false, false_iff]
    split
    · simp
    · intro head
      have member := List.mem_of_mem_head? head
      rw [List.mem_map] at member
      obtain ⟨part, -, same⟩ := member
      split at same <;> cases same

theorem isNormalizedAbsolutePath_iff {value : String} :
    isNormalizedAbsolutePath value = true ↔ (pathComponents value).head? = some .rootDir ∧
      ∀ component ∈ pathComponents value, component.isRootOrNormal = true := by
  rw [isNormalizedAbsolutePath, Bool.and_eq_true, isAbsolute_iff, List.all_eq_true]

theorem isRootOrNormal_of_public {value : String}
    (normalized : Policy.isNormalizedPublicPath value = true) :
    ∀ component ∈ pathComponents value, component.isRootOrNormal = true := by
  have plain : ∀ part ∈ segments value, part = [] ∨ part ≠ ['.'] ∧ part ≠ ['.', '.'] := by
    intro part member
    obtain ⟨index, bound, rfl⟩ := List.getElem_of_mem member
    simp only [Policy.isNormalizedPublicPath, Bool.and_eq_true, List.all_eq_true] at normalized
    have checked := normalized.2 ((segments value)[index], index)
      (List.mk_mem_zipIdx_iff_getElem?.mpr (List.getElem?_eq_getElem bound))
    simp only [Bool.or_eq_true, Bool.and_eq_true, List.isEmpty_iff, bne_iff_ne] at checked
    rcases checked with ⟨⟨-, empty⟩, -⟩ | ⟨⟨-, single⟩, double⟩
    · exact .inl empty
    · exact .inr ⟨single, double⟩
  have named : ∀ component ∈ ((segments value).filter fun part => part != [] && part != ['.']).map
      fun part => if part = ['.', '.'] then PathComponent.parentDir else .normal part,
      component.isRootOrNormal = true := by
    intro component member
    obtain ⟨part, kept, rfl⟩ := List.mem_map.mp member
    obtain ⟨listed, shown⟩ := List.mem_filter.mp kept
    rcases plain part listed with rfl | ⟨-, double⟩
    · simp at shown
    · rw [if_neg double]
      rfl
  intro component member
  rw [pathComponents] at member
  split at member
  · rcases List.mem_cons.mp member with rfl | member
    · rfl
    · exact named component member
  · split at member
    · rename_i leading
      rcases plain ['.'] (List.mem_of_mem_head? leading) with empty | ⟨other, -⟩
      · cases empty
      · exact absurd rfl other
    · exact named component member

/-- A public source resolves to a normalized absolute path, next to a plan in a directory. -/
theorem expectedSource_normalized {plan source : String}
    (normalized : isNormalizedAbsolutePath plan = true)
    (shown : Policy.isNormalizedPublicPath source = true) :
    ((expectedSource (planDirectory plan) source).head? = some .rootDir ∧
        ∀ component ∈ expectedSource (planDirectory plan) source,
          component.isRootOrNormal = true) ↔
      pathComponents plan = [.rootDir] → isAbsolute source = true := by
  have plain := isRootOrNormal_of_public shown
  obtain ⟨rooted, named⟩ := isNormalizedAbsolutePath_iff.mp normalized
  by_cases absolute : isAbsolute source = true
  · simp only [expectedSource, absolute, if_true, imp_true_iff, iff_true]
    exact ⟨isAbsolute_iff.mp absolute, plain⟩
  · simp only [expectedSource, absolute, joinPath, Bool.false_or, Bool.false_eq_true, if_false,
      imp_false]
    by_cases root : pathComponents plan = [.rootDir]
    · simp only [planDirectory, root, List.dropLast_singleton, List.isEmpty_nil, if_true,
        not_true_eq_false, iff_false, not_and]
      exact fun head => absurd (isAbsolute_iff.mpr head) absolute
    · obtain ⟨first, rest, components⟩ := List.exists_cons_of_ne_nil
        (fun empty : pathComponents plan = [] => by simp [empty] at rooted)
      have only : first = .rootDir := by simpa [components] using rooted
      have deeper : rest ≠ [] := by
        rintro rfl
        exact root (by rw [components, only])
      have directory : planDirectory plan = .rootDir :: rest.dropLast := by
        rw [planDirectory, components, List.dropLast_cons_of_ne_nil deeper, only]
      simp only [directory, List.isEmpty_cons, Bool.false_eq_true, if_false, List.cons_append,
        List.head?_cons, true_and, root, not_false_eq_true, iff_true]
      intro component member
      rcases List.mem_cons.mp member with rfl | member
      · rfl
      · rcases List.mem_append.mp member with member | member
        · exact named component (by
            rw [components]
            exact List.mem_cons_of_mem _ (List.mem_of_mem_dropLast member))
        · exact plain component (List.mem_of_mem_filter member)

/-! ## What a validated plan promises -/

section Promised

variable {E : Policy.Environment} {plan : Plan} {targetId : Id} {policy : TargetPolicy}
  {phase : ActivationPhase}

theorem parseMode_isOk {mode : String} (restricted : Policy.isPrivateRuntimeMode mode = true) :
    (parseMode mode).isOk = true := by
  rw [Policy.isPrivateRuntimeMode, Bool.and_eq_true, Bool.and_eq_true, beq_iff_eq,
    Option.any_eq_true] at restricted
  obtain ⟨⟨size, leading⟩, number, parsed, checks⟩ := restricted
  simp only [Bool.and_eq_true, bne_iff_ne, decide_eq_true_eq, beq_iff_eq] at checks
  obtain ⟨⟨positive, bounded⟩, owned⟩ := checks
  have mask : number &&& 0o077 = 0 := by
    rw [show 0o077 = 2 ^ 6 - 1 from rfl, Nat.and_two_pow_sub_one_eq_mod]
    exact owned
  simp [parseMode, size, leading, parsed, validateMode, positive, not_lt.mpr bounded, mask, bind,
    Except.bind, Except.isOk, Except.toBool]

/-- The settings of a secret for a target pass the checks of the plan. -/
theorem runtimeForTarget_checked (accepted : Policy.AcceptedPlan E plan) {id : Id}
    {secret : Secret} (stored : plan.secrets[id]? = some secret) (targetId : Id) :
    ∃ label, Policy.validateRuntimeSettings id label (secret.runtimeForTarget targetId) =
      .ok () := by
  obtain ⟨before, after, checked⟩ := accepted.secrets id secret stored
  simp only [Policy.validateSecret, guard_eq_ok] at checked
  obtain ⟨⟨⟩, -, checked⟩ := bind_eq_ok.mp checked.2.2.2
  obtain ⟨⟨⟩, -, checked⟩ := bind_eq_ok.mp checked
  obtain ⟨⟨⟩, -, checked⟩ := bind_eq_ok.mp checked
  obtain ⟨⟨⟩, -, checked⟩ := bind_eq_ok.mp checked
  obtain ⟨⟨⟩, -, checked⟩ := bind_eq_ok.mp checked
  obtain ⟨⟨⟩, -, checked⟩ := bind_eq_ok.mp checked
  obtain ⟨⟨⟩, base, checked⟩ := bind_eq_ok.mp checked
  obtain ⟨⟨⟩, overrides, -⟩ := bind_eq_ok.mp checked
  rw [Secret.runtimeForTarget]
  cases given : secret.runtimeOverrides[targetId]? with
  | none => exact ⟨_, base⟩
  | some runtime =>
      have override := forM_eq_ok.mp overrides (targetId, runtime)
        (Std.TreeMap.mem_toList_iff_getElem?_eq_some.mpr given)
      simp only [Policy.validateRuntimeOverride, guard_eq_ok] at override
      exact ⟨_, override.2.2⟩

theorem validateRuntimeSettings_eq_ok {id : Id} {label : String} {runtime : RuntimeSettings}
    (checked : Policy.validateRuntimeSettings id label runtime = .ok ()) :
    (parseMode runtime.mode).isOk = true ∧
      ∀ path, runtime.compatibilitySymlink = some path → validCompatibilitySymlink path = true := by
  simp only [Policy.validateRuntimeSettings, guard_eq_ok, Bool.not_eq_true', Bool.not_eq_false,
    and_true] at checked
  refine ⟨parseMode_isOk checked.1, fun path given => ?_⟩
  have links := checked.2
  rw [given, Option.any_some, Bool.not_eq_true, Bool.not_eq_false'] at links
  exact links

theorem secretIn_checked (projection : Policy.Projection E plan targetId policy) {id : Id}
    {secret : TargetSecretPolicy} (stored : secretIn policy phase id = some secret) :
    (parseMode secret.runtime.mode).isOk = true ∧
      (∀ path, secret.runtime.compatibilitySymlink = some path →
        validCompatibilitySymlink path = true) ∧ id ∈ plan.secrets := by
  have accepted := Policy.acceptedPlan_of_validate projection.accepted
  have found := (secretIn_eq_some.mp stored).1
  rw [projection.secrets, Option.bind_eq_some_iff] at found
  obtain ⟨planned, listed, projected⟩ := found
  rw [Policy.projectedSecret] at projected
  split at projected
  · obtain ⟨approval, -, rfl⟩ := Option.map_eq_some_iff.mp projected
    obtain ⟨label, checked⟩ := runtimeForTarget_checked accepted listed targetId
    obtain ⟨mode, links⟩ := validateRuntimeSettings_eq_ok checked
    refine ⟨mode, links, ?_⟩
    rw [Std.TreeMap.mem_iff_isSome_getElem?, listed]
    rfl
  · cases projected

/-- The settings of a template that was checked in the plan. -/
structure TemplateChecked (plan : Plan) (id : Id) (template : Template) : Prop where
  source : Policy.isNormalizedPublicPath template.source = true
  nonempty : template.placeholders.isEmpty = false
  few : template.placeholders.size ≤ 256
  names : ∀ (name : String) (placeholder : TemplatePlaceholder),
    template.placeholders[name]? = some placeholder → isPlaceholderName name = true
  mode : (parseMode template.runtime.mode).isOk = true
  output : ∃ output, Id.parse ("templates/" ++ id.value) = .ok output

theorem templateChecked (accepted : Policy.AcceptedPlan E plan) {id : Id} {template : Template}
    (stored : plan.templates[id]? = some template) : TemplateChecked plan id template := by
  have checked := accepted.templates id template stored
  simp only [Policy.validateTemplate, guard_eq_ok, Bool.not_eq_true', Bool.not_eq_false,
    Bool.or_eq_true, decide_eq_true_eq, not_or, not_lt, Bool.not_eq_true] at checked
  obtain ⟨source, ⟨nonempty, few⟩, checked⟩ := checked
  obtain ⟨⟨⟩, placeholders, checked⟩ := bind_eq_ok.mp checked
  obtain ⟨common, -, checked⟩ := bind_eq_ok.mp checked
  simp only [guard_eq_ok, Bool.not_eq_false] at checked
  obtain ⟨mode, -, output⟩ := checked
  refine ⟨source, nonempty, few, ?_, parseMode_isOk mode, ?_⟩
  · intro name placeholder given
    have named := forM_eq_ok.mp placeholders (name, placeholder)
      (Std.TreeMap.mem_toList_iff_getElem?_eq_some.mpr given)
    simp only [guard_eq_ok, Bool.not_eq_false] at named
    exact named.1
  · cases parsed : Id.parse ("templates/" ++ id.value) with
    | error value => simp [parsed] at output
    | ok identifier => exact ⟨identifier, rfl⟩

/-- Every placeholder of a template belongs to its phase. -/
theorem phase_of_templatePhase {id : Id} {template : Template}
    (phased : Policy.templatePhase plan id template = .ok phase) {name : String}
    {placeholder : TemplatePlaceholder}
    (given : template.placeholders[name]? = some placeholder) :
    ∃ secret, plan.secrets[placeholder.secret]? = some secret ∧ secret.phase = phase := by
  have member : placeholder ∈ template.placeholders.toList.map Prod.snd :=
    List.mem_map.mpr ⟨(name, placeholder), Std.TreeMap.mem_toList_iff_getElem?_eq_some.mpr given,
      rfl⟩
  have single : ∀ {placeholder : TemplatePlaceholder} {found : ActivationPhase},
      Policy.placeholderPhase plan id placeholder = .ok found →
        ∃ secret, plan.secrets[placeholder.secret]? = some secret ∧ secret.phase = found := by
    intro placeholder found looked
    cases stored : plan.secrets[placeholder.secret]? with
    | none => simp [Policy.placeholderPhase, stored] at looked
    | some secret =>
        simp only [Policy.placeholderPhase, stored, Except.ok.injEq] at looked
        exact ⟨secret, rfl, looked⟩
  rw [Policy.templatePhase] at phased
  split at phased
  · cases phased
  · rename_i first rest listed
    rw [listed] at member
    obtain ⟨common, leading, phased⟩ := bind_eq_ok.mp phased
    obtain ⟨⟨⟩, others, phased⟩ := bind_eq_ok.mp phased
    cases phased
    rcases List.mem_cons.mp member with rfl | member
    · exact single leading
    · obtain ⟨candidate, looked, same⟩ := bind_eq_ok.mp (forM_eq_ok.mp others placeholder member)
      rw [guard_eq_ok, not_not] at same
      exact single (looked.trans (congrArg Except.ok same.1))

/-- What the policy holds for a template was checked in the plan, and its secrets are of its
phase. -/
theorem templateIn_checked (projection : Policy.Projection E plan targetId policy) {id : Id}
    {expected : TargetTemplatePolicy} (stored : templateIn policy phase id = some expected) :
    ∃ template, plan.templates[id]? = some template ∧ TemplateChecked plan id template ∧
      expected.source = template.source ∧ expected.placeholders = template.placeholders ∧
        expected.runtime = template.runtime ∧
          ∀ (name : String) (placeholder : TemplatePlaceholder),
            template.placeholders[name]? = some placeholder →
              ∃ secret, secretIn policy phase placeholder.secret = some secret := by
  have accepted := Policy.acceptedPlan_of_validate projection.accepted
  obtain ⟨found, here⟩ := templateIn_eq_some.mp stored
  rw [projection.templates, Option.bind_eq_some_iff] at found
  obtain ⟨template, listed, projected⟩ := found
  rw [Policy.projectedTemplate] at projected
  split at projected
  · rename_i complete
    obtain ⟨common, phased, rfl⟩ := Option.map_eq_some_iff.mp projected
    have phased : Policy.templatePhase plan id template = .ok phase := by
      cases looked : Policy.templatePhase plan id template with
      | error failure => simp [looked, Except.toOption] at phased
      | ok found =>
          simp only [looked, Except.toOption, Option.some.injEq] at phased
          rw [phased, ← here]
    refine ⟨template, listed, templateChecked accepted listed, rfl, rfl, rfl, ?_⟩
    intro name placeholder given
    obtain ⟨planned, known, same⟩ := phase_of_templatePhase phased given
    have held := List.all_eq_true.mp complete (name, placeholder)
      (Std.TreeMap.mem_toList_iff_getElem?_eq_some.mpr given)
    obtain ⟨other, also, consumer⟩ :=
      (mem_secrets_iff projection).mp (Std.TreeMap.contains_iff_mem.mp held)
    cases known.symm.trans also
    obtain ⟨secret, kept, phase⟩ := (@consumedIn_iff _ _ _ _ phase projection
      placeholder.secret).mpr ⟨planned, known, same, consumer⟩
    exact ⟨secret, secretIn_eq_some.mpr ⟨kept, phase⟩⟩
  · cases projected

theorem serviceActions_checked (projection : Policy.Projection E plan targetId policy)
    {command : TargetServiceActions} (given : policy.serviceActions = some command) :
    isAbsolute command.executable = true ∧
      1 ≤ command.timeoutSeconds.toNat ∧ command.timeoutSeconds.toNat ≤ 60 := by
  have accepted := Policy.acceptedPlan_of_validate projection.accepted
  obtain ⟨target, identity, stored, -, -, -, -, -, -, -, actions⟩ := projection.target
  obtain ⟨⟨⟩, checked, -⟩ := bind_eq_ok.mp (accepted.targets targetId target stored)
  rw [actions] at given
  simp only [Policy.validateTarget] at checked
  obtain ⟨⟨⟩, -, checked⟩ := bind_eq_ok.mp checked
  obtain ⟨⟨⟩, -, checked⟩ := bind_eq_ok.mp checked
  rw [guard_eq_ok, given] at checked
  simp only [guard_eq_ok, Bool.or_eq_true, not_or, Bool.not_eq_true', Bool.not_eq_false,
    Bool.and_eq_true, decide_eq_true_eq, and_true] at checked
  exact ⟨checked.2.1.1.1.1, checked.2.2⟩

theorem secrets_size_le (projection : Policy.Projection E plan targetId policy) :
    policy.secrets.size ≤ 10000 := by
  have bounded : plan.secrets.size ≤ 10000 := by
    have accepted := projection.accepted
    unfold Policy.validate at accepted
    obtain ⟨⟨⟩, -, accepted⟩ := bind_eq_ok.mp accepted
    rw [guard_eq_ok] at accepted
    have sizes := accepted.1
    simp only [List.any_cons, List.any_nil, Bool.or_eq_true, decide_eq_true_eq, not_or,
      not_lt] at sizes
    exact sizes.2.2.2.1
  have inside : policy.secrets.keys.Subperm plan.secrets.keys := by
    refine Std.TreeMap.nodup_keys.subperm fun id member => ?_
    rw [Std.TreeMap.mem_keys] at member ⊢
    obtain ⟨secret, stored, -⟩ := (mem_secrets_iff projection).mp member
    rw [Std.TreeMap.mem_iff_isSome_getElem?, stored]
    rfl
  have fewer := inside.length_le
  rw [Std.TreeMap.length_keys, Std.TreeMap.length_keys] at fewer
  omega

end Promised

/-! ## The accepted document -/

section Documents

variable {E : Policy.Environment} {plan : Plan} {targetId : Id} {policy : TargetPolicy}
  {phase : ActivationPhase} {places : Places}

theorem mem_artifacts {artifact : ActivationArtifactSpec} :
    artifact ∈ (projectSpec places policy phase).artifacts ↔
      ∃ id secret, secretIn policy phase id = some secret ∧
        artifactOf phase id secret = artifact := by
  simp only [projectSpec, List.mem_map, List.mem_filter, Prod.exists, decide_eq_true_eq,
    Std.TreeMap.mem_toList_iff_getElem?_eq_some, secretIn_eq_some]

theorem mem_templates {template : ActivationTemplateSpec} :
    template ∈ (projectSpec places policy phase).templates ↔
      ∃ id expected, templateIn policy phase id = some expected ∧
        templateOf phase (places.source id) id expected = template := by
  simp only [projectSpec, List.mem_map, List.mem_filter, Prod.exists, decide_eq_true_eq,
    Std.TreeMap.mem_toList_iff_getElem?_eq_some, templateIn_eq_some]

theorem nodup_secretIds :
    ((projectSpec places policy phase).artifacts.map ActivationArtifactSpec.secretId).Nodup := by
  have values := nodup_map_filter policy.secrets (fun entry => entry.2.phase = phase)
    fun left right same => Id.ext_value same
  rw [projectSpec, List.map_map]
  exact List.Nodup.of_map Id.value (by rwa [List.map_map])

theorem nodup_templateIds :
    ((projectSpec places policy phase).templates.map ActivationTemplateSpec.templateId).Nodup := by
  have values := nodup_map_filter policy.templates (fun entry => entry.2.phase = phase)
    fun left right same => Id.ext_value same
  rw [projectSpec, List.map_map]
  exact List.Nodup.of_map Id.value (by rwa [List.map_map])

/-- Artifacts of a policy are distinct when no two of them claim one link. -/
theorem distinct_iff : (projectSpec places policy phase).artifacts.Pairwise
      ActivationArtifactSpec.Distinct ↔
    ∀ first second secret other path, secretIn policy phase first = some secret →
      secretIn policy phase second = some other →
        secret.runtime.compatibilitySymlink = some path →
          other.runtime.compatibilitySymlink = some path → first = second := by
  constructor
  · intro pairwise first second secret other path stored also given shared
    by_contra different
    have symmetric : Std.Symm ActivationArtifactSpec.Distinct :=
      ⟨fun left right apart => ⟨apart.1.symm, fun path given same => apart.2 path same given⟩⟩
    have apart := pairwise.forall (mem_artifacts.mpr ⟨first, secret, stored, rfl⟩)
      (mem_artifacts.mpr ⟨second, other, also, rfl⟩)
      fun same => different (congrArg ActivationArtifactSpec.secretId same)
    exact apart.2 path shared given
  · intro links
    have ids := @nodup_secretIds policy phase places
    have nodup : (projectSpec places policy phase).artifacts.Nodup := ids.of_map
    refine nodup.pairwise_of_forall_ne fun left stored right also different => ?_
    have apart : left.secretId ≠ right.secretId := fun same =>
      different (List.inj_on_of_nodup_map ids stored also same)
    refine ⟨apart, fun path given same => ?_⟩
    obtain ⟨first, secret, found, rfl⟩ := mem_artifacts.mp stored
    obtain ⟨second, other, held, rfl⟩ := mem_artifacts.mp also
    exact apart (links first second secret other path found held same given)

theorem mem_unitsIn {units : RuntimeSettings → List String} {unit : String} :
    unit ∈ unitsIn units policy phase ↔ Declares units policy phase unit := by
  rw [unitsIn, Std.TreeSet.mem_toList, Std.TreeSet.mem_ofList, ← mem_units]
  simp

theorem nodup_unitsIn {units : RuntimeSettings → List String} :
    (unitsIn units policy phase).Nodup :=
  Ordered.nodup_of_ordered Std.TreeSet.ordered_toList

theorem unitsIn_isEmpty : ((unitsIn RuntimeSettings.restartUnits policy phase).isEmpty &&
    (unitsIn RuntimeSettings.reloadUnits policy phase).isEmpty) = true ↔
      ¬ DeclaresAny policy phase := by
  simp only [Bool.and_eq_true, List.isEmpty_iff, List.eq_nil_iff_forall_not_mem, mem_unitsIn,
    DeclaresAny, not_exists, not_or, forall_and]

/-- The service actions of a phase are there when units are declared and can be acted on. -/
theorem projectedPostSwitch_eq_some {actions : PostSwitchSpec} :
    projectedPostSwitch policy phase = some actions ↔ DeclaresAny policy phase ∧
      ∃ command manager, policy.serviceActions = some command ∧
        Manages policy.targetKind policy.system manager ∧
        actions =
          { executable := command.executable
            manager
            reloadUnits := unitsIn RuntimeSettings.reloadUnits policy phase
            restartUnits := unitsIn RuntimeSettings.restartUnits policy phase
            timeoutSeconds := command.timeoutSeconds } := by
  simp only [projectedPostSwitch]
  by_cases declared : DeclaresAny policy phase
  · rw [if_neg fun empty => unitsIn_isEmpty.mp empty declared]
    simp only [declared, true_and, ← expectedManager_eq_ok]
    cases given : policy.serviceActions with
    | none => simp
    | some command =>
        cases named : expectedManager policy with
        | error failure => simp
        | ok manager =>
            simp only [Option.some.injEq, Except.ok.injEq, exists_and_left, exists_eq_left']
            exact eq_comm
  · rw [if_pos (unitsIn_isEmpty.mpr declared)]
    simp [declared]

theorem servicesAgree_iff : ServicesAgree (projectSpec places policy phase) policy ↔
    (DeclaresAny policy phase → policy.serviceActions ≠ none) ∧
      (DeclaresAny policy phase → ∃ manager, Manages policy.targetKind policy.system manager) := by
  constructor
  · rintro ⟨-, present⟩
    refine ⟨fun declared => ?_, fun declared => ?_⟩
    · obtain ⟨actions, command, -, given, -⟩ := present declared
      rw [given]
      simp
    · obtain ⟨actions, command, -, -, agrees⟩ := present declared
      exact ⟨_, agrees.manager⟩
  · rintro ⟨command, manager⟩
    refine ⟨fun idle => ?_, fun declared => ?_⟩
    · exact if_pos (unitsIn_isEmpty.mpr idle)
    · obtain ⟨named, manages⟩ := manager declared
      obtain ⟨given, stored⟩ := Option.ne_none_iff_exists'.mp (command declared)
      refine ⟨_, given, projectedPostSwitch_eq_some.mpr ⟨declared, given, named, stored, manages,
        rfl⟩, stored, ?_⟩
      exact ⟨rfl, rfl, manages, fun unit => mem_unitsIn, fun unit => mem_unitsIn⟩

theorem artifacts_accepted_iff (projection : Policy.Projection E plan targetId policy)
    (suit : places.Suit policy phase) :
    (∀ artifact ∈ (projectSpec places policy phase).artifacts,
        artifact.Accepted (projectSpec places policy phase)) ↔
      ∀ id secret, secretIn policy phase id = some secret →
        isAccountName secret.runtime.owner = true ∧ isAccountName secret.runtime.group = true := by
  constructor
  · intro accepted id secret stored
    have own := accepted _ (mem_artifacts.mpr ⟨id, secret, stored, rfl⟩)
    exact ⟨own.owner, own.group⟩
  · rintro accounts artifact member
    obtain ⟨id, secret, stored, rfl⟩ := mem_artifacts.mp member
    obtain ⟨mode, links, -⟩ := secretIn_checked projection stored
    obtain ⟨owner, group⟩ := accounts id secret stored
    refine ⟨rfl, mode, owner, group, fun path given => ?_⟩
    have outside := suit.outside id secret path stored given
    rw [validCompatibilityPath, links path given]
    simp [projectSpec, outside]

theorem templates_accepted_iff (projection : Policy.Projection E plan targetId policy)
    (suit : places.Suit policy phase) :
    (∀ template ∈ (projectSpec places policy phase).templates,
        template.Accepted (projectSpec places policy phase)) ↔
      ∀ id template, templateIn policy phase id = some template →
        (isAccountName template.runtime.owner = true ∧
          isAccountName template.runtime.group = true) ∧
        (pathComponents places.plan = [.rootDir] → isAbsolute template.source = true) := by
  have facts := Policy.acceptedPlan_of_validate projection.accepted
  have source : ∀ id template, templateIn policy phase id = some template →
      (isNormalizedAbsolutePath (places.source id) = true ↔
        (pathComponents places.plan = [.rootDir] → isAbsolute template.source = true)) := by
    intro id template stored
    obtain ⟨declared, -, checked, same, -⟩ := templateIn_checked projection stored
    rw [isNormalizedAbsolutePath_iff, suit.source id template stored]
    exact expectedSource_normalized suit.plan (same ▸ checked.source)
  constructor
  · intro accepted id template stored
    have own := accepted _ (mem_templates.mpr ⟨id, template, stored, rfl⟩)
    exact ⟨⟨own.owner, own.group⟩, (source id template stored).mp own.source⟩
  · intro accounts template member
    obtain ⟨id, expected, stored, rfl⟩ := mem_templates.mp member
    obtain ⟨⟨owner, group⟩, located⟩ := accounts id expected stored
    obtain ⟨declared, listed, checked, -, placeholders, runtime, filled⟩ :=
      templateIn_checked projection stored
    obtain ⟨output, parsed⟩ := checked.output
    refine
      { destination := by rw [templateOutputId, show (templateOf phase (places.source id) id
            expected).templateId = id from rfl, parsed]; rfl
        free := ?_
        source := (source id expected stored).mpr located
        phase := rfl
        nonempty := by simpa [templateOf, placeholders] using checked.nonempty
        few := by simpa [templateOf, placeholders] using checked.few
        mode := by simpa [templateOf, runtime] using checked.mode
        owner := owner
        group := group
        placeholders := ?_ }
    · intro artifact held same
      obtain ⟨secretId, secret, kept, rfl⟩ := mem_artifacts.mp held
      exact template_not_secret facts listed same (secretIn_checked projection kept).2.2
    · intro name placeholder given
      simp only [templateOf, placeholders, Std.TreeMap.getElem?_map, Option.map_eq_some_iff] at given
      obtain ⟨bound, held, rfl⟩ := given
      obtain ⟨secret, kept⟩ := filled name bound held
      exact ⟨checked.names name bound held, artifactOf phase bound.secret secret,
        mem_artifacts.mpr ⟨bound.secret, secret, kept, rfl⟩, rfl⟩

theorem postSwitch_accepted (projection : Policy.Projection E plan targetId policy)
    (activatable : Activatable places policy phase) {actions : PostSwitchSpec}
    (given : projectedPostSwitch policy phase = some actions) : actions.Accepted := by
  obtain ⟨declared, command, manager, stored, manages, rfl⟩ := projectedPostSwitch_eq_some.mp given
  obtain ⟨absolute, timeout⟩ := serviceActions_checked projection stored
  refine
    { executable := absolute
      timeout := timeout
      reloadUnits := activatable.reloads
      restartUnits := activatable.restarts
      launchd := ?_
      names := ?_
      distinct := ?_ }
  · intro launchd
    rw [List.eq_nil_iff_forall_not_mem]
    exact fun unit member => activatable.launchd manager manages launchd unit (mem_unitsIn.mp member)
  · intro unit member
    refine activatable.names unit ?_
    rcases List.mem_append.mp member with reloaded | restarted
    · exact .inr (mem_unitsIn.mp reloaded)
    · exact .inl (mem_unitsIn.mp restarted)
  · rw [List.nodup_append]
    refine ⟨nodup_unitsIn, nodup_unitsIn, ?_⟩
    rintro unit reloaded _ restarted rfl
    exact activatable.apart unit (mem_unitsIn.mp restarted) (mem_unitsIn.mp reloaded)

theorem accepted_of_activatable (projection : Policy.Projection E plan targetId policy)
    (suit : places.Suit policy phase) (held : ∃ id secret, secretIn policy phase id = some secret)
    (activatable : Activatable places policy phase) :
    (projectSpec places policy phase).Accepted where
  schema := rfl
  runtimeRoot := suit.runtimeRoot
  plan := suit.plan
  artifactCacheRoot := suit.artifactCacheRoot
  runtimeGeneration := by simp [projectSpec]
  allowedClockSkew := by
    change (300 : UInt64).toNat ≤ 86400
    decide
  nonempty := by
    obtain ⟨id, secret, stored⟩ := held
    exact List.ne_nil_of_mem (mem_artifacts.mpr ⟨id, secret, stored, rfl⟩)
  artifactCount := by
    have fewer := secrets_size_le projection
    have kept := List.length_filter_le (fun entry : Id × TargetSecretPolicy =>
      decide (entry.2.phase = phase)) policy.secrets.toList
    rw [Std.TreeMap.length_toList] at kept
    simp only [projectSpec, List.length_map]
    omega
  templateCount := by
    have few := activatable.templates
    rw [List.countP_eq_length_filter] at few
    simpa [projectSpec] using few
  artifacts := (artifacts_accepted_iff projection suit).mpr fun id secret stored =>
    activatable.accounts secret.runtime (.inl ⟨id, secret, stored, rfl⟩)
  distinct := distinct_iff.mpr activatable.links
  templates := (templates_accepted_iff projection suit).mpr fun id template stored =>
    ⟨activatable.accounts template.runtime (.inr ⟨id, template, stored, rfl⟩),
      fun root => activatable.located root id template stored⟩
  templateIds := by
    have ids := @nodup_templateIds policy phase places
    rwa [List.nodup_iff_pairwise_ne, List.pairwise_map] at ids
  postSwitch := fun _ given => postSwitch_accepted projection activatable given

theorem activatable_of_accepted (projection : Policy.Projection E plan targetId policy)
    (suit : places.Suit policy phase)
    (services : ServicesAgree (projectSpec places policy phase) policy)
    (accepted : (projectSpec places policy phase).Accepted) :
    Activatable places policy phase := by
  obtain ⟨command, manager⟩ := servicesAgree_iff.mp services
  have artifacts := (artifacts_accepted_iff projection suit).mp accepted.artifacts
  have templates := (templates_accepted_iff projection suit).mp accepted.templates
  have acted : ∀ unit, Declares RuntimeSettings.restartUnits policy phase unit ∨
      Declares RuntimeSettings.reloadUnits policy phase unit →
        ∃ actions : PostSwitchSpec, actions.Accepted ∧
          actions.restartUnits = unitsIn RuntimeSettings.restartUnits policy phase ∧
          actions.reloadUnits = unitsIn RuntimeSettings.reloadUnits policy phase ∧
          Manages policy.targetKind policy.system actions.manager := by
    intro unit declared
    obtain ⟨actions, command, given, -, agrees⟩ := services.present ⟨unit, declared⟩
    obtain ⟨-, known, named, -, -, shape⟩ := projectedPostSwitch_eq_some.mp given
    refine ⟨actions, accepted.postSwitch actions given, ?_, ?_, agrees.manager⟩
    · rw [shape]
    · rw [shape]
  refine
    { accounts := ?_
      templates := ?_
      links := distinct_iff.mp accepted.distinct
      located := fun root id template stored => (templates id template stored).2 root
      command := command
      manager := manager
      apart := ?_
      names := ?_
      restarts := ?_
      reloads := ?_
      launchd := ?_ }
  · rintro runtime (⟨id, secret, stored, rfl⟩ | ⟨id, template, stored, rfl⟩)
    · exact artifacts id secret stored
    · exact (templates id template stored).1
  · have few := accepted.templateCount
    rw [List.countP_eq_length_filter]
    simpa [projectSpec] using few
  · intro unit restarts reloads
    obtain ⟨actions, own, restarted, reloaded, -⟩ := acted unit (.inl restarts)
    have apart := (List.nodup_append.mp own.distinct).2.2
    rw [restarted, reloaded] at apart
    exact apart unit (mem_unitsIn.mpr reloads) unit (mem_unitsIn.mpr restarts) rfl
  · intro unit declared
    obtain ⟨actions, own, restarted, reloaded, -⟩ := acted unit declared
    refine own.names unit ?_
    rw [List.mem_append, restarted, reloaded, mem_unitsIn, mem_unitsIn]
    exact declared.symm
  · rcases List.eq_nil_or_concat' (unitsIn RuntimeSettings.restartUnits policy phase) with
      none | ⟨front, unit, listed⟩
    · simp [none]
    · obtain ⟨actions, own, restarted, -⟩ := acted unit (.inl (mem_unitsIn.mp (by simp [listed])))
      exact restarted ▸ own.restartUnits
  · rcases List.eq_nil_or_concat' (unitsIn RuntimeSettings.reloadUnits policy phase) with
      none | ⟨front, unit, listed⟩
    · simp [none]
    · obtain ⟨actions, own, -, reloaded, -⟩ := acted unit (.inr (mem_unitsIn.mp (by simp [listed])))
      exact reloaded ▸ own.reloadUnits
  · intro other manages launchd unit reloads
    obtain ⟨actions, own, -, reloaded, named⟩ := acted unit (.inr reloads)
    have same := expectedManager_eq_ok.mpr manages
    cases same.symm.trans (expectedManager_eq_ok.mpr named)
    have none := own.launchd launchd
    rw [reloaded] at none
    have member := mem_unitsIn.mpr reloads
    rw [none] at member
    cases member

end Documents

namespace Sample

/-- Places for the documents of the sample host. -/
def places : Places where
  runtimeRoot := "/run/nix-seal"
  plan := "/etc/nix-seal/plan.json"
  artifactCacheRoot := "/var/cache/nix-seal"
  source := fun id => "/etc/nix-seal/" ++ id.value

theorem secretIn_service {id : Id} {secret : TargetSecretPolicy}
    (stored : secretIn servicePolicy .activation id = some secret) : secret.runtime = linked := by
  have listed := Std.TreeMap.mem_toList_iff_getElem?_eq_some.mpr (secretIn_eq_some.mp stored).1
  cases List.mem_singleton.mp listed
  rfl

theorem templateIn_service {id : Id} {template : TargetTemplatePolicy}
    (stored : templateIn servicePolicy .activation id = some template) :
    id = config ∧ template.source = configTemplate.source := by
  have listed := Std.TreeMap.mem_toList_iff_getElem?_eq_some.mpr (templateIn_eq_some.mp stored).1
  cases List.mem_singleton.mp listed
  exact ⟨rfl, rfl⟩

theorem suit_service : places.Suit servicePolicy .activation where
  runtimeRoot := by decide
  plan := by decide
  artifactCacheRoot := by decide
  outside id secret path stored given := by
    rw [secretIn_service stored] at given
    cases given
    decide
  source id template stored := by
    obtain ⟨rfl, same⟩ := templateIn_service stored
    rw [same]
    decide

/-- The sample secret, with a unit that is restarted for it. -/
def unitSecret : Secret :=
  { Policy.Sample.tokenSecret with runtime := { restartUnits := ["nginx"] } }

/-- The sample plan with this secret. -/
def unitPlan : Plan :=
  { Policy.Sample.plan with
    secrets := Std.TreeMap.ofList [(Policy.Sample.token, unitSecret)] }

/-- Canonical JSON of this plan, spelled as that of the sample plan. -/
def unitPattern : String :=
  "('approvalPolicies':(),'backends':(),'generators':(),'groups':('fleet':('members':['host']" ++
    ")),'identities':('admin':('kind':'administrator','public':'age1ql3z7hjy54pw3hyww5ayyfg7zqg" ++
    "vc7w3j2elw8zmrj2kg5sfn9aqmcac8p'),'host-key':('kind':'target','public':'age1lggyhqrw2nlhcx" ++
    "prm67z43rta597azn8gknawjehu9d9dl0jq3yqqvfafg'),'signer':('kind':'signer','public':'nix-sea" ++
    "l-ed25519-v1:11qYAYKxCrfVS/7TyWQHOg7hcvPapiMlrwIaaPcHURo=')),'schema':'nix-seal.plan.v2','" ++
    "secrets':('token':('administrators':[],'approvalPolicy':null,'consumers':['fleet'],'delive" ++
    "ry':'rekeyed','lifecycle':('classification':null,'contact':null,'createdAt':null,'expiresA" ++
    "t':null,'incidentReference':null,'purpose':null,'rotateAfterDays':null,'rotatedAt':null),'" ++
    "phase':'activation','repositoryOnly':false,'runtime':('group':'root','mode':'0400','owner'" ++
    ":'root','reloadUnits':[],'restartUnits':['nginx']),'runtimeOverrides':(),'selectors':('con" ++
    "figurations':[],'environments':[],'groups':[],'kinds':[],'systems':[],'tags':[],'targets':" ++
    "[],'usernames':[]),'source':'token.age','sourceCiphertextHash':'a5a5a5a5a5a5a5a5a5a5a5a5a5" ++
    "a5a5a5a5a5a5a5a5a5a5a5a5a5a5a5a5a5a5a5')),'targets':('host':('configuration':null,'environ" ++
    "ment':null,'identity':'host-key','kind':'nixOs','system':'x86_64-linux','tags':[],'usernam" ++
    "e':null)),'templates':())"

/-- The sample environment, with the text of this plan. -/
def unitEnvironment : Policy.Environment :=
  { Policy.Sample.environment with
    planToJcs := fun _ =>
      some (utf8 (String.ofList (unitPattern.toList.map Policy.Sample.spell))) }

theorem secretIn_unit {policy : TargetPolicy}
    (projection : Policy.Projection unitEnvironment unitPlan Policy.Sample.host policy) {id : Id}
    {secret : TargetSecretPolicy} {phase : ActivationPhase}
    (stored : secretIn policy phase id = some secret) : secret.runtime = unitSecret.runtime := by
  have found := (secretIn_eq_some.mp stored).1
  rw [projection.secrets, Option.bind_eq_some_iff] at found
  obtain ⟨planned, listed, projected⟩ := found
  have pair := (Ordered.getElem?_ofList_eq_some (by simp)).mp listed
  cases List.mem_singleton.mp pair
  rw [Policy.projectedSecret] at projected
  split at projected
  · obtain ⟨approval, -, rfl⟩ := Option.map_eq_some_iff.mp projected
    rfl
  · cases projected

theorem exists_unit {policy : TargetPolicy}
    (projection : Policy.Projection unitEnvironment unitPlan Policy.Sample.host policy) :
    ∃ secret, secretIn policy .activation Policy.Sample.token = some secret := by
  obtain ⟨secret, stored, phase⟩ := (@consumedIn_iff _ _ _ _ .activation projection
    Policy.Sample.token).mpr ⟨unitSecret,
      (Ordered.getElem?_ofList_eq_some (by simp)).mpr (by simp), rfl, by decide⟩
  exact ⟨secret, secretIn_eq_some.mpr ⟨stored, phase⟩⟩

end Sample

/-- The document of a phase of a validated plan agrees with its policy in its service actions and is
accepted exactly when nothing that the plan leaves open stands in the way. -/
theorem projectSpec_accepted_iff {E : Policy.Environment} {plan : Plan} {targetId : Id}
    {policy : TargetPolicy} {phase : ActivationPhase} {places : Places}
    (projected : Policy.targetPolicy E plan targetId = .ok policy)
    (suit : places.Suit policy phase) (held : ∃ id secret, secretIn policy phase id = some secret) :
    verifyServiceProjection (projectSpec places policy phase) policy = .ok () ∧
        (projectSpec places policy phase).validate = .ok () ↔
      Activatable places policy phase := by
  have projection := Policy.projection_of_targetPolicy projected
  rw [ActivationSpec.validate_eq_ok]
  constructor
  · rintro ⟨verified, accepted⟩
    have services := (verifyServiceProjection_eq_ok accepted).mp verified
    exact activatable_of_accepted projection suit services accepted
  · intro activatable
    have accepted := accepted_of_activatable projection suit held activatable
    exact ⟨(verifyServiceProjection_eq_ok accepted).mpr
      (servicesAgree_iff.mpr ⟨activatable.command, activatable.manager⟩), accepted⟩

theorem projectSpec_accepted_service : Policy.targetPolicy Sample.serviceEnvironment
    Sample.servicePlan Policy.Sample.host = .ok Sample.servicePolicy ∧
      (projectSpec Sample.places Sample.servicePolicy .activation).validate = .ok () ∧
      Activatable Sample.places Sample.servicePolicy .activation := by
  have held : ∃ id secret, secretIn Sample.servicePolicy .activation id = some secret :=
    ⟨Policy.Sample.token, _, secretIn_eq_some.mpr ⟨Std.TreeMap.getElem?_insert_self, rfl⟩⟩
  have verified : verifyServiceProjection
      (projectSpec Sample.places Sample.servicePolicy .activation) Sample.servicePolicy =
        .ok () := by
    decide
  have validated :
      (projectSpec Sample.places Sample.servicePolicy .activation).validate = .ok () := by
    decide
  exact ⟨Sample.projected_service, validated,
    (projectSpec_accepted_iff Sample.projected_service Sample.suit_service held).mp
      ⟨verified, validated⟩⟩

/-- A validated plan may restart units for a target that has no service actions. -/
theorem projectSpec_without_actions :
    ¬ ∀ (E : Policy.Environment) (plan : Plan) (targetId : Id) (policy : TargetPolicy)
      (phase : ActivationPhase) (places : Places),
      Policy.targetPolicy E plan targetId = .ok policy → places.Suit policy phase →
        (∃ id secret, secretIn policy phase id = some secret) →
          verifyServiceProjection (projectSpec places policy phase) policy = .ok () ∧
            (projectSpec places policy phase).validate = .ok () := by
  intro claim
  have validated : Policy.validate Sample.unitEnvironment Sample.unitPlan = .ok () :=
    Policy.Sample.validate_of_identities rfl rfl rfl (by decide) (by decide +kernel)
  have found : Sample.unitPlan.targets[Policy.Sample.host]? = some Policy.Sample.hostTarget := by
    decide
  obtain ⟨policy, projected, -⟩ := Policy.targetPolicy_ok validated rfl found
  have projection := Policy.projection_of_targetPolicy projected
  obtain ⟨secret, stored⟩ := Sample.exists_unit projection
  have only : ∀ id template, templateIn policy .activation id ≠ some template := by
    intro id template listed
    obtain ⟨declared, given, -⟩ := templateIn_checked projection listed
    cases given
  have suit : Sample.places.Suit policy .activation := by
    refine ⟨by decide, by decide, by decide, ?_, fun id template listed =>
      absurd listed (only id template)⟩
    intro id other path listed given
    rw [Sample.secretIn_unit projection listed] at given
    cases given
  obtain ⟨verified, accepted⟩ := claim _ _ _ policy .activation Sample.places projected suit
    ⟨_, secret, stored⟩
  have services := (verifyServiceProjection_eq_ok (ActivationSpec.validate_eq_ok.mp accepted)).mp
    verified
  have declared : DeclaresAny policy .activation :=
    ⟨"nginx", .inl ⟨secret.runtime, .inl ⟨_, secret, stored, rfl⟩, by
      rw [Sample.secretIn_unit projection stored]
      decide⟩⟩
  obtain ⟨target, identity, known, -, -, -, -, -, -, -, actions⟩ := projection.target
  cases known.symm.trans found
  exact (servicesAgree_iff.mp services).1 declared actions

end NixSeal.Runtime
