import NixSeal.Runtime.Template

/-!
# Activation documents

The public document of an activation and the checks that it passes before any file is touched.
An accepted document is described by what holds of each entry and of every two of them.
-/

namespace NixSeal.Runtime

open Fallible

/-- `ACTIVATION_SCHEMA`. -/
def activationSchema : String := "nix-seal.activation.v2"

/-- `ActivationArtifactSpecV2`. -/
structure ActivationArtifactSpec where
  secretId : Id
  phase : ActivationPhase
  mode : String
  owner : String
  group : String
  compatibilitySymlink : Option String
  deriving DecidableEq

/-- `ActivationTemplateSpecV1`. -/
structure ActivationTemplateSpec where
  source : String
  templateId : Id
  phase : ActivationPhase
  placeholders : Placeholders
  mode : String
  owner : String
  group : String

/-- `ServiceManagerV1`. -/
inductive ServiceManager where
  | systemdSystem
  | systemdUser
  | launchdSystem
  | launchdUser
  deriving DecidableEq

/-- Whether a manager is one of the launchd domains. -/
def ServiceManager.isLaunchd : ServiceManager → Bool
  | .launchdSystem | .launchdUser => true
  | .systemdSystem | .systemdUser => false

/-- `PostSwitchSpecV1`. -/
structure PostSwitchSpec where
  executable : String
  manager : ServiceManager
  reloadUnits : List String
  restartUnits : List String
  timeoutSeconds : UInt64
  deriving DecidableEq

/-- `ActivationSpecV2`. -/
structure ActivationSpec where
  schema : String := activationSchema
  runtimeRoot : String
  runtimeGeneration : Option UInt64 := none
  plan : String
  artifactCacheRoot : String
  targetId : Id
  phase : ActivationPhase := .activation
  allowedClockSkew : UInt64 := 300
  artifacts : List ActivationArtifactSpec
  templates : List ActivationTemplateSpec := []
  postSwitch : Option PostSwitchSpec := none

/-- `is_normalized_absolute_path`. -/
def isNormalizedAbsolutePath (path : String) : Bool :=
  isAbsolute path && (pathComponents path).all PathComponent.isRootOrNormal

/-- `parse_mode`. -/
def parseMode (value : String) : Except RuntimeError Nat :=
  if value.utf8ByteSize ≠ 4 || !startsWith "0" value then .error .invalidSpec
  else
    match Policy.u32FromStrRadix 8 value with
    | none => .error .invalidSpec
    | some mode => do
        validateMode mode
        .ok mode

/-- `is_ascii_whitespace`. -/
def isAsciiWhitespace (char : Char) : Bool :=
  char == ' ' || char == '\t' || char == '\n' || char.toNat == 0x0c || char == '\r'

/-- `is_ascii_alphanumeric`. -/
def isAsciiAlphanumeric (char : Char) : Bool :=
  isAsciiDigit char || isAsciiLowercase char || (0x41 ≤ char.toNat && char.toNat ≤ 0x5a)

/-- `is_account_name`. -/
def isAccountName (value : String) : Bool :=
  !value.toList.isEmpty && value.utf8ByteSize ≤ 256 &&
    !value.toList.any fun char =>
      isAsciiControl char || char == '/' || char == ':' || isAsciiWhitespace char

/-- `is_unit_name`. -/
def isUnitName (value : String) : Bool :=
  !value.toList.isEmpty && value.utf8ByteSize ≤ 256 &&
    value.toList.all fun char =>
      isAsciiAlphanumeric char || char == '_' || char == '-' || char == '.' || char == '@' ||
        char == ':'

/-- `template_output_id`. -/
def templateOutputId (templateId : Id) : Except RuntimeError Id :=
  (Id.parse ("templates/" ++ templateId.value)).mapError fun _ => .invalidSpec

/-- The destinations, secrets and links of the artifacts before. -/
structure Claims where
  destinations : Std.TreeSet String
  secretIds : Std.TreeSet Id
  compatibilityPaths : Std.TreeSet String

/-- One turn of the loop over artifacts.  An accepted link has no second spelling, so links are
compared as text. -/
def claimArtifact (spec : ActivationSpec) (claims : Claims) (artifact : ActivationArtifactSpec) :
    Except RuntimeError Claims :=
  if artifact.phase ≠ spec.phase || claims.destinations.contains artifact.secretId.value ||
      claims.secretIds.contains artifact.secretId || !(parseMode artifact.mode).isOk ||
      !isAccountName artifact.owner || !isAccountName artifact.group ||
      artifact.compatibilitySymlink.any fun path =>
        !validCompatibilityPath path spec.runtimeRoot || claims.compatibilityPaths.contains path then
    .error .invalidSpec
  else
    .ok
      { destinations := claims.destinations.insert artifact.secretId.value
        secretIds := claims.secretIds.insert artifact.secretId
        compatibilityPaths :=
          artifact.compatibilitySymlink.elim claims.compatibilityPaths claims.compatibilityPaths.insert }

/-- One turn of the loop over templates. -/
def claimTemplate (spec : ActivationSpec) (secretIds : Std.TreeSet Id)
    (destinations : Std.TreeSet String) (template : ActivationTemplateSpec) :
    Except RuntimeError (Std.TreeSet String) := do
  let destination ← templateOutputId template.templateId
  if !isNormalizedAbsolutePath template.source || template.phase ≠ spec.phase ||
      destinations.contains destination.value || template.placeholders.isEmpty ||
      256 < template.placeholders.size || !(parseMode template.mode).isOk ||
      !isAccountName template.owner || !isAccountName template.group ||
      template.placeholders.toList.any fun entry =>
        !isPlaceholderName entry.1 || !secretIds.contains entry.2.secretId then
    .error .invalidSpec
  else .ok (destinations.insert destination.value)

/-- One turn of the loop over units. -/
def claimUnit (units : Std.TreeSet String) (unit : String) :
    Except RuntimeError (Std.TreeSet String) :=
  if !isUnitName unit || units.contains unit then .error .invalidSpec else .ok (units.insert unit)

/-- `PostSwitchSpecV1::validate`. -/
def PostSwitchSpec.validate (actions : PostSwitchSpec) : Except RuntimeError Unit :=
  if !isAbsolute actions.executable || actions.timeoutSeconds == 0 ||
      60 < actions.timeoutSeconds.toNat || 256 < actions.reloadUnits.length ||
      256 < actions.restartUnits.length ||
      actions.manager.isLaunchd && !actions.reloadUnits.isEmpty then
    .error .invalidSpec
  else do
    let _ ← (actions.reloadUnits ++ actions.restartUnits).foldlM claimUnit {}
    .ok ()

/-- Validation of the actions of a document, if there are any. -/
def validatePostSwitch : Option PostSwitchSpec → Except RuntimeError Unit
  | none => .ok ()
  | some actions => actions.validate

/-- `ActivationSpecV2::validate`. -/
def ActivationSpec.validate (spec : ActivationSpec) : Except RuntimeError Unit :=
  if spec.schema ≠ activationSchema || !isNormalizedAbsolutePath spec.runtimeRoot ||
      !isNormalizedAbsolutePath spec.plan || !isNormalizedAbsolutePath spec.artifactCacheRoot ||
      spec.runtimeGeneration == some 0 || 86400 < spec.allowedClockSkew.toNat ||
      spec.artifacts.isEmpty || 10000 < spec.artifacts.length ||
      1024 < spec.templates.length then
    .error .invalidSpec
  else do
    let claims ← spec.artifacts.foldlM (claimArtifact spec) ⟨{}, {}, {}⟩
    let _ ← spec.templates.foldlM (claimTemplate spec claims.secretIds) claims.destinations
    validatePostSwitch spec.postSwitch

/-! ## Accepted documents -/

/-- What is asked of an artifact alone. -/
structure ActivationArtifactSpec.Accepted (spec : ActivationSpec)
    (artifact : ActivationArtifactSpec) : Prop where
  phase : artifact.phase = spec.phase
  mode : (parseMode artifact.mode).isOk = true
  owner : isAccountName artifact.owner = true
  group : isAccountName artifact.group = true
  link : ∀ path, artifact.compatibilitySymlink = some path →
    validCompatibilityPath path spec.runtimeRoot = true

/-- What is asked of two artifacts. -/
def ActivationArtifactSpec.Distinct (earlier artifact : ActivationArtifactSpec) : Prop :=
  earlier.secretId ≠ artifact.secretId ∧
    ∀ path, artifact.compatibilitySymlink = some path → earlier.compatibilitySymlink ≠ some path

/-- What is asked of a template alone. -/
structure ActivationTemplateSpec.Accepted (spec : ActivationSpec)
    (template : ActivationTemplateSpec) : Prop where
  destination : (templateOutputId template.templateId).isOk = true
  free : ∀ artifact ∈ spec.artifacts,
    artifact.secretId.value ≠ "templates/" ++ template.templateId.value
  source : isNormalizedAbsolutePath template.source = true
  phase : template.phase = spec.phase
  nonempty : template.placeholders.isEmpty = false
  few : template.placeholders.size ≤ 256
  mode : (parseMode template.mode).isOk = true
  owner : isAccountName template.owner = true
  group : isAccountName template.group = true
  placeholders : ∀ (name : String) (placeholder : PlaceholderSpec),
    template.placeholders[name]? = some placeholder → isPlaceholderName name = true ∧
      ∃ artifact ∈ spec.artifacts, artifact.secretId = placeholder.secretId

/-- What is asked of service actions. -/
structure PostSwitchSpec.Accepted (actions : PostSwitchSpec) : Prop where
  executable : isAbsolute actions.executable = true
  timeout : 1 ≤ actions.timeoutSeconds.toNat ∧ actions.timeoutSeconds.toNat ≤ 60
  reloadUnits : actions.reloadUnits.length ≤ 256
  restartUnits : actions.restartUnits.length ≤ 256
  launchd : actions.manager.isLaunchd = true → actions.reloadUnits = []
  names : ∀ unit ∈ actions.reloadUnits ++ actions.restartUnits, isUnitName unit = true
  distinct : (actions.reloadUnits ++ actions.restartUnits).Nodup

/-- What is asked of a document. -/
structure ActivationSpec.Accepted (spec : ActivationSpec) : Prop where
  schema : spec.schema = activationSchema
  runtimeRoot : isNormalizedAbsolutePath spec.runtimeRoot = true
  plan : isNormalizedAbsolutePath spec.plan = true
  artifactCacheRoot : isNormalizedAbsolutePath spec.artifactCacheRoot = true
  runtimeGeneration : spec.runtimeGeneration ≠ some 0
  allowedClockSkew : spec.allowedClockSkew.toNat ≤ 86400
  nonempty : spec.artifacts ≠ []
  artifactCount : spec.artifacts.length ≤ 10000
  templateCount : spec.templates.length ≤ 1024
  artifacts : ∀ artifact ∈ spec.artifacts, artifact.Accepted spec
  distinct : spec.artifacts.Pairwise ActivationArtifactSpec.Distinct
  templates : ∀ template ∈ spec.templates, template.Accepted spec
  templateIds : spec.templates.Pairwise fun earlier template =>
    earlier.templateId ≠ template.templateId
  postSwitch : ∀ actions, spec.postSwitch = some actions → actions.Accepted

/-- The destinations of a document, below its runtime generation. -/
def ActivationSpec.outputs (spec : ActivationSpec) : List String :=
  spec.artifacts.map (fun artifact => artifact.secretId.value) ++
    spec.templates.map fun template => "templates/" ++ template.templateId.value

theorem templates_append_inj {left right : Id} :
    "templates/" ++ left.value = "templates/" ++ right.value ↔ left = right :=
  (String.append_right_inj _).trans ⟨Id.ext_value, congrArg Id.value⟩

theorem ActivationSpec.Accepted.nodup_outputs {spec : ActivationSpec} (accepted : spec.Accepted) :
    spec.outputs.Nodup := by
  rw [ActivationSpec.outputs, List.nodup_append]
  refine ⟨?_, ?_, ?_⟩
  · rw [List.nodup_iff_pairwise_ne, List.pairwise_map]
    exact accepted.distinct.imp fun distinct same => distinct.1 (Id.ext_value same)
  · rw [List.nodup_iff_pairwise_ne, List.pairwise_map]
    exact accepted.templateIds.imp fun distinct same => distinct (templates_append_inj.mp same)
  · intro left listed right rendered
    obtain ⟨artifact, stored, rfl⟩ := List.mem_map.mp listed
    obtain ⟨template, declared, rfl⟩ := List.mem_map.mp rendered
    exact (accepted.templates template declared).free artifact stored

/-- The claims that artifacts leave. -/
structure Claims.Of (done : List ActivationArtifactSpec) (claims : Claims) : Prop where
  destinations : ∀ text, text ∈ claims.destinations ↔
    ∃ artifact ∈ done, artifact.secretId.value = text
  secretIds : ∀ id, id ∈ claims.secretIds ↔ ∃ artifact ∈ done, artifact.secretId = id
  compatibilityPaths : ∀ path, path ∈ claims.compatibilityPaths ↔
    ∃ artifact ∈ done, artifact.compatibilitySymlink = some path

theorem Claims.of_nil : Claims.Of [] ⟨{}, {}, {}⟩ where
  destinations text := by simp
  secretIds id := by simp
  compatibilityPaths path := by simp

theorem claimArtifact_isOk {spec : ActivationSpec} {done : List ActivationArtifactSpec}
    {claims : Claims} (claimed : claims.Of done) (artifact : ActivationArtifactSpec) :
    (∃ next, claimArtifact spec claims artifact = .ok next) ↔
      artifact.Accepted spec ∧ ∀ earlier ∈ done, earlier.Distinct artifact := by
  have destination : claims.destinations.contains artifact.secretId.value = false ↔
      ∀ earlier ∈ done, earlier.secretId ≠ artifact.secretId := by
    rw [← Bool.not_eq_true, Std.TreeSet.contains_iff_mem, claimed.destinations]
    constructor
    · intro free earlier member same
      exact free ⟨earlier, member, congrArg Id.value same⟩
    · rintro free ⟨earlier, member, same⟩
      exact free earlier member (Id.ext_value same)
  have secretId : claims.secretIds.contains artifact.secretId = false ↔
      ∀ earlier ∈ done, earlier.secretId ≠ artifact.secretId := by
    rw [← Bool.not_eq_true, Std.TreeSet.contains_iff_mem, claimed.secretIds]
    simp
  have link : (artifact.compatibilitySymlink.any fun path =>
      !validCompatibilityPath path spec.runtimeRoot || claims.compatibilityPaths.contains path) =
        false ↔
      ∀ path, artifact.compatibilitySymlink = some path →
        validCompatibilityPath path spec.runtimeRoot = true ∧
          ∀ earlier ∈ done, earlier.compatibilitySymlink ≠ some path := by
    have unclaimed : ∀ path, claims.compatibilityPaths.contains path = false ↔
        ∀ earlier ∈ done, earlier.compatibilitySymlink ≠ some path := by
      intro path
      rw [← Bool.not_eq_true, Std.TreeSet.contains_iff_mem, claimed.compatibilityPaths]
      simp
    cases artifact.compatibilitySymlink with
    | none => simp
    | some path => simp [unclaimed]
  simp only [claimArtifact, guard_eq_ok, exists_and_left, Except.ok.injEq, exists_eq', and_true,
    Bool.or_eq_true, not_or, Bool.not_eq_true', Bool.not_eq_false, decide_eq_true_eq, not_not,
    Bool.not_eq_true, destination, secretId, link]
  constructor
  · rintro ⟨⟨⟨⟨⟨⟨phase, others⟩, -⟩, mode⟩, owner⟩, group⟩, links⟩
    exact ⟨⟨phase, mode, owner, group, fun path given => (links path given).1⟩,
      fun earlier member => ⟨others earlier member, fun path given =>
        (links path given).2 earlier member⟩⟩
  · rintro ⟨own, others⟩
    have apart : ∀ earlier ∈ done, earlier.secretId ≠ artifact.secretId :=
      fun earlier member => (others earlier member).1
    exact ⟨⟨⟨⟨⟨⟨own.phase, apart⟩, apart⟩, own.mode⟩, own.owner⟩, own.group⟩,
      fun path given => ⟨own.link path given, fun earlier member =>
        (others earlier member).2 path given⟩⟩

theorem Claims.Of.step {spec : ActivationSpec} {done : List ActivationArtifactSpec}
    {claims next : Claims} (claimed : claims.Of done) {artifact : ActivationArtifactSpec}
    (stepped : claimArtifact spec claims artifact = .ok next) : next.Of (done ++ [artifact]) := by
  rw [claimArtifact, guard_eq_ok] at stepped
  cases stepped.2
  refine { destinations := ?_, secretIds := ?_, compatibilityPaths := ?_ }
  · intro text
    rw [Std.TreeSet.mem_insert, Std.LawfulEqCmp.compare_eq_iff_eq, claimed.destinations]
    simp [or_and_right, exists_or, or_comm]
  · intro id
    rw [Std.TreeSet.mem_insert, Std.LawfulEqCmp.compare_eq_iff_eq, claimed.secretIds]
    simp [or_and_right, exists_or, or_comm]
  · intro path
    cases link : artifact.compatibilitySymlink with
    | none =>
        rw [Option.elim_none, claimed.compatibilityPaths]
        simp [or_and_right, exists_or, link]
    | some given =>
        rw [Option.elim_some, Std.TreeSet.mem_insert, Std.LawfulEqCmp.compare_eq_iff_eq,
          claimed.compatibilityPaths]
        simp [or_and_right, exists_or, link, or_comm]

theorem Claims.of_foldlM {spec : ActivationSpec} {artifacts : List ActivationArtifactSpec}
    {claims : Claims}
    (claimed : artifacts.foldlM (claimArtifact spec) ⟨{}, {}, {}⟩ = .ok claims) :
    claims.Of artifacts :=
  foldlM_eq_ok_induction claimed (fun done claims => Claims.Of done claims) Claims.of_nil
    fun _ _ _ _ _ stepped claimed => claimed.step stepped

theorem value_of_templateOutputId {templateId destination : Id}
    (named : templateOutputId templateId = .ok destination) :
    destination.value = "templates/" ++ templateId.value := by
  rw [templateOutputId, mapError_eq_ok, Id.parse] at named
  split at named
  · cases named
    rfl
  · cases named

theorem claimTemplate_isOk {spec : ActivationSpec} {claims : Claims}
    (claimed : claims.Of spec.artifacts) {done : List ActivationTemplateSpec}
    {destinations : Std.TreeSet String}
    (taken : ∀ text, text ∈ destinations ↔ text ∈ claims.destinations ∨
      ∃ template ∈ done, "templates/" ++ template.templateId.value = text)
    (template : ActivationTemplateSpec) :
    (∃ next, claimTemplate spec claims.secretIds destinations template = .ok next) ↔
      template.Accepted spec ∧ ∀ earlier ∈ done, earlier.templateId ≠ template.templateId := by
  cases named : templateOutputId template.templateId with
  | error failure =>
      refine iff_of_false ?_ fun accepted => ?_
      · simp [claimTemplate, named, bind, Except.bind]
      · have parsed := accepted.1.destination
        rw [named] at parsed
        cases parsed
  | ok destination =>
      have free : destinations.contains destination.value = false ↔
          (∀ artifact ∈ spec.artifacts,
            artifact.secretId.value ≠ "templates/" ++ template.templateId.value) ∧
          ∀ earlier ∈ done, earlier.templateId ≠ template.templateId := by
        rw [← Bool.not_eq_true, Std.TreeSet.contains_iff_mem, taken, claimed.destinations,
          value_of_templateOutputId named, not_or]
        refine and_congr (by simp) ?_
        constructor
        · intro fresh earlier member same
          exact fresh ⟨earlier, member, by rw [same]⟩
        · rintro fresh ⟨earlier, member, same⟩
          exact fresh earlier member (templates_append_inj.mp same)
      have bound : (template.placeholders.toList.any fun entry =>
          !isPlaceholderName entry.1 || !claims.secretIds.contains entry.2.secretId) = false ↔
          ∀ (name : String) (placeholder : PlaceholderSpec),
            template.placeholders[name]? = some placeholder → isPlaceholderName name = true ∧
              ∃ artifact ∈ spec.artifacts, artifact.secretId = placeholder.secretId := by
        simp only [List.any_eq_false, Prod.forall, Std.TreeMap.mem_toList_iff_getElem?_eq_some,
          Bool.or_eq_true, Bool.not_eq_true', not_or, Bool.not_eq_false,
          Std.TreeSet.contains_iff_mem, claimed.secretIds]
      simp only [claimTemplate, named, ok_bind, guard_eq_ok, exists_and_left, Except.ok.injEq,
        exists_eq', and_true, Bool.or_eq_true, not_or, Bool.not_eq_true', Bool.not_eq_false,
        decide_eq_true_eq, not_not, not_lt, Bool.not_eq_true, free, bound]
      constructor
      · rintro ⟨⟨⟨⟨⟨⟨⟨⟨source, phase⟩, unclaimed⟩, nonempty⟩, few⟩, mode⟩, owner⟩, group⟩, filled⟩
        exact ⟨⟨by rw [named]; rfl, unclaimed.1, source, phase, nonempty, few, mode, owner, group,
          filled⟩, unclaimed.2⟩
      · rintro ⟨own, others⟩
        exact ⟨⟨⟨⟨⟨⟨⟨⟨own.source, own.phase⟩, own.free, others⟩, own.nonempty⟩, own.few⟩, own.mode⟩,
          own.owner⟩, own.group⟩, own.placeholders⟩

theorem foldlM_claimTemplate_isOk {spec : ActivationSpec} {claims : Claims}
    (claimed : claims.Of spec.artifacts) :
    (∃ final, spec.templates.foldlM (claimTemplate spec claims.secretIds) claims.destinations =
        .ok final) ↔
      (∀ template ∈ spec.templates, template.Accepted spec) ∧
        spec.templates.Pairwise fun earlier template =>
          earlier.templateId ≠ template.templateId := by
  refine foldlM_isOk_iff (fun done destinations => ∀ text, text ∈ destinations ↔
    text ∈ claims.destinations ∨
      ∃ template ∈ done, "templates/" ++ template.templateId.value = text) ?_ ?_ ?_
  · simp
  · intro done destinations template taken
    exact claimTemplate_isOk claimed taken template
  · intro done destinations template next taken stepped text
    obtain ⟨destination, named, stepped⟩ := bind_eq_ok.mp stepped
    rw [guard_eq_ok] at stepped
    cases stepped.2
    rw [Std.TreeSet.mem_insert, Std.LawfulEqCmp.compare_eq_iff_eq, taken,
      value_of_templateOutputId named]
    simp only [List.mem_append, List.mem_singleton, or_and_right, exists_or, exists_eq_left]
    rw [or_comm, or_assoc]

theorem foldlM_claimUnit_isOk {units : List String} :
    (∃ final, units.foldlM claimUnit {} = .ok final) ↔
      (∀ unit ∈ units, isUnitName unit = true) ∧ units.Nodup := by
  refine foldlM_isOk_iff (fun done claimed => ∀ unit, unit ∈ claimed ↔ unit ∈ done) ?_ ?_ ?_
  · simp
  · intro done claimed unit listed
    have fresh : claimed.contains unit = false ↔ ∀ earlier ∈ done, earlier ≠ unit := by
      rw [← Bool.not_eq_true, Std.TreeSet.contains_iff_mem, listed]
      exact List.forall_mem_ne'.symm
    simp only [claimUnit, guard_eq_ok, exists_and_left, Except.ok.injEq, exists_eq', and_true,
      Bool.or_eq_true, not_or, Bool.not_eq_true', Bool.not_eq_false, Bool.not_eq_true, fresh]
  · intro done claimed unit next listed stepped other
    rw [claimUnit, guard_eq_ok] at stepped
    cases stepped.2
    rw [Std.TreeSet.mem_insert, Std.LawfulEqCmp.compare_eq_iff_eq, listed, List.mem_append,
      List.mem_singleton, or_comm, @eq_comm _ unit]

theorem PostSwitchSpec.validate_eq_ok {actions : PostSwitchSpec} :
    actions.validate = .ok () ↔ actions.Accepted := by
  have looped : ((actions.reloadUnits ++ actions.restartUnits).foldlM claimUnit {} >>=
      fun _ => (.ok () : Except RuntimeError Unit)) = .ok () ↔
      (∀ unit ∈ actions.reloadUnits ++ actions.restartUnits, isUnitName unit = true) ∧
        (actions.reloadUnits ++ actions.restartUnits).Nodup := by
    rw [bind_eq_ok, ← foldlM_claimUnit_isOk]
    simp
  have positive : (actions.timeoutSeconds == 0) = false ↔ 1 ≤ actions.timeoutSeconds.toNat := by
    rw [beq_eq_false_iff_ne, ne_eq, ← UInt64.toNat_inj]
    exact Nat.one_le_iff_ne_zero.symm
  rw [PostSwitchSpec.validate, guard_eq_ok, looped]
  simp only [Bool.or_eq_true, not_or, Bool.not_eq_true', Bool.not_eq_false, decide_eq_true_eq,
    not_lt, Bool.not_eq_true, positive, Bool.and_eq_true, not_and, List.isEmpty_eq_false_iff,
    not_not]
  constructor
  · rintro ⟨⟨⟨⟨⟨⟨executable, positive⟩, short⟩, reload⟩, restart⟩, launchd⟩, names, distinct⟩
    exact ⟨executable, ⟨positive, short⟩, reload, restart, by simpa using launchd, names, distinct⟩
  · intro accepted
    exact ⟨⟨⟨⟨⟨⟨accepted.executable, accepted.timeout.1⟩, accepted.timeout.2⟩,
      accepted.reloadUnits⟩, accepted.restartUnits⟩, by simpa using accepted.launchd⟩,
      accepted.names, accepted.distinct⟩

/-- A document passes its checks when it is accepted. -/
theorem ActivationSpec.validate_eq_ok {spec : ActivationSpec} :
    spec.validate = .ok () ↔ spec.Accepted := by
  have artifacts : (∃ claims, spec.artifacts.foldlM (claimArtifact spec) ⟨{}, {}, {}⟩ =
        .ok claims) ↔
      (∀ artifact ∈ spec.artifacts, artifact.Accepted spec) ∧
        spec.artifacts.Pairwise ActivationArtifactSpec.Distinct :=
    foldlM_isOk_iff (fun done claims => Claims.Of done claims) Claims.of_nil
      (fun _ _ artifact claimed => claimArtifact_isOk claimed artifact)
      fun _ _ _ _ claimed stepped => claimed.step stepped
  have postSwitch : validatePostSwitch spec.postSwitch = .ok () ↔
      ∀ actions, spec.postSwitch = some actions → actions.Accepted := by
    cases spec.postSwitch with
    | none => simp [validatePostSwitch]
    | some actions => simp [validatePostSwitch, PostSwitchSpec.validate_eq_ok]
  rw [ActivationSpec.validate, guard_eq_ok, bind_eq_ok]
  simp only [Bool.or_eq_true, not_or, Bool.not_eq_true', Bool.not_eq_false, decide_eq_true_eq,
    not_not, not_lt, Bool.not_eq_true, List.isEmpty_eq_false_iff, beq_eq_false_iff_ne]
  constructor
  · rintro ⟨⟨⟨⟨⟨⟨⟨⟨⟨schema, root⟩, plan⟩, cache⟩, generation⟩, skew⟩, nonempty⟩, few⟩, short⟩,
      claims, claimed, rest⟩
    obtain ⟨destinations, rendered, actions⟩ := bind_eq_ok.mp rest
    have of := Claims.of_foldlM claimed
    obtain ⟨all, distinct⟩ := artifacts.mp ⟨claims, claimed⟩
    obtain ⟨templates, templateIds⟩ := (foldlM_claimTemplate_isOk of).mp ⟨destinations, rendered⟩
    exact ⟨schema, root, plan, cache, generation, skew, nonempty, few, short, all, distinct,
      templates, templateIds, postSwitch.mp actions⟩
  · intro accepted
    obtain ⟨claims, claimed⟩ := artifacts.mpr ⟨accepted.artifacts, accepted.distinct⟩
    have of := Claims.of_foldlM claimed
    obtain ⟨destinations, rendered⟩ :=
      (foldlM_claimTemplate_isOk of).mpr ⟨accepted.templates, accepted.templateIds⟩
    refine ⟨⟨⟨⟨⟨⟨⟨⟨⟨accepted.schema, accepted.runtimeRoot⟩, accepted.plan⟩,
      accepted.artifactCacheRoot⟩, accepted.runtimeGeneration⟩, accepted.allowedClockSkew⟩,
      accepted.nonempty⟩, accepted.artifactCount⟩, accepted.templateCount⟩, claims, claimed, ?_⟩
    rw [rendered, ok_bind]
    exact postSwitch.mpr accepted.postSwitch

end NixSeal.Runtime
