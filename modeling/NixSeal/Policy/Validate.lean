import NixSeal.Manifest.Keys
import NixSeal.Policy.Graph

/-!
# Validation of plans

The checks of `validate` with their messages, in the order the code makes them.  Parsers of the
`age`, `jiff` and signature crates are parameters.
-/

namespace NixSeal
namespace Policy

/-- Functions of external crates and of the standard formatter that policy code calls. -/
structure Environment where
  /-- Signature and hash primitives of the manifest crate. -/
  keys : Manifest.Primitives
  /-- `age::x25519::Recipient` from text, normalized. -/
  x25519Recipient : String → Option String
  /-- `age::plugin::Recipient` from text, normalized. -/
  pluginRecipient : String → Option String
  /-- `age::ssh::Recipient` from text, with a flag for RSA, normalized. -/
  sshRecipient : String → Option (Bool × String)
  /-- `jiff::Timestamp` from text, in nanoseconds. -/
  timestamp : String → Option Int
  /-- The `Debug` form of a string. -/
  debugText : String → String
  /-- `serde_jcs::to_vec` of a plan. -/
  planToJcs : Plan → Option Bytes
  /-- Hexadecimal BLAKE3 digest in key derivation mode, by context. -/
  deriveKeyHex : String → Bytes → String

/-- `normalize_recipient_inner`. -/
def normalizeRecipientInner (E : Environment) (recipient : String) (allowLegacySshRsa : Bool) :
    Option String :=
  match E.x25519Recipient recipient with
  | some parsed => some parsed
  | none =>
      match E.pluginRecipient recipient with
      | some parsed => some parsed
      | none =>
          match E.sshRecipient recipient with
          | some (isRsa, parsed) => if !allowLegacySshRsa && isRsa then none else some parsed
          | none => none

/-- `normalize_recipient`. -/
def normalizeRecipient (E : Environment) (recipient : String) : Option String :=
  normalizeRecipientInner E recipient false

/-- Identity kinds that encrypt. -/
def IdentityKind.isRecipient : IdentityKind → Bool
  | .administrator | .target | .recovery | .plugin => true
  | .signer | .authorizer => false

/-- Identity kinds that verify signatures. -/
def IdentityKind.isVerifier : IdentityKind → Bool
  | .signer | .authorizer => true
  | .administrator | .target | .recovery | .plugin => false

/-- Identity kinds that administer canonical ciphertext. -/
def IdentityKind.isAdministrator : IdentityKind → Bool
  | .administrator | .recovery => true
  | .target | .signer | .authorizer | .plugin => false

/-- `ensure_schema`. -/
def ensureSchema (plan : Plan) : Except PolicyError Unit :=
  if plan.schema = planSchema then .ok () else .error (.schema plan.schema)

/-- The first identifier, in order, that two collections share. -/
def firstShared {α β : Type} (left : Std.TreeMap Id α) (right : Std.TreeMap Id β) : Option Id :=
  left.keys.find? right.contains

/-- One comparison of `validate_authorization_namespace`. -/
def checkDisjoint {α β : Type} (leftName : String) (left : Std.TreeMap Id α) (rightName : String)
    (right : Std.TreeMap Id β) : Except PolicyError Unit :=
  match firstShared left right with
  | some id =>
      .error (.violation s!"authorization ID {id} is declared as both {leftName} and {rightName}")
  | none => .ok ()

/-- `validate_authorization_namespace`. -/
def validateAuthorizationNamespace (plan : Plan) : Except PolicyError Unit := do
  checkDisjoint "identity" plan.identities "group" plan.groups
  checkDisjoint "identity" plan.identities "target" plan.targets
  checkDisjoint "group" plan.groups "target" plan.targets

/-- Key checks of `validate` on one identity. -/
def validateIdentityKey (E : Environment) (id : Id) (identity : Identity) :
    Except PolicyError Unit :=
  if IdentityKind.isRecipient identity.kind &&
      (normalizeRecipient E identity.publicValue).isNone then
    .error (.violation s!"identity {id} has an invalid age recipient")
  else if IdentityKind.isVerifier identity.kind &&
      !(Manifest.validatePublicKey E.keys identity.publicValue).isOk then
    .error (.violation s!"identity {id} has an invalid signing verification key")
  else .ok ()

/-- Registers the verification key of one identity; a key may belong to one identity only. -/
def registerSigner (E : Environment) (signers : Std.TreeMap String Id) (entry : Id × Identity) :
    Except PolicyError (Std.TreeMap String Id) :=
  let id := entry.1
  if IdentityKind.isVerifier entry.2.kind then
    match Manifest.publicKeyId E.keys entry.2.publicValue with
    | .error _ => .error (.violation s!"identity {id} has an invalid signing verification key")
    | .ok keyId =>
        match signers[keyId]? with
        | some previous =>
            .error (.violation
              s!"signing identities {previous} and {id} reuse one public verification key")
        | none => .ok (signers.insert keyId id)
  else .ok signers

/-- `validate_bounded_selector_values`. -/
def validateBoundedSelectorValues (label : String) (values : List String) :
    Except PolicyError Unit :=
  values.forM fun value =>
    if value.toList.isEmpty || value.utf8ByteSize > 256 || value.toList.any isAsciiControl then
      .error (.violation
        s!"{label} contains an empty, oversized, or control-character selector value")
    else .ok ()

/-- `validate_target`. -/
def validateTarget (id : Id) (target : Target) : Except PolicyError Unit := do
  validateBoundedSelectorValues s!"target {id}"
    ([some target.system, target.username, target.configuration, target.environment].filterMap
      fun value => value)
  validateBoundedSelectorValues s!"target {id} tags" target.tags
  if (Std.TreeSet.ofList target.tags).size ≠ target.tags.length then
    .error (.violation s!"target {id} contains duplicate tags")
  else
    match target.serviceActions with
    | none => .ok ()
    | some actions =>
        if !isAbsolute actions.executable ||
            (pathComponents actions.executable).any (fun component => !component.isRootOrNormal) ||
            actions.executable.toList.any isAsciiControl ||
            actions.executable.utf8ByteSize > 16 * 1024 ||
            !(1 ≤ actions.timeoutSeconds.toNat && actions.timeoutSeconds.toNat ≤ 60) then
          .error (.violation s!"target {id} has invalid post-switch command policy")
        else .ok ()

/-- Checks of `validate` on one target and its identity. -/
def validateTargetIdentity (plan : Plan) (id : Id) (target : Target) :
    Except PolicyError Unit := do
  validateTarget id target
  match plan.identities[target.identity]? with
  | none =>
      .error (.violation s!"target {id} references missing identity {target.identity}")
  | some identity =>
      if identity.kind ≠ .target then
        .error (.violation s!"target {id} identity {target.identity} is not target kind")
      else .ok ()

/-- `valid_repository_relative_path`. -/
def validRepositoryRelativePath (value : String) : Bool :=
  !value.toList.isEmpty && !startsWith "/" value &&
    (segments value).all fun component =>
      !component.isEmpty && component != ['.'] && component != ['.', '.'] &&
        !component.any isAsciiControl

/-- Value of a digit in a radix up to ten. -/
def digitInRadix (radix : Nat) (char : Char) : Option Nat :=
  if isAsciiDigit char && char.toNat - 0x30 < radix then some (char.toNat - 0x30) else none

/-- `u32::from_str_radix`: an optional plus sign and digits, without overflow. -/
def u32FromStrRadix (radix : Nat) (value : String) : Option Nat :=
  let digits := if value.toList.head? = some '+' then value.toList.drop 1 else value.toList
  if digits.isEmpty then none
  else
    (digits.mapM (digitInRadix radix)).bind fun values =>
      let number := values.foldl (fun number digit => number * radix + digit) 0
      if number < 2 ^ 32 then some number else none

/-- `is_private_runtime_mode`: a nonzero owner-only mode. -/
def isPrivateRuntimeMode (value : String) : Bool :=
  value.utf8ByteSize == 4 && startsWith "0" value &&
    (u32FromStrRadix 8 value).any fun mode => mode != 0 && mode ≤ 0o700 && mode % 64 == 0

/-- `validate_runtime_settings`. -/
def validateRuntimeSettings (secretId : Id) (label : String) (runtime : RuntimeSettings) :
    Except PolicyError Unit :=
  if !isPrivateRuntimeMode runtime.mode then
    .error (.violation
      s!"secret {secretId} {label} mode must be a nonzero owner-only four-digit octal mode")
  else if runtime.compatibilitySymlink.any fun path => !validCompatibilitySymlink path then
    .error (.violation
      s!"secret {secretId} {label} compatibility symlink must be a safe absolute path without '.' or '..' components")
  else .ok ()

/-- `validate_repository_only_secret`. -/
def validateRepositoryOnlySecret (id : Id) (secret : Secret) : Except PolicyError Unit :=
  if secret.repositoryOnly && (!secret.consumers.isEmpty || secret.selectors ≠ {}) then
    .error (.violation
      s!"repository-only secret {id} cannot declare target consumers or selectors")
  else if secret.repositoryOnly && secret.delivery = .direct then
    .error (.violation s!"repository-only secret {id} cannot use direct delivery")
  else .ok ()

/-- A list holds an item more than once. -/
def hasDuplicates {α : Type} [Ord α] (values : List α) : Bool :=
  (Std.TreeSet.ofList values).size != values.length

/-- `validate_target_selectors`; the order of target kinds is that of their declaration. -/
def validateTargetSelectors (plan : Plan) (secretId : Id) (secret : Secret) :
    Except PolicyError Unit := do
  let selectors := secret.selectors
  [("targets", selectors.targets), ("groups", selectors.groups)].forM fun entry =>
    let label := entry.1
    if 10000 < entry.2.length || hasDuplicates entry.2 then
      .error (.violation
        s!"secret {secretId} selectors.{label} contains duplicate or excessive IDs")
    else .ok ()
  selectors.targets.forM fun target =>
    if !plan.targets.contains target then
      .error (.violation s!"secret {secretId} selector references missing target {target}")
    else .ok ()
  selectors.groups.forM fun group =>
    if !plan.groups.contains group then
      .error (.violation s!"secret {secretId} selector references missing group {group}")
    else do
      let leaves ← expandGroupLeaves plan [group]
      if leaves.toList.any fun member => !plan.targets.contains member then
        .error (.violation
          s!"secret {secretId} selector group {group} contains a non-target member")
      else .ok ()
  if selectors.kinds.dedup.length ≠ selectors.kinds.length then
    .error (.violation s!"secret {secretId} selectors.kinds contains duplicates")
  else do
    validateBoundedSelectorValues s!"secret {secretId} selectors"
      (selectors.systems ++ selectors.usernames ++ selectors.configurations ++
        selectors.environments ++ selectors.tags)
    [("systems", selectors.systems), ("usernames", selectors.usernames),
      ("configurations", selectors.configurations), ("environments", selectors.environments),
      ("tags", selectors.tags)].forM fun entry =>
      let label := entry.1
      if hasDuplicates entry.2 then
        .error (.violation s!"secret {secretId} selectors.{label} contains duplicates")
      else .ok ()

/-- `parse_timestamp`. -/
def parseTimestamp (E : Environment) (label value : String) : Except PolicyError Int :=
  match E.timestamp value with
  | some time => .ok time
  | none =>
      .error (.violation
        s!"{label} must be a valid RFC 3339 timestamp with an explicit offset")

/-- `parse_timestamp` of an optional text. -/
def parseOptionalTimestamp (E : Environment) (label : String) :
    Option String → Except PolicyError (Option Int)
  | none => .ok none
  | some value => do
      let time ← parseTimestamp E label value
      .ok (some time)

/-- `validate_lifecycle`. -/
def validateLifecycle (E : Environment) (id : Id) (lifecycle : Lifecycle) :
    Except PolicyError Unit := do
  let created ← parseOptionalTimestamp E s!"secret {id} createdAt" lifecycle.createdAt
  let rotated ← parseOptionalTimestamp E s!"secret {id} rotatedAt" lifecycle.rotatedAt
  let expires ← parseOptionalTimestamp E s!"secret {id} expiresAt" lifecycle.expiresAt
  let before (left right : Option Int) (order : Int → Int → Bool) : Bool :=
    match left, right with
    | some left, some right => order left right
    | _, _ => false
  if before rotated created (fun rotated created => rotated < created) ||
      before expires created (fun expires created => expires ≤ created) ||
      lifecycle.rotateAfterDays == some 0 ||
      lifecycle.rotateAfterDays.isSome && (rotated.or created).isNone then
    .error (.violation
      s!"secret {id} has inconsistent lifecycle chronology or rotation interval")
  else .ok ()

/-- Recipient checks of `validate_secrets`: administrators, consumers and a nonempty recipient
set. -/
def validateSecretRecipients (plan : Plan) (id : Id) (secret : Secret) :
    Except PolicyError Unit := do
  let administratorLeaves ← expandGroupLeaves plan secret.administrators
  if administratorLeaves.toList.any fun identityId =>
      !(plan.identities[identityId]?.any fun identity =>
        IdentityKind.isAdministrator identity.kind) then
    .error (.violation s!"secret {id} administrator groups contain incompatible members")
  else do
    let consumerLeaves ← selectedConsumerTargets plan secret
    if consumerLeaves.toList.any fun targetId => !plan.targets.contains targetId then
      .error (.violation s!"secret {id} consumer groups contain non-target members")
    else
      let defaultAdministratorExists := plan.identities.toList.any fun entry =>
        IdentityKind.isAdministrator entry.2.kind
      let hasAdministrator := !administratorLeaves.isEmpty ||
        secret.administrators.isEmpty && defaultAdministratorExists
      if secret.delivery = .rekeyed && !hasAdministrator ||
          secret.delivery = .direct && !hasAdministrator && consumerLeaves.isEmpty then
        .error (.violation s!"secret {id} has no canonical encryption recipients")
      else .ok ()

/-- Approval checks of `validate_secrets`. -/
def validateSecretApproval (plan : Plan) (id : Id) (secret : Secret) : Except PolicyError Unit :=
  match secret.approvalPolicy with
  | some policy =>
      if !plan.approvalPolicies.contains policy then
        .error (.violation s!"secret {id} references missing approval policy {policy}")
      else .ok ()
  | none =>
      if !plan.identities.toList.any fun entry => entry.2.kind = .signer then
        .error (.violation
          s!"secret {id} requires an explicit approval policy or at least one default signer")
      else .ok ()

/-- Runtime override checks of `validate_secrets`. -/
def validateRuntimeOverride (plan : Plan) (id : Id) (secret : Secret) (targetId : Id)
    (runtime : RuntimeSettings) : Except PolicyError Unit :=
  if !plan.targets.contains targetId then
    .error (.violation s!"secret {id} runtime override references missing target {targetId}")
  else if !targetIsConsumer plan secret targetId then
    .error (.violation
      s!"secret {id} runtime override target {targetId} is not an authorized consumer")
  else validateRuntimeSettings id "runtime override" runtime

/-- Checks of `validate_secrets` on one secret; the state holds the sources seen before. -/
def validateSecret (E : Environment) (plan : Plan) (sources : Std.TreeSet String)
    (entry : Id × Secret) : Except PolicyError (Std.TreeSet String) := do
  let (id, secret) := entry
  if !validRepositoryRelativePath secret.source then
    .error (.violation s!"secret {id} source must be a normalized repository-relative path")
  else if sources.contains secret.source then
    .error (.violation s!"secret {id} reuses a canonical ciphertext source path")
  else if !isDigest secret.sourceCiphertextHash then
    .error (.violation s!"secret {id} sourceCiphertextHash must be lowercase SHA-256")
  else do
    secret.consumers.forM fun consumer =>
      if !plan.targets.contains consumer && !plan.groups.contains consumer then
        .error (.violation s!"secret {id} references missing consumer {consumer}")
      else .ok ()
    secret.administrators.forM fun administrator =>
      if !plan.identities.contains administrator && !plan.groups.contains administrator then
        .error (.violation s!"secret {id} references missing administrator {administrator}")
      else .ok ()
    validateTargetSelectors plan id secret
    validateRepositoryOnlySecret id secret
    validateSecretRecipients plan id secret
    validateSecretApproval plan id secret
    validateRuntimeSettings id "runtime" secret.runtime
    secret.runtimeOverrides.toList.forM fun override =>
      validateRuntimeOverride plan id secret override.1 override.2
    validateLifecycle E id secret.lifecycle
    .ok (sources.insert secret.source)

/-- `validate_secrets`. -/
def validateSecrets (E : Environment) (plan : Plan) : Except PolicyError Unit := do
  let _ ← plan.secrets.toList.foldlM (validateSecret E plan) {}
  .ok ()

/-- `is_normalized_public_path`. -/
def isNormalizedPublicPath (value : String) : Bool :=
  !(value.toList.isEmpty || value.toList.any isAsciiControl) &&
    (segments value).zipIdx.all fun entry =>
      (entry.2 == 0 && entry.1.isEmpty && startsWith "/" value) ||
        (!entry.1.isEmpty && entry.1 != ['.'] && entry.1 != ['.', '.'])

/-- `is_placeholder_name`. -/
def isPlaceholderName (value : String) : Bool :=
  !value.toList.isEmpty && value.utf8ByteSize ≤ 128 &&
    value.toList.head?.any (fun char => isAsciiLowercase char || isAsciiDigit char) &&
    value.toList.all fun char =>
      isAsciiLowercase char || isAsciiDigit char || char == '_' || char == '-' || char == '.'

/-- Phase of the secret behind a placeholder. -/
def placeholderPhase (plan : Plan) (templateId : Id) (placeholder : TemplatePlaceholder) :
    Except PolicyError ActivationPhase :=
  match plan.secrets[placeholder.secret]? with
  | some secret => .ok secret.phase
  | none =>
      .error (.violation s!"template {templateId} references missing secret {placeholder.secret}")

/-- `template_phase`: the common phase of every referenced secret. -/
def templatePhase (plan : Plan) (templateId : Id) (template : Template) :
    Except PolicyError ActivationPhase :=
  match template.placeholders.toList.map Prod.snd with
  | [] => .error (.violation s!"template {templateId} has no placeholders")
  | first :: rest => do
      let phase ← placeholderPhase plan templateId first
      rest.forM fun placeholder => do
        let candidate ← placeholderPhase plan templateId placeholder
        if candidate ≠ phase then
          .error (.violation
            s!"template {templateId} references secrets from multiple activation phases")
        else .ok ()
      .ok phase

/-- Checks of `validate_templates` on one template. -/
def validateTemplate (E : Environment) (plan : Plan) (id : Id) (template : Template) :
    Except PolicyError Unit :=
  if !isNormalizedPublicPath template.source then
    .error (.violation s!"template {id} source must be a normalized public path")
  else if template.placeholders.isEmpty || 256 < template.placeholders.size then
    .error (.violation s!"template {id} must declare between 1 and 256 placeholders")
  else do
    template.placeholders.toList.forM fun entry =>
      let name := E.debugText entry.1
      let secret := entry.2.secret
      if !isPlaceholderName entry.1 then
        .error (.violation s!"template {id} has invalid placeholder name {name}")
      else if !plan.secrets.contains secret then
        .error (.violation s!"template {id} placeholder {name} references missing secret {secret}")
      else .ok ()
    let _ ← templatePhase plan id template
    if !isPrivateRuntimeMode template.runtime.mode then
      .error (.violation
        s!"template {id} runtime mode must be a nonzero owner-only four-digit octal mode")
    else if template.runtime.compatibilitySymlink.isSome then
      .error (.violation s!"template {id} cannot declare a compatibility symlink")
    else
      match Id.parse ("templates/" ++ id.value) with
      | .error value =>
          let shown := E.debugText value
          .error (.violation
            s!"invalid ID {shown}; use lowercase ASCII slugs without absolute paths, '.', '..', or empty segments")
      | .ok outputId =>
          if plan.secrets.contains outputId then
            .error (.violation s!"template {id} output collides with secret {outputId}")
          else .ok ()

/-- `validate_templates`. -/
def validateTemplates (E : Environment) (plan : Plan) : Except PolicyError Unit :=
  plan.templates.toList.forM fun entry => validateTemplate E plan entry.1 entry.2

/-- `validate_approval`. -/
def validateApproval (plan : Plan) (id : Id) (policy : ApprovalPolicy) :
    Except PolicyError Unit :=
  let distinct := Std.TreeSet.ofList policy.signers
  if policy.threshold = 0 ∨ distinct.size < policy.threshold.toNat then
    .error (.violation s!"approval policy {id} has impossible threshold")
  else
    distinct.toList.forM fun signer =>
      if (plan.identities[signer]?.map Identity.kind) ≠ some .signer then
        .error (.violation s!"approval policy {id} references non-signer {signer}")
      else .ok ()

/-- Names of the built-in generators. -/
def builtinGenerators : List String :=
  ["builtin:random", "builtin:hex", "builtin:base64", "builtin:token", "builtin:passphrase",
    "builtin:argon2id-password-hash", "builtin:ssh-ed25519", "builtin:wireguard-private-key",
    "builtin:uuid"]

/-- `valid_store_executable`. -/
def validStoreExecutable (value : String) : Bool :=
  startsWith "/nix/store/" value && !value.toList.contains ':' && isAbsolute value &&
    (pathComponents value).all PathComponent.isRootOrNormal

/-- `argon2id_parameter`. -/
def argon2idParameter (generator : Generator) (name : String) (default : Nat) :
    Except PolicyError Nat :=
  match generator.parameters[name]? with
  | none => .ok default
  | some value =>
      match u32FromStrRadix 10 value with
      | some number => .ok number
      | none =>
          .error (.violation
            s!"Argon2id password-hash generator parameter {name} must be an integer")

/-- `validate_argon2id_password_hash_generator`. -/
def validateArgon2idPasswordHashGenerator (generatorId : Id) (generator : Generator) :
    Except PolicyError Unit :=
  let hiddenLine := match generator.prompts with
    | [prompt] => prompt.mode = .hidden && !prompt.multiline
    | _ => false
  if generator.outputs.length ≠ 1 || !hiddenLine ||
      generator.parameters.keys.any fun key =>
        !(["memory-kib", "iterations", "output-length"].contains key) then
    .error (.violation
      s!"Argon2id password-hash generator {generatorId} requires one single-line hidden prompt, one output, and bounded hash parameters")
  else do
    let memoryKib ← argon2idParameter generator "memory-kib" 65536
    let iterations ← argon2idParameter generator "iterations" 3
    let outputLength ← argon2idParameter generator "output-length" 32
    if !(19456 ≤ memoryKib && memoryKib ≤ 524288) || !(2 ≤ iterations && iterations ≤ 10) ||
        !(16 ≤ outputLength && outputLength ≤ 64) then
      .error (.violation
        s!"Argon2id password-hash generator {generatorId} parameters are outside the supported security bounds")
    else .ok ()

/-- `validate_generator_execution`. -/
def validateGeneratorExecution (generatorId : Id) (generator : Generator) :
    Except PolicyError Unit :=
  let executable := generator.executable
  let isBuiltin := builtinGenerators.contains executable
  let derivesPublicKey :=
    executable = "builtin:ssh-ed25519" || executable = "builtin:wireguard-private-key"
  if executable.toList.isEmpty || executable.utf8ByteSize > 16 * 1024 ||
      executable.toList.any isAsciiControl then
    .error (.violation s!"generator {generatorId} has an invalid executable declaration")
  else if !isBuiltin && !validStoreExecutable executable then
    .error (.violation
      s!"generator {generatorId} must use a built-in or direct executable below /nix/store")
  else if 256 < generator.arguments.length ||
      (generator.arguments.any fun argument =>
        argument.utf8ByteSize > 16 * 1024 || argument.toList.any isAsciiControl) ||
      128 < generator.runtimeInputs.length ||
      (generator.runtimeInputs.any fun input => !validStoreExecutable input) ||
      !(1 ≤ generator.timeoutSeconds.toNat && generator.timeoutSeconds.toNat ≤ 300) ||
      generator.maxOutputBytes == 0 ||
      generator.maxOutputBytes > defaultGeneratorMaxOutputBytes ||
      (isBuiltin &&
        (!generator.arguments.isEmpty || !generator.runtimeInputs.isEmpty ||
          generator.timeoutSeconds != defaultGeneratorTimeoutSeconds ||
          generator.maxOutputBytes != defaultGeneratorMaxOutputBytes)) then
    .error (.violation s!"generator {generatorId} has invalid constrained-execution settings")
  else do
    if executable = "builtin:argon2id-password-hash" then
      validateArgon2idPasswordHashGenerator generatorId generator
    else .ok ()
    if isBuiltin && !generator.secretDependencies.isEmpty then
      .error (.violation
        s!"built-in generator {generatorId} cannot declare secret dependencies")
    else if isBuiltin && !generator.publicOutputs.isEmpty &&
        !(derivesPublicKey && generator.outputs.length == 1 &&
          generator.publicOutputs.length ≤ 1) then
      .error (.violation s!"built-in generator {generatorId} cannot declare public outputs")
    else if derivesPublicKey &&
        (generator.outputs.length != 1 || 1 < generator.publicOutputs.length) then
      .error (.violation
        s!"built-in generator {generatorId} requires exactly one secret output and at most one public output")
    else .ok ()

/-- `validate_generator_prompts`; the state holds the prompts known before. -/
def validateGeneratorPrompts (generatorId : Id) (generator : Generator)
    (known : Std.TreeSet Id) : Except PolicyError (Std.TreeSet Id) :=
  let refusal := PolicyError.violation
    s!"generator {generatorId} has invalid or duplicate prompts"
  if 64 < generator.prompts.length then .error refusal
  else
    generator.prompts.foldlM
      (fun known prompt =>
        if prompt.message.toList.isEmpty || prompt.message.utf8ByteSize > 4096 ||
            prompt.message.toList.contains '\x00' || known.contains prompt.id then
          .error refusal
        else .ok (known.insert prompt.id))
      known

/-- Outputs declared by the generators examined so far. -/
structure DeclaredOutputs where
  /-- Secret outputs. -/
  secrets : Std.TreeSet Id := {}
  /-- Identifiers of public outputs. -/
  publicIds : Std.TreeSet Id := {}
  /-- Destinations of public outputs. -/
  destinations : Std.TreeSet String := {}
  /-- Generator of each secret output. -/
  producers : Std.TreeMap Id Id := {}

/-- `validate_generator_outputs`. -/
def validateGeneratorOutputs (plan : Plan) (generatorId : Id) (generator : Generator)
    (secretSources : Std.TreeSet String) (declared : DeclaredOutputs) :
    Except PolicyError DeclaredOutputs := do
  let declared ← generator.outputs.foldlM
    (fun (declared : DeclaredOutputs) output =>
      if !plan.secrets.contains output || declared.publicIds.contains output ||
          declared.secrets.contains output then
        .error (.violation
          s!"generator {generatorId} has a missing or duplicate secret output {output}")
      else
        .ok
          { declared with
            secrets := declared.secrets.insert output
            producers := declared.producers.insert output generatorId })
    declared
  generator.publicOutputs.foldlM
    (fun (declared : DeclaredOutputs) output =>
      let id := output.id
      if declared.publicIds.contains output.id || declared.secrets.contains output.id ||
          !validRepositoryRelativePath output.destination ||
          declared.destinations.contains output.destination ||
          secretSources.contains output.destination then
        .error (.violation
          s!"generator {generatorId} has a duplicate or unsafe public output {id}")
      else
        .ok
          { declared with
            publicIds := declared.publicIds.insert output.id
            destinations := declared.destinations.insert output.destination })
    declared

/-- `validate_generator_secret_dependencies`. -/
def validateGeneratorSecretDependencies (plan : Plan) (generatorId : Id) (generator : Generator) :
    Except PolicyError Unit :=
  if hasDuplicates generator.secretDependencies ||
      (generator.secretDependencies.any fun secret => !plan.secrets.contains secret) ||
      (generator.secretDependencies.any fun secret => generator.outputs.contains secret) then
    .error (.violation
      s!"generator {generatorId} has invalid, duplicate, missing, or self-referential secret dependencies")
  else .ok ()

/-- `is_generator_parameter_name`. -/
def isGeneratorParameterName (value : String) : Bool :=
  !value.toList.isEmpty && value.utf8ByteSize ≤ 128 &&
    value.toList.all fun char =>
      isAsciiLowercase char || isAsciiDigit char || char == '_' || char == '-'

/-- State of `validate_generator_graph`. -/
structure GeneratorScan where
  /-- Prompts known. -/
  prompts : Std.TreeSet Id := {}
  /-- Outputs declared. -/
  outputs : DeclaredOutputs := {}
  /-- Dependency graph. -/
  layers : Layers := {}

/-- Checks of `validate_generator_graph` on one generator. -/
def validateGenerator (plan : Plan) (secretSources : Std.TreeSet String) (scan : GeneratorScan)
    (entry : Id × Generator) : Except PolicyError GeneratorScan := do
  let (generatorId, generator) := entry
  if 10000 < generator.dependencies.length || 10000 < generator.secretDependencies.length ||
      10000 < generator.outputs.length || 10000 < generator.publicOutputs.length then
    .error (.violation s!"generator {generatorId} exceeds dependency or output limits")
  else do
    validateGeneratorExecution generatorId generator
    let prompts ← validateGeneratorPrompts generatorId generator scan.prompts
    if generator.outputs.isEmpty && generator.publicOutputs.isEmpty then
      .error (.violation
        s!"generator {generatorId} must declare at least one secret or public output")
    else do
      let outputs ←
        validateGeneratorOutputs plan generatorId generator secretSources scan.outputs
      validateGeneratorSecretDependencies plan generatorId generator
      if 128 < generator.parameters.size ||
          (generator.parameters.toList.any fun parameter =>
            !isGeneratorParameterName parameter.1 || parameter.2.utf8ByteSize > 4096 ||
              parameter.2.toList.any isAsciiControl) ||
          (generator.validation.any fun value =>
            value.toList.isEmpty || value.utf8ByteSize > 4096 ||
              value.toList.any isAsciiControl) then
        .error (.violation s!"generator {generatorId} has invalid public parameters")
      else
        let dependencies := Std.TreeSet.ofList generator.dependencies
        if dependencies.size ≠ generator.dependencies.length then
          .error (.violation s!"generator {generatorId} contains duplicate dependencies")
        else do
          dependencies.toList.forM fun dependency =>
            if !plan.generators.contains dependency then
              .error (.violation
                s!"generator {generatorId} references missing dependency {dependency}")
            else .ok ()
          .ok ⟨prompts, outputs, scan.layers.declare generatorId dependencies⟩

/-- `validate_generated_secret_dependency_order`. -/
def validateGeneratedSecretDependencyOrder (plan : Plan) (producers : Std.TreeMap Id Id) :
    Except PolicyError Unit :=
  plan.generators.toList.forM fun entry =>
    entry.2.secretDependencies.forM fun secretId =>
      let generatorId := entry.1
      match producers[secretId]? with
      | none => .ok ()
      | some producer =>
          if !entry.2.dependencies.contains producer then
            .error (.violation
              s!"generator {generatorId} must directly depend on generator {producer}, which produces secret dependency {secretId}")
          else .ok ()

/-- `validate_generator_graph`. -/
def validateGeneratorGraph (plan : Plan) : Except PolicyError Unit := do
  let secretSources : Std.TreeSet String :=
    Std.TreeSet.ofList (plan.secrets.toList.map fun entry => entry.2.source)
  let scan ← plan.generators.toList.foldlM (validateGenerator plan secretSources) {}
  let visited ← scan.layers.visit "generator"
  if visited ≠ plan.generators.size then
    .error (.violation "generator dependency graph contains a cycle")
  else validateGeneratedSecretDependencyOrder plan scan.outputs.producers

/-- `validate`. -/
def validate (E : Environment) (plan : Plan) : Except PolicyError Unit := do
  ensureSchema plan
  if [plan.identities.size, plan.groups.size, plan.targets.size, plan.secrets.size,
      plan.generators.size, plan.templates.size, plan.approvalPolicies.size,
      plan.backends.size].any fun count => 10000 < count then
    .error (.violation "plan object collections are limited to 10000 entries each")
  else do
    validateAuthorizationNamespace plan
    validateGroupGraph plan
    if plan.identities.toList.any fun entry =>
        entry.2.publicValue.toList.isEmpty || entry.2.publicValue.utf8ByteSize > 16 * 1024 then
      .error (.violation "identity public values must be nonempty and bounded")
    else do
      plan.identities.toList.forM fun entry => validateIdentityKey E entry.1 entry.2
      let _ ← plan.identities.toList.foldlM (registerSigner E) {}
      plan.targets.toList.forM fun entry => validateTargetIdentity plan entry.1 entry.2
      validateSecrets E plan
      validateTemplates E plan
      plan.approvalPolicies.toList.forM fun entry => validateApproval plan entry.1 entry.2
      validateGeneratorGraph plan

end Policy
end NixSeal
