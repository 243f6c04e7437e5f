import NixSeal.Core.Text
import Mathlib.Data.List.Sort
import Std.Data.TreeMap
import Std.Data.TreeSet

/-!
# Public plan types

The intermediate representation `nix-seal.plan.v2`.  Collections are ordered maps keyed by
identifiers, and an identifier can only be built from text that its grammar accepts.
-/

namespace NixSeal

/-- The public identifier grammar of `Id::parse`. -/
def Id.accepts (value : String) : Bool :=
  !(value.toList.isEmpty || startsWith "/" value || containsText ".." value) &&
    !((segments value).any (fun segment => segment.isEmpty || segment == ['.']) ||
      !value.toList.all fun char =>
        isAsciiLowercase char || isAsciiDigit char || char == '.' || char == '/' ||
          char == '-' || char == '_')

/-- A validated stable object identifier. -/
structure Id where
  /-- Identifier text. -/
  value : String
  /-- The text belongs to the public grammar. -/
  accepted : Id.accepts value = true
  deriving DecidableEq

namespace Id

theorem ext_value {left right : Id} (equal : left.value = right.value) : left = right := by
  cases left
  cases right
  simp_all

/-- `Id::parse`; a rejected value is returned in the error. -/
def parse (value : String) : Except String Id :=
  if accepted : Id.accepts value = true then .ok ⟨value, accepted⟩ else .error value

instance : Ord Id where
  compare := compareOn Id.value

instance : ToString Id := ⟨Id.value⟩

instance : Std.TransOrd Id := inferInstanceAs (Std.TransCmp (compareOn Id.value))

instance : Std.LawfulEqOrd Id where
  compare_self := Std.ReflCmp.compare_self
  eq_of_compare := fun equal => ext_value (Std.LawfulEqOrd.eq_of_compare equal)

end Id

/-- Schema identifier of the current intermediate representation. -/
def planSchema : String := "nix-seal.plan.v2"

/-- Default maximum execution time of an external generator, in seconds. -/
def defaultGeneratorTimeoutSeconds : UInt16 := 30

/-- Default plaintext limit of one external generator output. -/
def defaultGeneratorMaxOutputBytes : UInt64 := 64 * 1024 * 1024

/-- Identity role. -/
inductive IdentityKind where
  /-- Administrator encryption recipient. -/
  | administrator
  /-- Target encryption recipient. -/
  | target
  /-- Recovery encryption recipient. -/
  | recovery
  /-- Artifact approval verifier. -/
  | signer
  /-- Delegated canonical-secret creation verifier. -/
  | authorizer
  /-- Standard age plugin reference. -/
  | plugin
  deriving DecidableEq

/-- Public recipient or signer identity. -/
structure Identity where
  /-- Identity role. -/
  kind : IdentityKind
  /-- Public recipient, key, or plugin reference. -/
  publicValue : String
  deriving DecidableEq

/-- Named group of identifiers. -/
structure Group where
  /-- Members of the group. -/
  members : List Id
  deriving DecidableEq

/-- Supported integration type. -/
inductive TargetKind where
  /-- NixOS system. -/
  | nixOs
  /-- nix-darwin system. -/
  | darwin
  /-- Standalone or integrated Home Manager profile. -/
  | homeManager
  deriving DecidableEq

/-- Command policy of a target for post-switch service actions. -/
structure TargetServiceActions where
  /-- Exact absolute executable path. -/
  executable : String
  /-- Per-action timeout in seconds. -/
  timeoutSeconds : UInt64
  deriving DecidableEq

/-- Target platform consumer. -/
structure Target where
  /-- Integration type. -/
  kind : TargetKind
  /-- Nix system value. -/
  system : String
  /-- Recipient identity. -/
  identity : Id
  /-- Optional Home Manager user. -/
  username : Option String := none
  /-- Optional Nix configuration name used by selectors. -/
  configuration : Option String := none
  /-- Optional deployment environment used by selectors. -/
  environment : Option String := none
  /-- Public selector tags. -/
  tags : List String := []
  /-- Executable and timeout permitted for post-switch service actions. -/
  serviceActions : Option TargetServiceActions := none
  deriving DecidableEq

/-- Public selectors for expanding the authorized target set of a secret. -/
structure TargetSelectors where
  /-- Exact targets. -/
  targets : List Id := []
  /-- Target groups whose leaves are selected. -/
  groups : List Id := []
  /-- Target platform kinds. -/
  kinds : List TargetKind := []
  /-- Nix system values. -/
  systems : List String := []
  /-- Home Manager usernames. -/
  usernames : List String := []
  /-- Nix configuration names. -/
  configurations : List String := []
  /-- Deployment environments. -/
  environments : List String := []
  /-- Tags; every listed tag must be present on a target. -/
  tags : List String := []
  deriving DecidableEq

/-- Ciphertext delivery model. -/
inductive DeliveryMode where
  /-- Target-bound cache artifacts. -/
  | rekeyed
  /-- Canonical ciphertext includes target recipients. -/
  | direct
  deriving DecidableEq

/-- Activation lifecycle phase. -/
inductive ActivationPhase where
  /-- Disk and installation phase. -/
  | partitioning
  /-- Before user creation. -/
  | users
  /-- General activation. -/
  | activation
  /-- Before service consumption. -/
  | services
  deriving DecidableEq

/-- Runtime materialization controls. -/
structure RuntimeSettings where
  /-- File owner. -/
  owner : String := "root"
  /-- File group. -/
  group : String := "root"
  /-- Octal mode represented as a string. -/
  mode : String := "0400"
  /-- Units restarted after a successful switch. -/
  restartUnits : List String := []
  /-- Units reloaded after a successful switch. -/
  reloadUnits : List String := []
  /-- Optional stable compatibility symlink to the active runtime file. -/
  compatibilitySymlink : Option String := none
  deriving DecidableEq

/-- Public lifecycle metadata; free-text fields that no check reads are left out. -/
structure Lifecycle where
  /-- Creation time. -/
  createdAt : Option String := none
  /-- Time of the most recent credential rotation. -/
  rotatedAt : Option String := none
  /-- Expiry time. -/
  expiresAt : Option String := none
  /-- Rotation interval in days. -/
  rotateAfterDays : Option UInt32 := none
  deriving DecidableEq

/-- Secret policy. It contains paths and metadata, never plaintext. -/
structure Secret where
  /-- Repository-relative canonical ciphertext path. -/
  source : String
  /-- SHA-256 hash of the canonical ciphertext. -/
  sourceCiphertextHash : String
  /-- Artifact delivery model. -/
  delivery : DeliveryMode := .rekeyed
  /-- Explicit administrator identities and groups. -/
  administrators : List Id := []
  /-- Explicit targets and groups. -/
  consumers : List Id := []
  /-- Additional target selection rules, united with `consumers`. -/
  selectors : TargetSelectors := {}
  /-- Required activation phase. -/
  phase : ActivationPhase := .activation
  /-- Runtime delivery settings. -/
  runtime : RuntimeSettings := {}
  /-- Target-specific runtime delivery settings. -/
  runtimeOverrides : Std.TreeMap Id RuntimeSettings := {}
  /-- Lifecycle metadata. -/
  lifecycle : Lifecycle := {}
  /-- Keep this secret in the repository and never authorize a target consumer. -/
  repositoryOnly : Bool := false
  /-- Approval policy. -/
  approvalPolicy : Option Id := none

/-- Resolves the exact runtime settings authorized for a target. -/
def Secret.runtimeForTarget (secret : Secret) (target : Id) : RuntimeSettings :=
  secret.runtimeOverrides[target]?.getD secret.runtime

/-- One public output produced by an external generator. -/
structure GeneratorPublicOutput where
  /-- Stable output identifier. -/
  id : Id
  /-- Repository-relative destination. -/
  destination : String
  deriving DecidableEq

/-- Display behavior of a generator prompt. -/
inductive GeneratorPromptMode where
  /-- Input is not echoed. -/
  | hidden
  /-- Input may be displayed. -/
  | visible
  deriving DecidableEq

/-- One declared generator prompt. -/
structure GeneratorPrompt where
  /-- Stable prompt identifier. -/
  id : Id
  /-- Whether interactive frontends mask the response. -/
  mode : GeneratorPromptMode
  /-- Public prompt text. -/
  message : String
  /-- Whether the response may contain multiple lines. -/
  multiline : Bool := false
  /-- Whether the response is remembered outside the repository. -/
  persistent : Bool := false
  deriving DecidableEq

/-- Generator declaration. -/
structure Generator where
  /-- Built-in name or direct executable store path. -/
  executable : String
  /-- Literal public arguments of an external executable. -/
  arguments : List String := []
  /-- Nix-store package roots whose `bin` directories form the generator `PATH`. -/
  runtimeInputs : List String := []
  /-- Maximum execution time in seconds. -/
  timeoutSeconds : UInt16 := defaultGeneratorTimeoutSeconds
  /-- Maximum plaintext bytes accepted from each output file. -/
  maxOutputBytes : UInt64 := defaultGeneratorMaxOutputBytes
  /-- Generator dependencies. -/
  dependencies : List Id := []
  /-- Canonical secret inputs of an external generator. -/
  secretDependencies : List Id := []
  /-- Declared secret outputs. -/
  outputs : List Id
  /-- Declared public output files. -/
  publicOutputs : List GeneratorPublicOutput := []
  /-- Explicit prompt declarations. -/
  prompts : List GeneratorPrompt := []
  /-- Strict public generator parameters. -/
  parameters : Std.TreeMap String String := {}
  /-- Public validation fingerprint. -/
  validation : Option String := none

/-- Supported secret-to-text transformations. -/
inductive TemplateEncoding where
  /-- Require valid UTF-8 and copy without modification. -/
  | utf8
  /-- Base64 with padding. -/
  | base64
  /-- Lowercase hexadecimal. -/
  | hex
  deriving DecidableEq

/-- One explicit template placeholder binding. -/
structure TemplatePlaceholder where
  /-- Secret inserted at the placeholder. -/
  secret : Id
  /-- Conversion from secret bytes to template text. -/
  encoding : TemplateEncoding
  deriving DecidableEq

/-- Runtime template declaration. -/
structure Template where
  /-- Non-secret source path. -/
  source : String
  /-- Placeholder declarations keyed by placeholder name. -/
  placeholders : Std.TreeMap String TemplatePlaceholder
  /-- Rendered-file runtime settings. -/
  runtime : RuntimeSettings := {}

/-- N-of-M artifact signature policy. -/
structure ApprovalPolicy where
  /-- Required distinct signer count. -/
  threshold : UInt16
  /-- Trusted signers. -/
  signers : List Id
  deriving DecidableEq

/-- Supported backend kinds. -/
inductive BackendKind where
  /-- Standard age. -/
  | age
  deriving DecidableEq

/-- Backend declaration. -/
structure Backend where
  /-- Backend kind. -/
  kind : BackendKind
  /-- Reserved public backend options. -/
  options : Std.TreeMap String String := {}

/-- Fully compiled public plan (`PlanV2`). -/
structure Plan where
  /-- Must equal `planSchema`. -/
  schema : String := planSchema
  /-- Public recipients and signers. -/
  identities : Std.TreeMap Id Identity := {}
  /-- Named sets of object identifiers. -/
  groups : Std.TreeMap Id Group := {}
  /-- Platform consumers. -/
  targets : Std.TreeMap Id Target := {}
  /-- Secret policy and encrypted source metadata. -/
  secrets : Std.TreeMap Id Secret := {}
  /-- Generator definitions. -/
  generators : Std.TreeMap Id Generator := {}
  /-- Runtime template definitions. -/
  templates : Std.TreeMap Id Template := {}
  /-- Artifact signature policies. -/
  approvalPolicies : Std.TreeMap Id ApprovalPolicy := {}
  /-- Encryption and provider backends. -/
  backends : Std.TreeMap Id Backend := {}

/-- A compatibility symlink declaration is a safe absolute destination spelling. -/
def validCompatibilitySymlink (value : String) : Bool :=
  if value.toList.isEmpty || value.utf8ByteSize > 4096 || !startsWith "/" value ||
      value.toList.getLast? == some '/' || value.toList.any isControl then
    false
  else if pathComponents value == [.rootDir] ||
      (pathComponents value).getLast?.all (fun component =>
        match component with
        | .normal _ => false
        | _ => true) ||
      !((segments value).drop 1).all fun segment =>
        !segment.isEmpty && segment != ['.'] && segment != ['.', '.'] then
    false
  else
    (pathComponents value).all PathComponent.isRootOrNormal

end NixSeal
