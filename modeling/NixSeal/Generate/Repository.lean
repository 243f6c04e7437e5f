import NixSeal.Authoring.Tree
import NixSeal.Generate.Order

/-!
# Generation in a repository

`run_generate` walks the generators in order, decides for each of them whether its outputs are to be
created, replaced or left alone, runs it and hands its values to the batch writer.  Two trees
change: the repository and the directory that remembers the responses to prompts.  The executables,
the terminal, encryption and JSON are parameters.
-/

namespace NixSeal.Generate

open Authoring

/-! ## The machine and its failures -/

/-- `GENERATOR_STATE_SCHEMA`. -/
def generatorStateSchema : String := "nix-seal.generator-state.v1"

/-- `GeneratorStateV1`. -/
structure GeneratorStateV1 where
  schema : String
  generatorId : Id
  validation : String
  outputs : List Id
  publicOutputs : List Id
  deriving DecidableEq

/-- How `run_generate` fails. -/
inductive RunError where
  | generate (error : GenerateError)
  | authoring (error : AuthoringError)
  /-- `io::ErrorKind::NotFound`. -/
  | notFound
  deriving DecidableEq

/-- A redacted failure with a text. -/
def bail (text : String) : RunError := .generate (.message text)

/-- What a call meets outside the plan and the two trees. -/
structure Machine where
  policy : Policy.Environment
  /-- `identity_matches_recipient` with the identity of the operator. -/
  identityMatchesRecipient : String → Bool
  /-- `encrypt` of what goes to a destination, with the randomness it draws there. -/
  encrypt : String → List String → Bytes → Option Bytes
  /-- `decrypt` with the identity of the operator. -/
  decrypt : Bytes → Option Bytes
  /-- `serde_jcs::to_vec` of a generator state. -/
  stateToJcs : GeneratorStateV1 → Option Bytes
  /-- `serde_json::from_slice` of a generator state. -/
  stateFromJson : Bytes → Option GeneratorStateV1
  /-- Whether the mask of the process takes group and other bits from new directories. -/
  restrictive : Bool
  /-- `acquire_repository_lock`. -/
  locked : Except AuthoringError Unit
  /-- The inode of a new file. -/
  inode : Tree → String → Nat
  /-- The checks of the state directory of the user. -/
  stateHome : Except RunError Unit
  /-- The hash that names the repository in the state directory. -/
  repositoryKey : String
  /-- `persistent_prompt_id_key`. -/
  persistentPromptIdKey : String → Id → String
  /-- `read_generator_prompts`, by the sources of the responses. -/
  readGeneratorPrompts : Generator → Std.TreeMap Id (Option String) → Tree →
    Except RunError (List Bytes)
  /-- A run of a generator with its responses in a repository. -/
  run : Id → List Bytes → Tree → GeneratorRun

/-- `GenerateArgs`, without the files that are read before. -/
structure GenerateArgs where
  generator : Id
  replace : Bool
  promptFiles : List String
  interactive : Bool

/-! ## Paths of a repository -/

/-- The check of a directory above an output. -/
def existingAncestor (tree : Tree) (directory : String) : Except RunError Unit :=
  match tree directory with
  | none => .error .notFound
  | some (.directory _) => .ok ()
  | some _ => .error (bail "canonical ciphertext ancestry is not a directory")

/-- The check of an output. -/
def existingFile (tree : Tree) (path : String) : Except RunError Unit :=
  match tree path with
  | none => .error .notFound
  | some (.file _) => .ok ()
  | some _ => .error (bail "canonical ciphertext is not a regular file")

/-- `existing_secret_path` and `existing_public_output_path`. -/
def existingSecretPath (tree : Tree) (relative : String) : Except RunError Unit :=
  if isAbsolute relative then
    .error (bail "canonical ciphertext path must be repository-relative")
  else if !(pathComponents relative).all PathComponent.isRootOrNormal then
    .error (bail "canonical ciphertext path is not normalized")
  else do
    (ancestors relative).forM (existingAncestor tree)
    existingFile tree relative

/-- Whether an output is there; only a path that does not exist counts as absent. -/
def isPresent (tree : Tree) (relative : String) : Except RunError Bool :=
  match existingSecretPath tree relative with
  | .ok _ => .ok true
  | .error .notFound => .ok false
  | .error error => .error error

/-- Whether following a path leads to something. -/
def pathExists (tree : Tree) (path : String) : Bool :=
  match tree path with
  | none => false
  | some (.other resolves) => resolves
  | some _ => true

/-- The texts of the refusals of a private directory. -/
structure DirectoryRefusals where
  unsafeType : String
  unsafePermissions : String

def stateRefusals : DirectoryRefusals where
  unsafeType := "generator state directory has unsafe type"
  unsafePermissions := "generator state directory has unsafe ownership or permissions"

def promptRefusals : DirectoryRefusals where
  unsafeType := "persistent prompt state directory has unsafe type"
  unsafePermissions := "persistent prompt state directory has unsafe ownership or permissions"

/-- `ensure_private_directory`, and one turn of the loops of `generator_state_path`. -/
def ensurePrivateDirectory (refusals : DirectoryRefusals) (tree : Tree) (directory : String) :
    Except RunError Tree :=
  match tree directory with
  | none => .ok (Function.update tree directory (some (.directory ⟨true, true⟩)))
  | some (.directory found) =>
      if !found.owned || !found.restricted then .error (bail refusals.unsafePermissions)
      else .ok tree
  | some _ => .error (bail refusals.unsafeType)

/-- `generator_state_relative_path`. -/
def generatorStateRelativePath (generatorId : Id) : String :=
  ".nix-seal/generator-state/v1/" ++ generatorId.value ++ "/state.json"

/-- `generator_state_path`: the directories above the state are made private or found so. -/
def generatorStatePath (tree : Tree) (generatorId : Id) : Except RunError Tree :=
  (ancestors (generatorStateRelativePath generatorId)).foldlM
    (ensurePrivateDirectory stateRefusals) tree

/-! ## The state of a generator -/

/-- `open_private_identity` and the bounded read of a state. -/
def openState (tree : Tree) (path : String) : Except RunError Bytes :=
  match tree path with
  | some (.file file) =>
      if !file.ownerOnly then
        .error (bail "generator validation state has unsafe ownership or permissions")
      else if 64 * 1024 < (file.bytes.take (64 * 1024 + 1)).length then
        .error (bail "generator validation state exceeds the 64 KiB safety limit")
      else .ok (file.bytes.take (64 * 1024 + 1))
  | _ => .error (bail "generator validation state has unsafe ownership or permissions")

/-- The decoding of a state. -/
def parseState (M : Machine) (generatorId : Id) (bytes : Bytes) :
    Except RunError GeneratorStateV1 :=
  match M.stateFromJson bytes with
  | none => .error (bail "generator validation state is malformed")
  | some state =>
      if state.schema ≠ generatorStateSchema ∨ state.generatorId ≠ generatorId then
        .error (bail "generator validation state has an incompatible schema or ID")
      else .ok state

/-- `read_generator_state`. -/
def readGeneratorState (M : Machine) (tree : Tree) (generatorId : Id) :
    Except RunError (Option GeneratorStateV1 × Tree) := do
  let tree ← generatorStatePath tree generatorId
  if !pathExists tree (generatorStateRelativePath generatorId) then .ok (none, tree)
  else do
    let bytes ← openState tree (generatorStateRelativePath generatorId)
    let state ← parseState M generatorId bytes
    .ok (some state, tree)

/-- The state of a generator with a validation value. -/
def stateOf (generatorId : Id) (generator : Generator) (validation : String) : GeneratorStateV1 where
  schema := generatorStateSchema
  generatorId
  validation
  outputs := generator.outputs
  publicOutputs := generator.publicOutputs.map GeneratorPublicOutput.id

/-- `serialize_generator_state`. -/
def serializeGeneratorState (M : Machine) (state : GeneratorStateV1) : Except RunError Bytes :=
  match M.stateToJcs state with
  | none => .error (bail "JSON serialization failed")
  | some bytes => .ok bytes

/-! ## The action -/

/-- `GeneratorAction`. -/
inductive GeneratorAction where
  | unchanged
  | create
  | replace
  deriving DecidableEq

/-- The presence of one secret output. -/
def secretPresent (plan : Plan) (tree : Tree) (secretId : Id) : Except RunError Bool :=
  match plan.secrets[secretId]? with
  | none => .error (bail "generator output secret disappeared from validated plan")
  | some secret => isPresent tree secret.source

/-- The choice between the actions for a recorded state. -/
def stateAction (generatorId : Id) (generator : Generator) (validation : String)
    (state : Option GeneratorStateV1) (totalPresent totalOutputs : Nat) :
    Except RunError GeneratorAction :=
  match state with
  | some state =>
      if state.validation = validation ∧ state.outputs = generator.outputs ∧
          state.publicOutputs = generator.publicOutputs.map GeneratorPublicOutput.id then
        .ok (if totalPresent = totalOutputs then .unchanged else .create)
      else .ok (if totalPresent = totalOutputs then .replace else .create)
  | none =>
      if totalPresent = 0 then .ok .create
      else .error (bail (s!"generator {generatorId} outputs exist without validation state; " ++
        "pass --replace to establish an explicit validation baseline"))

/-- `generator_action`. -/
def generatorAction (M : Machine) (plan : Plan) (tree : Tree) (generatorId : Id)
    (generator : Generator) (explicitReplace : Bool) : Except RunError (GeneratorAction × Tree) :=
  if explicitReplace then .ok (.replace, tree)
  else do
    let present ← generator.outputs.mapM (secretPresent plan tree)
    let publicPresent ← generator.publicOutputs.mapM fun output =>
      isPresent tree output.destination
    let totalOutputs := generator.outputs.length + generator.publicOutputs.length
    let totalPresent := present.count true + publicPresent.count true
    if totalPresent ≠ 0 ∧ totalPresent ≠ totalOutputs then
      .error (bail s!"generator {generatorId} has a partial output set; repair it with --replace")
    else
      match generator.validation with
      | none => .ok (.create, tree)
      | some validation => do
          let (state, tree) ← readGeneratorState M tree generatorId
          let action ← stateAction generatorId generator validation state totalPresent totalOutputs
          .ok (action, tree)

/-! ## Prompts -/

/-- One `ID=PATH` of `parse_prompt_files`. -/
def parsePromptFile (parsed : Std.TreeMap Id String) (value : String) :
    Except RunError (Std.TreeMap Id String) :=
  let front := value.toList.takeWhile (· ≠ '=')
  let path := String.ofList (value.toList.drop (front.length + 1))
  if front.length = value.toList.length then .error (bail "prompt file must use ID=PATH")
  else
    match Id.parse (String.ofList front) with
    | .error _ => .error (bail "prompt file has an invalid prompt ID")
    | .ok id =>
        if !isAbsolute path || parsed.contains id then
          .error (bail "prompt files must have unique IDs and absolute paths")
        else .ok (parsed.insert id path)

/-- `parse_prompt_files`. -/
def parsePromptFiles (values : List String) : Except RunError (Std.TreeMap Id String) :=
  values.foldlM parsePromptFile {}

/-- The path of a remembered response below the state directory of the user. -/
def promptStateRelativePath (M : Machine) (generatorId promptId : Id) : String :=
  "nix-seal/repositories/" ++ M.repositoryKey ++ "/prompt-state/v1/" ++
    M.persistentPromptIdKey "generator" generatorId ++ "/" ++
      M.persistentPromptIdKey "prompt" promptId

/-- `generator_prompt_state_path`. -/
def generatorPromptStatePath (M : Machine) (home : Tree) (generatorId promptId : Id) :
    Except RunError Tree := do
  M.stateHome
  (ancestors (promptStateRelativePath M generatorId promptId)).foldlM
    (ensurePrivateDirectory promptRefusals) home

/-- The declared prompts, with their generators and whether their responses are remembered. -/
abbrev DeclaredPrompts : Type := Std.TreeMap Id (Id × Bool)

/-- The declaration of one prompt. -/
def declarePrompt (generatorId : Id) (declared : DeclaredPrompts) (prompt : GeneratorPrompt) :
    Except RunError DeclaredPrompts :=
  if declared.contains prompt.id then
    .error (bail "prompt IDs must be unique across the selected generator graph")
  else .ok (declared.insert prompt.id (generatorId, prompt.persistent))

/-- The declaration of the prompts of one generator. -/
def declarePrompts (plan : Plan) (declared : DeclaredPrompts) (generatorId : Id) :
    Except RunError DeclaredPrompts :=
  match plan.generators[generatorId]? with
  | none => .ok declared
  | some generator => generator.prompts.foldlM (declarePrompt generatorId) declared

/-- Sources of responses, and the tree of remembered ones. -/
structure PromptSources where
  sources : Std.TreeMap Id (Option String) := {}
  home : Tree

/-- The source of the response to one prompt. -/
def resolvePrompt (M : Machine) (interactive : Bool) (explicit : Std.TreeMap Id String)
    (resolved : PromptSources) (declared : Id × (Id × Bool)) : Except RunError PromptSources :=
  let promptId := declared.1
  match explicit[declared.1]? with
  | some path => .ok { resolved with sources := resolved.sources.insert declared.1 (some path) }
  | none =>
      if declared.2.2 then do
        let home ← generatorPromptStatePath M resolved.home declared.2.1 declared.1
        let path := promptStateRelativePath M declared.2.1 declared.1
        if pathExists home path then .ok ⟨resolved.sources.insert declared.1 (some path), home⟩
        else if interactive then .ok ⟨resolved.sources.insert declared.1 none, home⟩
        else .error (bail (s!"persistent prompt {promptId} has no stored response; initialize it " ++
          s!"with --prompt-file {promptId}=PATH or pass --interactive"))
      else if interactive then
        .ok { resolved with sources := resolved.sources.insert declared.1 none }
      else .error (bail (s!"prompt {promptId} requires an explicit private response file " ++
        s!"(--prompt-file {promptId}=PATH) or --interactive"))

/-- `validate_generator_prompt_files`. -/
def validateGeneratorPromptFiles (M : Machine) (plan : Plan) (order : List Id)
    (args : GenerateArgs) (home : Tree) : Except RunError PromptSources := do
  let explicit ← parsePromptFiles args.promptFiles
  let declared ← order.foldlM (declarePrompts plan) {}
  if explicit.keys.any fun promptId => !declared.contains promptId then
    .error (bail
      "prompt files must refer only to prompts declared by the selected generator graph")
  else
    declared.toList.foldlM (resolvePrompt M args.interactive explicit) { home }

/-- `write_private_bytes_atomic`. -/
def writePrivateBytesAtomic (M : Machine) (home : Tree) (path : String) (bytes : Bytes) :
    Except RunError Tree :=
  match home path with
  | none => .ok (Function.update home path
      (some (.file ⟨M.inode home path, bytes, true, true, fun _ => rfl⟩)))
  | some (.file file) =>
      if !file.ownerOnly then .error (bail "persistent prompt state file has unsafe metadata")
      else .ok (Function.update home path
        (some (.file ⟨M.inode home path, bytes, true, true, fun _ => rfl⟩)))
  | some _ => .error (bail "persistent prompt state file has unsafe metadata")

/-- One turn of `persist_generator_prompts`. -/
def persistGeneratorPrompt (M : Machine) (generatorId : Id) (home : Tree)
    (response : GeneratorPrompt × Bytes) : Except RunError Tree :=
  if response.1.persistent then do
    let home ← generatorPromptStatePath M home generatorId response.1.id
    writePrivateBytesAtomic M home (promptStateRelativePath M generatorId response.1.id) response.2
  else .ok home

/-- `persist_generator_prompts`. -/
def persistGeneratorPrompts (M : Machine) (generatorId : Id) (generator : Generator)
    (responses : List Bytes) (home : Tree) : Except RunError Tree :=
  if responses.length ≠ generator.prompts.length then
    .error (bail "generator prompt count changed during generation")
  else (generator.prompts.zip responses).foldlM (persistGeneratorPrompt M generatorId) home

/-! ## The writes -/

/-- A secret of a batch: it is encrypted, and decrypted again to verify it. -/
def secretChange (M : Machine) (tree : Tree) (write : BatchSecretWrite) : TreeWrite where
  kind := .secret
  relativeDestination := write.relativeDestination
  admission :=
    if write.recipients.any M.identityMatchesRecipient then .ok ()
    else .error .verificationIdentity
  staging :=
    match M.encrypt write.relativeDestination write.recipients write.plaintext with
    | none => .error .crypto
    | some ciphertext =>
        match M.decrypt ciphertext with
        | none => .error .crypto
        | some verified =>
            if verified = write.plaintext then
              .ok ⟨M.inode tree write.relativeDestination, ciphertext, true, true, fun _ => rfl⟩
            else .error .roundTrip

/-- `MAX_PUBLIC_OUTPUT_BYTES` and `MAX_PRIVATE_METADATA_BYTES`. -/
def maxMetadataBytes : Nat := 64 * 1024 * 1024

/-- A public output of a batch; it becomes readable by everyone before it is placed. -/
def publicChange (M : Machine) (tree : Tree) (write : BatchPublicWrite) : TreeWrite where
  kind := .publicOutput
  relativeDestination := write.relativeDestination
  admission := if maxMetadataBytes < write.plaintext.length then .error .unsafePath else .ok ()
  staging := .ok ⟨M.inode tree write.relativeDestination, write.plaintext, true, false,
    fun _ => rfl⟩

/-- The private state of a batch. -/
def stateChange (M : Machine) (tree : Tree) (generatorId : Id) (bytes : Bytes) : TreeWrite where
  kind := .privateWrite
  relativeDestination := generatorStateRelativePath generatorId
  admission := if maxMetadataBytes < bytes.length then .error .unsafePath else .ok ()
  staging := .ok ⟨M.inode tree (generatorStateRelativePath generatorId), bytes, true, true,
    fun _ => rfl⟩

/-- The removal of a state that is no longer declared. -/
def stateRemoval (generatorId : Id) : TreeWrite where
  kind := .privateDelete
  relativeDestination := generatorStateRelativePath generatorId
  admission := .ok ()
  staging := .error .unsafePath

/-- The change of the state of a generator. -/
def stateWrite (M : Machine) (tree : Tree) (generatorId : Id) (generator : Generator) :
    Except RunError TreeWrite :=
  match generator.validation with
  | none => .ok (stateRemoval generatorId)
  | some validation => do
      let bytes ← serializeGeneratorState M (stateOf generatorId generator validation)
      .ok (stateChange M tree generatorId bytes)

/-- The changes of one batch, in the order of preparation. -/
def batchWrites (M : Machine) (tree : Tree) (batch : Batch) (state : TreeWrite) : List TreeWrite :=
  batch.secrets.map (secretChange M tree) ++ batch.publicWrites.map (publicChange M tree) ++ [state]

/-- The mode of a batch. -/
def GeneratorAction.mode : GeneratorAction → Except RunError WriteMode
  | .create => .ok .create
  | .replace => .ok .replace
  | .unchanged => .error (bail "unchanged generator reached write transaction")

/-! ## The run -/

/-- One line of the result. -/
structure OutputReport where
  generator : Id
  output : Id
  path : String
  action : GeneratorAction
  deriving DecidableEq

/-- What a run has done. -/
structure Generation where
  repository : Tree
  home : Tree
  outputs : List OutputReport := []
  /-- The generators that ran, with what the batch writer received for them. -/
  executed : List (Id × Batch) := []

/-- `ensure_canonical_authoring_identity_authorized`. -/
def ensureCanonicalAuthoringIdentityAuthorized (M : Machine) (plan : Plan) (secretId : Id) :
    Except RunError Unit :=
  match Policy.secretRecipients M.policy plan secretId with
  | .error error => .error (.generate (.policy error))
  | .ok recipients =>
      if !recipients.recipients.toList.any fun recipient =>
          (plan.identities[recipient.1]?.any fun identity =>
            identity.kind = .administrator || identity.kind = .recovery) &&
          M.identityMatchesRecipient recipient.2 then
        .error (bail (s!"identity is not an authorized administrator or recovery recipient for " ++
          s!"secret {secretId}"))
      else .ok ()

/-- The line of an unchanged secret. -/
def unchangedSecret (plan : Plan) (tree : Tree) (generatorId secretId : Id) :
    Except RunError OutputReport :=
  match plan.secrets[secretId]? with
  | none => .error (bail "generator output secret disappeared from validated plan")
  | some secret => do
      existingSecretPath tree secret.source
      .ok ⟨generatorId, secretId, secret.source, .unchanged⟩

/-- The line of an unchanged public output. -/
def unchangedPublic (tree : Tree) (generatorId : Id) (output : GeneratorPublicOutput) :
    Except RunError OutputReport := do
  existingSecretPath tree output.destination
  .ok ⟨generatorId, output.id, output.destination, .unchanged⟩

/-- The lines of a generator that is left alone. -/
def unchangedReports (plan : Plan) (tree : Tree) (generatorId : Id) (generator : Generator) :
    Except RunError (List OutputReport) := do
  let secrets ← generator.outputs.mapM (unchangedSecret plan tree generatorId)
  let publicOutputs ← generator.publicOutputs.mapM (unchangedPublic tree generatorId)
  .ok (secrets ++ publicOutputs)

/-- The lines of a generator whose outputs were written. -/
def writtenReports (generatorId : Id) (generator : Generator) (batch : Batch)
    (action : GeneratorAction) : List OutputReport :=
  ((generator.outputs.zip batch.secrets).map fun output =>
    ⟨generatorId, output.1, output.2.relativeDestination, action⟩) ++
  (generator.publicOutputs.zip batch.publicWrites).map fun output =>
    ⟨generatorId, output.1.id, output.2.relativeDestination, action⟩

/-- The body of the loop of `run_generate` for a generator whose outputs are written. -/
def writeOutputs (M : Machine) (plan : Plan) (sources : Std.TreeMap Id (Option String))
    (generation : Generation) (generatorId : Id) (generator : Generator)
    (action : GeneratorAction) : Except RunError Generation := do
  let responses ← M.readGeneratorPrompts generator sources generation.home
  let batch ← (generateBatch M.policy plan generator
    (M.run generatorId responses generation.repository)).mapError .generate
  let state ← stateWrite M generation.repository generatorId generator
  let mode ← action.mode
  let repository ← (writeSecretPublicPrivateBatch M.restrictive M.locked mode
    (batchWrites M generation.repository batch state) generation.repository).mapError .authoring
  let home ← persistGeneratorPrompts M generatorId generator responses generation.home
  .ok
    { repository
      home
      outputs := generation.outputs ++ writtenReports generatorId generator batch action
      executed := generation.executed ++ [(generatorId, batch)] }

/-- One turn of the loop of `run_generate`. -/
def generateOne (M : Machine) (plan : Plan) (args : GenerateArgs)
    (sources : Std.TreeMap Id (Option String)) (generation : Generation) (generatorId : Id) :
    Except RunError Generation :=
  match plan.generators[generatorId]? with
  | none => .error (bail "generator disappeared from validated plan")
  | some generator => do
      let (action, repository) ← generatorAction M plan generation.repository generatorId generator
        args.replace
      if action = .unchanged then do
        let reports ← unchangedReports plan repository generatorId generator
        .ok { generation with repository, outputs := generation.outputs ++ reports }
      else
        writeOutputs M plan sources { generation with repository } generatorId generator action

/-- The authorization of the operator for every secret output of a generator. -/
def authorizeOutputs (M : Machine) (plan : Plan) (generatorId : Id) : Except RunError Unit :=
  match plan.generators[generatorId]? with
  | none => .error (bail "generator disappeared from validated plan")
  | some generator =>
      generator.outputs.forM (ensureCanonicalAuthoringIdentityAuthorized M plan)

/-- `reject_legacy_repository_prompt_state`. -/
def rejectLegacyRepositoryPromptState (tree : Tree) : Except RunError Unit :=
  match tree ".nix-seal", tree ".nix-seal/prompt-state" with
  | some (.file _), _ =>
      .error (bail "could not safely inspect legacy repository prompt state")
  | _, some _ =>
      .error (bail ("legacy plaintext prompt state exists below the repository; relocate or " ++
        "securely remove .nix-seal/prompt-state before any Nix evaluation or nix-seal generation"))
  | _, none => .ok ()

/-- The order of generation; the walk of a plan is as deep as its number of generators. -/
def generatorOrder (plan : Plan) (generatorId : Id) : Except RunError (List Id) :=
  match collectGeneratorOrder plan (plan.generators.size + 1) {} generatorId with
  | .ok walk => .ok walk.order
  | .error (.refused error) => .error (.generate error)
  | .error .depth => .error (bail "stack overflow")

/-- `run_generate`, from the read plan and identity on. -/
def runGenerate (M : Machine) (plan : Plan) (args : GenerateArgs) (repository home : Tree) :
    Except RunError Generation := do
  rejectLegacyRepositoryPromptState repository
  let order ← generatorOrder plan args.generator
  order.forM (authorizeOutputs M plan)
  let prompts ← validateGeneratorPromptFiles M plan order args home
  order.foldlM (generateOne M plan args prompts.sources) { repository, home := prompts.home }

end NixSeal.Generate
