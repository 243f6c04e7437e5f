import NixSeal.Cache.Disk
import NixSeal.Policy.Recipients

/-!
# Values of a generator

An external generator leaves numbered files in two private directories.  `run_generate` reads them
back, pairs them with the declared outputs and hands the pairs to the batch writer.  File names are
collected in an ordered set of texts, so the files are read in the order of their names.
-/

namespace NixSeal.Generate

open Cache (FileName Folder Leaf)

/-- A redacted failure of the command line tool. -/
inductive GenerateError where
  | message (text : String)
  | policy (error : Policy.PolicyError)
  deriving DecidableEq

/-- Plaintexts of the declared outputs, in the order they were read. -/
structure GeneratedValues where
  secrets : List Bytes
  publicValues : List Bytes
  deriving DecidableEq

/-- What one run of a generator leaves for the tool to inspect. -/
structure GeneratorRun where
  /-- The values of a built-in generator, which uses no workspace. -/
  builtin : Except GenerateError GeneratedValues
  /-- Whether the executable was resolved and the workspace, prompts and secrets were staged. -/
  workspace : Except GenerateError Unit
  /-- Whether the process ended before its deadline, and then whether it succeeded. -/
  completion : Option Bool
  /-- The secret-output directory. -/
  outputs : Folder Leaf
  /-- The public-output directory. -/
  publicOutputs : Folder Leaf
  /-- The effective user of the tool. -/
  user : Nat

/-- Texts of the refusals for one output directory. -/
structure Refusals where
  notUtf8 : String
  notRegular : String
  undeclared : String

def secretRefusals : Refusals where
  notUtf8 := "generator output name is not UTF-8"
  notRegular := "constrained generator created a non-regular output"
  undeclared := "constrained generator created undeclared or missing outputs"

def publicRefusals : Refusals where
  notUtf8 := "generator public output name is not UTF-8"
  notRegular := "constrained generator public output is not a regular file"
  undeclared := "constrained generator created undeclared or missing public outputs"

/-- The names `0`, `1`, … expected for a number of outputs. -/
def expectedNames (count : Nat) : Std.TreeSet String :=
  Std.TreeSet.ofList ((List.range count).map toString)

/-- Inspection of one entry of an output directory. -/
def collectName (refusals : Refusals) (names : Std.TreeSet String)
    (entry : Sigma fun _ : FileName => Leaf) : Except GenerateError (Std.TreeSet String) :=
  match entry.1.toStr with
  | none => .error (.message refusals.notUtf8)
  | some name =>
      if entry.2.metadata.kind ≠ .file then .error (.message refusals.notRegular)
      else .ok (names.insert name)

/-- The names found in an output directory. -/
def actualNames (refusals : Refusals) (folder : Folder Leaf) :
    Except GenerateError (Std.TreeSet String) :=
  folder.entries.foldlM (collectName refusals) {}

/-- `read_generator_output`, with `open_generator_output`. -/
def readGeneratorOutput (user : Nat) (folder : Folder Leaf) (maximum : Nat) (name : String) :
    Except GenerateError Bytes :=
  match folder.lookup (.text name) with
  | some (.file status bytes) =>
      if status.links ≠ 1 ∨ status.owner ≠ user then
        .error (.message "constrained generator output has unsafe ownership or permissions")
      else if maximum < bytes.length then
        .error (.message
          "constrained generator output is invalid or exceeds its declared limit")
      else
        let output := bytes.take (min (maximum + 1) (2 ^ 64 - 1))
        if maximum < output.length then
          .error (.message "constrained generator output exceeded its declared limit")
        else .ok output
  | _ => .error (.message "constrained generator output has unsafe ownership or permissions")

/-- Inspection and reading of one output directory in `generate_external_values`. -/
def readOutputs (refusals : Refusals) (user : Nat) (folder : Folder Leaf) (maximum count : Nat) :
    Except GenerateError (List Bytes) := do
  let actual ← actualNames refusals folder
  if actual.toList ≠ (expectedNames count).toList then
    .error (.message refusals.undeclared)
  else (expectedNames count).toList.mapM (readGeneratorOutput user folder maximum)

/-- `generate_external_values`. -/
def generateExternalValues (generator : Generator) (run : GeneratorRun) :
    Except GenerateError GeneratedValues := do
  run.workspace
  match run.completion with
  | none => .error (.message "constrained generator timed out")
  | some false => .error (.message "constrained generator failed")
  | some true => do
      let secrets ← readOutputs secretRefusals run.user run.outputs
        generator.maxOutputBytes.toNat generator.outputs.length
      let publicValues ← readOutputs publicRefusals run.user run.publicOutputs
        generator.maxOutputBytes.toNat generator.publicOutputs.length
      .ok ⟨secrets, publicValues⟩

/-- `generate_generator_values`. -/
def generateGeneratorValues (generator : Generator) (run : GeneratorRun) :
    Except GenerateError GeneratedValues :=
  if startsWith "builtin:" generator.executable then run.builtin
  else generateExternalValues generator run

/-- `BatchSecretWrite`. -/
structure BatchSecretWrite where
  relativeDestination : String
  plaintext : Bytes
  recipients : List String
  deriving DecidableEq

/-- `BatchPublicWrite`. -/
structure BatchPublicWrite where
  relativeDestination : String
  plaintext : Bytes
  deriving DecidableEq

/-- The secret and public writes of one batch. -/
structure Batch where
  secrets : List BatchSecretWrite
  publicWrites : List BatchPublicWrite
  deriving DecidableEq

/-- The write of one secret output in `run_generate`. -/
def secretWrite (E : Policy.Environment) (plan : Plan) (output : Id × Bytes) :
    Except GenerateError BatchSecretWrite :=
  match plan.secrets[output.1]? with
  | none => .error (.message "generator output secret disappeared from validated plan")
  | some secret =>
      match Policy.secretRecipients E plan output.1 with
      | .error error => .error (.policy error)
      | .ok recipients => .ok ⟨secret.source, output.2, recipients.recipients.values⟩

/-- The body of `run_generate` for one generator that is not unchanged, up to the call of the batch
writer: the result is what the writer receives. -/
def generateBatch (E : Policy.Environment) (plan : Plan) (generator : Generator)
    (run : GeneratorRun) : Except GenerateError Batch := do
  let values ← generateGeneratorValues generator run
  if values.secrets.length ≠ generator.outputs.length ∨
      values.publicValues.length ≠ generator.publicOutputs.length then
    .error (.message "generator produced an unexpected output count")
  else do
    let secrets ← (generator.outputs.zip values.secrets).mapM (secretWrite E plan)
    .ok ⟨secrets, (generator.publicOutputs.zip values.publicValues).map fun output =>
      ⟨output.1.destination, output.2⟩⟩

end NixSeal.Generate
