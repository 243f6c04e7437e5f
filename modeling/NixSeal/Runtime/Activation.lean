import NixSeal.Runtime.ActiveGeneration
import NixSeal.Runtime.Contents
import NixSeal.Selection.Retention

/-!
# Activating

An activation authenticates its artifacts, fills a transaction directory with every secret and every
rendered template, and switches to it unless the current generation holds the same files.
-/

namespace NixSeal.Runtime.Contents

open Cache (FileName Status)

/-! ## Preparing -/

/-- `ActivationTemplate`. -/
structure ActivationTemplate where
  source : Source
  /-- The path of the source. -/
  sourcePath : String
  templateId : Id
  placeholders : Placeholders
  mode : Nat
  owner : String
  group : String

/-- `PreparedTemplate`. -/
structure PreparedTemplate where
  source : Bytes
  outputId : Id
  placeholders : Placeholders
  mode : Nat
  uid : Nat
  gid : Nat

/-- `MAX_TEMPLATE_SOURCE_BYTES`. -/
def maxTemplateSourceBytes : Nat := 2 * 1024 * 1024

/-- One turn of `prepare_templates`, with the outputs that are taken. -/
def prepareTemplate (accounts : Accounts) (secretIds : Std.TreeSet Id)
    (state : List PreparedTemplate × Std.TreeSet String) (template : ActivationTemplate) :
    Except RuntimeError (List PreparedTemplate × Std.TreeSet String) := do
  validateMode template.mode
  if !isNormalizedAbsolutePath template.sourcePath || template.placeholders.isEmpty ||
      256 < template.placeholders.size ||
      template.placeholders.toList.any fun entry =>
        !isPlaceholderName entry.1 || !secretIds.contains entry.2.secretId then
    .error .invalidSpec
  else do
    let outputId ← templateOutputId template.templateId
    if state.2.contains outputId.value then .error .invalidSpec
    else do
      let file ← openRegularNofollow template.source
      let source ← readBounded file maxTemplateSourceBytes
      validateTemplateSource source template.placeholders
      let uid ← resolveAccount (accounts.user template.owner)
      let gid ← resolveAccount (accounts.group template.group)
      .ok (state.1 ++ [⟨source, outputId, template.placeholders, template.mode, uid, gid⟩],
        state.2.insert outputId.value)

/-- `prepare_templates`. -/
def prepareTemplates (accounts : Accounts) (secretIds : Std.TreeSet Id)
    (outputIds : Std.TreeSet String) (templates : List ActivationTemplate) :
    Except RuntimeError (List PreparedTemplate) :=
  (templates.foldlM (prepareTemplate accounts secretIds) ([], outputIds)).map Prod.fst

/-! ## Outputs -/

/-- A file of the new generation: a decrypted secret, or a template that is rendered from the
secrets before it. -/
structure PreparedOutput where
  id : String
  mode : Nat
  uid : Nat
  gid : Nat
  content : Entries → Except RuntimeError Bytes
  short : ∀ entries bytes, content entries = .ok bytes → bytes.length ≤ maxTemplateOutputBytes

/-- `decrypt` into a file, for what is behind the ciphertext. -/
def decryptInto (reads : Reads) : Option Bytes → Except RuntimeError Bytes
  | none => .error .crypto
  | some plaintext =>
      Runtime.decrypt reads (fun written chunk => .ok (written ++ chunk)) plaintext []

theorem decryptInto_eq_ok {reads : Reads} {plaintext : Option Bytes} {bytes : Bytes} :
    decryptInto reads plaintext = .ok bytes ↔
      plaintext = some bytes ∧ bytes.length ≤ maxSecretBytes := by
  cases plaintext with
  | none => exact iff_of_false nofun fun both => nomatch both.1
  | some found =>
      have writes : ∀ chunk, Sink.Appends (fun output : Bytes =>
          (.ok (output ++ chunk) : Except RuntimeError Bytes)) True chunk := by
        intro chunk output final
        rw [Except.ok.injEq, true_and, eq_comm]
        rfl
      have decrypts : decryptInto reads (some found) = .ok bytes ↔
          found.length ≤ maxSecretBytes ∧ bytes = found := decrypt_appends reads writes found [] bytes
      rw [decrypts, Option.some.injEq, eq_comm (a := found)]
      constructor
      · rintro ⟨short, rfl⟩
        exact ⟨rfl, short⟩
      · rintro ⟨rfl, short⟩
        exact ⟨short, rfl⟩

/-- The output of an artifact, given what is behind ciphertexts. -/
def artifactOutput (reads : Reads) (decrypted : Bytes → Option Bytes)
    (artifact : PreparedArtifact) : PreparedOutput where
  id := artifact.secretId.value
  mode := artifact.mode
  uid := artifact.uid
  gid := artifact.gid
  content := fun _ => decryptInto reads (decrypted artifact.ciphertext)
  short := fun _ _ decrypted => (decryptInto_eq_ok.mp decrypted).2.trans (by decide)

/-- The callback of `Generation::render_template`, for the files written so far. -/
def renderFrom (process : Process) (reads : Reads) (entries : Entries) {limit : Nat}
    (spec : PlaceholderSpec) (writer : LimitedWriter limit) :
    Except RuntimeError (LimitedWriter limit) :=
  match openRegular process entries (outputPath spec.secretId.value) with
  | .error failure => .error failure.error
  | .ok stored =>
      if maxCiphertextBytes < stored.bytes.length then .error .limit
      else copySecret reads stored.bytes writer spec.encoding

/-- The output of a template. -/
def templateOutput (process : Process) (reads : Reads) (template : PreparedTemplate) :
    PreparedOutput where
  id := template.outputId.value
  mode := template.mode
  uid := template.uid
  gid := template.gid
  content := fun entries =>
    renderTemplateInto template.source template.placeholders (renderFrom process reads entries)
  short := by
    intro entries bytes rendered
    rw [renderTemplateInto] at rendered
    revert rendered
    cases visitTemplateSource (renderPart (renderFrom process reads entries)) template.source
        template.placeholders (LimitedWriter.new maxTemplateOutputBytes) with
    | error failure => nofun
    | ok writer =>
        intro rendered
        cases rendered
        exact writer.within

/-! ## Filling a transaction -/

/-- The user that fills a generation, and where. -/
structure Filler extends Volume where
  /-- `getegid`. -/
  group : Nat
  /-- Whether `fchown` to other accounts is allowed. -/
  mayChown : Nat → Nat → Bool

/-- A component of a path. -/
def fileName (name : List Char) : FileName := .text (String.ofList name)

/-- Entries with another node at a name that is there. -/
def putEntry (name : FileName) (entry : Entry) : Entries → Entries
  | [] => []
  | (other, old) :: rest =>
      if other = name then (other, entry) :: rest else (other, old) :: putEntry name entry rest

/-- `create_secret_file_relative` on the components of a path, with the file as it is once it is
written. -/
def createFile (volume : Volume) (file : Stored) :
    Entries → List (List Char) → Except RuntimeError Entries
  | _, [] => .error .invalidDestination
  | entries, [leaf] =>
      if !volume.fits leaf then .error .io
      else
        match entries.lookup (fileName leaf) with
        | some _ => .error .io
        | none => .ok (entries ++ [(fileName leaf, .file file)])
  | entries, name :: next :: rest =>
      if !volume.fits name then .error .io
      else
        match entries.lookup (fileName name) with
        | none => do
            let inner ← createFile volume file [] (next :: rest)
            .ok (entries ++ [(fileName name, .directory volume.user inner)])
        | some (.directory owner inner) =>
            if owner ≠ volume.user then .error .unsafeSource
            else do
              let inner ← createFile volume file inner (next :: rest)
              .ok (putEntry (fileName name) (.directory owner inner) entries)
        | some (.file _) | some (.symlink _) | some .special => .error .invalidDestination

/-- The file of an output with some content. -/
def PreparedOutput.stored (output : PreparedOutput) (bytes : Bytes) : Stored where
  status := ⟨output.uid, output.mode, 1⟩
  group := output.gid
  bytes := bytes

/-- `Generation::create_file_owned`, with the file as it is once it is written. -/
def createFileOwned (filler : Filler) (entries : Entries) (output : PreparedOutput)
    (bytes : Bytes) : Except RuntimeError Entries := do
  validateMode output.mode
  let created ← createFile filler.toVolume (output.stored bytes) entries (segments output.id)
  -- `set_file_owner` asks for no change that is not needed
  if (output.uid = filler.user && output.gid = filler.group) ||
      filler.mayChown output.uid output.gid then .ok created
  else .error .io

/-- An output is created, and then its content is written. -/
def writeOutput (filler : Filler) (entries : Entries) (output : PreparedOutput) :
    Except RuntimeError Entries := do
  let created ← createFileOwned filler entries output []
  let bytes ← output.content created
  createFileOwned filler entries output bytes

/-- The two loops of `activate` that fill the transaction directory. -/
def fillTransaction (filler : Filler) (outputs : List PreparedOutput) :
    Except RuntimeError Entries :=
  outputs.foldlM (writeOutput filler) []

/-- The path of an output. -/
def PreparedOutput.path (output : PreparedOutput) : Path := outputPath output.id

/-! ## Activating -/

/-- An `ActivationRequest`, with its templates and the number that is asked for. -/
structure FullRequest extends ActivationRequest where
  runtimeGeneration : Option Nat
  templates : List ActivationTemplate

/-- The system in which an activation runs. -/
structure Host where
  accounts : Accounts
  reads : Reads
  /-- What the target identity finds behind a ciphertext. -/
  decrypted : Bytes → Option Bytes
  process : Process
  filler : Filler
  listing : Listing

/-- The part of `activate` before the transaction directory is made. -/
def preparedOutputs (T : Selection.Tools) (host : Host) (request : FullRequest) :
    Except RuntimeError (List PreparedOutput) :=
  if request.runtimeGeneration = some 0 || request.artifacts.isEmpty ||
      10000 < request.artifacts.length || 1024 < request.templates.length then
    .error .invalidDestination
  else do
    let preparation ← prepareArtifacts T host.accounts request.toActivationRequest
    let templates ← prepareTemplates host.accounts preparation.secretIds preparation.outputIds
      request.templates
    .ok (preparation.prepared.map (artifactOutput host.reads host.decrypted) ++
      templates.map (templateOutput host.process host.reads))

/-- `activate` up to the switch: the transaction and whether the current generation holds the same
files. -/
def compareActivation (T : Selection.Tools) (host : Host) (current : Option Entries)
    (request : FullRequest) : Except RuntimeError (Entries × Bool) := do
  let outputs ← preparedOutputs T host request
  let transaction ← fillTransaction host.filler outputs
  let same ← matchingCurrent T host.listing host.process transaction current
    (outputs.map PreparedOutput.path)
  .ok (transaction, same)

/-! ## A filled transaction -/

section Fill

variable {entries next : Entries} {volume : Volume} {file : Stored}

theorem filesIn_append (front back : Entries) :
    filesIn (front ++ back) = filesIn front ++ filesIn back := by
  induction front with
  | nil => rfl
  | cons entry rest ih => simp [filesIn, ih]

theorem filesIn_singleton (name : FileName) (entry : Entry) :
    filesIn [(name, entry)] = entry.files.map fun found => (name :: found.1, found.2) := by
  simp [filesIn]

theorem properIn_append (proper : ProperIn entries) {name : FileName} {entry : Entry}
    (absent : entries.lookup name = none) (good : entry.Proper) :
    ProperIn (entries ++ [(name, entry)]) := by
  obtain ⟨distinct, each⟩ := (properIn_iff entries).mp proper
  have fresh : name ∉ entries.map Prod.fst := by
    intro member
    obtain ⟨⟨_, found⟩, listed, rfl⟩ := List.mem_map.mp member
    rw [(lookup_eq_some distinct).mpr listed] at absent
    cases absent
  refine (properIn_iff _).mpr ⟨?_, ?_⟩
  · rw [List.map_append, List.nodup_append]
    refine ⟨distinct, List.nodup_singleton _, ?_⟩
    rintro left listed right found rfl
    rw [List.map_singleton, List.mem_singleton] at found
    rw [found] at listed
    exact fresh listed
  · intro found listed
    rcases List.mem_append.mp listed with listed | listed
    · exact each found listed
    · rw [List.mem_singleton.mp listed]
      exact good

theorem map_fst_putEntry (name : FileName) (entry : Entry) (entries : Entries) :
    (putEntry name entry entries).map Prod.fst = entries.map Prod.fst := by
  induction entries with
  | nil => rfl
  | cons first rest ih =>
      obtain ⟨other, old⟩ := first
      rw [putEntry]
      split
      · rfl
      · rw [List.map_cons, ih, List.map_cons]

theorem mem_putEntry {name : FileName} {entry : Entry} {found : FileName × Entry}
    (member : found ∈ putEntry name entry entries) : found ∈ entries ∨ found = (name, entry) := by
  induction entries with
  | nil => cases member
  | cons first rest ih =>
      obtain ⟨other, old⟩ := first
      rw [putEntry] at member
      split at member
      · rename_i same
        rcases List.mem_cons.mp member with rfl | member
        · exact .inr (by rw [same])
        · exact .inl (List.mem_cons_of_mem _ member)
      · rcases List.mem_cons.mp member with rfl | member
        · exact .inl List.mem_cons_self
        · exact (ih member).imp_left (List.mem_cons_of_mem _)

/-- A tree that gains a file, below an entry that gains it. -/
theorem filesIn_putEntry {name : FileName} {entry old : Entry} {path : Path}
    (found : entries.lookup name = some old)
    (gains : entry.files.Perm ((path, file) :: old.files)) :
    (filesIn (putEntry name entry entries)).Perm ((name :: path, file) :: filesIn entries) := by
  induction entries with
  | nil => cases found
  | cons first rest ih =>
      obtain ⟨other, here⟩ := first
      rw [putEntry]
      by_cases same : other = name
      · subst same
        rw [List.lookup_cons_self] at found
        obtain rfl := Option.some.inj found
        rw [if_pos rfl, filesIn, filesIn, ← List.cons_append]
        exact (gains.map fun found => (other :: found.1, found.2)).append_right _
      · rw [List.lookup_cons, beq_eq_false_iff_ne.mpr (Ne.symm same)] at found
        rw [if_neg same, filesIn, filesIn]
        exact ((ih found).append_left _).trans List.perm_middle

theorem createFile_spec {names : List (List Char)} (proper : ProperIn entries)
    (created : createFile volume file entries names = .ok next) :
    next ≠ [] ∧ ProperIn next ∧
      (filesIn next).Perm ((names.map fileName, file) :: filesIn entries) := by
  induction names generalizing entries next with
  | nil => cases created
  | cons name rest ih =>
      have grows : ∀ entry : Entry, entries.lookup (fileName name) = none → entry.Proper →
          entry.files.Perm [(rest.map fileName, file)] →
          next = entries ++ [(fileName name, entry)] → next ≠ [] ∧ ProperIn next ∧
            (filesIn next).Perm (((name :: rest).map fileName, file) :: filesIn entries) := by
        rintro entry absent good gains rfl
        refine ⟨by simp, properIn_append proper absent good, ?_⟩
        rw [filesIn_append, filesIn_singleton]
        have one := gains.map fun found => (fileName name :: found.1, found.2)
        exact (one.append_left _).trans (List.perm_append_singleton _ _)
      cases rest with
      | nil =>
          rw [createFile, Fallible.guard_eq_ok] at created
          obtain ⟨-, created⟩ := created
          split at created
          · cases created
          · rename_i absent
            exact grows (.file file) absent trivial (by simp [Entry.files])
              (Except.ok.inj created).symm
      | cons second rest =>
          rw [createFile, Fallible.guard_eq_ok] at created
          obtain ⟨-, created⟩ := created
          split at created
          · rename_i absent
            obtain ⟨inner, below, created⟩ := Fallible.bind_eq_ok.mp created
            obtain ⟨filled, good, gains⟩ := @ih [] _ trivial below
            exact grows (.directory volume.user inner) absent ⟨filled, good⟩ gains
              (Except.ok.inj created).symm
          · rename_i owner old found
            rw [Fallible.guard_eq_ok] at created
            obtain ⟨-, created⟩ := created
            obtain ⟨inner, below, created⟩ := Fallible.bind_eq_ok.mp created
            cases created
            obtain ⟨distinct, each⟩ := (properIn_iff entries).mp proper
            have held : old ≠ [] ∧ ProperIn old := each _ ((lookup_eq_some distinct).mp found)
            obtain ⟨filled, good, gains⟩ := ih held.2 below
            have put : (filesIn (putEntry (fileName name) (.directory owner inner) entries)).Perm
                ((fileName name :: (second :: rest).map fileName, file) :: filesIn entries) :=
              filesIn_putEntry found gains
            have grown : (filesIn (putEntry (fileName name) (.directory owner inner) entries)).length =
                (filesIn entries).length + 1 := by
              rw [put.length_eq, List.length_cons]
            refine ⟨?_, (properIn_iff _).mpr ⟨?_, ?_⟩, put⟩
            · intro empty
              rw [empty] at grown
              simp [filesIn] at grown
            · rwa [map_fst_putEntry]
            · intro entry member
              rcases mem_putEntry member with listed | rfl
              · exact each entry listed
              · exact ⟨filled, good⟩
          all_goals cases created

/-- What a transaction holds when some outputs are written. -/
structure Filled (outputs : List PreparedOutput) (entries : Entries) : Prop where
  proper : ProperIn entries
  nonempty : outputs ≠ [] → entries ≠ []
  paths : ((filesIn entries).map Prod.fst).Perm (outputs.map PreparedOutput.path)
  files : ∀ path stored, (path, stored) ∈ filesIn entries → ∃ output ∈ outputs, ∃ bytes,
    path = output.path ∧ stored = output.stored bytes ∧ bytes.length ≤ maxTemplateOutputBytes

theorem createFileOwned_eq_ok {filler : Filler} {output : PreparedOutput} {bytes : Bytes}
    (created : createFileOwned filler entries output bytes = .ok next) :
    createFile filler.toVolume (output.stored bytes) entries (segments output.id) = .ok next := by
  obtain ⟨-, -, created⟩ := Fallible.bind_eq_ok.mp created
  obtain ⟨made, file, created⟩ := Fallible.bind_eq_ok.mp created
  split at created
  · cases created
    exact file
  · cases created

theorem fillTransaction_filled {filler : Filler} {outputs : List PreparedOutput}
    (filled : fillTransaction filler outputs = .ok entries) : Filled outputs entries := by
  refine Fallible.foldlM_eq_ok_induction filled (fun done state => Filled done state)
    ⟨trivial, fun nonempty => absurd rfl nonempty, by simp [filesIn], by simp [filesIn]⟩ ?_
  intro done output state next _ written holds
  obtain ⟨created, -, written⟩ := Fallible.bind_eq_ok.mp written
  obtain ⟨bytes, rendered, written⟩ := Fallible.bind_eq_ok.mp written
  obtain ⟨some, proper, gains⟩ := createFile_spec holds.proper (createFileOwned_eq_ok written)
  have path : (segments output.id).map fileName = output.path := rfl
  rw [path] at gains
  refine ⟨proper, fun _ => some, ?_, ?_⟩
  · rw [List.map_append, List.map_singleton]
    have front := (gains.map Prod.fst).trans (holds.paths.cons output.path)
    exact front.trans (List.perm_append_singleton _ _).symm
  · intro path stored member
    rcases List.mem_cons.mp (gains.mem_iff.mp member) with same | member
    · cases same
      exact ⟨output, by simp, bytes, rfl, rfl, output.short _ _ rendered⟩
    · obtain ⟨earlier, listed, found⟩ := holds.files path stored member
      exact ⟨earlier, List.mem_append_left _ listed, found⟩

namespace Filled

variable {outputs : List PreparedOutput}

theorem tidy (filled : Filled outputs entries) : TidyIn entries := filled.proper.facts.2.1

theorem plain (filled : Filled outputs entries) : plainIn entries = true := filled.proper.facts.1

theorem distinct (filled : Filled outputs entries) : (outputs.map PreparedOutput.path).Nodup :=
  filled.paths.nodup_iff.mp (nodup_paths filled.tidy)

theorem complete (filled : Filled outputs entries) (path : Path) :
    path ∈ outputs.map PreparedOutput.path ↔ path ∈ (filesIn entries).map Prod.fst :=
  filled.paths.mem_iff.symm

theorem single (filled : Filled outputs entries) {path : Path} {stored : Stored}
    (member : (path, stored) ∈ filesIn entries) : stored.status.links = 1 := by
  obtain ⟨output, -, bytes, -, rfl, -⟩ := filled.files path stored member
  rfl

theorem short (filled : Filled outputs entries) {path : Path} {stored : Stored}
    (member : (path, stored) ∈ filesIn entries) :
    stored.bytes.length ≤ maxTemplateOutputBytes := by
  obtain ⟨output, -, bytes, -, rfl, bound⟩ := filled.files path stored member
  exact bound

theorem accessible (filled : Filled outputs entries) {process : Process}
    (readable : ∀ stored, process.readable stored = true) : Accessible process entries :=
  fun _ stored member => ⟨readable stored, filled.single member⟩

end Filled

end Fill

/-! ## Every run -/

/-- What an activation does to the content of the current generation. -/
inductive Event where
  /-- It is refused before anything is compared, or the comparison is. -/
  | refused (host : Host) (request : FullRequest)
  /-- The current generation holds the same files. -/
  | matched (host : Host) (request : FullRequest) (transaction : Entries)
  /-- The transaction becomes the current generation. -/
  | switched (host : Host) (request : FullRequest) (transaction : Entries)
  /-- It should become the current generation, and the switch fails. -/
  | stopped (host : Host) (request : FullRequest) (transaction : Entries)

/-- The steps of the content of the current generation. -/
inductive Step (T : Selection.Tools) : Option Entries → Event → Option Entries → Prop where
  | refused {current : Option Entries} {host : Host} {request : FullRequest}
      {error : RuntimeError} (compared : compareActivation T host current request = .error error) :
      Step T current (.refused host request) current
  | matched {current : Option Entries} {host : Host} {request : FullRequest} {transaction : Entries}
      (compared : compareActivation T host current request = .ok (transaction, true)) :
      Step T current (.matched host request transaction) current
  | switched {current : Option Entries} {host : Host} {request : FullRequest}
      {transaction : Entries}
      (compared : compareActivation T host current request = .ok (transaction, false)) :
      Step T current (.switched host request transaction) (some transaction)
  | stopped {current : Option Entries} {host : Host} {request : FullRequest}
      {transaction : Entries}
      (compared : compareActivation T host current request = .ok (transaction, false)) :
      Step T current (.stopped host request transaction) current

/-- The last transaction that became or matched the current generation. -/
def shown (last : Option Entries) (moment : Runs.Moment (Option Entries) Event) : Option Entries :=
  match moment.event with
  | .matched _ _ transaction | .switched _ _ transaction => some transaction
  | .refused _ _ | .stopped _ _ _ => last

section Run

variable {T : Selection.Tools} {host : Host} {request : FullRequest}

/-- Transactions that activations fill. -/
def Made (entries : Entries) : Prop :=
  ∃ outputs : List PreparedOutput, outputs ≠ [] ∧ Filled outputs entries

/-- The current generation was filled by an activation and holds the same files as the last
transaction shown, or there is none of either. -/
def Follows (T : Selection.Tools) : Option Entries → Option Entries → Prop
  | none, none => True
  | some current, some last =>
      Made current ∧ Made last ∧ SameFiles T (filesIn last) (filesIn current)
  | _, _ => False

theorem length_prepareArtifact {state next : Preparation} {artifact : ActivationArtifact}
    (turned : prepareArtifact T host.accounts request.toActivationRequest state artifact =
      .ok next) : next.prepared.length = state.prepared.length + 1 := by
  obtain ⟨-, -, turned⟩ := Fallible.bind_eq_ok.mp turned
  rw [Fallible.guard_eq_ok] at turned
  obtain ⟨paths, -, turned⟩ := Fallible.bind_eq_ok.mp turned.2
  obtain ⟨uid, -, turned⟩ := Fallible.bind_eq_ok.mp turned
  obtain ⟨gid, -, turned⟩ := Fallible.bind_eq_ok.mp turned
  obtain ⟨ciphertext, -, turned⟩ := Fallible.bind_eq_ok.mp turned
  cases turned
  rw [List.length_append, List.length_singleton]

theorem preparedOutputs_ne_nil {outputs : List PreparedOutput}
    (prepared : preparedOutputs T host request = .ok outputs) : outputs ≠ [] := by
  rw [preparedOutputs, Fallible.guard_eq_ok] at prepared
  obtain ⟨bounds, prepared⟩ := prepared
  obtain ⟨preparation, authenticated, prepared⟩ := Fallible.bind_eq_ok.mp prepared
  obtain ⟨templates, -, prepared⟩ := Fallible.bind_eq_ok.mp prepared
  cases prepared
  have count : preparation.prepared.length = request.artifacts.length := by
    refine Fallible.foldlM_eq_ok_induction authenticated
      (fun done state => state.prepared.length = done.length) rfl ?_
    intro done artifact state next _ turned counted
    have grown : next.prepared.length = state.prepared.length + 1 := length_prepareArtifact turned
    rw [grown, counted, List.length_append, List.length_singleton]
  intro empty
  have none_prepared := (List.append_eq_nil_iff.mp empty).1
  rw [List.map_eq_nil_iff] at none_prepared
  rw [none_prepared, List.length_nil, eq_comm, List.length_eq_zero_iff] at count
  simp [count] at bounds

/-- What a comparison has compared. -/
theorem compareActivation_eq_ok {current : Option Entries} {transaction : Entries} {same : Bool}
    (compared : compareActivation T host current request = .ok (transaction, same)) :
    ∃ outputs, preparedOutputs T host request = .ok outputs ∧ outputs ≠ [] ∧
      Filled outputs transaction ∧ matchingCurrent T host.listing host.process transaction current
        (outputs.map PreparedOutput.path) = .ok same := by
  obtain ⟨outputs, prepared, compared⟩ := Fallible.bind_eq_ok.mp compared
  obtain ⟨filling, filled, compared⟩ := Fallible.bind_eq_ok.mp compared
  obtain ⟨answer, matching, compared⟩ := Fallible.bind_eq_ok.mp compared
  cases compared
  exact ⟨outputs, prepared, preparedOutputs_ne_nil prepared, fillTransaction_filled filled, matching⟩

/-- The answer of a comparison with a generation that follows the last transaction. -/
theorem Follows.compare {current last : Option Entries} {transaction : Entries} {same : Bool}
    (follows : Follows T current last)
    (compared : compareActivation T host current request = .ok (transaction, same)) :
    Made transaction ∧ (same = true ↔ ∃ shown, last = some shown ∧
      SameFiles T (filesIn shown) (filesIn transaction)) := by
  obtain ⟨outputs, -, nonempty, filled, matching⟩ := compareActivation_eq_ok compared
  refine ⟨⟨outputs, nonempty, filled⟩, ?_⟩
  cases current with
  | none =>
      cases last with
      | none =>
          cases matching
          simp
      | some last => exact follows.elim
  | some current =>
      cases last with
      | none => exact follows.elim
      | some last =>
          obtain ⟨⟨_, -, held⟩, -, agree⟩ := follows
          rw [(matchingCurrent_eq_ok filled.tidy filled.plain filled.distinct filled.complete
            held.tidy matching).2]
          constructor
          · exact fun equal => ⟨last, rfl, agree.trans equal.symm⟩
          · rintro ⟨_, ⟨⟩, equal⟩
            exact equal.symm.trans agree

/-- A step keeps the current generation in line with the last transaction shown. -/
theorem Step.follows {current next last : Option Entries} {event : Event}
    (moves : Step T current event next) (follows : Follows T current last) :
    Follows T next (shown last ⟨current, event⟩) := by
  cases moves with
  | refused compared => exact follows
  | stopped compared => exact follows
  | @switched host request transaction compared =>
      obtain ⟨made, -⟩ := follows.compare compared
      have tidy : TidyIn transaction := by
        obtain ⟨outputs, -, filled⟩ := made
        exact filled.tidy
      exact ⟨made, made, SameFiles.refl tidy⟩
  | @matched host request transaction compared =>
      obtain ⟨made, same⟩ := follows.compare compared
      obtain ⟨shown, rfl, equal⟩ := same.mp rfl
      cases current with
      | none => exact follows.elim
      | some current =>
          obtain ⟨held, -, agree⟩ := follows
          exact ⟨held, made, equal.symm.trans agree⟩

theorem follows_of_run {trace : List (Runs.Moment (Option Entries) Event)}
    {current : Option Entries} (run : Runs.Run (Step T) none trace current) :
    Follows T current (trace.foldl shown none) := by
  have begins : Follows T none none := trivial
  have keeps : ∀ state event next past, True → Follows T state past → Step T state event next →
      Follows T next (shown past ⟨state, event⟩) :=
    fun _ _ _ _ _ follows moves => moves.follows follows
  exact run.invariant_fold (Follows T) keeps begins fun _ _ => trivial

end Run

namespace Sample

open Policy.Sample (token)

/-- A file that may be read. -/
def source (bytes : Bytes) : Source := ⟨.ok (.file ⟨0, 0o400, 1⟩ bytes), false⟩

/-- The sample artifact, approved by the sample signer. -/
def artifact : ActivationArtifact where
  ciphertext := source [0]
  envelope := source Selection.Sample.envelopeText
  secretId := token
  sourceCiphertextHash := Manifest.Sample.digest
  artifactPolicyHash := Manifest.Sample.digest
  artifactGeneration := 1
  approvalSigners := Selection.Sample.secretPolicy.approval.signers
  approvalThreshold := 1
  mode := 0o400
  owner := "root"
  group := "root"
  compatibilitySymlink := none

/-- An activation of the sample artifact. -/
def request : FullRequest where
  toActivationRequest := Selection.activationRequest "/run/nix-seal"
    (Selection.Sample.question 1700000300 300) [artifact]
  runtimeGeneration := none
  templates := []

/-- A system that finds a secret of one byte behind every ciphertext. -/
def host : Host where
  accounts := ⟨fun _ => some 0, fun _ => some 0⟩
  reads := Reads.whole
  decrypted _ := some [1]
  process := ⟨fun _ => true, fun _ => .error .notFound⟩
  filler := ⟨⟨fun _ => true, 0⟩, 0, fun _ _ => true⟩
  listing := ⟨id, fun _ => .refl _⟩

/-- The transaction of the sample activation. -/
def transaction : Entries := [(.text "token", .file ⟨⟨0, 0o400, 1⟩, 0, [1]⟩)]

/-- The output of the sample artifact. -/
def output : PreparedOutput :=
  artifactOutput Reads.whole (fun _ => some [1]) ⟨[0], token, 0o400, 0, 0, none⟩

theorem authenticated :
    authenticate Selection.Sample.tools request.toActivationRequest artifact = .ok [0] := by
  have verifies : Selection.Verifies Selection.Sample.tools
      (Selection.Sample.question 1700000300 300) Selection.Sample.record token 1 :=
    Selection.Sample.verifies (by decide) (by decide)
  obtain ⟨secret, envelope, policyHash, trusted, verified, stored, -, parsed, hashed, -, trusts,
    accepted⟩ := verifies
  cases stored
  cases hashed
  exact authenticate_eq_ok rfl (by decide) rfl Selection.Sample.length_envelopeText parsed trusts
    accepted

/-- What the sample artifact is prepared to. -/
def preparation : Preparation where
  prepared := [⟨[0], token, 0o400, 0, 0, none⟩]
  secretIds := ({} : Std.TreeSet Id).insert token
  outputIds := ({} : Std.TreeSet String).insert token.value
  compatibilityPaths := {}

theorem prepared :
    preparedOutputs Selection.Sample.tools host request = .ok [output] := by
  have mode : validateMode artifact.mode = .ok () := rfl
  have turned : prepareArtifact Selection.Sample.tools host.accounts request.toActivationRequest
      ⟨[], {}, {}, {}⟩ artifact = .ok preparation := by
    rw [prepareArtifact, mode, authenticated]
    rfl
  have artifacts : prepareArtifacts Selection.Sample.tools host.accounts
      request.toActivationRequest = .ok preparation := by
    have listed : request.artifacts = [artifact] := rfl
    rw [prepareArtifacts, listed, List.foldlM_cons, turned, Fallible.ok_bind, List.foldlM_nil]
    rfl
  have templates : prepareTemplates host.accounts preparation.secretIds preparation.outputIds
      request.templates = .ok [] := rfl
  have bounds : ¬(request.runtimeGeneration = some 0 || request.artifacts.isEmpty ||
      10000 < request.artifacts.length || 1024 < request.templates.length) = true := by
    decide
  rw [preparedOutputs, if_neg bounds, artifacts, Fallible.ok_bind, templates, Fallible.ok_bind]
  rfl

theorem filling : fillTransaction host.filler [output] = .ok transaction := by
  have content : ∀ entries, output.content entries = .ok [1] := fun _ =>
    decryptInto_eq_ok.mpr ⟨rfl, by decide⟩
  have written : writeOutput host.filler [] output = .ok transaction := by
    refine Fallible.bind_eq_ok.mpr ⟨_, rfl, ?_⟩
    rw [content]
    rfl
  exact Fallible.bind_eq_ok.mpr ⟨_, written, rfl⟩

theorem compares (current : Option Entries) {same : Bool}
    (matching : matchingCurrent Selection.Sample.tools host.listing host.process transaction current
      [output.path] = .ok same) :
    compareActivation Selection.Sample.tools host current request = .ok (transaction, same) := by
  rw [compareActivation, prepared, Fallible.ok_bind, filling, Fallible.ok_bind]
  exact Fallible.bind_eq_ok.mpr ⟨same, matching, rfl⟩

def trace : List (Runs.Moment (Option Entries) Event) := [⟨none, .switched host request transaction⟩]

theorem run : Runs.Run (Step Selection.Sample.tools) none trace (some transaction) :=
  .snoc .refl (.switched (compares none rfl))

theorem again : compareActivation Selection.Sample.tools host (some transaction) request =
    .ok (transaction, true) := by
  refine compares _ (Fallible.bind_eq_ok.mpr ⟨1, ?_, rfl⟩)
  exact countRegularFiles_eq (by simp [transaction])
    (by simp [transaction, properIn_iff, Entry.Proper]) (by decide)

end Sample

section Run

variable {T : Selection.Tools} {host : Host} {request : FullRequest}

/-- In every run of activations of a new root, the current generation holds the files of the last
transaction that became or matched it, and a further activation that compares its transaction finds
it unchanged exactly when it holds the same files as that one. -/
theorem activation_unchanged_iff {trace : List (Runs.Moment (Option Entries) Event)}
    {current : Option Entries} (run : Runs.Run (Step T) none trace current) {transaction : Entries}
    {same : Bool} (compared : compareActivation T host current request = .ok (transaction, same)) :
    (∀ content, current = some content → ∃ last, trace.foldl shown none = some last ∧
      SameFiles T (filesIn last) (filesIn content)) ∧
    (same = true ↔ ∃ last, trace.foldl shown none = some last ∧
      SameFiles T (filesIn last) (filesIn transaction)) := by
  have follows := follows_of_run run
  refine ⟨?_, (follows.compare compared).2⟩
  rintro content rfl
  cases last : trace.foldl shown none with
  | none =>
      rw [last] at follows
      exact follows.elim
  | some shown =>
      rw [last] at follows
      exact ⟨shown, rfl, follows.2.2⟩

theorem activation_unchanged_iff_again :
    ∃ last, Sample.trace.foldl shown none = some last ∧
      SameFiles Selection.Sample.tools (filesIn last) (filesIn Sample.transaction) :=
  (activation_unchanged_iff Sample.run Sample.again).2.mp rfl

/-- A process that may read every file, after any run of activations of a new root: an activation
whose transaction is filled compares it, unless the current generation has as many files as there
are outputs and the first output that it does not hold is obstructed by a file in its way or by a
directory in its place. -/
theorem activation_compared_iff {trace : List (Runs.Moment (Option Entries) Event)}
    {current transaction : Entries} {outputs : List PreparedOutput}
    (run : Runs.Run (Step T) none trace (some current))
    (prepared : preparedOutputs T host request = .ok outputs)
    (filling : fillTransaction host.filler outputs = .ok transaction)
    (readable : ∀ stored, host.process.readable stored = true)
    (few : (filesIn current).length ≤ 10000) :
    (∃ same, compareActivation T host (some current) request = .ok (transaction, same)) ↔
      ¬((filesIn current).length = outputs.length ∧ ∃ before output after,
        outputs.map PreparedOutput.path = before ++ output :: after ∧
        (∀ earlier ∈ before, Shared T transaction current earlier) ∧
        Obstructed current output) := by
  have follows := follows_of_run run
  have made : Made current := by
    cases last : trace.foldl shown none with
    | none =>
        rw [last] at follows
        exact follows.elim
    | some shown =>
        rw [last] at follows
        exact follows.1
  obtain ⟨others, nonempty, held⟩ := made
  have filled := fillTransaction_filled filling
  have compared : ∀ same, compareActivation T host (some current) request =
      .ok (transaction, same) ↔ matchingCurrent T host.listing host.process transaction
        (some current) (outputs.map PreparedOutput.path) = .ok same := by
    intro same
    rw [compareActivation, prepared, Fallible.ok_bind, filling, Fallible.ok_bind,
      Fallible.bind_eq_ok]
    simp
  simp only [compared]
  rw [matchingCurrent_isOk_iff filled.tidy filled.plain (filled.accessible readable)
    (fun _ _ => filled.short) filled.complete ⟨held.nonempty nonempty, held.proper⟩
    (held.accessible readable) few, List.length_map]

theorem activation_compared_iff_again :
    ∃ same, compareActivation Selection.Sample.tools Sample.host (some Sample.transaction)
      Sample.request = .ok (Sample.transaction, same) := by
  refine (activation_compared_iff Sample.run Sample.prepared Sample.filling (fun _ => rfl)
    (by decide)).mpr ?_
  rintro ⟨-, before, output, after, outputs, -, path, member, different, -⟩
  have inside : output ∈ [Sample.output].map PreparedOutput.path := by
    rw [outputs]
    simp
  rw [List.map_singleton, List.mem_singleton] at inside
  have only : path ∈ [[FileName.text "token"]] := member
  rw [List.mem_singleton] at only
  exact different (only.trans inside.symm)

end Run

/-! ## On a runtime root -/

section Root

open Generations Faulty Program

mutual

/-- A tree without owners and permissions. -/
def Entry.node : Entry → Generations.Node
  | .file stored => .file stored.bytes stored.status.links
  | .directory _ entries => .directory (nodes entries)
  | .symlink target => .symlink target
  | .special => .special

def nodes : Entries → List (FileName × Generations.Node)
  | [] => []
  | (name, entry) :: rest => (name, entry.node) :: nodes rest

end

/-- `current` leads to some content, or there is neither. -/
def Represents (world : World) : Option Entries → Prop
  | none => world.lookup currentName = none
  | some content =>
      ∃ number, number < 2 ^ 64 ∧ Current number (.directory (nodes content)) world

/-- `activate` from the comparison on, given the path of a generation that holds the same files:
the path of the current generation and whether something has changed. -/
def endActivation (E : Environment) (generation : Generations.Generation) (commit : Commit) :
    Option (List FileName) → Operation (List FileName × Bool)
  | some current => do
      let changed ← finishActivation E current commit
      pure (current, changed)
  | none => do
      let path ← commitAndSwitchOptional E generation commit
      pure (path, true)

variable {E : Environment} {generation : Generations.Generation} {commit : Commit}
  {verdict : Call → Verdict} {before after : World} {content : Option Entries}
  {transaction : Entries}

theorem Represents.sound (represents : Represents before content) : Sound before := by
  cases content with
  | none => exact .inl represents
  | some content =>
      obtain ⟨number, small, current⟩ := represents
      exact .inr ⟨number, _, small, rfl, current⟩

/-- What keeps the active generation keeps its content. -/
theorem Represents.same (represents : Represents before content) (same : Same before after) :
    Represents after content := by
  cases content with
  | none =>
      have kept := same currentName (by simp [activeNames, show before.lookup currentName = none
        from represents])
      exact kept.trans represents
  | some content =>
      obtain ⟨number, small, current⟩ := represents
      exact ⟨number, small, same.current small rfl current⟩

theorem Represents.settles (represents : Represents before content)
    (filled : before.lookup generation.transaction = some (.directory (nodes transaction)))
    (settles : Settles before generation.transaction after) :
    Represents after content ∨ Represents after (some transaction) := by
  refine settles.imp represents.same ?_
  rintro ⟨number, tree, found, -, -, small, current⟩
  obtain rfl := Option.some.inj (found.symm.trans filled)
  exact ⟨number, small, current⟩

/-- A commit that returns has switched to the transaction. -/
theorem commitAndSwitchOptional_switches (sound : Sound before) (sized : commit.Sized)
    (steady : Steady before commit verdict) :
    (commitAndSwitchOptional E generation commit).Meets verdict before
      (fun _ after => ∃ number tree, before.lookup generation.transaction = some tree ∧
        number < 2 ^ 64 ∧ Current number tree after)
      (fun _ after => Settles before generation.transaction after)
      fun after => Settles before generation.transaction after := by
  refine (switchGeneration_meets sound sized steady).seq ?_
  intro number switched ended
  obtain ⟨tree, committed, directory, plain, small, current⟩ := ended
  have kept : ∀ after, settled number after = settled number switched → Current number tree after :=
    fun after same => current.of_settled small directory same
  have settles : ∀ after, settled number after = settled number switched →
      Settles before generation.transaction after := fun after same =>
    .inr ⟨number, tree, committed, directory, plain, small, kept after same⟩
  exact (pruneSupersededGenerations_keeps E small).seq
    (fun _ after _ same => Meets.pure ⟨number, tree, committed, small, kept after same⟩)
    (fun _ => settles) settles

/-- After any run of activations of a new root, however a further activation ends, `current` leads
to what it led to before or to the whole transaction, by a step of its content; and one that returns
has left the content alone exactly when it found the files to be the same. -/
theorem activation_simulated {T : Selection.Tools} {host : Host} {request : FullRequest}
    {trace : List (Runs.Moment (Option Entries) Event)} {same : Bool}
    {matched : Option (List FileName)}
    (run : Runs.Run (Step T) none trace content) (represents : Represents before content)
    (filled : before.lookup generation.transaction = some (.directory (nodes transaction)))
    (compared : compareActivation T host content request = .ok (transaction, same))
    (found : if same then currentGeneration before.root = .ok matched ∧ matched.isSome = true
      else matched = none)
    (sized : commit.Sized) (steady : Steady before commit verdict) :
    (endActivation E generation commit matched).Meets verdict before
      (fun _ after => ∃ event next, Runs.Run (Step T) none (trace ++ [⟨content, event⟩]) next ∧
        Represents after next ∧
        event = if same then .matched host request transaction
          else .switched host request transaction)
      (fun _ after => ∃ event next, Runs.Run (Step T) none (trace ++ [⟨content, event⟩]) next ∧
        Represents after next)
      fun after => ∃ event next, Runs.Run (Step T) none (trace ++ [⟨content, event⟩]) next ∧
        Represents after next := by
  cases same with
  | true =>
      obtain ⟨path, some⟩ := found
      obtain ⟨current, rfl⟩ := Option.isSome_iff_exists.mp some
      have stays : ∀ after, Same before after → ∃ event next,
          Runs.Run (Step T) none (trace ++ [⟨content, event⟩]) next ∧ Represents after next ∧
            event = .matched host request transaction := fun after kept =>
        ⟨_, content, .snoc run (.matched compared), represents.same kept, rfl⟩
      have weaker : ∀ after, Same before after → ∃ event next,
          Runs.Run (Step T) none (trace ++ [⟨content, event⟩]) next ∧ Represents after next :=
        fun after kept => ⟨_, content, .snoc run (.matched compared), represents.same kept⟩
      exact Meets.bind ((finishActivation_meets represents.sound path).mono
        (fun _ after kept => Meets.pure (stays after kept)) (fun _ => weaker) weaker)
  | false =>
      obtain rfl : matched = none := found
      have either : ∀ after, Settles before generation.transaction after → ∃ event next,
          Runs.Run (Step T) none (trace ++ [⟨content, event⟩]) next ∧ Represents after next := by
        intro after settles
        rcases represents.settles filled settles with kept | switched
        · exact ⟨_, content, .snoc run (.stopped compared), kept⟩
        · exact ⟨_, some transaction, .snoc run (.switched compared), switched⟩
      have switches : ∀ after, (∃ number tree, before.lookup generation.transaction = some tree ∧
          number < 2 ^ 64 ∧ Current number tree after) → ∃ event next,
          Runs.Run (Step T) none (trace ++ [⟨content, event⟩]) next ∧ Represents after next ∧
            event = .switched host request transaction := by
        rintro after ⟨number, tree, committed, small, current⟩
        obtain rfl := Option.some.inj (committed.symm.trans filled)
        exact ⟨_, some transaction, .snoc run (.switched compared), ⟨number, small, current⟩, rfl⟩
      exact Meets.bind ((commitAndSwitchOptional_switches represents.sound sized steady).mono
        (fun _ after switched => Meets.pure (switches after switched)) (fun _ => either) either)

/-- A root with the transaction of the sample activation. -/
def Sample.filled : World :=
  Generations.Sample.empty.put Generations.Sample.generation.transaction
    (.directory (nodes Sample.transaction))

theorem activation_simulated_first :
    ∃ after, endActivation Generations.Sample.environment Generations.Sample.generation
        Generations.Sample.commit none (fun _ => .pass) Sample.filled =
          .ok ([generationName 1], true) after ∧
      Represents after (some Sample.transaction) := by
  have begins : Runs.Run (Step Selection.Sample.tools) none [] none := .refl
  have steady : Steady Sample.filled Generations.Sample.commit fun _ => .pass :=
    ⟨by simp, by simp [Generations.Sample.commit]⟩
  have simulated : (endActivation Generations.Sample.environment Generations.Sample.generation
      Generations.Sample.commit none).Meets (fun _ => .pass) Sample.filled _ _ _ :=
    activation_simulated begins rfl rfl (Sample.compares none rfl) rfl
      (by simp [Commit.Sized, Generations.Sample.commit]) steady
  obtain ⟨after, returned⟩ : ∃ after, endActivation Generations.Sample.environment
      Generations.Sample.generation Generations.Sample.commit none (fun _ => .pass) Sample.filled =
        .ok ([generationName 1], true) after := ⟨_, rfl⟩
  rw [Program.Meets, returned] at simulated
  obtain ⟨event, next, run, represents, rfl⟩ := simulated
  obtain ⟨-, _, moves, rest⟩ := run.through
  obtain rfl := rest.of_nil rfl
  cases moves
  exact ⟨after, returned, represents⟩

end Root

end NixSeal.Runtime.Contents
