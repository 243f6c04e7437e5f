import NixSeal.Cache.Prepare

/-!
# Storing objects and bundles

The two writing operations.  Both stage their entry under a transaction name and publish it with
one rename, so that a killed process leaves either the old contents or the new ones.
-/

namespace NixSeal.Cache

open Faulty Faulty.Program Ordered

/-- The process is not killed between the two links of an object. -/
def SparedLink (env : Environment) (verdict : Step → Verdict) : Prop :=
  env.atomicPersist = true ∨ ∀ progress, verdict .unlinkTemporary ≠ .kill progress

/-- The process is not killed while a staged bundle is not yet private. -/
def SparedStaging (env : Environment) (verdict : Step → Verdict) : Prop :=
  (env.created 0o777).isPrivate ∨ ∀ progress, verdict .protectStaged ≠ .kill progress

namespace Contents

/-- Storing an object under its digest, unless one is there. -/
def put (env : Environment) (contents : Contents) (bytes : Bytes) : Contents :=
  match contents.objects[env.digest bytes]? with
  | some _ => contents
  | none => { contents with objects := contents.objects.insert (env.digest bytes) bytes }

/-- Why storing a bundle is refused. -/
def refusal (contents : Contents) (key : String) (bundle : Bundle) : Option CacheError :=
  if isDigest key = false then some .invalidAddress
  else if bundle.envelope.length > maxEnvelopeBytes then some .limit
  else if (contents.artifacts[key]?).isSome then some .artifactExists
  else if bundle.ciphertext.length > maxCiphertextBytes then some .limit
  else none

theorem refusal_of_malformed {contents : Contents} {key : String} {bundle : Bundle}
    (malformed : ¬isDigest key = true) : contents.refusal key bundle = some .invalidAddress := by
  rw [refusal, if_pos (by simpa using malformed)]

theorem refusal_of_long_envelope {contents : Contents} {key : String} {bundle : Bundle}
    (digest : isDigest key = true) (long : ¬bundle.envelope.length ≤ maxEnvelopeBytes) :
    contents.refusal key bundle = some .limit := by
  rw [refusal, if_neg (by simp [digest]), if_pos (by omega)]

theorem refusal_of_stored {contents : Contents} {key : String} {bundle : Bundle}
    (digest : isDigest key = true) (fits : bundle.envelope.length ≤ maxEnvelopeBytes)
    (stored : (contents.artifacts[key]?).isSome = true) :
    contents.refusal key bundle = some .artifactExists := by
  rw [refusal, if_neg (by simp [digest]), if_neg (by omega), if_pos stored]

theorem refusal_of_long_ciphertext {contents : Contents} {key : String} {bundle : Bundle}
    (digest : isDigest key = true) (fits : bundle.envelope.length ≤ maxEnvelopeBytes)
    (missing : contents.artifacts[key]? = none)
    (long : ¬bundle.ciphertext.length ≤ maxCiphertextBytes) :
    contents.refusal key bundle = some .limit := by
  rw [refusal, if_neg (by simp [digest]), if_neg (by omega), missing, if_neg (by simp),
    if_pos (by omega)]

theorem refusal_eq_none {contents : Contents} {key : String} {bundle : Bundle}
    (digest : isDigest key = true) (fits : bundle.envelope.length ≤ maxEnvelopeBytes)
    (missing : contents.artifacts[key]? = none)
    (short : bundle.ciphertext.length ≤ maxCiphertextBytes) :
    contents.refusal key bundle = none := by
  rw [refusal, if_neg (by simp [digest]), if_neg (by omega), missing, if_neg (by simp),
    if_neg (by omega)]

/-- Storing a bundle under a key, unless one is there. -/
def putArtifact (contents : Contents) (key : String) (bundle : Bundle) : Contents :=
  match contents.artifacts[key]? with
  | some _ => contents
  | none => { contents with artifacts := contents.artifacts.insert key bundle }

end Contents

variable {env : Environment} {verdict : Step → Verdict} {settled tidy : Bool} {root : Root}
  {contents : Contents} {raises : CacheError → Root → Prop} {stops : Root → Prop}

/-- The name of a new transaction entry is a transaction, and it is not there yet. -/
theorem temporaryName_spec (env : Environment) {α : Type} (entries : Folder α) :
    IsTransaction (env.temporaryName entries.keys) ∧
      entries.lookup (env.temporaryName entries.keys) = none := by
  refine ⟨⟨_, rfl⟩, ?_⟩
  rw [AList.lookup_eq_none, AList.mem_keys]
  exact env.temporary_fresh entries.keys

theorem text_ne_temporaryName (env : Environment) {text : String} (digest : isDigest text = true)
    (names : List FileName) : FileName.text text ≠ env.temporaryName names :=
  text_ne_transaction (isHexDigest_of_isDigest digest) _

section Objects

variable {map : Std.TreeMap String Bytes compare}

theorem removable_created (bytes : Bytes) :
    Removable env (.file (env.created 0o600) bytes : Leaf) :=
  ⟨⟨isPrivate_created env, fun _ => rfl⟩, rfl⟩

/-- A file the crate has made private and written. -/
def privateFile (env : Environment) (bytes : Bytes) : Leaf := .file ⟨env.user, 0o600, 1⟩ bytes

theorem isFile_private (bytes : Bytes) : IsFile env true bytes (privateFile env bytes) :=
  ⟨_, rfl, ⟨Status.isPrivate_iff.mpr (show (0o600 : Nat) % 64 = 0 from rfl), fun _ => rfl⟩, rfl⟩

theorem removable_of_isFile {bytes : Bytes} {node : Leaf} (file : IsFile env true bytes node) :
    Removable env node := by
  obtain ⟨status, rfl, admissible, links⟩ := file
  exact ⟨admissible, links⟩

/-- The entries after a staged entry is published under another name. -/
def Published {α : Type} (entries left : Folder α) (temporary destination : FileName) (node : α) :
    Prop :=
  ∀ name, left.lookup name =
    if name = destination then some node
    else if name = temporary then none else entries.lookup name

theorem published_rename {α : Type} (entries : Folder α) (temporary destination : FileName)
    (staged node : α) :
    Published entries (((entries.insert temporary staged).erase temporary).insert destination node)
      temporary destination node := by
  intro name
  simp only [lookup_insert_eq, lookup_erase_eq]
  grind

/-- Publishing the temporary file of an object. -/
theorem persistNoclobber_meets (steady : Steady verdict) (spared : SparedLink env verdict)
    {status : Status} {entries : Folder Leaf} {temporary destination : FileName} {bytes : Bytes}
    {returns : Unit → Root → Prop} (different : destination ≠ temporary)
    (free : entries.lookup destination = none)
    (onReturn : ∀ left : Folder Leaf,
      Published entries left temporary destination (privateFile env bytes) →
        returns () (Area.objects.fill status left root))
    (onStop : stops (Area.objects.fill status
      (entries.insert temporary (privateFile env bytes)) root)) :
    (persistNoclobber env temporary destination).Meets verdict
      (Area.objects.fill status (entries.insert temporary (privateFile env bytes)) root)
      returns raises stops := by
  unfold persistNoclobber
  apply Meets.bind
  apply Meets.read
  apply Meets.bind
  rw [Area.entryMetadata_insert_other Area.objects status _ root different free]
  refine Meets.require (fun _ => ?_) (fun refused => absurd rfl refused)
  apply Meets.bind
  apply Meets.read
  have staged : child (Area.objects.fill status (entries.insert temporary
      (privateFile env bytes)) root).objects temporary = .ok (privateFile env bytes) :=
    Area.child_insert_self Area.objects status entries temporary _ root
  rw [staged]
  simp only
  by_cases atomic : env.atomicPersist = true
  · rw [if_pos atomic]
    refine steady.step ?_ fun _ _ => onStop
    rw [Area.change_fill]
    exact onReturn _ (published_rename entries temporary destination _ _)
  · rw [if_neg atomic]
    have linked := spared.resolve_left atomic
    apply Meets.bind
    refine steady.step ?_ fun _ _ => onStop
    rw [Area.change_fill]
    apply Meets.bind
    apply Meets.attempt
    refine steady.step ?_ fun progress killed => absurd killed (linked progress)
    apply Meets.pure
    rw [Area.change_fill]
    refine onReturn _ fun name => ?_
    simp only [lookup_insert_eq, lookup_erase_eq]
    grind

theorem Stored.publish {β γ : Type} {holds : γ → Node β → Prop} {entries left : Folder (Node β)}
    {leftover : FileName → Node β → Prop} {map : Std.TreeMap String γ compare}
    (stored : Stored entries holds leftover map) {temporary : FileName} {key : String} {value : γ}
    {node : Node β} (free : entries.lookup temporary = none) (held : holds value node)
    (published : Published entries left temporary (.text key) node) :
    Stored left holds leftover (map.insert key value) := by
  refine stored.insert held fun name => ?_
  rw [published name]
  grind

theorem storeObject_meets (steady : Steady verdict) (spared : SparedLink env verdict)
    {status : Status} {entries : Folder Leaf} {bytes : Bytes} {returns : Unit → Root → Prop}
    (stored : Stored entries (IsFile env true) (Leftover env settled) map)
    (digests : ∀ (key : String) (value : Bytes), map[key]? = some value → isDigest key = true)
    (missing : map[env.digest bytes]? = none)
    (onReturn : ∀ left : Folder Leaf, Stored left (IsFile env true) (Leftover env settled)
      (map.insert (env.digest bytes) bytes) → returns () (Area.objects.fill status left root))
    (onStop : ∀ left : Folder Leaf, Stored left (IsFile env true) (Leftover env false) map ∨
      Stored left (IsFile env true) (Leftover env false) (map.insert (env.digest bytes) bytes) →
        stops (Area.objects.fill status left root)) :
    (storeObject env (.text (env.digest bytes)) bytes).Meets verdict
      (Area.objects.fill status entries root) returns raises stops := by
  have digest := env.isDigest_digest bytes
  obtain ⟨transaction, fresh⟩ := temporaryName_spec env entries
  have different := text_ne_temporaryName env digest entries.keys
  have free := stored.lookup_of_none (isHexDigest_of_isDigest digest) missing
  have stopStaged : ∀ node : Leaf, Removable env node → stops (Area.objects.fill status
      (entries.insert (env.temporaryName entries.keys) node) root) := by
    intro node removable
    refine onStop _ (.inl (stored.transact digests transaction (fun other elsewhere => ?_) ?_))
    · rw [lookup_insert_eq, if_neg elsewhere]
    · intro found inside
      rw [lookup_insert_eq, if_pos rfl, Option.some.injEq] at inside
      rwa [← inside]
  unfold storeObject
  apply Meets.bind
  apply Meets.read
  rw [Area.names_fill]
  apply Meets.bind
  refine steady.step ?_ fun _ _ => onStop _ (.inl stored.unsettle)
  rw [Area.change_fill]
  apply Meets.bind
  refine Meets.onError (fun _ _ => False) ?_ fun _ _ impossible => impossible.elim
  apply Meets.bind
  apply Meets.read
  rw [Area.entryMetadata_insert_self]
  apply Meets.bind
  refine setPrivatePermissions_meets steady rfl rfl (.inr rfl) ?_
    fun _ _ => stopStaged _ (removable_created [])
  rw [Area.changeEntry_fill]
  apply Meets.bind
  refine steady.write ?_ fun progress _ => ?_
  · rw [Area.changeEntry_fill]
    have stopWritten := stopStaged _ (removable_of_isFile (isFile_private bytes))
    apply Meets.bind
    refine steady.sync ?_ stopWritten
    refine persistNoclobber_meets steady spared different free (fun left published => ?_)
      stopWritten
    have final := stored.publish fresh (isFile_private bytes) published
    exact steady.sync (onReturn left final) (onStop left (.inr final.unsettle))
  · rw [Area.changeEntry_fill]
    exact stopStaged _ (removable_of_isFile (isFile_private (bytes.take progress)))

/-- Storing an object within the size limit. -/
theorem putUnlocked_meets (steady : Steady verdict) (spared : SparedLink env verdict)
    (holds : Holds env settled tidy root contents) {bytes : Bytes}
    {returns : String → Root → Prop}
    (onReturn : bytes.length ≤ maxCiphertextBytes → ∀ after,
      Holds env settled tidy after (contents.put env bytes) → returns (env.digest bytes) after)
    (onRaise : ¬bytes.length ≤ maxCiphertextBytes → raises .limit root)
    (onStop : ∀ after, Holds env false false after contents ∨
      Holds env false false after (contents.put env bytes) → stops after) :
    (putUnlocked env bytes).Meets verdict root returns raises stops := by
  unfold putUnlocked
  apply Meets.bind
  refine Meets.require (fun fits => ?_) onRaise
  apply Meets.bind
  refine ensurePrivateDirectory_meets steady holds.objects (fun status entries owner restricted
    stored => ?_) (fun path stores => ?_)
  · have filled : Area.objects.Stores env (IsFile env true) settled tidy
        (Area.objects.fill status entries root) contents.objects :=
      Area.Stores.fill owner (fun _ => restricted) stored
    have prepared : Holds env settled tidy (Area.objects.fill status entries root) contents :=
      holds.set_objects holds.valid filled holds.artifacts
    apply Meets.bind
    apply Meets.read
    have digest := env.isDigest_digest bytes
    cases known : contents.objects[env.digest bytes]? with
    | some found =>
        have unchanged : contents.put env bytes = contents := by rw [Contents.put, known]
        obtain ⟨⟨node, present, _⟩, _⟩ := prepared.shows.hasObject known
        rw [present]
        apply Meets.bind
        apply Meets.read
        rw [get_eq_ok_iff_hasObject.mpr (prepared.shows.hasObject known)]
        apply Meets.bind
        apply Meets.pure
        exact Meets.pure (onReturn fits _ (by rwa [unchanged]))
    | none =>
        have stored_eq : contents.put env bytes =
            { contents with objects := contents.objects.insert (env.digest bytes) bytes } := by
          rw [Contents.put, known]
        have valid : Contents.Valid env (contents.put env bytes) := by
          rw [stored_eq]
          refine ⟨fun other found mapped => ?_, holds.valid.artifact⟩
          rw [getElem?_insert_eq] at mapped
          by_cases same : env.digest bytes = other
          · rw [if_pos same, Option.some.injEq] at mapped
            rw [← mapped]
            exact ⟨same, fits⟩
          · rw [if_neg same] at mapped
            exact holds.valid.object other found mapped
        rw [stored_eq] at valid onReturn onStop
        rw [prepared.shows.objectFile_missing (isHexDigest_of_isDigest digest) known]
        apply Meets.bind
        refine storeObject_meets steady spared stored holds.valid.isDigest_object known
          (fun left final => ?_) fun left either => ?_
        · exact Meets.pure (onReturn fits _ (holds.set_objects valid
            (Area.Stores.fill owner (fun _ => restricted) final) holds.artifacts))
        · refine onStop _ (either.imp (fun kept => ?_) fun final => ?_)
          · exact holds.set_objects holds.valid (Area.Stores.fill owner (by simp) kept)
              holds.artifacts.unsettle
          · exact holds.set_objects valid (Area.Stores.fill owner (by simp) final)
              holds.artifacts.unsettle
  · exact onStop _ (.inl (holds.set_objects holds.valid stores.unsettle holds.artifacts.unsettle))

/-- Taking the lock of a cache. -/
theorem Holds.lock_meets (steady : Steady verdict) (holds : Holds env settled tidy root contents)
    {returns : Unit → Root → Prop}
    (onReturn : ∀ after, Holds env settled tidy after contents → after.objects = root.objects →
      after.artifacts = root.artifacts → returns () after)
    (onStop : ∀ after, Holds env settled tidy after contents → stops after) :
    (lock env).Meets verdict root returns raises stops :=
  Cache.lock_meets steady holds.lockable
    (fun _ lockable => onReturn _ (holds.set_lock lockable) rfl rfl)
    fun _ lockable => onStop _ (holds.set_lock lockable)

/-- `put` stores an object under its digest; a kill leaves the contents of before or of after. -/
theorem put_meets (steady : Steady verdict) (spared : SparedLink env verdict)
    (holds : Holds env settled tidy root contents) {bytes : Bytes}
    {returns : String → Root → Prop}
    (onReturn : bytes.length ≤ maxCiphertextBytes → ∀ after,
      Holds env settled tidy after (contents.put env bytes) → returns (env.digest bytes) after)
    (onRaise : ¬bytes.length ≤ maxCiphertextBytes → ∀ after,
      Holds env settled tidy after contents → raises .limit after)
    (onStop : ∀ after, Holds env false false after contents ∨
      Holds env false false after (contents.put env bytes) → stops after) :
    (put env bytes).Meets verdict root returns raises stops := by
  unfold put
  apply Meets.bind
  refine holds.lock_meets steady (fun after locked _ _ => ?_)
    fun after locked => onStop after (.inl locked.unsettle)
  exact putUnlocked_meets steady spared locked onReturn (fun long => onRaise long after locked)
    onStop

end Objects

section Bundles

variable {status inner : Status} {entries : Folder (Node Leaf)} {files : Folder Leaf}
  {staged : FileName} {returns : Unit → Root → Prop}

/-- A root with a staged bundle. -/
def stagedRoot (root : Root) (status inner : Status) (entries : Folder (Node Leaf))
    (staged : FileName) (files : Folder Leaf) : Root :=
  Area.artifacts.fill status (entries.insert staged (.directory inner files)) root

theorem changeEntry_stagedRoot (edit : Folder Leaf → Folder Leaf) :
    Area.artifacts.changeEntry staged (Node.mapEntries edit)
        (stagedRoot root status inner entries staged files) =
      stagedRoot root status inner entries staged (edit files) :=
  Area.changeEntry_fill status entries staged _ _

theorem child_stagedRoot :
    child (stagedRoot root status inner entries staged files).artifacts staged =
      .ok (.directory inner files) :=
  Area.child_insert_self Area.artifacts status entries staged _ root

theorem createPrivateFile_meets (steady : Steady verdict) {file : BundleFile}
    (free : files.lookup file.name = none)
    (onReturn : returns () (stagedRoot root status inner entries staged
      (files.insert file.name (privateFile env []))))
    (onStop : ∀ files, stops (stagedRoot root status inner entries staged files)) :
    (createPrivateFile env staged file).Meets verdict
      (stagedRoot root status inner entries staged files) returns raises stops := by
  unfold createPrivateFile
  apply Meets.bind
  apply Meets.read
  rw [child_stagedRoot]
  apply Meets.bind
  have absent : (child (some (Node.directory inner files)) file.name).isOk = false := by
    simp only [child, Node.entries, free, orNotFound]
    rfl
  refine Meets.require (fun _ => ?_) (fun refused => absurd absent refused)
  apply Meets.bind
  refine steady.step ?_ fun _ _ => onStop files
  rw [changeEntry_stagedRoot]
  refine steady.step ?_ fun _ _ => onStop _
  rw [changeEntry_stagedRoot, modify_insert]
  exact onReturn

theorem writeBundleFile_meets (steady : Steady verdict) {file : BundleFile} {bytes : Bytes}
    (onReturn : returns () (stagedRoot root status inner entries staged
      (files.insert file.name (privateFile env bytes))))
    (onStop : ∀ files, stops (stagedRoot root status inner entries staged files)) :
    (writeBundleFile staged file bytes).Meets verdict (stagedRoot root status inner entries staged
      (files.insert file.name (privateFile env []))) returns raises stops := by
  unfold writeBundleFile
  refine steady.write ?_ fun progress _ => ?_
  · rw [changeEntry_stagedRoot, modify_insert]
    exact onReturn
  · rw [changeEntry_stagedRoot]
    exact onStop _

/-- The files of a staged bundle that is ready to be published. -/
def bundleFiles (env : Environment) (bundle : Bundle) : Folder Leaf :=
  ((∅ : Folder Leaf).insert BundleFile.ciphertext.name (privateFile env bundle.ciphertext)).insert
    BundleFile.envelope.name (privateFile env bundle.envelope)

theorem isBundle_bundleFiles (bundle : Bundle) (admissible : inner.Admissible env true) :
    IsBundle env true bundle (.directory inner (bundleFiles env bundle)) := by
  have different : (FileName.text ciphertextName) ≠ .text envelopeName := by decide
  refine ⟨inner, _, privateFile env bundle.ciphertext, privateFile env bundle.envelope, rfl,
    admissible, fun name => ?_, ?_, isFile_private _, ?_, isFile_private _⟩
  · simp only [bundleFiles, BundleFile.name, AList.mem_insert, AList.notMem_empty, or_false]
    exact or_comm
  · rw [bundleFiles, BundleFile.name, BundleFile.name, lookup_insert_eq, if_neg different,
      AList.lookup_insert]
  · rw [bundleFiles, BundleFile.name, BundleFile.name, AList.lookup_insert]

/-- Filling a staged bundle and publishing it. -/
theorem stageBundle_meets (steady : Steady verdict) (spared : SparedStaging env verdict)
    {destination : FileName} {bundle : Bundle} (different : destination ≠ staged)
    (free : entries.lookup destination = none)
    (onReturn : bundle.ciphertext.length ≤ maxCiphertextBytes → ∀ left node,
      IsBundle env true bundle node → Published entries left staged destination node →
        returns () (Area.artifacts.fill status left root))
    (onRaise : ¬bundle.ciphertext.length ≤ maxCiphertextBytes → ∀ inner files,
      inner.Admissible env true →
        raises .limit (stagedRoot root status inner entries staged files))
    (onStop : ∀ node, Removable env node →
      stops (Area.artifacts.fill status (entries.insert staged node) root)) :
    (stageBundle env staged destination bundle.ciphertext bundle.envelope).Meets verdict
      (stagedRoot root status (env.created 0o777) entries staged ∅) returns raises stops := by
  have admissible : (⟨env.user, 0o700, 1⟩ : Status).Admissible env true :=
    ⟨Status.isPrivate_iff.mpr (show (0o700 : Nat) % 64 = 0 from rfl), fun _ => rfl⟩
  have stopStaged : ∀ files, stops (stagedRoot root status ⟨env.user, 0o700, 1⟩ entries staged
      files) := fun files => onStop _ admissible
  have distinct : BundleFile.envelope.name ≠ BundleFile.ciphertext.name := by decide
  unfold stageBundle
  apply Meets.bind
  apply Meets.read
  have metadata : Area.artifacts.entryMetadata staged
      (stagedRoot root status (env.created 0o777) entries staged ∅) =
        some (Node.directory (env.created 0o777) (∅ : Folder Leaf)).metadata :=
    Area.entryMetadata_insert_self Area.artifacts status entries staged _ root
  rw [metadata]
  apply Meets.bind
  refine setPrivatePermissions_meets steady rfl rfl (.inl rfl) ?_ fun progress killed => ?_
  · have protectedRoot : Area.artifacts.changeEntry staged (Node.withMode 0o700)
        (stagedRoot root status (env.created 0o777) entries staged ∅) =
          stagedRoot root status ⟨env.user, 0o700, 1⟩ entries staged ∅ :=
      Area.changeEntry_fill status entries staged _ _
    rw [protectedRoot]
    apply Meets.bind
    refine createPrivateFile_meets steady (AList.lookup_empty _) ?_ stopStaged
    apply Meets.bind
    refine writeBundleFile_meets steady ?_ stopStaged
    apply Meets.bind
    refine Meets.require (fun fits => ?_) fun long => onRaise long _ _ admissible
    rw [List.take_of_length_le fits]
    apply Meets.bind
    refine steady.sync ?_ (stopStaged _)
    apply Meets.bind
    refine createPrivateFile_meets steady ?_ ?_ stopStaged
    · rw [lookup_insert_eq, if_neg distinct]
      exact AList.lookup_empty _
    apply Meets.bind
    refine writeBundleFile_meets steady ?_ stopStaged
    apply Meets.bind
    refine steady.sync ?_ (stopStaged _)
    apply Meets.bind
    refine steady.sync ?_ (stopStaged _)
    unfold renameNoreplace
    apply Meets.bind
    apply Meets.read
    rw [child_stagedRoot]
    apply Meets.bind
    apply Meets.read
    have unpublished : ∀ files, Area.artifacts.entryMetadata destination
        (stagedRoot root status ⟨env.user, 0o700, 1⟩ entries staged files) = none :=
      fun files => Area.entryMetadata_insert_other Area.artifacts status _ root different free
    rw [unpublished]
    apply Meets.bind
    refine Meets.require (fun _ => ?_) (fun refused => absurd rfl refused)
    refine steady.step ?_ fun _ _ => stopStaged _
    rw [stagedRoot, Area.change_fill]
    exact onReturn fits _ _ (isBundle_bundleFiles bundle admissible)
      (published_rename entries staged destination _ _)
  · have restricted := spared.resolve_right fun never => never progress killed
    exact onStop _ ⟨restricted, fun _ => rfl⟩

theorem bundleExists_iff (holds : Holds env settled tidy root contents) {key : String}
    (digest : isDigest key = true) :
    bundleExists root key = (contents.artifacts[key]?).isSome := by
  unfold bundleExists
  cases stored : contents.artifacts[key]? with
  | none => rw [holds.shows.bundleDirectory_missing digest stored]; rfl
  | some bundle =>
      obtain ⟨_, ⟨node, found, inner, entries, _, _, rfl, _⟩, _⟩ := holds.shows.hasBundle stored
      rw [found]
      rfl

theorem Contents.valid_putArtifact (valid : contents.Valid env) {key : String} {bundle : Bundle}
    (accepted : contents.refusal key bundle = none) :
    Contents.Valid env { contents with artifacts := contents.artifacts.insert key bundle } := by
  unfold Contents.refusal at accepted
  refine ⟨valid.object, fun other found mapped => ?_⟩
  rw [getElem?_insert_eq] at mapped
  by_cases same : key = other
  · rw [if_pos same, Option.some.injEq] at mapped
    subst mapped same
    grind
  · rw [if_neg same] at mapped
    exact valid.artifact other found mapped

/-- Storing a bundle: it is refused and nothing changes, or it is added. -/
theorem putArtifactByKeyUnlocked_meets (steady : Steady verdict) (spared : SparedStaging env verdict)
    (holds : Holds env settled tidy root contents) {key : String} {bundle : Bundle}
    {returns : ArtifactRecord → Root → Prop}
    (onReturn : contents.refusal key bundle = none → ∀ after,
      Holds env settled tidy after (contents.putArtifact key bundle) →
        returns (Contents.record env key bundle) after)
    (onRaise : ∀ error, contents.refusal key bundle = some error → ∀ after,
      Holds env settled tidy after contents → raises error after)
    (onStop : ∀ after, Holds env false false after contents ∨
      contents.refusal key bundle = none ∧
        Holds env false false after (contents.putArtifact key bundle) → stops after) :
    (putArtifactByKeyUnlocked env key bundle.ciphertext bundle.envelope).Meets verdict root returns
      raises stops := by
  unfold putArtifactByKeyUnlocked
  apply Meets.bind
  refine Meets.require (fun digest => ?_)
    fun malformed => onRaise _ (Contents.refusal_of_malformed malformed) root holds
  apply Meets.bind
  refine Meets.require (fun fits => ?_)
    fun long => onRaise _ (Contents.refusal_of_long_envelope digest long) root holds
  apply Meets.bind
  refine ensurePrivateDirectory_meets steady holds.artifacts (fun status entries owner restricted
    stored => ?_) (fun path stores => ?_)
  · have filled : Area.artifacts.Stores env (IsBundle env true) settled tidy
        (Area.artifacts.fill status entries root) contents.artifacts :=
      Area.Stores.fill owner (fun _ => restricted) stored
    have prepared : Holds env settled tidy (Area.artifacts.fill status entries root) contents :=
      holds.set_artifacts holds.valid filled holds.objects
    apply Meets.bind
    apply Meets.read
    rw [bundleExists_iff prepared digest]
    apply Meets.bind
    refine Meets.require (fun absent => ?_) fun present => ?_
    · have missing : contents.artifacts[key]? = none :=
        Option.isNone_iff_eq_none.mp (by rw [← Option.not_isSome, absent, Bool.not_false])
      obtain ⟨transaction, fresh⟩ := temporaryName_spec env entries
      have different := text_ne_temporaryName env digest entries.keys
      have free := stored.lookup_of_none (isHexDigest_of_isDigest digest) missing
      have keep : ∀ left : Folder (Node Leaf),
          Stored left (IsBundle env true) (Leftover env false) contents.artifacts →
            stops (Area.artifacts.fill status left root) :=
        fun left kept => onStop _ (.inl (holds.set_artifacts holds.valid
          (Area.Stores.fill owner (by simp) kept) holds.objects.unsettle))
      have stopStaged : ∀ node : Node Leaf, Removable env node →
          stops (Area.artifacts.fill status
            (entries.insert (env.temporaryName entries.keys) node) root) := by
        intro node removable
        refine keep _ (stored.transact holds.valid.isDigest_artifact transaction
          (fun other elsewhere => ?_) ?_)
        · rw [lookup_insert_eq, if_neg elsewhere]
        · intro found inside
          rw [lookup_insert_eq, if_pos rfl, Option.some.injEq] at inside
          rwa [← inside]
      apply Meets.bind
      apply Meets.read
      rw [Area.names_fill]
      apply Meets.bind
      refine steady.step ?_ fun _ _ => keep entries stored.unsettle
      rw [Area.change_fill]
      apply Meets.bind
      refine Meets.onError (fun error after => contents.refusal key bundle = some error ∧
        ∃ inner files, inner.Admissible env true ∧
          after = stagedRoot root status inner entries (env.temporaryName entries.keys) files)
        (stageBundle_meets steady spared different free (fun short left node held published => ?_)
          (fun long inner files admissible => ?_) stopStaged) ?_
      · have accepted := Contents.refusal_eq_none digest fits missing short
        have added : contents.putArtifact key bundle =
            { contents with artifacts := contents.artifacts.insert key bundle } := by
          rw [Contents.putArtifact, missing]
        have final := stored.publish fresh held published
        have valid := Contents.valid_putArtifact holds.valid accepted
        rw [added] at onReturn onStop
        apply Meets.bind
        refine steady.sync ?_ ?_
        · apply Meets.pure
          exact onReturn accepted _ (holds.set_artifacts valid
            (Area.Stores.fill owner (fun _ => restricted) final) holds.objects)
        · exact onStop _ (.inr ⟨accepted, holds.set_artifacts valid
            (Area.Stores.fill owner (by simp) final.unsettle) holds.objects.unsettle⟩)
      · exact ⟨Contents.refusal_of_long_ciphertext digest fits missing long, inner, files,
          admissible, rfl⟩
      · rintro error _ ⟨refused, inner, files, admissible, rfl⟩
        have here : (entries.insert (env.temporaryName entries.keys)
            (Node.directory inner files)).lookup (env.temporaryName entries.keys) =
              some (.directory inner files) := by
          rw [lookup_insert_eq, if_pos rfl]
        refine removeDirAll_meets steady here (fun left lookups => ?_) fun left rest lookups => ?_
        · refine onRaise error refused _ (holds.set_artifacts holds.valid (Area.Stores.fill owner
            (fun _ => restricted) (stored.congr fun name => ?_)) holds.objects)
          rw [lookups, lookup_insert_eq]
          grind
        · refine keep left (stored.transact holds.valid.isDigest_artifact transaction
            (fun other elsewhere => ?_) fun found inside => ?_)
          · rw [lookups, if_neg elsewhere, lookup_insert_eq, if_neg elsewhere]
          · rw [lookups, if_pos rfl, Option.some.injEq] at inside
            rw [← inside]
            exact admissible
    · exact onRaise _ (Contents.refusal_of_stored digest fits (by simpa using present))
        _ prepared
  · exact onStop _ (.inl (holds.set_artifacts holds.valid stores.unsettle holds.objects.unsettle))

/-- The same while taking the lock. -/
theorem putArtifactByKey_meets (steady : Steady verdict) (spared : SparedStaging env verdict)
    (holds : Holds env settled tidy root contents) {key : String} {bundle : Bundle}
    {returns : ArtifactRecord → Root → Prop}
    (onReturn : contents.refusal key bundle = none → ∀ after,
      Holds env settled tidy after (contents.putArtifact key bundle) →
        returns (Contents.record env key bundle) after)
    (onRaise : ∀ error, contents.refusal key bundle = some error → ∀ after,
      Holds env settled tidy after contents → raises error after)
    (onStop : ∀ after, Holds env false false after contents ∨
      contents.refusal key bundle = none ∧
        Holds env false false after (contents.putArtifact key bundle) → stops after) :
    (putArtifactByKey env key bundle.ciphertext bundle.envelope).Meets verdict root returns
      raises stops := by
  unfold putArtifactByKey
  apply Meets.bind
  refine holds.lock_meets steady (fun after locked _ _ => ?_)
    fun after locked => onStop after (.inl locked.unsettle)
  exact putArtifactByKeyUnlocked_meets steady spared locked onReturn onRaise onStop

end Bundles

end NixSeal.Cache
