import NixSeal.Cache.Commit
import NixSeal.Cache.Totals

/-!
# Collecting garbage

A collection goes through the objects and then through the bundles, counts what it finds, and
removes what is not retained when it is told to execute.  An object goes away with one unlink; a
bundle takes three steps, and a process killed after the first of them leaves a bundle that no
later reader accepts.
-/

namespace NixSeal.Cache

open Faulty Faulty.Program Fallible Ordered

/-- A retained object or bundle. -/
def GcRequest.keepsObject (request : GcRequest) (digest : String) : Bool :=
  request.retainedObjects.contains digest

def GcRequest.keepsArtifact (request : GcRequest) (key : String) : Bool :=
  request.retainedArtifacts.contains key

/-- Every retained address is a digest. -/
def GcRequest.WellFormed (request : GcRequest) : Prop :=
  (request.retainedArtifacts.all isDigest && request.retainedObjects.all isDigest) = true

/-- The counters fit into their machine words. -/
structure GcReport.Fits (report : GcReport) : Prop where
  retainedArtifacts : report.retainedArtifacts < 2 ^ 64
  retainedObjects : report.retainedObjects < 2 ^ 64
  candidateArtifacts : report.candidateArtifacts < 2 ^ 64
  candidateObjects : report.candidateObjects < 2 ^ 64
  candidateBytes : report.candidateBytes < 2 ^ 64

theorem GcReport.fits_zero (executed : Bool) : ({ executed := executed } : GcReport).Fits := by
  constructor <;> exact Nat.two_pow_pos 64

/-- The process is not killed inside the removal of a bundle. -/
structure SparedRemoval (verdict : Step → Verdict) : Prop where
  envelope : ∀ key progress, verdict (.removeEnvelope key) ≠ .kill progress
  bundle : ∀ key progress, verdict (.removeBundle key) ≠ .kill progress

/-- Counting an object, and counting a bundle. -/
def GcReport.countObject (report : GcReport) (request : GcRequest) (digest : String)
    (length : Nat) : GcReport :=
  if request.keepsObject digest then { report with retainedObjects := report.retainedObjects + 1 }
  else { report with
    candidateObjects := report.candidateObjects + 1
    candidateBytes := report.candidateBytes + length }

def GcReport.countArtifact (report : GcReport) (request : GcRequest) (key : String)
    (length : Nat) : GcReport :=
  if request.keepsArtifact key then { report with retainedArtifacts := report.retainedArtifacts + 1 }
  else { report with
    candidateArtifacts := report.candidateArtifacts + 1
    candidateBytes := report.candidateBytes + length }

/-- The bytes of a bundle. -/
def Bundle.size (bundle : Bundle) : Nat := bundle.ciphertext.length + bundle.envelope.length

namespace Contents

/-- Removing an object unless it is retained. -/
def dropObject (request : GcRequest) (contents : Contents) (digest : String) : Contents :=
  if request.execute && !request.keepsObject digest then
    { contents with objects := contents.objects.erase digest }
  else contents

/-- Removing a bundle unless it is retained. -/
def dropArtifact (request : GcRequest) (contents : Contents) (key : String) : Contents :=
  if request.execute && !request.keepsArtifact key then
    { contents with artifacts := contents.artifacts.erase key }
  else contents

/-- The contents after a collection went through some objects and bundles. -/
def sweep (contents : Contents) (request : GcRequest) (digests keys : List String) : Contents :=
  keys.foldl (dropArtifact request) (digests.foldl (dropObject request) contents)

/-- The report of a collection that went through some objects and bundles. -/
def collected (contents : Contents) (request : GcRequest) (digests keys : List String) :
    GcReport where
  executed := request.execute
  retainedArtifacts := keys.countP request.keepsArtifact
  retainedObjects := digests.countP request.keepsObject
  candidateArtifacts := keys.countP fun key => !request.keepsArtifact key
  candidateObjects := digests.countP fun digest => !request.keepsObject digest
  candidateBytes :=
    ((digests.filter fun digest => !request.keepsObject digest).map
        (weigh contents.objects List.length)).sum +
      ((keys.filter fun key => !request.keepsArtifact key).map
        (weigh contents.artifacts Bundle.size)).sum

/-- Every entry of the one is an entry of the other. -/
structure Subset (kept contents : Contents) : Prop where
  object : ∀ (digest : String) (bytes : Bytes), kept.objects[digest]? = some bytes →
    contents.objects[digest]? = some bytes
  artifact : ∀ (key : String) (bundle : Bundle), kept.artifacts[key]? = some bundle →
    contents.artifacts[key]? = some bundle

section Sweeping

variable {contents : Contents} {request : GcRequest}

theorem foldl_dropObject_objects (digests : List String) (digest : String) :
    (digests.foldl (dropObject request) contents).objects[digest]? =
      if request.execute = true ∧ digest ∈ digests ∧ request.keepsObject digest = false then none
      else contents.objects[digest]? := by
  induction digests generalizing contents with
  | nil => simp
  | cons first rest ih =>
      rw [List.foldl_cons, ih]
      unfold dropObject
      by_cases removed : (request.execute && !request.keepsObject first) = true
      · rw [if_pos removed, getElem?_erase_eq]
        simp only [Bool.and_eq_true, Bool.not_eq_true'] at removed
        grind
      · rw [if_neg removed]
        simp only [Bool.and_eq_true, Bool.not_eq_true', not_and, Bool.not_eq_false] at removed
        grind

theorem foldl_dropObject_artifacts (digests : List String) :
    (digests.foldl (dropObject request) contents).artifacts = contents.artifacts := by
  induction digests generalizing contents with
  | nil => rfl
  | cons first rest ih =>
      rw [List.foldl_cons, ih]
      unfold dropObject
      split
      · rfl
      · rfl

theorem foldl_dropArtifact_artifacts (keys : List String) (key : String) :
    (keys.foldl (dropArtifact request) contents).artifacts[key]? =
      if request.execute = true ∧ key ∈ keys ∧ request.keepsArtifact key = false then none
      else contents.artifacts[key]? := by
  induction keys generalizing contents with
  | nil => simp
  | cons first rest ih =>
      rw [List.foldl_cons, ih]
      unfold dropArtifact
      by_cases removed : (request.execute && !request.keepsArtifact first) = true
      · rw [if_pos removed, getElem?_erase_eq]
        simp only [Bool.and_eq_true, Bool.not_eq_true'] at removed
        grind
      · rw [if_neg removed]
        simp only [Bool.and_eq_true, Bool.not_eq_true', not_and, Bool.not_eq_false] at removed
        grind

theorem foldl_dropArtifact_objects (keys : List String) :
    (keys.foldl (dropArtifact request) contents).objects = contents.objects := by
  induction keys generalizing contents with
  | nil => rfl
  | cons first rest ih =>
      rw [List.foldl_cons, ih]
      unfold dropArtifact
      split
      · rfl
      · rfl

theorem sweep_objects (digests keys : List String) (digest : String) :
    (contents.sweep request digests keys).objects[digest]? =
      if request.execute = true ∧ digest ∈ digests ∧ request.keepsObject digest = false then none
      else contents.objects[digest]? := by
  rw [sweep, foldl_dropArtifact_objects, foldl_dropObject_objects]

theorem sweep_artifacts (digests keys : List String) (key : String) :
    (contents.sweep request digests keys).artifacts[key]? =
      if request.execute = true ∧ key ∈ keys ∧ request.keepsArtifact key = false then none
      else contents.artifacts[key]? := by
  rw [sweep, foldl_dropArtifact_artifacts, foldl_dropObject_artifacts]

theorem sweep_subset (digests keys : List String) :
    (contents.sweep request digests keys).Subset contents := by
  constructor
  · intro digest bytes found
    rw [sweep_objects] at found
    grind
  · intro key bundle found
    rw [sweep_artifacts] at found
    grind

end Sweeping

section Counting

variable {contents : Contents} {request : GcRequest} {digests keys : List String}

theorem collected_snoc_object {digest : String} {bytes : Bytes}
    (stored : contents.objects[digest]? = some bytes) :
    (contents.collected request digests []).countObject request digest bytes.length =
      contents.collected request (digests ++ [digest]) [] := by
  unfold GcReport.countObject collected
  rw [List.countP_append, List.countP_append, List.filter_append, List.map_append, List.sum_append]
  cases kept : request.keepsObject digest with
  | true => simp [kept]
  | false => simp [kept, weigh_of_getElem? stored]

theorem collected_snoc_artifact {key : String} {bundle : Bundle}
    (stored : contents.artifacts[key]? = some bundle) :
    (contents.collected request digests keys).countArtifact request key bundle.size =
      contents.collected request digests (keys ++ [key]) := by
  unfold GcReport.countArtifact collected
  rw [List.countP_append, List.countP_append, List.filter_append (p := fun key =>
    !request.keepsArtifact key), List.map_append, List.sum_append]
  cases kept : request.keepsArtifact key with
  | true => simp [kept]
  | false => simp [kept, weigh_of_getElem? stored, Nat.add_assoc]

theorem total_size : total contents.artifacts Bundle.size =
    contents.ciphertextBytes + contents.envelopeBytes := by
  unfold ciphertextBytes envelopeBytes total
  induction contents.artifacts.toList with
  | nil => rfl
  | cons entry rest ih =>
      simp only [List.map_cons, List.sum_cons, Bundle.size] at ih ⊢
      omega

theorem sum_filter_le {γ : Type} (items : List γ) (keep : γ → Bool) (weight : γ → Nat) :
    ((items.filter keep).map weight).sum ≤ (items.map weight).sum := by
  induction items with
  | nil => simp
  | cons item rest ih =>
      rw [List.filter_cons]
      split
      · simp only [List.map_cons, List.sum_cons]
        omega
      · simp only [List.map_cons, List.sum_cons]
        omega

theorem collected_congr {digests' keys' : List String} (listed : digests.Perm digests')
    (ordered : keys.Perm keys') :
    contents.collected request digests keys = contents.collected request digests' keys' := by
  unfold collected
  rw [listed.countP_eq, listed.countP_eq, ordered.countP_eq, ordered.countP_eq,
    ((listed.filter _).map _).sum_nat, ((ordered.filter _).map _).sum_nat]

/-- No counter overflows when everything is counted. -/
def Tallies (contents : Contents) (request : GcRequest) : Prop :=
  (contents.collected request contents.objects.keys contents.artifacts.keys).Fits

theorem Tallies.fits (countable : contents.Tallies request) {digests' keys' : List String}
    (listed : (digests ++ digests').Perm contents.objects.keys)
    (ordered : (keys ++ keys').Perm contents.artifacts.keys) :
    (contents.collected request digests keys).Fits := by
  rw [Tallies, ← collected_congr listed ordered] at countable
  obtain ⟨first, second, third, fourth, fifth⟩ := countable
  simp only [collected, List.countP_append, List.filter_append, List.map_append,
    List.sum_append] at first second third fourth fifth
  constructor <;> simp only [collected] <;> omega

/-- Within the limits no counter overflows. -/
theorem WithinLimits.tallies (limits : contents.WithinLimits) : contents.Tallies request := by
  have objectCount := length_of_perm_keys (List.Perm.refl contents.objects.keys)
  have artifactCount := length_of_perm_keys (List.Perm.refl contents.artifacts.keys)
  have objectBytes : (contents.objects.keys.map (weigh contents.objects List.length)).sum = _ :=
    sum_weigh (List.Perm.refl _)
  have artifactBytes : (contents.artifacts.keys.map (weigh contents.artifacts Bundle.size)).sum = _ :=
    sum_weigh (List.Perm.refl _)
  rw [total_size] at artifactBytes
  obtain ⟨entries, bytes, _⟩ := limits
  unfold Contents.objectBytes at bytes
  have few : maxTransferEntries < 2 ^ 64 := by decide
  have small : maxTransferBytes < 2 ^ 64 := by decide
  have objects := sum_filter_le contents.objects.keys (fun digest => !request.keepsObject digest)
    (weigh contents.objects List.length)
  have artifacts := sum_filter_le contents.artifacts.keys (fun key => !request.keepsArtifact key)
    (weigh contents.artifacts Bundle.size)
  have kept := List.countP_le_length (p := request.keepsObject) (l := contents.objects.keys)
  have kept' := List.countP_le_length (p := request.keepsArtifact) (l := contents.artifacts.keys)
  have dropped := List.countP_le_length (p := fun digest => !request.keepsObject digest)
    (l := contents.objects.keys)
  have dropped' := List.countP_le_length (p := fun key => !request.keepsArtifact key)
    (l := contents.artifacts.keys)
  constructor <;> simp only [collected] <;> omega

end Counting

end Contents

section Collecting

variable {env : Environment} {verdict : Step → Verdict} {settled tidy : Bool} {root : Root}
  {contents : Contents} {request : GcRequest}

theorem checkedAdd_meets {L : Type} {verdict : L → Verdict} {total additional : Nat} {α : Type}
    {next : Nat → Program L Root CacheError α} {returns : α → Root → Prop}
    {raises : CacheError → Root → Prop} {stops : Root → Prop}
    (onReturn : total + additional < 2 ^ 64 →
      (next (total + additional)).Meets verdict root returns raises stops)
    (onRaise : ¬total + additional < 2 ^ 64 → raises .limit root) :
    (Program.lift (checkedAdd total additional) >>= next).Meets verdict root returns raises
      stops := by
  unfold checkedAdd
  by_cases fits : total + additional < 2 ^ 64
  · rw [if_pos fits]
    exact Meets.lift_ok rfl (onReturn fits)
  · rw [if_neg fits]
    exact Meets.bind (onRaise fits)

theorem Contents.Valid.subset {kept : Contents} (valid : contents.Valid env)
    (subset : kept.Subset contents) : kept.Valid env :=
  ⟨fun digest bytes found => valid.object digest bytes (subset.object digest bytes found),
    fun key bundle found => valid.artifact key bundle (subset.artifact key bundle found)⟩

theorem Holds.erase_object (holds : Holds env settled tidy root contents) {digest : String}
    {bytes : Bytes} (stored : contents.objects[digest]? = some bytes) :
    Holds env settled tidy
      (Area.objects.change (fun entries => entries.erase (.text digest)) root)
      { contents with objects := contents.objects.erase digest } := by
  have valid : Contents.Valid env { contents with objects := contents.objects.erase digest } := by
    refine holds.valid.subset ⟨fun other found inside => ?_, fun _ _ inside => inside⟩
    rw [getElem?_erase_eq] at inside
    grind
  rcases holds.objects with ⟨_, empty⟩ | ⟨status, entries, found, owner, restricted, inside⟩
  · rw [empty] at stored
    cases stored
  · have filled : Area.objects.change (fun entries => entries.erase (.text digest)) root =
        Area.objects.fill status (entries.erase (.text digest)) root := by
      rw [Area.change, found]
      rfl
    rw [filled]
    exact holds.set_objects valid (Area.Stores.fill owner restricted
      (inside.erase fun name => lookup_erase_eq _ _ _)) holds.artifacts

theorem collectObject_meets (steady : Steady verdict)
    (holds : Holds env settled tidy root contents) (report : GcReport) (name : FileName) :
    (collectObject env request report name).Meets verdict root
      (fun next after => ∃ digest bytes, name = .text digest ∧
        contents.objects[digest]? = some bytes ∧
          next = report.countObject request digest bytes.length ∧ (report.Fits → next.Fits) ∧
            Holds env settled tidy after (contents.dropObject request digest))
      (fun _ after => Holds env settled tidy after contents ∧ ∀ (digest : String) (bytes : Bytes),
        name = .text digest → contents.objects[digest]? = some bytes →
          ¬(report.countObject request digest bytes.length).Fits)
      (fun after => Holds env settled tidy after contents) := by
  unfold collectObject
  apply Meets.bind
  apply Meets.lift
  · intro digest named
    obtain ⟨rfl, isDigest⟩ := digestName_eq_ok_iff.mp named
    apply Meets.bind
    apply Meets.read
    cases stored : contents.objects[digest]? with
    | none =>
        rw [holds.shows.objectFile_missing (isHexDigest_of_isDigest isDigest) stored]
        refine Meets.bind (Meets.raise ⟨holds, ?_⟩)
        rintro _ bytes ⟨⟩ found
        rw [stored] at found
        cases found
    | some bytes =>
        obtain ⟨⟨node, found, isFile⟩, small, hashed⟩ := holds.shows.hasObject stored
        have only : ∀ (other : String) (found : Bytes), FileName.text digest = .text other →
            contents.objects[other]? = some found → digest = other ∧ bytes = found := by
          rintro _ found ⟨⟩ known
          rw [stored, Option.some.injEq] at known
          exact ⟨rfl, known⟩
        refine Meets.lift_ok (openPrivateRegular_eq_ok_iff.mpr ⟨node, found, isFile⟩)
          (Meets.lift_ok (readBounded_eq_ok_iff.mpr ⟨rfl, small⟩) ?_)
        apply Meets.bind
        refine Meets.require (fun _ => ?_) fun refused => absurd hashed refused
        have overflow : ∀ {bound : Prop}, ¬bound →
            ((report.countObject request digest bytes.length).Fits → bound) →
              ∀ (other : String) (found : Bytes), FileName.text digest = .text other →
                contents.objects[other]? = some found →
                  ¬(report.countObject request other found.length).Fits := by
          intro bound exceeded needed other found same known
          obtain ⟨rfl, rfl⟩ := only other found same known
          exact fun fits => exceeded (needed fits)
        cases kept : request.keepsObject digest with
        | true =>
            have counted : report.countObject request digest bytes.length =
                { report with retainedObjects := report.retainedObjects + 1 } := by
              rw [GcReport.countObject, if_pos kept]
            have unchanged : contents.dropObject request digest = contents := by
              rw [Contents.dropObject, kept, Bool.not_true, Bool.and_false, if_neg (by simp)]
            rw [if_pos (Std.TreeSet.mem_iff_contains.mpr kept)]
            refine checkedAdd_meets (fun small => ?_) fun exceeded =>
              ⟨holds, overflow exceeded fun fits => by rw [counted] at fits; exact fits.2⟩
            exact Meets.pure ⟨digest, bytes, rfl, stored, counted.symm,
              fun fits => { fits with retainedObjects := small }, by rwa [unchanged]⟩
        | false =>
            have counted : report.countObject request digest bytes.length = { report with
                candidateObjects := report.candidateObjects + 1
                candidateBytes := report.candidateBytes + bytes.length } := by
              rw [GcReport.countObject, if_neg (by simp [kept])]
            have absent : digest ∉ request.retainedObjects := by
              rw [Std.TreeSet.mem_iff_contains]
              exact fun member => by rw [GcRequest.keepsObject, member] at kept; cases kept
            rw [if_neg absent]
            refine checkedAdd_meets (fun few => ?_) fun exceeded =>
              ⟨holds, overflow exceeded fun fits => by rw [counted] at fits; exact fits.4⟩
            refine checkedAdd_meets (fun small => ?_) fun exceeded =>
              ⟨holds, overflow exceeded fun fits => by rw [counted] at fits; exact fits.5⟩
            have stays : report.Fits → GcReport.Fits { report with
                candidateObjects := report.candidateObjects + 1
                candidateBytes := report.candidateBytes + bytes.length } := fun fits =>
              { fits with candidateObjects := few, candidateBytes := small }
            apply Meets.bind
            apply Meets.when
            · intro execute
              have dropped : contents.dropObject request digest =
                  { contents with objects := contents.objects.erase digest } := by
                rw [Contents.dropObject, kept, execute, Bool.not_false, Bool.and_true, if_pos rfl]
              refine steady.step ?_ fun _ _ => holds
              exact Meets.pure ⟨digest, bytes, rfl, stored, counted.symm, stays,
                by rw [dropped]; exact holds.erase_object stored⟩
            · intro skipped
              have unchanged : contents.dropObject request digest = contents := by
                rw [Contents.dropObject, if_neg (by simp [skipped])]
              exact Meets.pure ⟨digest, bytes, rfl, stored, counted.symm, stays, by rwa [unchanged]⟩
  · intro error failed
    refine ⟨holds, ?_⟩
    rintro digest bytes rfl stored
    rw [digestName_eq_ok_iff.mpr ⟨rfl, holds.valid.isDigest_object digest bytes stored⟩] at failed
    cases failed

/-- Removing a bundle, when the process is not killed on the way. -/
theorem removeArtifactBundle_meets (steady : Steady verdict) (spared : SparedRemoval verdict)
    (holds : Holds env settled tidy root contents) {key : String} {bundle : Bundle}
    (stored : contents.artifacts[key]? = some bundle) {returns : Unit → Root → Prop}
    {raises : CacheError → Root → Prop} {stops : Root → Prop}
    (onReturn : ∀ after, Holds env settled tidy after
      { contents with artifacts := contents.artifacts.erase key } → returns () after)
    (onStop : stops root) :
    (removeArtifactBundle env key).Meets verdict root returns raises stops := by
  obtain ⟨_, ⟨node, found, isBundle⟩, _⟩ := holds.shows.hasBundle stored
  obtain ⟨⟨ciphertext, first, isCiphertext⟩, envelope, second, isEnvelope⟩ :=
    bundleFile_of_isBundle found isBundle
  have valid : Contents.Valid env
      { contents with artifacts := contents.artifacts.erase key } := by
    refine holds.valid.subset ⟨fun _ _ inside => inside, fun other found inside => ?_⟩
    rw [getElem?_erase_eq] at inside
    grind
  unfold removeArtifactBundle
  apply Meets.bind
  apply Meets.read
  refine Meets.lift_ok (fileLength_eq_ok_iff.mpr ⟨ciphertext, _, first, isCiphertext, rfl⟩)
    (Meets.lift_ok (fileLength_eq_ok_iff.mpr ⟨envelope, _, second, isEnvelope, rfl⟩) ?_)
  apply Meets.bind
  refine steady.step ?_ fun _ _ => onStop
  apply Meets.bind
  refine steady.step ?_ fun progress killed => absurd killed (spared.envelope key progress)
  refine steady.step ?_ fun progress killed => absurd killed (spared.bundle key progress)
  rcases holds.artifacts with ⟨_, empty⟩ | ⟨status, entries, opened, owner, restricted, inside⟩
  · rw [empty] at stored
    cases stored
  · have filled : root = Area.artifacts.fill status entries root := by
      rw [Area.fill, ← opened]
      exact (Area.artifacts.set_get root).symm
    rw [filled, Area.changeEntry, Area.changeEntry, Area.change_fill, Area.change_fill,
      Area.change_fill]
    refine onReturn _ (holds.set_artifacts valid (Area.Stores.fill owner restricted
      (inside.erase fun name => ?_)) holds.objects)
    by_cases same : name = .text key
    · rw [lookup_erase_eq, if_pos same, if_pos same]
    · rw [lookup_erase_eq, if_neg same, if_neg same, lookup_modify, if_neg same, lookup_modify,
        if_neg same]

theorem collectArtifact_meets (steady : Steady verdict) (spared : SparedRemoval verdict)
    (holds : Holds env settled tidy root contents) (report : GcReport) (name : FileName) :
    (collectArtifact env request report name).Meets verdict root
      (fun next after => ∃ key bundle, name = .text key ∧
        contents.artifacts[key]? = some bundle ∧
          next = report.countArtifact request key bundle.size ∧ (report.Fits → next.Fits) ∧
            Holds env settled tidy after (contents.dropArtifact request key))
      (fun _ after => Holds env settled tidy after contents ∧ ∀ (key : String) (bundle : Bundle),
        name = .text key → contents.artifacts[key]? = some bundle →
          ¬(report.countArtifact request key bundle.size).Fits)
      (fun after => Holds env settled tidy after contents) := by
  unfold collectArtifact
  apply Meets.bind
  apply Meets.lift
  · intro key named
    obtain ⟨rfl, isDigest⟩ := digestName_eq_ok_iff.mp named
    apply Meets.bind
    apply Meets.read
    cases stored : contents.artifacts[key]? with
    | none =>
        have refused : ∃ error, root.own.loadArtifactByKey env key = .error error := by
          cases loaded : root.own.loadArtifactByKey env key with
          | error error => exact ⟨error, rfl⟩
          | ok record =>
              obtain ⟨_, ⟨_, ⟨node, found, _⟩, _⟩, _⟩ := loadArtifactByKey_eq_ok_iff.mp loaded
              rw [holds.shows.bundleDirectory_missing isDigest stored] at found
              cases found
        obtain ⟨error, refused⟩ := refused
        rw [refused]
        refine Meets.bind (Meets.raise ⟨holds, ?_⟩)
        rintro _ bundle ⟨⟩ found
        rw [stored] at found
        cases found
    | some bundle =>
        obtain ⟨_, ⟨node, found, isBundle⟩, short, small⟩ := holds.shows.hasBundle stored
        obtain ⟨⟨ciphertext, first, isCiphertext⟩, _⟩ := bundleFile_of_isBundle found isBundle
        have bounded : bundle.ciphertext.length + bundle.envelope.length < 2 ^ 64 := by
          have ciphertexts : maxCiphertextBytes < 2 ^ 63 := by decide
          have envelopes : maxEnvelopeBytes < 2 ^ 63 := by decide
          omega
        have overflow : ∀ {bound : Prop}, ¬bound →
            ((report.countArtifact request key bundle.size).Fits → bound) →
              ∀ (other : String) (found : Bundle), FileName.text key = .text other →
                contents.artifacts[other]? = some found →
                  ¬(report.countArtifact request other found.size).Fits := by
          rintro bound exceeded needed _ found ⟨⟩ known
          rw [stored, Option.some.injEq] at known
          subst known
          exact fun fits => exceeded (needed fits)
        refine Meets.lift_ok (holds.shows.loadArtifactByKey_eq stored) (Meets.lift_ok
          (fileLength_eq_ok_iff.mpr ⟨ciphertext, _, first, isCiphertext, rfl⟩) ?_)
        refine checkedAdd_meets (fun _ => ?_) fun exceeded => absurd bounded exceeded
        cases kept : request.keepsArtifact key with
        | true =>
            have counted : report.countArtifact request key bundle.size =
                { report with retainedArtifacts := report.retainedArtifacts + 1 } := by
              rw [GcReport.countArtifact, if_pos kept]
            have unchanged : contents.dropArtifact request key = contents := by
              rw [Contents.dropArtifact, kept, Bool.not_true, Bool.and_false, if_neg (by simp)]
            rw [if_pos (Std.TreeSet.mem_iff_contains.mpr kept)]
            refine checkedAdd_meets (fun small => ?_) fun exceeded =>
              ⟨holds, overflow exceeded fun fits => by rw [counted] at fits; exact fits.1⟩
            exact Meets.pure ⟨key, bundle, rfl, stored, counted.symm,
              fun fits => { fits with retainedArtifacts := small }, by rwa [unchanged]⟩
        | false =>
            have counted : report.countArtifact request key bundle.size = { report with
                candidateArtifacts := report.candidateArtifacts + 1
                candidateBytes := report.candidateBytes + bundle.size } := by
              rw [GcReport.countArtifact, if_neg (by simp [kept])]
            have absent : key ∉ request.retainedArtifacts := by
              rw [Std.TreeSet.mem_iff_contains]
              exact fun member => by rw [GcRequest.keepsArtifact, member] at kept; cases kept
            rw [if_neg absent]
            refine checkedAdd_meets (fun few => ?_) fun exceeded =>
              ⟨holds, overflow exceeded fun fits => by rw [counted] at fits; exact fits.3⟩
            refine checkedAdd_meets (fun small => ?_) fun exceeded =>
              ⟨holds, overflow exceeded fun fits => by rw [counted] at fits; exact fits.5⟩
            have stays : report.Fits → GcReport.Fits { report with
                candidateArtifacts := report.candidateArtifacts + 1
                candidateBytes := report.candidateBytes + bundle.size } := fun fits =>
              { fits with candidateArtifacts := few, candidateBytes := small }
            apply Meets.bind
            apply Meets.when
            · intro execute
              have dropped : contents.dropArtifact request key =
                  { contents with artifacts := contents.artifacts.erase key } := by
                rw [Contents.dropArtifact, kept, execute, Bool.not_false, Bool.and_true, if_pos rfl]
              refine removeArtifactBundle_meets steady spared holds stored (fun after removed => ?_)
                holds
              exact Meets.pure ⟨key, bundle, rfl, stored, counted.symm, stays,
                by rw [dropped]; exact removed⟩
            · intro skipped
              have unchanged : contents.dropArtifact request key = contents := by
                rw [Contents.dropArtifact, if_neg (by simp [skipped])]
              exact Meets.pure ⟨key, bundle, rfl, stored, counted.symm, stays, by rwa [unchanged]⟩
  · intro error failed
    refine ⟨holds, ?_⟩
    rintro key bundle rfl stored
    rw [digestName_eq_ok_iff.mpr ⟨rfl, holds.valid.isDigest_artifact key bundle stored⟩] at failed
    cases failed

theorem FileName.text_injective : Function.Injective FileName.text :=
  fun _ _ same => FileName.text.inj same

/-- A listing of a store, in the middle of which a name stands. -/
theorem exists_rest {γ : Type} {map : Std.TreeMap String γ compare} {digests listed : List String}
    {name : FileName} {rest : List FileName} (permuted : listed.Perm map.keys)
    (split : listed.map FileName.text = digests.map FileName.text ++ name :: rest) :
    ∃ digest value remaining, name = .text digest ∧ map[digest]? = some value ∧
      digest ∉ digests ∧ (digests ++ [digest] ++ remaining).Perm map.keys := by
  obtain ⟨before, after, rfl, earlier, later⟩ := List.map_eq_append_iff.mp split
  obtain ⟨digest, remaining, rfl, rfl, rfl⟩ := List.map_eq_cons_iff.mp later
  have same : before = digests := List.map_injective_iff.mpr FileName.text_injective earlier
  subst same
  obtain ⟨value, found⟩ := exists_value permuted rfl
  refine ⟨digest, value, remaining, rfl, found, fun member => ?_, by simpa using permuted⟩
  exact List.disjoint_of_nodup_append (permuted.nodup_iff.mpr Std.TreeMap.nodup_keys) member
    (by simp)

theorem collectObjects_meets (steady : Steady verdict)
    (holds : Holds env settled tidy root contents) (names : List FileName) :
    (names.foldlM (collectObject env request) { executed := request.execute }).Meets verdict root
      (fun report after => ∃ digests, names = digests.map .text ∧
        report = contents.collected request digests [] ∧ report.Fits ∧
          Holds env settled tidy after (contents.sweep request digests []))
      (fun _ after => (∃ digests, Holds env settled tidy after (contents.sweep request digests [])) ∧
        ¬(contents.Tallies request ∧ ∃ digests : List String, names = digests.map .text ∧
          digests.Perm contents.objects.keys))
      (fun after => ∃ digests, Holds env settled tidy after (contents.sweep request digests [])) := by
  refine Meets.foldlM (fun done report after => ∃ digests, done = digests.map .text ∧
    report = contents.collected request digests [] ∧ report.Fits ∧
      Holds env settled tidy after (contents.sweep request digests []))
    ⟨[], rfl, rfl, GcReport.fits_zero _, holds⟩ ?_
    fun _ _ kept => kept
  rintro _ name rest _ before split ⟨digests, rfl, rfl, fits, held⟩
  refine (collectObject_meets steady held _ name).mono ?_ ?_ fun after kept => ⟨digests, kept⟩
  · rintro _ after ⟨digest, bytes, rfl, stored, rfl, stays, kept⟩
    refine ⟨digests ++ [digest], by simp, ?_, stays fits, ?_⟩
    · exact Contents.collected_snoc_object ((Contents.sweep_subset digests []).object _ _ stored)
    · simpa [Contents.sweep] using kept
  · rintro _ after ⟨kept, overflow⟩
    refine ⟨⟨digests, kept⟩, ?_⟩
    rintro ⟨countable, listed, rfl, permuted⟩
    obtain ⟨digest, bytes, remaining, rfl, stored, fresh, whole⟩ := exists_rest permuted split
    have still : (contents.sweep request digests []).objects[digest]? = some bytes := by
      rw [Contents.sweep_objects, if_neg (fun removed => fresh removed.2.1), stored]
    refine overflow digest bytes rfl still ?_
    rw [Contents.collected_snoc_object stored]
    exact countable.fits whole (List.Perm.refl _)

theorem collectArtifacts_meets (steady : Steady verdict) (spared : SparedRemoval verdict)
    {digests : List String} (holds : Holds env settled tidy root (contents.sweep request digests []))
    (fits : (contents.collected request digests []).Fits) (names : List FileName) :
    (names.foldlM (collectArtifact env request) (contents.collected request digests [])).Meets
      verdict root
      (fun report after => ∃ keys, names = keys.map .text ∧
        report = contents.collected request digests keys ∧ report.Fits ∧
          Holds env settled tidy after (contents.sweep request digests keys))
      (fun _ after => (∃ keys, Holds env settled tidy after (contents.sweep request digests keys)) ∧
        ¬(contents.Tallies request ∧ digests.Perm contents.objects.keys ∧
          ∃ keys : List String, names = keys.map .text ∧ keys.Perm contents.artifacts.keys))
      (fun after => ∃ keys, Holds env settled tidy after (contents.sweep request digests keys)) := by
  refine Meets.foldlM (fun done report after => ∃ keys, done = keys.map .text ∧
    report = contents.collected request digests keys ∧ report.Fits ∧
      Holds env settled tidy after (contents.sweep request digests keys))
    ⟨[], rfl, rfl, fits, holds⟩ ?_ fun _ _ kept => kept
  rintro _ name rest _ before split ⟨keys, rfl, rfl, fits, held⟩
  refine (collectArtifact_meets steady spared held _ name).mono ?_ ?_ fun after kept => ⟨keys, kept⟩
  · rintro _ after ⟨key, bundle, rfl, stored, rfl, stays, kept⟩
    refine ⟨keys ++ [key], by simp, ?_, stays fits, ?_⟩
    · exact Contents.collected_snoc_artifact
        ((Contents.sweep_subset digests keys).artifact _ _ stored)
    · simpa [Contents.sweep] using kept
  · rintro _ after ⟨kept, overflow⟩
    refine ⟨⟨keys, kept⟩, ?_⟩
    rintro ⟨countable, listed, ordered, rfl, permuted⟩
    obtain ⟨key, bundle, remaining, rfl, stored, fresh, whole⟩ := exists_rest permuted split
    have still : (contents.sweep request digests keys).artifacts[key]? = some bundle := by
      rw [Contents.sweep_artifacts, if_neg (fun removed => fresh removed.2.1), stored]
    refine overflow key bundle rfl still ?_
    rw [Contents.collected_snoc_artifact stored]
    have all : (digests ++ []).Perm contents.objects.keys := by simpa using listed
    exact countable.fits all whole

theorem syncCollected_meets (steady : Steady verdict) {α : Type} {path : Option (Node α)}
    {folder : Folder α} (opens : Opens path folder) {store : Store}
    {returns : Unit → Root → Prop} {raises : CacheError → Root → Prop} {stops : Root → Prop}
    (onReturn : returns () root) (onStop : stops root) :
    (syncCollected request store path).Meets verdict root returns raises stops := by
  unfold syncCollected
  rcases opens with found | ⟨missing, _⟩
  · exact Meets.lift_ok found
      (Meets.when (fun _ => steady.sync onReturn onStop) fun _ => onReturn)
  · exact Meets.lift_ok missing (Meets.pure onReturn)

/-- A collection removes what is not retained and counts everything; whatever stops it, it has only
removed entries. -/
theorem garbageCollect_counts (steady : Steady verdict) (spared : SparedRemoval verdict)
    (holds : Holds env settled tidy root contents) (request : GcRequest) :
    (garbageCollect env request).Meets verdict root
      (fun report after => request.WellFormed ∧ ∃ digests keys,
        (settled = true → digests.Perm contents.objects.keys ∧
          keys.Perm contents.artifacts.keys) ∧
          report = contents.collected request digests keys ∧ report.Fits ∧
            Holds env settled tidy after (contents.sweep request digests keys))
      (fun error after => ∃ kept, kept.Subset contents ∧ Holds env settled tidy after kept ∧
        (¬request.WellFormed ∧ error = .invalidAddress ∧ kept = contents ∨
          request.WellFormed ∧ ¬(settled = true ∧ contents.Tallies request)))
      (fun after => ∃ kept, kept.Subset contents ∧ Holds env settled tidy after kept) := by
  have whole : contents.Subset contents := ⟨fun _ _ found => found, fun _ _ found => found⟩
  unfold garbageCollect
  apply Meets.bind
  refine Meets.require (fun wellFormed => ?_)
    fun malformed => ⟨contents, whole, holds, .inl ⟨malformed, rfl, rfl⟩⟩
  apply Meets.bind
  refine holds.lock_meets steady (fun locked held _ _ => ?_)
    fun after held => ⟨contents, whole, held⟩
  apply Meets.bind
  apply Meets.read
  obtain ⟨folder, opens, _⟩ := held.objects.opens
  obtain ⟨names, listed, _⟩ := opens.listNames_eq env .collectObjects
  refine Meets.lift_ok listed ?_
  apply Meets.bind
  refine (collectObjects_meets steady held names).mono ?_ ?_
    fun after ⟨digests, kept⟩ => ⟨_, Contents.sweep_subset digests [], kept⟩
  · rintro _ middle ⟨digests, rfl, rfl, fits, kept⟩
    have every : settled = true → digests.Perm contents.objects.keys := by
      rintro rfl
      obtain ⟨listing, relisted, permuted⟩ := held.shows.listObjects .collectObjects
      have same := listed.symm.trans relisted
      rw [Except.ok.injEq] at same
      rwa [List.map_injective_iff.mpr FileName.text_injective same]
    apply Meets.bind
    apply Meets.read
    apply Meets.bind
    obtain ⟨folder, opens, _⟩ := kept.objects.opens
    refine syncCollected_meets steady opens ?_ ⟨_, Contents.sweep_subset digests [], kept⟩
    apply Meets.bind
    apply Meets.read
    obtain ⟨folder, opens, _⟩ := kept.artifacts.opens
    obtain ⟨names, listed', _⟩ := opens.listNames_eq env .collectArtifacts
    refine Meets.lift_ok listed' ?_
    have all : settled = true → ∃ keys : List String, names = keys.map .text ∧
        keys.Perm contents.artifacts.keys := by
      rintro rfl
      obtain ⟨listing, relisted, permuted⟩ := kept.shows.listArtifacts .collectArtifacts
      have same := listed'.symm.trans relisted
      rw [Except.ok.injEq] at same
      rw [Contents.sweep, List.foldl_nil, Contents.foldl_dropObject_artifacts] at permuted
      exact ⟨listing, same, permuted⟩
    apply Meets.bind
    refine (collectArtifacts_meets steady spared kept fits names).mono ?_ ?_
      fun after ⟨keys, left⟩ => ⟨_, Contents.sweep_subset digests keys, left⟩
    · rintro _ last ⟨keys, rfl, rfl, fits, left⟩
      have every' : settled = true → keys.Perm contents.artifacts.keys := by
        intro settled
        obtain ⟨listing, same, permuted⟩ := all settled
        rwa [List.map_injective_iff.mpr FileName.text_injective same]
      apply Meets.bind
      apply Meets.read
      apply Meets.bind
      obtain ⟨folder, opens, _⟩ := left.artifacts.opens
      refine syncCollected_meets steady opens ?_ ⟨_, Contents.sweep_subset digests keys, left⟩
      exact Meets.pure ⟨wellFormed, digests, keys,
        fun settled => ⟨every settled, every' settled⟩, rfl, fits, left⟩
    · rintro error after ⟨⟨keys, left⟩, overflow⟩
      refine ⟨_, Contents.sweep_subset digests keys, left, .inr ⟨wellFormed, ?_⟩⟩
      rintro ⟨settled, countable⟩
      exact overflow ⟨countable, every settled, all settled⟩
  · rintro error after ⟨⟨digests, kept⟩, overflow⟩
    refine ⟨_, Contents.sweep_subset digests [], kept, .inr ⟨wellFormed, ?_⟩⟩
    rintro ⟨rfl, countable⟩
    obtain ⟨listing, relisted, permuted⟩ := held.shows.listObjects .collectObjects
    have same := listed.symm.trans relisted
    rw [Except.ok.injEq] at same
    exact overflow ⟨countable, listing, same, permuted⟩

/-- The same, for a cache that can be transferred. -/
theorem garbageCollect_meets (steady : Steady verdict) (spared : SparedRemoval verdict)
    (holds : Holds env settled tidy root contents) (request : GcRequest) :
    (garbageCollect env request).Meets verdict root
      (fun report after => request.WellFormed ∧ ∃ digests keys,
        (settled = true → digests.Perm contents.objects.keys ∧
          keys.Perm contents.artifacts.keys) ∧
          report = contents.collected request digests keys ∧
            Holds env settled tidy after (contents.sweep request digests keys))
      (fun error after => ∃ kept, kept.Subset contents ∧ Holds env settled tidy after kept ∧
        (¬request.WellFormed ∧ error = .invalidAddress ∧ kept = contents ∨
          request.WellFormed ∧ ¬(settled = true ∧ contents.WithinLimits)))
      (fun after => ∃ kept, kept.Subset contents ∧ Holds env settled tidy after kept) := by
  refine (garbageCollect_counts steady spared holds request).mono ?_ ?_ fun _ stopped => stopped
  · rintro report after ⟨wellFormed, digests, keys, every, counted, -, left⟩
    exact ⟨wellFormed, digests, keys, every, counted, left⟩
  · rintro error after ⟨kept, subset, left, malformed | ⟨wellFormed, exceeded⟩⟩
    · exact ⟨kept, subset, left, .inl malformed⟩
    · exact ⟨kept, subset, left, .inr ⟨wellFormed, fun within =>
        exceeded ⟨within.1, within.2.tallies⟩⟩⟩

end Collecting

end NixSeal.Cache
