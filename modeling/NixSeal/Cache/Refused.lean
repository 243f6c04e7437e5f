import NixSeal.Cache.Sweep

/-!
# Collections that meet a refused entry

A collection checks an entry, counts it and removes it before it looks at the next one.  Whether
anything is gone when an entry is refused depends on the order of the listings: it is when a valid
entry that is not retained comes first.
-/

namespace NixSeal.Cache

open Faulty Faulty.Program Fallible

/-- An object that a collection accepts. -/
def AcceptsObject (env : Environment) (root : Root) (name : FileName) : Prop :=
  ∃ digest bytes, name = .text digest ∧ isDigest digest = true ∧
    HasObject env root.own digest bytes

/-- A bundle that a collection accepts. -/
def AcceptsBundle (env : Environment) (root : Root) (name : FileName) : Prop :=
  ∃ key bundle, name = .text key ∧ HasBundle env root.own key bundle

/-- An entry under a retained name. -/
def GcRequest.keepsObjectName (request : GcRequest) (name : FileName) : Bool :=
  name.toStr.any request.keepsObject

def GcRequest.keepsBundleName (request : GcRequest) (name : FileName) : Bool :=
  name.toStr.any request.keepsArtifact

/-- Some entry of the cache is malformed, unsafe or oversized. -/
def Rejects (env : Environment) (root : Root) : Prop :=
  (∃ names, listNames env .collectObjects root.objects = .ok names ∧
    ∃ name ∈ names, ¬AcceptsObject env root name) ∨
  ∃ names, listNames env .collectArtifacts root.artifacts = .ok names ∧
    ∃ name ∈ names, ¬AcceptsBundle env root name

/-- Every entry of before is still there. -/
structure Untouched (root after : Root) : Prop where
  object : ∀ name node, child root.objects name = .ok node → child after.objects name = .ok node
  bundle : ∀ name node, child root.artifacts name = .ok node →
    child after.artifacts name = .ok node

/-- A collection that fails on a cache with a refused entry has removed nothing. -/
def ValidatesFirst (env : Environment) (request : GcRequest) (root : Root) : Prop :=
  ∀ error after, (garbageCollect env request).passing root = (.error error, after) →
    Rejects env root → Untouched root after

/-- In a listing, an accepted entry that is not retained comes before all others that are not
retained or not accepted. -/
def RemovesFirst (accepts : FileName → Prop) (keeps : FileName → Bool) (names : List FileName) :
    Prop :=
  ∃ before name rest, names = before ++ name :: rest ∧ before.length < 2 ^ 64 ∧
    (∀ entry ∈ before, accepts entry ∧ keeps entry = true) ∧ accepts name ∧ keeps name = false

/-- The listing of the objects starts so. -/
def RemovesObject (env : Environment) (request : GcRequest) (root : Root) : Prop :=
  ∃ names, listNames env .collectObjects root.objects = .ok names ∧
    RemovesFirst (AcceptsObject env root) request.keepsObjectName names

/-- Every object is accepted and retained, and the listing of the bundles starts so. -/
def RemovesBundle (env : Environment) (request : GcRequest) (root : Root) : Prop :=
  ∃ names, listNames env .collectObjects root.objects = .ok names ∧ names.length < 2 ^ 64 ∧
    (∀ name ∈ names, AcceptsObject env root name ∧ request.keepsObjectName name = true) ∧
      ∃ keys, listNames env .collectArtifacts root.artifacts = .ok keys ∧
        RemovesFirst (AcceptsBundle env root) request.keepsBundleName keys

section Lookups

variable {α : Type} {path : Option (Node α)} {edit : Folder α → Folder α} {name : FileName}

theorem entries_mapEntries (node : Node α) :
    (node.mapEntries edit).entries = node.entries.map edit := by
  induction node with
  | file status bytes => rfl
  | directory status entries => rfl
  | symlink target ih => exact ih
  | dangling => rfl
  | special status => rfl

theorem child_map_of_lookup (same : ∀ entries, (edit entries).lookup name = entries.lookup name) :
    child (path.map (Node.mapEntries edit)) name = child path name := by
  cases path with
  | none => rfl
  | some node =>
      simp only [Option.map_some, child, entries_mapEntries]
      cases node.entries with
      | error kind => rfl
      | ok entries => simp only [Except.map, same]

theorem child_map_ne_ok (gone : ∀ entries, (edit entries).lookup name = none) (node : α) :
    child (path.map (Node.mapEntries edit)) name ≠ .ok node := by
  cases path with
  | none => simp [child]
  | some parent =>
      simp only [Option.map_some, child, entries_mapEntries]
      cases parent.entries with
      | error kind => simp [Except.map]
      | ok entries => simp [Except.map, gone, orNotFound]

end Lookups

/-- An entry is gone, and no other entry of its directory changed. -/
structure Gone {β : Type} (area : Area β) (root : Root) (name : FileName) (after : Root) : Prop where
  missing : ∀ node, child (area.get after) name ≠ .ok node
  others : ∀ other, other ≠ name → child (area.get after) other = child (area.get root) other

/-- The turns of a collection through one directory; `tally` is the report after so many retained
entries and nothing else. -/
structure Turns {β : Type} (area : Area β) (accepts : Root → FileName → Prop)
    (keeps : FileName → Bool) (tally : Nat → GcReport)
    (turn : GcReport → FileName → Action GcReport) : Prop where
  congr : ∀ {root after : Root} {name : FileName},
    child (area.get after) name = child (area.get root) name → accepts after name →
      accepts root name
  retains : ∀ {root : Root} {name : FileName} (count : Nat), count < 2 ^ 64 →
    accepts root name → keeps name = true → (turn (tally count) name).Meets (fun _ => .pass) root
      (fun report after => report = tally (count + 1) ∧ count + 1 < 2 ^ 64 ∧ after = root)
      (fun _ after => ¬count + 1 < 2 ^ 64 ∧ after = root) fun _ => False
  removes : ∀ {root : Root} {name : FileName} (count : Nat), count < 2 ^ 64 →
    accepts root name → keeps name = false → (turn (tally count) name).Meets (fun _ => .pass) root
      (fun _ after => Gone area root name after) (fun _ _ => False) fun _ => False
  turns : ∀ (root : Root) (report : GcReport) (name : FileName),
    (turn report name).Meets (fun _ => .pass) root
      (fun _ after => accepts root name ∧ (after = root ∨ Gone area root name after))
      (fun _ after => after = root) fun _ => False

section Loops

variable {β : Type} {area : Area β} {accepts : Root → FileName → Prop} {keeps : FileName → Bool}
  {tally : Nat → GcReport} {turn : GcReport → FileName → Action GcReport} {root : Root}
  {names before rest : List FileName} {name : FileName}

theorem Turns.retained (turns : Turns area accepts keeps tally turn)
    (all : ∀ entry ∈ names, accepts root entry ∧ keeps entry = true)
    (few : names.length < 2 ^ 64) :
    (names.foldlM turn (tally 0)).Meets (fun _ => .pass) root
      (fun report after => report = tally names.length ∧ after = root) (fun _ _ => False)
      fun _ => False := by
  refine Meets.foldlM (fun done report after => report = tally done.length ∧ after = root)
    ⟨rfl, rfl⟩ ?_ fun _ _ kept => kept
  rintro done entry rest _ _ split ⟨rfl, rfl⟩
  have member : entry ∈ names := by simp [split]
  have count : done.length + 1 < 2 ^ 64 := by
    rw [split, List.length_append, List.length_cons] at few
    omega
  obtain ⟨accepted, kept⟩ := all entry member
  refine (turns.retains done.length (by omega) accepted kept).mono ?_ ?_ fun _ stopped => stopped
  · rintro _ _ ⟨rfl, _, rfl⟩
    exact ⟨by simp, rfl⟩
  · rintro _ _ ⟨full, _⟩
    exact full count

/-- Without an entry to remove, a listing is gone through as a whole or left at an entry, and nothing
is removed. -/
theorem Turns.spared (turns : Turns area accepts keeps tally turn)
    (spares : ¬RemovesFirst (accepts root) keeps names) :
    (names.foldlM turn (tally 0)).Meets (fun _ => .pass) root
      (fun report after => report = tally names.length ∧ after = root ∧
        (names = [] ∨ names.length < 2 ^ 64) ∧
          ∀ entry ∈ names, accepts root entry ∧ keeps entry = true)
      (fun _ after => after = root) fun _ => False := by
  refine Meets.foldlM (fun done report after => report = tally done.length ∧ after = root ∧
    (done = [] ∨ done.length < 2 ^ 64) ∧ ∀ entry ∈ done, accepts root entry ∧ keeps entry = true)
    ⟨rfl, rfl, .inl rfl, by simp⟩ ?_ fun _ _ kept => kept
  rintro done entry rest _ state split ⟨rfl, rfl, few, all⟩
  have count : done.length < 2 ^ 64 := by
    rcases few with rfl | few
    · exact Nat.two_pow_pos 64
    · exact few
  by_cases accepted : accepts state entry
  · cases kept : keeps entry with
    | true =>
        refine (turns.retains done.length count accepted kept).mono ?_
          (fun _ _ full => full.2) fun _ stopped => stopped
        rintro _ _ ⟨rfl, room, rfl⟩
        refine ⟨by simp, rfl, .inr (by simpa using room), fun other member => ?_⟩
        rcases List.mem_append.mp member with earlier | here
        · exact all other earlier
        · rw [List.mem_singleton.mp here]
          exact ⟨accepted, kept⟩
    | false => exact absurd ⟨done, entry, rest, split, count, all, accepted, kept⟩ spares
  · refine (turns.turns state (tally done.length) entry).mono ?_ (fun _ _ same => same)
      fun _ stopped => stopped
    rintro _ _ ⟨accepts, _⟩
    exact absurd accepts accepted

theorem Turns.stays_gone (turns : Turns area accepts keeps tally turn) {report : GcReport}
    (missing : ∀ node, child (area.get root) name ≠ .ok node) :
    (names.foldlM turn report).Meets (fun _ => .pass) root
      (fun _ after => ∀ node, child (area.get after) name ≠ .ok node)
      (fun _ after => ∀ node, child (area.get after) name ≠ .ok node) fun _ => False := by
  refine Meets.foldlM (fun _ _ after => ∀ node, child (area.get after) name ≠ .ok node) missing ?_
    fun _ _ kept => kept
  rintro _ entry _ report before _ missing
  refine (turns.turns before report entry).mono ?_ ?_ fun _ stopped => stopped
  · rintro _ after ⟨_, rfl | gone⟩
    · exact missing
    · by_cases same : name = entry
      · rw [same]
        exact gone.missing
      · rwa [gone.others name same]
  · rintro _ _ rfl
    exact missing

/-- The first entry that can be removed is removed, however the loop ends. -/
theorem Turns.removed (turns : Turns area accepts keeps tally turn)
    (split : names = before ++ name :: rest) (few : before.length < 2 ^ 64)
    (all : ∀ entry ∈ before, accepts root entry ∧ keeps entry = true)
    (accepted : accepts root name) (dropped : keeps name = false) :
    (names.foldlM turn (tally 0)).Meets (fun _ => .pass) root
      (fun _ after => ∀ node, child (area.get after) name ≠ .ok node)
      (fun _ after => ∀ node, child (area.get after) name ≠ .ok node) fun _ => False := by
  rw [split, List.foldlM_append]
  apply Meets.bind
  refine (turns.retained all few).mono ?_ (fun _ _ impossible => impossible.elim)
    fun _ stopped => stopped
  rintro _ _ ⟨rfl, rfl⟩
  rw [List.foldlM_cons]
  apply Meets.bind
  refine (turns.removes before.length few accepted dropped).mono ?_
    (fun _ _ impossible => impossible.elim) fun _ stopped => stopped
  exact fun _ _ gone => turns.stays_gone gone.missing

/-- A loop that returns has accepted every entry of the directory it started with. -/
theorem Turns.accepted_from (turns : Turns area accepts keeps tally turn) (root : Root)
    (distinct : names.Nodup) (report : GcReport) :
    (names.foldlM turn report).Meets (fun _ => .pass) root
      (fun _ _ => ∀ entry ∈ names, accepts root entry) (fun _ _ => True) fun _ => False := by
  refine Meets.foldlM (fun done _ after => (∀ entry ∈ done, accepts root entry) ∧
    ∀ entry, entry ∉ done → child (area.get after) entry = child (area.get root) entry)
    ⟨by simp, fun _ _ => rfl⟩ ?_ fun _ _ kept => kept.1
  rintro done entry rest report before split ⟨all, same⟩
  have fresh : entry ∉ done := by
    rw [split] at distinct
    exact fun member => List.disjoint_of_nodup_append distinct member (by simp)
  refine (turns.turns before report entry).mono ?_ (fun _ _ _ => trivial) fun _ stopped => stopped
  rintro _ after ⟨accepted, left⟩
  refine ⟨fun other member => ?_, fun other absent => ?_⟩
  · rcases List.mem_append.mp member with earlier | here
    · exact all other earlier
    · rw [List.mem_singleton.mp here]
      exact turns.congr (same entry fresh) accepted
  · rw [List.mem_append, List.mem_singleton, not_or] at absent
    rcases left with rfl | gone
    · exact same other absent.1
    · rw [gone.others other absent.2]
      exact same other absent.1

end Loops

section Entries

variable {env : Environment} {request : GcRequest} {root after : Root} {name : FileName}

theorem acceptsObject_congr (same : child after.objects name = child root.objects name)
    (accepted : AcceptsObject env after name) : AcceptsObject env root name := by
  obtain ⟨digest, bytes, rfl, isDigest, ⟨node, found, isFile⟩, rest⟩ := accepted
  refine ⟨digest, bytes, rfl, isDigest, ⟨node, ?_, isFile⟩, rest⟩
  exact same.symm.trans found

theorem acceptsBundle_congr (same : child after.artifacts name = child root.artifacts name)
    (accepted : AcceptsBundle env after name) : AcceptsBundle env root name := by
  obtain ⟨key, bundle, rfl, isDigest, ⟨node, found, isBundle⟩, rest⟩ := accepted
  refine ⟨key, bundle, rfl, isDigest, ⟨node, ?_, isBundle⟩, rest⟩
  exact same.symm.trans found

theorem gone_object : Gone Area.objects root name
    (Area.objects.change (fun entries => entries.erase name) root) where
  missing node := by
    rw [Area.change, Area.get_set]
    exact child_map_ne_ok (fun entries => by rw [lookup_erase_eq, if_pos rfl]) node
  others other different := by
    rw [Area.change, Area.get_set]
    exact child_map_of_lookup fun entries => by rw [lookup_erase_eq, if_neg different]

theorem gone_bundle (first second : Node Leaf → Node Leaf) : Gone Area.artifacts root name
    (Area.artifacts.change (fun entries => entries.erase name)
      (Area.artifacts.changeEntry name second (Area.artifacts.changeEntry name first root))) where
  missing node := by
    rw [Area.change, Area.get_set]
    exact child_map_ne_ok (fun entries => by rw [lookup_erase_eq, if_pos rfl]) node
  others other different := by
    have edited : ∀ (edit : Node Leaf → Node Leaf) (state : Root),
        child (Area.artifacts.get (Area.artifacts.changeEntry name edit state)) other =
          child (Area.artifacts.get state) other := by
      intro edit state
      rw [Area.changeEntry, Area.change, Area.get_set]
      exact child_map_of_lookup fun entries => by rw [lookup_modify, if_neg different]
    have erased : child (Area.artifacts.get (Area.artifacts.change
        (fun entries => entries.erase name)
        (Area.artifacts.changeEntry name second (Area.artifacts.changeEntry name first root))))
          other = child (Area.artifacts.get (Area.artifacts.changeEntry name second
            (Area.artifacts.changeEntry name first root))) other := by
      rw [Area.change, Area.get_set]
      exact child_map_of_lookup fun entries => by rw [lookup_erase_eq, if_neg different]
    rw [erased, edited, edited]

/-- An entry that is no accepted object stops the collection. -/
theorem collectObject_refuses (report : GcReport) (refused : ¬AcceptsObject env root name) :
    (collectObject env request report name).Meets (fun _ => .pass) root (fun _ _ => False)
      (fun _ after => after = root) fun _ => False := by
  unfold collectObject
  apply Meets.bind
  refine Meets.lift (fun digest named => ?_) fun _ _ => rfl
  obtain ⟨rfl, valid⟩ := digestName_eq_ok_iff.mp named
  apply Meets.bind
  apply Meets.read
  apply Meets.bind
  refine Meets.lift (fun file opened => ?_) fun _ _ => rfl
  apply Meets.bind
  refine Meets.lift (fun bytes bounded => ?_) fun _ _ => rfl
  obtain ⟨rfl, small⟩ := readBounded_eq_ok_iff.mp bounded
  apply Meets.bind
  refine Meets.require (fun hashed => ?_) fun _ => rfl
  exact absurd ⟨digest, file, rfl, valid, openPrivateRegular_eq_ok_iff.mp opened, small, hashed⟩
    refused

theorem collectObject_accepts {digest : String} {bytes : Bytes} (execute : request.execute = true)
    (report : GcReport) (valid : isDigest digest = true)
    (stored : HasObject env root.own digest bytes) :
    (collectObject env request report (.text digest)).Meets (fun _ => .pass) root
      (fun next after => next = report.countObject request digest bytes.length ∧
        (report.Fits → next.Fits) ∧ after = if request.keepsObject digest then root
          else Area.objects.change (fun entries => entries.erase (.text digest)) root)
      (fun _ after => after = root ∧ ¬(report.countObject request digest bytes.length).Fits)
      fun _ => False := by
  obtain ⟨found, small, hashed⟩ := stored
  unfold collectObject
  refine Meets.lift_ok (digestName_eq_ok_iff.mpr ⟨rfl, valid⟩) ?_
  apply Meets.bind
  apply Meets.read
  refine Meets.lift_ok (openPrivateRegular_eq_ok_iff.mpr found)
    (Meets.lift_ok (readBounded_eq_ok_iff.mpr ⟨rfl, small⟩) ?_)
  apply Meets.bind
  refine Meets.require (fun _ => ?_) fun different => absurd hashed different
  unfold GcReport.countObject
  cases kept : request.keepsObject digest with
  | true =>
      rw [if_pos (Std.TreeSet.mem_iff_contains.mpr kept), if_pos rfl, if_pos rfl]
      refine checkedAdd_meets (fun room => ?_) fun full => ⟨rfl, fun fits => full fits.2⟩
      exact Meets.pure ⟨rfl, fun fits => { fits with retainedObjects := room }, rfl⟩
  | false =>
      have absent : digest ∉ request.retainedObjects := by
        rw [Std.TreeSet.mem_iff_contains]
        exact fun member => by rw [GcRequest.keepsObject, member] at kept; cases kept
      rw [if_neg absent, if_neg (by simp), if_neg (by simp)]
      refine checkedAdd_meets (fun few => ?_) fun full => ⟨rfl, fun fits => full fits.4⟩
      refine checkedAdd_meets (fun room => ?_) fun full => ⟨rfl, fun fits => full fits.5⟩
      apply Meets.bind
      refine Meets.when (fun _ => ?_) fun skipped => absurd execute skipped
      apply Meets.step_unrefused
      exact Meets.pure
        ⟨rfl, fun fits => { fits with candidateObjects := few, candidateBytes := room }, rfl⟩

/-- An entry that is no accepted bundle stops the collection. -/
theorem collectArtifact_refuses (report : GcReport) (refused : ¬AcceptsBundle env root name) :
    (collectArtifact env request report name).Meets (fun _ => .pass) root (fun _ _ => False)
      (fun _ after => after = root) fun _ => False := by
  unfold collectArtifact
  apply Meets.bind
  refine Meets.lift (fun key named => ?_) fun _ _ => rfl
  obtain ⟨rfl, valid⟩ := digestName_eq_ok_iff.mp named
  apply Meets.bind
  apply Meets.read
  apply Meets.bind
  refine Meets.lift (fun record loaded => ?_) fun _ _ => rfl
  obtain ⟨bundle, stored, _⟩ := loadArtifactByKey_eq_ok_iff.mp loaded
  exact absurd ⟨key, bundle, rfl, stored⟩ refused

theorem removeArtifactBundle_passes {key : String} {bundle : Bundle}
    (stored : HasBundle env root.own key bundle) {returns : Unit → Root → Prop}
    {raises : CacheError → Root → Prop} {stops : Root → Prop}
    (onReturn : ∀ after, Gone Area.artifacts root (.text key) after → returns () after) :
    (removeArtifactBundle env key).Meets (fun _ => .pass) root returns raises stops := by
  obtain ⟨_, ⟨node, found, isBundle⟩, _⟩ := stored
  obtain ⟨⟨ciphertext, first, isCiphertext⟩, envelope, second, isEnvelope⟩ :=
    bundleFile_of_isBundle found isBundle
  unfold removeArtifactBundle
  apply Meets.bind
  apply Meets.read
  refine Meets.lift_ok (fileLength_eq_ok_iff.mpr ⟨ciphertext, _, first, isCiphertext, rfl⟩)
    (Meets.lift_ok (fileLength_eq_ok_iff.mpr ⟨envelope, _, second, isEnvelope, rfl⟩) ?_)
  apply Meets.bind
  apply Meets.step_unrefused
  apply Meets.bind
  apply Meets.step_unrefused
  apply Meets.step_unrefused
  exact onReturn _ (gone_bundle _ _)

theorem collectArtifact_accepts {key : String} {bundle : Bundle} (execute : request.execute = true)
    (report : GcReport) (stored : HasBundle env root.own key bundle) :
    (collectArtifact env request report (.text key)).Meets (fun _ => .pass) root
      (fun next after => next = report.countArtifact request key bundle.size ∧
        (report.Fits → next.Fits) ∧
          if request.keepsArtifact key then after = root
          else Gone Area.artifacts root (.text key) after)
      (fun _ after => after = root ∧ ¬(report.countArtifact request key bundle.size).Fits)
      fun _ => False := by
  have loaded := loadArtifactByKey_eq_ok_iff.mpr ⟨bundle, stored, rfl⟩
  obtain ⟨valid, ⟨node, found, isBundle⟩, smallCiphertext, smallEnvelope⟩ := id stored
  obtain ⟨⟨file, inside, isFile⟩, _⟩ := bundleFile_of_isBundle found isBundle
  have small : maxCiphertextBytes + maxEnvelopeBytes < 2 ^ 64 := by decide
  unfold collectArtifact
  refine Meets.lift_ok (digestName_eq_ok_iff.mpr ⟨rfl, valid⟩) ?_
  apply Meets.bind
  apply Meets.read
  refine Meets.lift_ok loaded (Meets.lift_ok (fileLength_eq_ok_iff.mpr
    ⟨file, _, inside, isFile, rfl⟩) (Meets.lift_ok (checkedAdd_eq_ok_iff.mpr ⟨rfl, ?_⟩) ?_))
  · change bundle.ciphertext.length + bundle.envelope.length < 2 ^ 64
    omega
  · unfold GcReport.countArtifact
    cases kept : request.keepsArtifact key with
    | true =>
        rw [if_pos (Std.TreeSet.mem_iff_contains.mpr kept), if_pos rfl]
        refine checkedAdd_meets (fun room => ?_) fun full => ⟨rfl, fun fits => full fits.1⟩
        exact Meets.pure ⟨rfl, fun fits => { fits with retainedArtifacts := room }, by simp⟩
    | false =>
        have absent : key ∉ request.retainedArtifacts := by
          rw [Std.TreeSet.mem_iff_contains]
          exact fun member => by rw [GcRequest.keepsArtifact, member] at kept; cases kept
        rw [if_neg absent, if_neg (by simp)]
        refine checkedAdd_meets (fun few => ?_) fun full => ⟨rfl, fun fits => full fits.3⟩
        refine checkedAdd_meets (fun room => ?_) fun full => ⟨rfl, fun fits => full fits.5⟩
        apply Meets.bind
        refine Meets.when (fun _ => ?_) fun skipped => absurd execute skipped
        refine removeArtifactBundle_passes stored fun after gone => ?_
        exact Meets.pure ⟨rfl, fun fits =>
          { fits with candidateArtifacts := few, candidateBytes := room }, by simpa using gone⟩

/-- The report after so many retained objects and bundles. -/
def retainedOnly (request : GcRequest) (objects artifacts : Nat) : GcReport where
  executed := request.execute
  retainedObjects := objects
  retainedArtifacts := artifacts

theorem fits_retainedOnly {objects artifacts : Nat} (fewObjects : objects < 2 ^ 64)
    (fewArtifacts : artifacts < 2 ^ 64) : (retainedOnly request objects artifacts).Fits :=
  ⟨fewArtifacts, fewObjects, Nat.two_pow_pos 64, Nat.two_pow_pos 64, Nat.two_pow_pos 64⟩

theorem turns_objects (execute : request.execute = true) :
    Turns Area.objects (AcceptsObject env) request.keepsObjectName (retainedOnly request · 0)
      (collectObject env request) where
  congr same accepted := acceptsObject_congr same accepted
  retains count few accepted kept := by
    obtain ⟨digest, bytes, rfl, valid, stored⟩ := accepted
    have kept : request.keepsObject digest = true := kept
    have counted : (retainedOnly request count 0).countObject request digest bytes.length =
        retainedOnly request (count + 1) 0 := by
      rw [GcReport.countObject, if_pos kept]
      rfl
    refine (collectObject_accepts execute _ valid stored).mono ?_ ?_ fun _ stopped => stopped
    · rintro _ _ ⟨rfl, fits, rfl⟩
      rw [counted] at fits ⊢
      exact ⟨rfl, (fits (fits_retainedOnly few (Nat.two_pow_pos 64))).2, if_pos kept⟩
    · rintro _ _ ⟨rfl, exceeded⟩
      rw [counted] at exceeded
      exact ⟨fun room => exceeded (fits_retainedOnly room (Nat.two_pow_pos 64)), rfl⟩
  removes count few accepted dropped := by
    obtain ⟨digest, bytes, rfl, valid, stored⟩ := accepted
    have dropped : request.keepsObject digest = false := dropped
    have small : maxCiphertextBytes < 2 ^ 64 := by decide
    have fits : ((retainedOnly request count 0).countObject request digest bytes.length).Fits := by
      rw [GcReport.countObject, if_neg (by simp [dropped])]
      refine ⟨Nat.two_pow_pos 64, few, Nat.two_pow_pos 64, by simp [retainedOnly], ?_⟩
      have bounded := stored.2.1
      simp only [retainedOnly]
      omega
    refine (collectObject_accepts execute _ valid stored).mono ?_
      (fun _ _ full => full.2 fits) fun _ stopped => stopped
    rintro _ _ ⟨_, _, rfl⟩
    rw [if_neg (by simp [dropped])]
    exact gone_object
  turns root report name := by
    by_cases accepted : AcceptsObject env root name
    · obtain ⟨digest, bytes, rfl, valid, stored⟩ := id accepted
      refine (collectObject_accepts execute report valid stored).mono ?_ (fun _ _ full => full.1)
        fun _ stopped => stopped
      rintro _ _ ⟨_, _, rfl⟩
      refine ⟨accepted, ?_⟩
      split
      · exact .inl rfl
      · exact .inr gone_object
    · exact (collectObject_refuses report accepted).mono (fun _ _ impossible => impossible.elim)
        (fun _ _ same => same) fun _ stopped => stopped

theorem turns_bundles (execute : request.execute = true) {objects : Nat}
    (fewObjects : objects < 2 ^ 64) :
    Turns Area.artifacts (AcceptsBundle env) request.keepsBundleName (retainedOnly request objects)
      (collectArtifact env request) where
  congr same accepted := acceptsBundle_congr same accepted
  retains count few accepted kept := by
    obtain ⟨key, bundle, rfl, stored⟩ := accepted
    have kept : request.keepsArtifact key = true := kept
    have counted : (retainedOnly request objects count).countArtifact request key bundle.size =
        retainedOnly request objects (count + 1) := by
      rw [GcReport.countArtifact, if_pos kept]
      rfl
    refine (collectArtifact_accepts execute _ stored).mono ?_ ?_ fun _ stopped => stopped
    · rintro _ _ ⟨rfl, fits, left⟩
      rw [if_pos kept] at left
      rw [counted] at fits ⊢
      exact ⟨rfl, (fits (fits_retainedOnly fewObjects few)).1, left⟩
    · rintro _ _ ⟨rfl, exceeded⟩
      rw [counted] at exceeded
      exact ⟨fun room => exceeded (fits_retainedOnly fewObjects room), rfl⟩
  removes count few accepted dropped := by
    obtain ⟨key, bundle, rfl, stored⟩ := accepted
    have dropped : request.keepsArtifact key = false := dropped
    have small : maxCiphertextBytes + maxEnvelopeBytes < 2 ^ 64 := by decide
    have fits : ((retainedOnly request objects count).countArtifact request key
        bundle.size).Fits := by
      rw [GcReport.countArtifact, if_neg (by simp [dropped])]
      refine ⟨few, fewObjects, by simp [retainedOnly], Nat.two_pow_pos 64, ?_⟩
      have bounded := stored.2.2
      simp only [retainedOnly, Bundle.size]
      omega
    refine (collectArtifact_accepts execute _ stored).mono ?_
      (fun _ _ full => full.2 fits) fun _ stopped => stopped
    rintro _ _ ⟨_, _, left⟩
    rwa [if_neg (by simp [dropped])] at left
  turns root report name := by
    by_cases accepted : AcceptsBundle env root name
    · obtain ⟨key, bundle, rfl, stored⟩ := id accepted
      refine (collectArtifact_accepts execute report stored).mono ?_ (fun _ _ full => full.1)
        fun _ stopped => stopped
      rintro _ _ ⟨_, _, left⟩
      refine ⟨accepted, ?_⟩
      split at left
      · exact .inl left
      · exact .inr left
    · exact (collectArtifact_refuses report accepted).mono (fun _ _ impossible => impossible.elim)
        (fun _ _ same => same) fun _ stopped => stopped

end Entries

section Collections

variable {env : Environment} {request : GcRequest} {root : Root}

theorem lock_passes (env : Environment) (root : Root) :
    (lock env).Meets (fun _ => .pass) root
      (fun _ after => Lockable env root.lock ∧ ∃ lock, after = { root with lock := lock })
      (fun _ after => ¬Lockable env root.lock ∧ ∃ lock, after = { root with lock := lock })
      fun _ => False := by
  by_cases lockable : Lockable env root.lock
  · have met : (lock env).Meets (fun _ => .pass) root
        (fun _ after => Lockable env root.lock ∧ ∃ lock, after = { root with lock := lock })
        (fun _ _ => False) fun _ => True :=
      lock_meets steady_pass lockable (fun lock _ => ⟨lockable, lock, rfl⟩) fun _ _ => trivial
    exact (met.alive (by simp)).mono (fun _ _ held => held) (fun _ _ impossible => impossible.elim)
      fun _ stopped => stopped
  · unfold lock
    apply Meets.bind
    apply Meets.read
    apply Meets.bind
    cases found : root.lock with
    | none => exact absurd (.inl found) lockable
    | some leaf =>
        refine Meets.when (fun missing => by simp at missing) fun _ => ?_
        apply Meets.bind
        apply Meets.read
        rw [found]
        have left : ∃ lock, root = { root with lock := lock } := ⟨root.lock, rfl⟩
        rw [found] at lockable
        cases leaf with
        | file status bytes =>
            apply Meets.bind
            refine Meets.require (fun trusted => ?_) fun _ => ⟨lockable, left⟩
            exact absurd (.inr ⟨status, bytes, rfl, trusted.1, trusted.2⟩) lockable
        | directory status entries => exact Meets.raise ⟨lockable, left⟩
        | symlink target => exact Meets.raise ⟨lockable, left⟩
        | dangling => exact Meets.raise ⟨lockable, left⟩
        | special status => exact Meets.raise ⟨lockable, left⟩

theorem syncCollected_passes {α : Type} (store : Store) (path : Option (Node α)) :
    (syncCollected request store path).Meets (fun _ => .pass) root (fun _ after => after = root)
      (fun _ after => after = root) fun _ => False := by
  unfold syncCollected
  apply Meets.bind
  refine Meets.lift (fun entries _ => ?_) fun _ _ => rfl
  cases entries with
  | none => exact Meets.pure rfl
  | some entries => exact Meets.when (fun _ => Meets.step_unrefused rfl) fun _ => rfl

theorem keeps_artifacts (report : GcReport) (name : FileName) :
    (collectObject env request report name).Keeps Root.artifacts := by
  unfold collectObject
  refine Keeps.bind (Keeps.lift _) fun _ => Keeps.bind Keeps.read fun _ => ?_
  refine Keeps.bind (Keeps.lift _) fun _ => Keeps.bind (Keeps.lift _) fun _ => ?_
  refine Keeps.bind (Keeps.require _) fun _ => ?_
  split
  · exact Keeps.bind (Keeps.lift _) fun _ => Keeps.pure _
  · refine Keeps.bind (Keeps.lift _) fun _ => Keeps.bind (Keeps.lift _) fun _ => ?_
    exact Keeps.bind (Keeps.when (Keeps.step fun _ => rfl)) fun _ => Keeps.pure _

theorem keeps_objects (report : GcReport) (name : FileName) :
    (collectArtifact env request report name).Keeps Root.objects := by
  unfold collectArtifact
  refine Keeps.bind (Keeps.lift _) fun _ => Keeps.bind Keeps.read fun _ => ?_
  refine Keeps.bind (Keeps.lift _) fun _ => Keeps.bind (Keeps.lift _) fun _ => ?_
  refine Keeps.bind (Keeps.lift _) fun _ => ?_
  split
  · exact Keeps.bind (Keeps.lift _) fun _ => Keeps.pure _
  · refine Keeps.bind (Keeps.lift _) fun _ => Keeps.bind (Keeps.lift _) fun _ => ?_
    refine Keeps.bind (Keeps.when ?_) fun _ => Keeps.pure _
    unfold removeArtifactBundle
    refine Keeps.bind Keeps.read fun _ => Keeps.bind (Keeps.lift _) fun _ => ?_
    refine Keeps.bind (Keeps.lift _) fun _ => Keeps.bind (Keeps.step fun _ => rfl) fun _ => ?_
    exact Keeps.bind (Keeps.step fun _ => rfl) fun _ => Keeps.step fun _ => rfl

theorem nodup_of_listNames {α : Type} {scan : Scan} {path : Option (Node α)}
    {names : List FileName} (listed : listNames env scan path = .ok names) : names.Nodup := by
  obtain ⟨entries, _, folded⟩ := bind_eq_ok.mp listed
  cases entries with
  | none =>
      cases folded
      exact List.nodup_nil
  | some entries =>
      cases folded
      exact (env.listing_perm scan entries.keys).nodup_iff.mpr entries.nodupKeys

theorem readDirectory_of_listNames {α : Type} {scan : Scan} {path : Option (Node α)}
    {names : List FileName} (listed : listNames env scan path = .ok names) (error : CacheError) :
    readDirectoryIfPresent path ≠ .error error := by
  obtain ⟨entries, found, _⟩ := bind_eq_ok.mp listed
  rw [found]
  simp

/-- What is left to show of a collection after its objects. -/
structure Continues (env : Environment) (request : GcRequest) (returns : GcReport → Root → Prop)
    (raises : CacheError → Root → Prop) (report : GcReport) (middle : Root) : Prop where
  closed : ∀ error, readDirectoryIfPresent middle.objects = .error error → raises error middle
  unlisted : ∀ error, listNames env .collectArtifacts middle.artifacts = .error error →
    raises error middle
  bundles : ∀ keys, listNames env .collectArtifacts middle.artifacts = .ok keys →
    (keys.foldlM (collectArtifact env request) report).Meets (fun _ => .pass) middle
      (fun report after => returns report after ∧ ∀ error, raises error after) raises
      fun _ => False

theorem garbageCollect_rule {returns : GcReport → Root → Prop} {raises : CacheError → Root → Prop}
    (malformed : ¬request.WellFormed → ∀ error, raises error root)
    (refused : ¬Lockable env root.lock → ∀ error lock, raises error { root with lock := lock })
    (unlisted : ∀ error lock, listNames env .collectObjects root.objects = .error error →
      raises error { root with lock := lock })
    (objects : request.WellFormed → Lockable env root.lock → ∀ names lock,
      listNames env .collectObjects root.objects = .ok names →
        (names.foldlM (collectObject env request) (retainedOnly request 0 0)).Meets
          (fun _ => .pass) { root with lock := lock } (Continues env request returns raises) raises
          fun _ => False) :
    (garbageCollect env request).Meets (fun _ => .pass) root returns raises fun _ => False := by
  unfold garbageCollect
  apply Meets.bind
  refine Meets.require (fun wellFormed => ?_) fun ill => malformed ill _
  apply Meets.bind
  refine (lock_passes env root).mono ?_ ?_ fun _ stopped => stopped
  · rintro _ _ ⟨lockable, lock, rfl⟩
    apply Meets.bind
    apply Meets.read
    apply Meets.bind
    refine Meets.lift (fun names listed => ?_) fun error failed => unlisted error lock failed
    apply Meets.bind
    refine (objects wellFormed lockable names lock listed).mono ?_ (fun _ _ raised => raised)
      fun _ stopped => stopped
    rintro report middle ⟨closed, unlisted, bundles⟩
    apply Meets.bind
    apply Meets.read
    apply Meets.bind
    unfold syncCollected
    apply Meets.bind
    refine Meets.lift (fun entries _ => ?_) closed
    have next : ((do
        let artifacts ← Program.lift (listNames env .collectArtifacts (← read).artifacts)
        let report ← artifacts.foldlM (collectArtifact env request) report
        syncCollected request .artifacts (← read).artifacts
        pure report) : Action GcReport).Meets (fun _ => .pass) middle returns raises
          fun _ => False := by
      apply Meets.bind
      apply Meets.read
      apply Meets.bind
      refine Meets.lift (fun keys listed => ?_) unlisted
      apply Meets.bind
      refine (bundles keys listed).mono ?_ (fun _ _ raised => raised) fun _ stopped => stopped
      rintro report after ⟨returned, raised⟩
      apply Meets.bind
      apply Meets.read
      apply Meets.bind
      refine (syncCollected_passes .artifacts after.artifacts).mono ?_ ?_ fun _ stopped => stopped
      · rintro _ _ rfl
        exact Meets.pure returned
      · rintro _ _ rfl
        exact raised _
    cases entries with
    | none => exact Meets.pure next
    | some entries => exact Meets.when (fun _ => Meets.step_unrefused next) fun _ => next
  · rintro error _ ⟨locked, lock, rfl⟩
    exact refused locked error lock

theorem untouched_lock (lock : Option Leaf) : Untouched root { root with lock := lock } :=
  ⟨fun _ _ found => found, fun _ _ found => found⟩

/-- A collection that returns has found nothing to refuse. -/
theorem garbageCollect_accepted (execute : request.execute = true) :
    (garbageCollect env request).Meets (fun _ => .pass) root (fun _ _ => ¬Rejects env root)
      (fun _ _ => True) fun _ => False := by
  refine garbageCollect_rule (fun _ _ => trivial) (fun _ _ _ => trivial) (fun _ _ _ => trivial)
    fun _ _ names lock listed => ?_
  have turns : Turns Area.objects (AcceptsObject env) _ _ _ := turns_objects execute
  have accepted := turns.accepted_from { root with lock := lock } (nodup_of_listNames listed)
    (retainedOnly request 0 0)
  refine (accepted.keeping (Keeps.foldlM fun _ _ => keeps_artifacts _ _)).mono ?_
    (fun _ _ _ => trivial) fun _ stopped => stopped.1
  rintro report middle ⟨objects, same : middle.artifacts = root.artifacts⟩
  refine ⟨fun _ _ => trivial, fun _ _ => trivial, fun keys listedKeys => ?_⟩
  rw [same] at listedKeys
  have turns : Turns Area.artifacts (AcceptsBundle env) _ _ _ :=
    turns_bundles execute (Nat.two_pow_pos 64)
  refine (turns.accepted_from middle (nodup_of_listNames listedKeys) report).mono ?_
    (fun _ _ _ => trivial) fun _ stopped => stopped
  refine fun _ _ bundles => ⟨?_, fun _ => trivial⟩
  rintro (⟨_, again, name, member, refused⟩ | ⟨_, again, name, member, refused⟩)
  · rw [listed, Except.ok.injEq] at again
    subst again
    exact refused (objects name member)
  · rw [listedKeys, Except.ok.injEq] at again
    subst again
    exact refused (acceptsBundle_congr (by rw [same]) (bundles name member))

/-- A collection that reaches no entry to remove removes none. -/
theorem garbageCollect_spares (execute : request.execute = true)
    (spares : request.WellFormed → Lockable env root.lock →
      ¬RemovesObject env request root ∧ ¬RemovesBundle env request root) :
    (garbageCollect env request).Meets (fun _ => .pass) root (fun _ _ => True)
      (fun _ after => Untouched root after) fun _ => False := by
  refine garbageCollect_rule (fun _ _ => untouched_lock root.lock)
    (fun _ _ lock => untouched_lock lock) (fun _ lock _ => untouched_lock lock)
    fun wellFormed lockable names lock listed => ?_
  obtain ⟨noObject, noBundle⟩ := spares wellFormed lockable
  have first : ¬RemovesFirst (AcceptsObject env { root with lock := lock })
      request.keepsObjectName names := fun removes => noObject ⟨names, listed, removes⟩
  refine ((turns_objects execute).spared first).mono ?_ ?_ fun _ stopped => stopped
  · rintro _ _ ⟨rfl, rfl, few, all⟩
    refine ⟨fun _ _ => untouched_lock lock, fun _ _ => untouched_lock lock, fun keys listedKeys => ?_⟩
    have fewObjects : names.length < 2 ^ 64 := by
      rcases few with rfl | few
      · exact Nat.two_pow_pos 64
      · exact few
    have later : ¬RemovesFirst (AcceptsBundle env { root with lock := lock })
        request.keepsBundleName keys :=
      fun removes => noBundle ⟨names, listed, fewObjects, all, keys, listedKeys, removes⟩
    refine ((turns_bundles execute fewObjects).spared later).mono ?_ ?_ fun _ stopped => stopped
    · rintro _ _ ⟨_, rfl, _⟩
      exact ⟨trivial, fun _ => untouched_lock lock⟩
    · rintro _ _ rfl
      exact untouched_lock lock
  · rintro _ _ rfl
    exact untouched_lock lock

/-- A collection that reaches an entry to remove removes it, however it ends. -/
theorem garbageCollect_removes (execute : request.execute = true) (wellFormed : request.WellFormed)
    (lockable : Lockable env root.lock)
    (removes : RemovesObject env request root ∨ RemovesBundle env request root) :
    (garbageCollect env request).Meets (fun _ => .pass) root
      (fun _ after => ¬Untouched root after) (fun _ after => ¬Untouched root after)
      fun _ => False := by
  rcases removes with ⟨names, listed, before, name, rest, split, few, all, accepted, dropped⟩ |
      ⟨names, listed, fewObjects, allObjects, keys, listedKeys, before, name, rest, split, few, all,
        accepted, dropped⟩
  · obtain ⟨digest, bytes, rfl, _, ⟨node, found, _⟩, _⟩ := id accepted
    have gone : ∀ after : Root, (∀ node, child after.objects (.text digest) ≠ .ok node) →
        ¬Untouched root after :=
      fun after missing untouched => missing node (untouched.object _ node found)
    refine garbageCollect_rule (fun ill => absurd wellFormed ill)
      (fun locked => absurd lockable locked)
      (fun error _ failed => by rw [listed] at failed; cases failed) fun _ _ again lock relisted => ?_
    rw [listed, Except.ok.injEq] at relisted
    subst relisted
    have accepted : AcceptsObject env { root with lock := lock } (.text digest) := accepted
    have all : ∀ entry ∈ before, AcceptsObject env { root with lock := lock } entry ∧
        request.keepsObjectName entry = true := all
    refine ((turns_objects execute).removed split few all accepted dropped).mono ?_
      (fun _ after missing => gone after missing) fun _ stopped => stopped
    intro report middle (missing : ∀ node, child middle.objects (.text digest) ≠ .ok node)
    refine ⟨fun _ _ => gone middle missing, fun _ _ => gone middle missing, fun keys _ => ?_⟩
    have kept : (keys.foldlM (collectArtifact env request) report).Keeps Root.objects :=
      Keeps.foldlM fun _ _ => keeps_objects _ _
    have met : (keys.foldlM (collectArtifact env request) report).Meets (fun _ => .pass) middle
        (fun _ _ => True) (fun _ _ => True) fun _ => False :=
      Meets.alive (Meets.ends (fun _ _ => trivial) (fun _ _ => trivial) fun _ => trivial) (by simp)
    refine (met.keeping kept).mono ?_ ?_ fun _ stopped => stopped.1
    · rintro _ after ⟨_, same : after.objects = middle.objects⟩
      rw [← same] at missing
      exact ⟨gone after missing, fun _ => gone after missing⟩
    · rintro _ after ⟨_, same : after.objects = middle.objects⟩
      rw [← same] at missing
      exact gone after missing
  · obtain ⟨key, bundle, rfl, _, ⟨node, found, _⟩, _⟩ := id accepted
    have gone : ∀ after : Root, (∀ node, child after.artifacts (.text key) ≠ .ok node) →
        ¬Untouched root after :=
      fun after missing untouched => missing node (untouched.bundle _ node found)
    refine garbageCollect_rule (fun ill => absurd wellFormed ill)
      (fun locked => absurd lockable locked)
      (fun error _ failed => by rw [listed] at failed; cases failed) fun _ _ again lock relisted => ?_
    rw [listed, Except.ok.injEq] at relisted
    subst relisted
    have allObjects : ∀ name ∈ names, AcceptsObject env { root with lock := lock } name ∧
        request.keepsObjectName name = true := allObjects
    refine ((turns_objects execute).retained allObjects fewObjects).mono ?_
      (fun _ _ impossible => impossible.elim) fun _ stopped => stopped
    rintro _ _ ⟨rfl, rfl⟩
    refine ⟨fun error failed => ?_, fun error failed => ?_, fun again relisted => ?_⟩
    · exact absurd failed (readDirectory_of_listNames listed error)
    · rw [show listNames env .collectArtifacts _ = _ from listedKeys] at failed
      cases failed
    · rw [show listNames env .collectArtifacts _ = _ from listedKeys, Except.ok.injEq] at relisted
      subst relisted
      have accepted : AcceptsBundle env { root with lock := lock } (.text key) := accepted
      have all : ∀ entry ∈ before, AcceptsBundle env { root with lock := lock } entry ∧
          request.keepsBundleName entry = true := all
      refine ((turns_bundles execute fewObjects).removed split few all accepted dropped).mono ?_
        (fun _ after missing => gone after missing) fun _ stopped => stopped
      exact fun _ after missing => ⟨gone after missing, fun _ => gone after missing⟩

/-- A collection removes nothing before it fails at a refused entry exactly when it does not reach
an entry to remove first. -/
theorem validatesFirst_iff (env : Environment) (request : GcRequest) (root : Root) :
    ValidatesFirst env request root ↔
      ¬(request.execute = true ∧ request.WellFormed ∧ Lockable env root.lock ∧ Rejects env root ∧
        (RemovesObject env request root ∨ RemovesBundle env request root)) := by
  constructor
  · rintro validates ⟨execute, wellFormed, lockable, rejects, removes⟩
    have met := (garbageCollect_removes execute wellFormed lockable removes).and
      (garbageCollect_accepted execute)
    rcases met.passing with ⟨_, _, _, _, accepted⟩ | ⟨error, after, ended, touched, _⟩
    · exact accepted rejects
    · exact touched (validates error after ended rejects)
  · intro safe error after ended rejects
    cases execute : request.execute with
    | false =>
        have met : (garbageCollect env request).Meets (fun _ => .pass) root _ _ _ :=
          garbageCollect_idle execute
        rcases met.passing with ⟨_, _, ended', _⟩ | ⟨_, _, ended', idle⟩
        · rw [ended] at ended'
          cases ended'
        · rw [ended] at ended'
          cases ended'
          rw [idle.stores]
          exact untouched_lock after.lock
    | true =>
        have met : (garbageCollect env request).Meets (fun _ => .pass) root _ _ _ :=
          garbageCollect_spares execute fun wellFormed lockable =>
            not_or.mp fun removes => safe ⟨execute, wellFormed, lockable, rejects, removes⟩
        rcases met.passing with ⟨_, _, ended', _⟩ | ⟨_, _, ended', untouched⟩
        · rw [ended] at ended'
          cases ended'
        · rw [ended] at ended'
          cases ended'
          exact untouched

/-- A cache with an unretained object before an entry whose name is no digest. -/
def mixedObjects : Root where
  metadata := some ⟨.directory, ⟨1000, 0o700, 1⟩, 0⟩
  lock := none
  objects := some (.directory ⟨1000, 0o700, 1⟩
    (((∅ : Folder Leaf).insert (.text "stray") (privateFile sampleEnvironment [])).insert
      (.text (sampleDigest [])) (privateFile sampleEnvironment [])))
  artifacts := none

theorem not_validatesFirst_mixed :
    ¬ValidatesFirst sampleEnvironment (retainsNothing.executing true) mixedObjects := by
  intro validates
  have refused : ((garbageCollect sampleEnvironment (retainsNothing.executing true)).passing
      mixedObjects).1 = .error .unsafeMetadata := by decide +kernel
  have rejects : Rejects sampleEnvironment mixedObjects := by
    refine .inl ⟨[.text (sampleDigest []), .text "stray"], rfl, .text "stray", by simp, ?_⟩
    rintro ⟨_, _, ⟨⟩, valid, _⟩
    exact absurd valid (by decide)
  have untouched := validates _ _ (Prod.ext refused rfl) rejects
  have kept := untouched.object (.text (sampleDigest [])) (privateFile sampleEnvironment []) rfl
  have gone : ∀ (root : Root) (node : Leaf), child (Area.objects.change
      (fun entries => entries.erase (.text (sampleDigest []))) root).objects
        (.text (sampleDigest [])) ≠ .ok node := fun _ => gone_object.missing
  exact gone _ _ kept

end Collections

end NixSeal.Cache
