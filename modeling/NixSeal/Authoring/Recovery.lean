import NixSeal.Lib.Fallible
import NixSeal.Authoring.Batch

/-!
# What a failed batch leaves behind

A failed call leaves every destination as it was, except where the handle of a filled backup is
dropped.  The description of a rollback below says for every item what becomes of its destination,
whichever steps of the rollback are refused in their turn.
-/

namespace NixSeal.Authoring

open Faulty Program

/-- The system refuses the chosen steps and kills nobody. -/
def refusing (fails : Step → Bool) (label : Step) : Verdict :=
  if fails label then .fail else .pass

section Transaction

variable {mode : WriteMode} {fails : Step → Bool} {prepared : List Prepared} {before disk : Disk}
  {moved committed : Nat}

/-- What the preparation established about the items of a transaction. -/
structure Consistent (mode : WriteMode) (before : Disk) (prepared : List Prepared) : Prop where
  distinct : (prepared.map Prepared.destination).Nodup
  original : ∀ item ∈ prepared, item.needsBackup mode = true →
    (before.entries item.destination).isSome = true
  vacant : ∀ item ∈ prepared, item.needsBackup mode = false →
    before.entries item.destination = none
  staged : ∀ item ∈ prepared, item.kind ≠ .privateDelete → item.staged.isSome = true
  fresh : ∀ item ∈ prepared, ∀ file, item.staged = some file →
    ∀ path, before.entries path ≠ some file
  regular : ∀ item ∈ prepared, ∀ file, before.entries item.destination = some file →
    file.regular = true
  single : ∀ path other file, file.regular = true → before.entries path = some file →
    before.entries other = some file → path = other
  empty : ∀ index, before.held index = none

theorem mem_of_mem_zipIdx {item : Prepared × Nat} (member : item ∈ prepared.zipIdx) :
    item.1 ∈ prepared :=
  List.mem_of_getElem? (List.mem_zipIdx_iff_getElem?.mp member)

theorem Consistent.apart (consistent : Consistent mode before prepared) {item other : Prepared × Nat}
    (member : item ∈ prepared.zipIdx) (other_member : other ∈ prepared.zipIdx)
    (different : other ≠ item) : other.1.destination ≠ item.1.destination := by
  intro same
  have found := List.mem_zipIdx_iff_getElem?.mp member
  have other_found := List.mem_zipIdx_iff_getElem?.mp other_member
  have index : other.2 = item.2 := by
    refine (List.getElem?_inj ?_ consistent.distinct).mp ?_
    · rw [List.length_map]
      exact (List.getElem?_eq_some_iff.mp other_found).1
    · rw [List.getElem?_map, List.getElem?_map, found, other_found]
      exact congrArg some same
  rw [index, found] at other_found
  exact different (Prod.ext (Option.some.inj other_found).symm index)

/-- Every destination holds what is said about its item, and nothing else has changed. -/
structure Shape (prepared : List Prepared) (before disk : Disk)
    (entry : Prepared × Nat → Option File) : Prop where
  entries : ∀ item ∈ prepared.zipIdx, disk.entries item.1.destination = entry item
  others : ∀ path, path ∉ prepared.map Prepared.destination →
    disk.entries path = before.entries path

theorem Shape.congr {entry changed : Prepared × Nat → Option File}
    (shape : Shape prepared before disk entry)
    (same : ∀ item ∈ prepared.zipIdx, changed item = entry item) :
    Shape prepared before disk changed where
  entries item member := (shape.entries item member).trans (same item member).symm
  others := shape.others

theorem Shape.of_entries {entry : Prepared × Nat → Option File}
    (shape : Shape prepared before disk entry) {changed : Disk} (same : changed.entries = disk.entries) :
    Shape prepared before changed entry where
  entries item member := by
    rw [same]
    exact shape.entries item member
  others path absent := by
    rw [same]
    exact shape.others path absent

theorem Shape.set {entry changed : Prepared × Nat → Option File}
    (shape : Shape prepared before disk entry) (consistent : Consistent mode before prepared)
    {item : Prepared × Nat} (member : item ∈ prepared.zipIdx) {file : Option File}
    (here : changed item = file)
    (elsewhere : ∀ other ∈ prepared.zipIdx, other ≠ item → changed other = entry other) :
    Shape prepared before (disk.set item.1.destination file) changed where
  entries other other_member := by
    by_cases same : other = item
    · rw [same, here]
      simp [Disk.set]
    · rw [elsewhere other other_member same, ← shape.entries other other_member]
      exact Function.update_of_ne (consistent.apart member other_member same) _ _
  others path absent := by
    have different : path ≠ item.1.destination := by
      intro same
      exact absent (same ▸ List.mem_map_of_mem (mem_of_mem_zipIdx member))
    exact (Function.update_of_ne different _ _).trans (shape.others path absent)

/-- Whether the original of an item has been moved away. -/
def isMoved (mode : WriteMode) (moved : Nat) (item : Prepared × Nat) : Prop :=
  item.2 < moved ∧ item.1.needsBackup mode = true

/-- Whether the staged file of an item is in place. -/
def isCommitted (committed : Nat) (item : Prepared × Nat) : Prop :=
  item.2 < committed ∧ item.1.kind ≠ .privateDelete

instance (item : Prepared × Nat) : Decidable (isMoved mode moved item) :=
  inferInstanceAs (Decidable (_ ∧ _))

instance (item : Prepared × Nat) : Decidable (isCommitted committed item) :=
  inferInstanceAs (Decidable (_ ∧ _))

/-- The destination of an item while the transaction goes forward. -/
def forwardEntry (mode : WriteMode) (before : Disk) (moved committed : Nat)
    (item : Prepared × Nat) : Option File :=
  if isCommitted committed item then item.1.staged
  else if isMoved mode moved item then none
  else before.entries item.1.destination

/-- The destination of an item after a rollback. -/
def restoredEntry (mode : WriteMode) (fails : Step → Bool) (before : Disk) (moved committed : Nat)
    (item : Prepared × Nat) : Option File :=
  if isMoved mode moved item ∧ fails (.restoreOriginal item.2) = false then
    before.entries item.1.destination
  else if isCommitted committed item ∧ fails (.removeCommitted item.2) = true then item.1.staged
  else if isMoved mode moved item ∨ isCommitted committed item then none
  else before.entries item.1.destination

/-- Whether the rollback reports the item as restored. -/
def reportsRestored (mode : WriteMode) (fails : Step → Bool) (moved committed : Nat)
    (item : Prepared × Nat) : Prop :=
  (isCommitted committed item → fails (.removeCommitted item.2) = false) ∧
    (isMoved mode moved item → fails (.restoreOriginal item.2) = false)

/-- The disk while the transaction goes forward. -/
structure Forward (mode : WriteMode) (prepared : List Prepared) (before : Disk)
    (moved committed : Nat) (disk : Disk) : Prop where
  shape : Shape prepared before disk (forwardEntry mode before moved committed)
  held : ∀ item ∈ prepared.zipIdx, disk.held item.2 =
    if isMoved mode moved item then before.entries item.1.destination else none

/-- The disk after the items in `done` were rolled back. -/
structure Backward (mode : WriteMode) (fails : Step → Bool) (prepared : List Prepared)
    (before : Disk) (moved committed : Nat) (done : List (Prepared × Nat)) (disk : Disk) :
    Prop where
  shape : Shape prepared before disk fun item =>
    if item ∈ done then restoredEntry mode fails before moved committed item
    else forwardEntry mode before moved committed item
  held : ∀ item ∈ prepared.zipIdx, item ∉ done → disk.held item.2 =
    if isMoved mode moved item then before.entries item.1.destination else none

theorem index_ne {item other : Prepared × Nat} (member : item ∈ prepared.zipIdx)
    (other_member : other ∈ prepared.zipIdx) (different : other ≠ item) : other.2 ≠ item.2 := by
  intro same
  have found := List.mem_zipIdx_iff_getElem?.mp member
  have other_found := List.mem_zipIdx_iff_getElem?.mp other_member
  rw [same, found] at other_found
  exact different (Prod.ext (Option.some.inj other_found).symm same)

/-- One more item is rolled back when its destination is as the rollback leaves it. -/
theorem Backward.next {done : List (Prepared × Nat)} {changed : Disk}
    (backward : Backward mode fails prepared before moved committed done disk)
    {item : Prepared × Nat}
    (shape : Shape prepared before changed fun other =>
      if other = item then restoredEntry mode fails before moved committed item
      else if other ∈ done then restoredEntry mode fails before moved committed other
      else forwardEntry mode before moved committed other)
    (held : ∀ other ∈ prepared.zipIdx, other ≠ item → changed.held other.2 = disk.held other.2) :
    Backward mode fails prepared before moved committed (done ++ [item]) changed where
  shape := by
    refine shape.congr fun other member => ?_
    by_cases same : other = item
    · simp [same]
    · simp [same]
  held other member absent := by
    have different : other ≠ item := fun same => absent (by simp [same])
    rw [held other member different]
    exact backward.held other member fun inside => absent (by simp [inside])

/-- The steps that move the original of an item away. -/
def moveSteps (mode : WriteMode) (item : Prepared × Nat) : List Step :=
  if item.1.needsBackup mode then
    [.createBackup item.2, .protectBackup item.2, .moveOriginal item.2]
  else []

/-- The steps that commit an item. -/
def commitSteps (item : Prepared × Nat) : List Step :=
  if item.1.kind = .privateDelete then []
  else if item.1.kind = .publicOutput then [.publish item.2, .persist item.2]
  else [.persist item.2]

/-- The steps of a transaction that nothing refuses. -/
def forwardSteps (mode : WriteMode) (prepared : List Prepared) : List Step :=
  prepared.zipIdx.flatMap (moveSteps mode) ++ prepared.zipIdx.flatMap commitSteps ++ [.sync]

/-- The first step of a transaction that is refused. -/
def stopsAt (mode : WriteMode) (fails : Step → Bool) (prepared : List Prepared) : Option Step :=
  (forwardSteps mode prepared).find? fails

theorem stopsAt_eq_some (done rest : List Step) {label : Step}
    (split : forwardSteps mode prepared = done ++ label :: rest)
    (passed : ∀ other ∈ done, fails other = false) (failed : fails label = true) :
    stopsAt mode fails prepared = some label := by
  have skipped : done.find? fails = none := List.find?_eq_none.mpr fun other member => by
    simp [passed other member]
  rw [stopsAt, split, List.find?_append, skipped, List.find?_cons_of_pos failed]
  rfl

/-- How a transaction ends when it does not succeed. -/
inductive Ended (mode : WriteMode) (fails : Step → Bool) (prepared : List Prepared)
    (before : Disk) : AuthoringError → Disk → Prop where
  /-- A backup could not be made: the filled ones are dropped. -/
  | dropped (index : Nat) (after : Disk)
      (stop : stopsAt mode fails prepared = some (.createBackup index) ∨
        stopsAt mode fails prepared = some (.protectBackup index))
      (forward : Forward mode prepared before index 0 after) :
      Ended mode fails prepared before .io after
  /-- A rollback follows an original that could not be moved, or a file that could not be
  committed. -/
  | rolledBack (moved committed : Nat) (unrestored : AuthoringError) (restored : Bool)
      (after : Disk)
      (stop : (stopsAt mode fails prepared = some (.moveOriginal moved) ∧ committed = 0 ∧
          unrestored = .batchRecoveryUnknown) ∨
        (moved = prepared.length ∧
          ((stopsAt mode fails prepared = some (.persist committed) ∧
              unrestored = .batchRecoveryUnknown) ∨
            stopsAt mode fails prepared = some (.publish committed) ∧ unrestored = .io)))
      (shape : Shape prepared before after (restoredEntry mode fails before moved committed))
      (reported : restored = true ↔
        ∀ item ∈ prepared.zipIdx, reportsRestored mode fails moved committed item) :
      Ended mode fails prepared before (if restored then .batchRolledBack else unrestored) after
  /-- Everything is committed. -/
  | unsynced (after : Disk) (stop : stopsAt mode fails prepared = some .sync) :
      Ended mode fails prepared before .durabilityUnknown after

theorem index_of_split {done rest : List (Prepared × Nat)} {item : Prepared × Nat}
    (split : prepared.zipIdx = done ++ item :: rest) : item.2 = done.length := by
  have position : prepared.zipIdx[done.length]? = some item := by
    rw [split]
    simp
  obtain ⟨inside, here⟩ := List.getElem?_eq_some_iff.mp position
  rw [← here, List.getElem_zipIdx]
  simp

theorem Forward.move (consistent : Consistent mode before prepared) {item : Prepared × Nat}
    (member : item ∈ prepared.zipIdx) (needs : item.1.needsBackup mode = true)
    (forward : Forward mode prepared before item.2 0 disk) :
    Forward mode prepared before (item.2 + 1) 0
      ((disk.hold item.2 (disk.entries item.1.destination)).set item.1.destination none) := by
  have same : ∀ other ∈ prepared.zipIdx, other ≠ item →
      (isMoved mode (item.2 + 1) other ↔ isMoved mode item.2 other) := by
    intro other other_member different
    have apart := index_ne member other_member different
    unfold isMoved
    constructor
    · rintro ⟨early, needed⟩
      exact ⟨by omega, needed⟩
    · rintro ⟨early, needed⟩
      exact ⟨by omega, needed⟩
  have away : isMoved mode (item.2 + 1) item := ⟨by omega, needs⟩
  constructor
  · have held : Shape prepared before (disk.hold item.2 (disk.entries item.1.destination))
        (forwardEntry mode before item.2 0) := forward.shape.of_entries rfl
    refine held.set consistent member ?_ fun other other_member different => ?_
    · simp [forwardEntry, isCommitted, away]
    · simp [forwardEntry, isCommitted, same other other_member different]
  · intro other other_member
    by_cases equal : other = item
    · have original : disk.entries item.1.destination = before.entries item.1.destination := by
        rw [forward.shape.entries item member]
        simp [forwardEntry, isCommitted, isMoved]
      rw [equal, if_pos away, ← original]
      simp [Disk.hold, Disk.set]
    · rw [if_congr (same other other_member equal) rfl rfl, ← forward.held other other_member]
      simp [Disk.hold, Disk.set, index_ne member other_member equal]

theorem Forward.skip {item : Prepared × Nat} (member : item ∈ prepared.zipIdx)
    (needless : item.1.needsBackup mode = false)
    (forward : Forward mode prepared before item.2 committed disk) :
    Forward mode prepared before (item.2 + 1) committed disk := by
  have same : ∀ other ∈ prepared.zipIdx,
      (isMoved mode (item.2 + 1) other ↔ isMoved mode item.2 other) := by
    intro other other_member
    by_cases equal : other = item
    · simp [isMoved, equal, needless]
    · have apart := index_ne member other_member equal
      unfold isMoved
      constructor
      · rintro ⟨early, needed⟩
        exact ⟨by omega, needed⟩
      · rintro ⟨early, needed⟩
        exact ⟨by omega, needed⟩
  refine ⟨forward.shape.congr fun other other_member => ?_, fun other other_member => ?_⟩
  · simp [forwardEntry, same other other_member]
  · rw [if_congr (same other other_member) rfl rfl]
    exact forward.held other other_member

theorem Forward.commit (consistent : Consistent mode before prepared) {item : Prepared × Nat}
    (member : item ∈ prepared.zipIdx) {staged : File} (kind : item.1.kind ≠ .privateDelete)
    (isStaged : item.1.staged = some staged)
    (forward : Forward mode prepared before moved item.2 disk) :
    Forward mode prepared before moved (item.2 + 1)
      (disk.set item.1.destination (some staged)) := by
  constructor
  · refine forward.shape.set consistent member ?_ fun other other_member different => ?_
    · rw [forwardEntry, if_pos ⟨by omega, kind⟩, isStaged]
    · have apart := index_ne member other_member different
      have same : isCommitted (item.2 + 1) other ↔ isCommitted item.2 other := by
        unfold isCommitted
        constructor
        · rintro ⟨early, committed⟩
          exact ⟨by omega, committed⟩
        · rintro ⟨early, committed⟩
          exact ⟨by omega, committed⟩
      simp [forwardEntry, same]
  · exact forward.held

theorem Forward.pass {item : Prepared × Nat} (member : item ∈ prepared.zipIdx)
    (kind : item.1.kind = .privateDelete)
    (forward : Forward mode prepared before moved item.2 disk) :
    Forward mode prepared before moved (item.2 + 1) disk := by
  refine ⟨forward.shape.congr fun other other_member => ?_, forward.held⟩
  have same : isCommitted (item.2 + 1) other ↔ isCommitted item.2 other := by
    by_cases equal : other = item
    · simp [isCommitted, equal, kind]
    · have apart := index_ne member other_member equal
      unfold isCommitted
      constructor
      · rintro ⟨early, committed⟩
        exact ⟨by omega, committed⟩
      · rintro ⟨early, committed⟩
        exact ⟨by omega, committed⟩
  simp [forwardEntry, same]

/-- The state of the commit loop after the items in `done`. -/
structure Committing (mode : WriteMode) (fails : Step → Bool) (prepared : List Prepared)
    (before : Disk) (done : List (Prepared × Nat)) (names : List String) (disk : Disk) : Prop where
  moves : ∀ label ∈ prepared.zipIdx.flatMap (moveSteps mode), fails label = false
  commits : ∀ label ∈ done.flatMap commitSteps, fails label = false
  named : ∀ item ∈ prepared.zipIdx,
    item.1.destination ∈ names ↔ isCommitted done.length item
  forward : Forward mode prepared before prepared.length done.length disk

theorem Committing.stops {done rest : List (Prepared × Nat)} {item : Prepared × Nat}
    {names : List String} (committing : Committing mode fails prepared before done names disk)
    (split : prepared.zipIdx = done ++ item :: rest) (earlier : List Step) {later : List Step}
    {label : Step} (listed : commitSteps item = earlier ++ label :: later)
    (clear : ∀ other ∈ earlier, fails other = false) (failed : fails label = true) :
    stopsAt mode fails prepared = some label := by
  refine stopsAt_eq_some
    (prepared.zipIdx.flatMap (moveSteps mode) ++ (done.flatMap commitSteps ++ earlier))
    (later ++ rest.flatMap commitSteps ++ [.sync]) ?_ ?_ failed
  · have commits : prepared.zipIdx.flatMap commitSteps =
        done.flatMap commitSteps ++ (earlier ++ label :: later) ++ rest.flatMap commitSteps := by
      rw [split, List.flatMap_append, List.flatMap_cons, listed]
      simp
    rw [forwardSteps, commits]
    simp
  · intro other inside
    rcases List.mem_append.mp inside with early | late
    · exact committing.moves other early
    · rcases List.mem_append.mp late with early | late
      · exact committing.commits other early
      · exact clear other late

theorem Committing.next (consistent : Consistent mode before prepared)
    {done rest : List (Prepared × Nat)} {item : Prepared × Nat} {names : List String}
    (committing : Committing mode fails prepared before done names disk)
    (split : prepared.zipIdx = done ++ item :: rest) {staged : File}
    (kind : item.1.kind ≠ .privateDelete) (isStaged : item.1.staged = some staged)
    (clear : ∀ label ∈ commitSteps item, fails label = false) :
    Committing mode fails prepared before (done ++ [item]) (names ++ [item.1.destination])
      (disk.set item.1.destination (some staged)) := by
  have index := index_of_split split
  have member : item ∈ prepared.zipIdx := by
    rw [split]
    simp
  refine ⟨committing.moves, ?_, ?_, ?_⟩
  · intro label inside
    rw [List.flatMap_append, List.mem_append] at inside
    rcases inside with early | late
    · exact committing.commits label early
    · exact clear label (by simpa using late)
  · intro other other_member
    rw [List.mem_append, committing.named other other_member, List.mem_singleton]
    simp only [List.length_append, List.length_cons, List.length_nil, isCommitted, Nat.zero_add]
    by_cases equal : other = item
    · simp [equal, kind, index]
    · have apart := index_ne member other_member equal
      have different := consistent.apart member other_member equal
      simp only [different, or_false]
      constructor
      · rintro ⟨early, committed⟩
        exact ⟨by omega, committed⟩
      · rintro ⟨early, committed⟩
        exact ⟨by omega, committed⟩
  · have forward := committing.forward
    rw [← index] at forward
    simpa [← index] using forward.commit consistent member kind isStaged

theorem Forward.vacant (consistent : Consistent mode before prepared) {item : Prepared × Nat}
    (member : item ∈ prepared.zipIdx)
    (forward : Forward mode prepared before moved item.2 disk)
    (noclobber : item.1.noclobber mode = true) : disk.entries item.1.destination = none := by
  have needless : item.1.needsBackup mode = false := by
    unfold Prepared.noclobber at noclobber
    unfold Prepared.needsBackup
    cases kind : item.1.kind <;> simp_all
  rw [forward.shape.entries item member]
  simp [forwardEntry, isCommitted, isMoved, needless,
    consistent.vacant item.1 (mem_of_mem_zipIdx member) needless]

end Transaction

end NixSeal.Authoring
