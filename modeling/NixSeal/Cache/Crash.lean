import NixSeal.Cache.Collect
import NixSeal.Cache.Import

/-!
# What a killed process leaves behind

Processes open one cache after another, write to it and are killed at arbitrary steps.  Whatever
they leave, the next `Cache::open` finds a cache it can repair, unless a process was killed at one
of three places: inside the removal of a bundle, between the creation of a staged bundle and the
change of its mode, or between the two links of an object.
-/

namespace NixSeal.Cache

open Faulty Faulty.Program Ordered

/-- An operation of one process, and what the system does with its steps. -/
inductive Attempt where
  | openCache (verdict : Step → Verdict)
  | put (bytes : Bytes) (verdict : Step → Verdict)
  | putArtifact (address : ArtifactAddress) (ciphertext envelope : Bytes)
      (verdict : Step → Verdict)
  | importFrom (source : Source) (verdict : ImportStep → Verdict)
  | garbageCollect (request : GcRequest) (verdict : Step → Verdict)

namespace Attempt

/-- The root an operation leaves, however it ends. -/
def run (env : Environment) (root : Root) : Attempt → Root
  | .openCache verdict => (Cache.openCache env verdict root).state
  | .put bytes verdict => (Cache.put env bytes verdict root).state
  | .putArtifact address ciphertext envelope verdict =>
      (Cache.putArtifact env address ciphertext envelope verdict root).state
  | .importFrom source verdict => (Cache.importFrom env source verdict root).state
  | .garbageCollect request verdict => (Cache.garbageCollect env request verdict root).state

/-- The system refuses no step, and the process is not killed where recovery has no answer. -/
def Spared (env : Environment) : Attempt → Prop
  | .openCache verdict => Steady verdict
  | .put _ verdict => Steady verdict ∧ SparedLink env verdict
  | .putArtifact _ _ _ verdict => Steady verdict ∧ SparedStaging env verdict
  | .importFrom _ verdict => Steady verdict ∧ SparedCopy env (verdict ∘ .commit)
  | .garbageCollect _ verdict => Steady verdict ∧ SparedRemoval verdict

/-- The bundles an operation is adding. -/
def Adds (env : Environment) (key : String) (bundle : Bundle) : Attempt → Prop
  | .putArtifact address ciphertext envelope _ =>
      address.key env = .ok key ∧ bundle = ⟨ciphertext, envelope⟩
  | .importFrom (.elsewhere exchange) _ => ∃ added, Exchanged env exchange added ∧
      added.artifacts[key]? = some bundle
  | _ => False

end Attempt

/-- The root after a sequence of operations, each by a process of its own. -/
def replay (root : Root) (history : List (Environment × Attempt)) : Root :=
  history.foldl (fun root step => step.2.run step.1 root) root

section Survival

variable {env : Environment} {root : Root} {old : Contents}

/-- Contents whose bundles were there before, or are being added. -/
def Grown (env : Environment) (old : Contents) (attempt : Attempt) (root : Root) : Prop :=
  ∃ contents, Holds env false false root contents ∧ ∀ (key : String) (bundle : Bundle),
    contents.artifacts[key]? = some bundle →
      old.artifacts[key]? = some bundle ∨ attempt.Adds env key bundle

theorem Grown.same {attempt : Attempt} (holds : Holds env false false root old) :
    Grown env old attempt root :=
  ⟨old, holds, fun _ _ found => .inl found⟩

theorem grown_put (bytes : Bytes) {attempt : Attempt}
    (holds : Holds env false false root (old.put env bytes)) : Grown env old attempt root := by
  refine ⟨_, holds, fun key bundle found => .inl ?_⟩
  unfold Contents.put at found
  split at found
  · exact found
  · exact found

theorem grown_putArtifact {key : String} {bundle : Bundle} {attempt : Attempt}
    (adds : attempt.Adds env key bundle)
    (holds : Holds env false false root (old.putArtifact key bundle)) :
    Grown env old attempt root := by
  refine ⟨_, holds, fun other found inside => ?_⟩
  unfold Contents.putArtifact at inside
  split at inside
  · exact .inl inside
  · simp only [getElem?_insert_eq] at inside
    by_cases same : key = other
    · subst same
      rw [if_pos rfl, Option.some.injEq] at inside
      exact .inr (inside ▸ adds)
    · rw [if_neg same] at inside
      exact .inl inside

theorem grown_merged {added merged : Contents} {digests keys : List String} {exchange : Root}
    {verdict : ImportStep → Verdict} (exchanged : Exchanged env exchange added)
    (merge : Merged old added digests keys merged) (holds : Holds env false false root merged) :
    Grown env old (.importFrom (.elsewhere exchange) verdict) root := by
  refine ⟨merged, holds, fun key bundle found => ?_⟩
  rw [merge.artifact] at found
  cases before : old.artifacts[key]? with
  | some known =>
      rw [before, Option.some_or] at found
      exact .inl found
  | none =>
      rw [before, Option.none_or] at found
      refine .inr ⟨added, exchanged, ?_⟩
      split at found
      · exact found
      · cases found

/-- One operation, killed or not, leaves a cache that can be repaired. -/
theorem Attempt.grown (attempt : Attempt) (spared : attempt.Spared env)
    (holds : Holds env false false root old) : Grown env old attempt (attempt.run env root) := by
  cases attempt with
  | openCache verdict =>
      refine Meets.leaves (openCache_meets spared holds (fun after settled _ => ?_) fun after kept => ?_)
      · exact Grown.same settled.unsettle
      · exact Grown.same kept
  | put bytes verdict =>
      obtain ⟨steady, linked⟩ := spared
      refine Meets.leaves (put_meets steady linked holds (fun _ after stored => ?_)
        (fun _ after kept => ?_) fun after either => ?_)
      · exact grown_put bytes stored
      · exact Grown.same kept
      · exact either.elim Grown.same (grown_put bytes)
  | putArtifact address ciphertext envelope verdict =>
      obtain ⟨steady, staged⟩ := spared
      refine Meets.leaves ?_
      unfold Cache.putArtifact
      apply Meets.bind
      refine Meets.lift (fun key addressed => ?_) fun _ _ => Grown.same holds
      change (putArtifactByKey env key (Bundle.mk ciphertext envelope).ciphertext
        (Bundle.mk ciphertext envelope).envelope).Meets _ _ _ _ _
      refine putArtifactByKey_meets steady staged holds (fun _ after stored => ?_)
        (fun _ _ after kept => ?_) fun after either => ?_
      · exact grown_putArtifact ⟨addressed, rfl⟩ stored
      · exact Grown.same kept
      · exact either.elim Grown.same fun both => grown_putArtifact ⟨addressed, rfl⟩ both.2
  | importFrom source verdict =>
      obtain ⟨steady, copied⟩ := spared
      cases source with
      | itself =>
          refine Meets.leaves ?_
          unfold Cache.importFrom
          apply Meets.bind
          apply Meets.read
          apply Meets.bind
          exact Meets.lift (fun _ _ => Meets.raise (Grown.same holds)) fun _ _ => Grown.same holds
      | elsewhere exchange =>
          refine Meets.leaves ((importFrom_meets steady copied holds exchange).mono ?_ ?_ ?_)
          · rintro _ after ⟨added, exchanged, _, _, _, kept⟩
            refine ⟨_, kept, fun key bundle found => ?_⟩
            rw [Contents.merge_artifacts, Option.or_eq_some_iff] at found
            exact found.imp id fun fresh => ⟨added, exchanged, fresh.2⟩
          · rintro _ after ⟨_, _, kept, _⟩
            exact Grown.same kept
          · rintro after (kept | ⟨added, exchanged, _, _, digests, keys, merged, merge, kept⟩)
            · exact Grown.same kept
            · exact grown_merged exchanged merge kept
  | garbageCollect request verdict =>
      obtain ⟨steady, removed⟩ := spared
      refine Meets.leaves ((garbageCollect_meets steady removed holds request).mono ?_ ?_ ?_)
      · rintro _ after ⟨_, digests, keys, _, _, kept⟩
        exact ⟨_, kept, fun key bundle found =>
          .inl ((Contents.sweep_subset digests keys).artifact key bundle found)⟩
      · rintro _ after ⟨contents, subset, kept, _⟩
        exact ⟨_, kept, fun key bundle found => .inl (subset.artifact key bundle found)⟩
      · rintro after ⟨contents, subset, kept⟩
        exact ⟨_, kept, fun key bundle found => .inl (subset.artifact key bundle found)⟩

theorem replay_holds {history : List (Environment × Attempt)}
    (hosts : ∀ step ∈ history, env.SameHost step.1)
    (spared : ∀ step ∈ history, step.2.Spared step.1) (holds : Holds env false false root old) :
    ∃ contents, Holds env false false (replay root history) contents := by
  induction history generalizing root old with
  | nil => exact ⟨old, holds⟩
  | cons step rest ih =>
      have same := hosts step List.mem_cons_self
      obtain ⟨contents, kept, _⟩ :=
        step.2.grown (spared step List.mem_cons_self) (same.holds holds)
      exact ih (fun step member => hosts step (by simp [member]))
        (fun step member => spared step (by simp [member])) (same.symm.holds kept)

theorem Contents.Valid.countable {contents : Contents} (valid : contents.Valid env)
    (few : contents.objects.size + contents.artifacts.size ≤ maxTransferEntries) :
    contents.Countable := by
  have objects := total_le fun digest bytes found => (valid.object digest bytes found).2
  have ciphertexts : total contents.artifacts (fun bundle => bundle.ciphertext.length) ≤ _ :=
    total_le fun key bundle found => (valid.artifact key bundle found).2.1
  have envelopes : total contents.artifacts (fun bundle => bundle.envelope.length) ≤ _ :=
    total_le fun key bundle found => (valid.artifact key bundle found).2.2
  have small : maxTransferEntries * maxCiphertextBytes < 2 ^ 64 := by decide
  have short : maxTransferEntries * maxEnvelopeBytes < 2 ^ 64 := by decide
  have many : maxTransferEntries < 2 ^ 64 := by decide
  have first : contents.objects.size * maxCiphertextBytes ≤ maxTransferEntries * maxCiphertextBytes :=
    Nat.mul_le_mul_right _ (by omega)
  have second : contents.artifacts.size * maxCiphertextBytes ≤
      maxTransferEntries * maxCiphertextBytes := Nat.mul_le_mul_right _ (by omega)
  have third : contents.artifacts.size * maxEnvelopeBytes ≤
      maxTransferEntries * maxEnvelopeBytes := Nat.mul_le_mul_right _ (by omega)
  constructor
  · omega
  · exact lt_of_le_of_lt (objects.trans first) small
  · omega
  · exact lt_of_le_of_lt (ciphertexts.trans second) small
  · exact lt_of_le_of_lt (envelopes.trans third) short

theorem Attempt.adds_of_sameHost {other : Environment} (same : env.SameHost other) {key : String}
    {bundle : Bundle} {attempt : Attempt} (adds : attempt.Adds other key bundle) :
    attempt.Adds env key bundle := by
  cases attempt with
  | openCache verdict => exact adds
  | put bytes verdict => exact adds
  | putArtifact address ciphertext envelope verdict =>
      obtain ⟨addressed, rfl⟩ := adds
      refine ⟨?_, rfl⟩
      rwa [ArtifactAddress.key, same.digest, ← ArtifactAddress.key] at addressed
  | importFrom source verdict =>
      cases source with
      | itself => exact adds
      | elsewhere exchange =>
          obtain ⟨added, exchanged, found⟩ := adds
          exact ⟨added, same.symm.exchanged exchanged, found⟩
  | garbageCollect request verdict => exact adds

/-- After a kill at any spared step of any operation, in any state that operations and kills can
reach, opening the cache succeeds and leaves whole objects and bundles only: those of before and
those that were being added. -/
theorem open_after_kill {history : List (Environment × Attempt)}
    (hosts : ∀ step ∈ history, env.SameHost step.1)
    (spared : ∀ step ∈ history, step.2.Spared step.1) {running reopening : Environment}
    {last : Attempt} (here : env.SameHost running) (there : env.SameHost reopening)
    (sparedLast : last.Spared running) :
    ∃ reopened contents,
      openCache reopening (fun _ => .pass) (last.run running (replay Root.missing history)) =
          .ok () reopened ∧
        Shows env reopened.own true contents ∧
        (∀ name node, child reopened.objects name = .ok node →
          ∃ digest bytes, name = .text digest ∧ HasObject env reopened.own digest bytes) ∧
        (∀ name node, child reopened.artifacts name = .ok node →
          ∃ key bundle, name = .text key ∧ HasBundle env reopened.own key bundle ∧
            (HasBundle env (replay Root.missing history).own key bundle ∨
              last.Adds env key bundle)) ∧
        (contents.objects.size + contents.artifacts.size ≤ maxTransferEntries →
          reopened.own.inventory reopening = .ok contents.inventory ∧
            (contents.envelopeBytes ≤ maxInventoryEnvelopeBytes →
              reopened.own.artifactRecords reopening = .ok (contents.records reopening))) := by
  obtain ⟨old, before⟩ := replay_holds hosts spared (holds_missing env false false)
  obtain ⟨contents, kept, grown⟩ := last.grown sparedLast (here.holds before)
  have repairable := there.holds (here.symm.holds kept)
  have met : (openCache reopening).Meets (fun _ => .pass)
      (last.run running (replay Root.missing history))
      (fun _ after => Holds reopening true false after contents) (fun _ _ => False)
      fun _ => True :=
    openCache_meets (Steady.of_pass fun _ => rfl) repairable (fun after settled _ => settled)
      fun _ _ => trivial
  rcases (met.alive (by simp)).elim with ⟨_, reopened, ended, settled⟩ | ⟨_, _, _, impossible⟩ | ⟨_, _, _, impossible⟩
  · have shows := there.symm.shows settled.shows
    refine ⟨reopened, contents, ended, shows, fun name node found => ?_, fun name node found => ?_,
      fun few => ⟨settled.shows.inventory_eq (settled.valid.countable few), fun envelopes =>
        settled.shows.artifactRecords_eq (by omega) envelopes⟩⟩
    · obtain ⟨digest, bytes, rfl, stored⟩ := shows.objects_accounted found
      exact ⟨digest, bytes, rfl, shows.hasObject stored⟩
    · obtain ⟨key, bundle, rfl, stored⟩ := shows.artifacts_accounted found
      refine ⟨key, bundle, rfl, shows.hasBundle stored, ?_⟩
      exact (grown key bundle stored).imp (fun known => before.shows.hasBundle known)
        (Attempt.adds_of_sameHost here)
  · exact impossible.elim
  · exact impossible.elim

end Survival

section Samples

def sampleAddress : ArtifactAddress where
  artifactPolicyHash := sampleKey
  sourceCiphertextHash := sampleKey
  recipientFingerprint := sampleKey
  targetId := "host"
  secretId := "token"
  artifactGeneration := 1

/-- A process that stores a bundle in a new cache. -/
def sampleHistory : List (Environment × Attempt) :=
  [(sampleEnvironment, .openCache fun _ => .pass),
    (sampleEnvironment, .putArtifact sampleAddress [0] [] fun _ => .pass)]

/-- A system that kills the process at one step. -/
def killedAt (label step : Step) : Verdict := if step = label then .kill 0 else .pass

/-- A process that removes everything, and is killed at one step. -/
def sampleCollection (label : Step) : Attempt :=
  .garbageCollect { retainedArtifacts := ∅, retainedObjects := ∅, execute := true } (killedAt label)

theorem open_after_kill_sample :
    ∃ reopened, openCache sampleEnvironment (fun _ => .pass)
      ((sampleCollection (.removeCiphertext sampleKey)).run sampleEnvironment
        (replay Root.missing sampleHistory)) = .ok () reopened := by
  have same : sampleEnvironment.SameHost sampleEnvironment := ⟨rfl, rfl⟩
  have steady : Steady (killedAt (.removeCiphertext sampleKey)) := by
    intro label failed
    unfold killedAt at failed
    split at failed
    · cases failed
    · cases failed
  have hosts : ∀ step ∈ sampleHistory, sampleEnvironment.SameHost step.1 := by
    rintro step (_ | ⟨_, _ | ⟨_, ⟨⟩⟩⟩)
    · exact same
    · exact same
  have spared : ∀ step ∈ sampleHistory, step.2.Spared step.1 := by
    rintro step (_ | ⟨_, _ | ⟨_, ⟨⟩⟩⟩)
    · exact Steady.of_pass fun _ => rfl
    · exact ⟨Steady.of_pass fun _ => rfl, .inr (by simp)⟩
  have removal : SparedRemoval (killedAt (.removeCiphertext sampleKey)) :=
    ⟨by simp [killedAt], by simp [killedAt]⟩
  obtain ⟨reopened, _, opened, _⟩ := open_after_kill hosts spared same same
    (show (sampleCollection (.removeCiphertext sampleKey)).Spared sampleEnvironment from
      ⟨steady, removal⟩)
  exact ⟨reopened, opened⟩

/-- What the inventory of a cache returns after it is opened, if it can be opened. -/
def inventoryAfterOpen (root : Root) : Option (Except CacheError CacheInventory) :=
  match openCache sampleEnvironment (fun _ => .pass) root with
  | .ok _ reopened => some (reopened.own.inventory sampleEnvironment)
  | _ => none

/-- A process killed while it removes a bundle leaves a cache that opens and cannot be read. -/
theorem open_after_killed_removal :
    inventoryAfterOpen ((sampleCollection (.removeEnvelope sampleKey)).run sampleEnvironment
      (replay Root.missing sampleHistory)) = some (.error .unsafeMetadata) := by
  decide +kernel

/-- A process killed before a staged bundle is private, or between the links of an object, leaves
a cache that does not open. -/
example :
    inventoryAfterOpen ((Attempt.putArtifact sampleAddress [0] [] (killedAt .protectStaged)).run
        sampleEnvironment (replay Root.missing (sampleHistory.take 1))) = none ∧
      inventoryAfterOpen ((Attempt.put [0] (killedAt .unlinkTemporary)).run
        { sampleEnvironment with atomicPersist := false }
          (replay Root.missing (sampleHistory.take 1))) = none := by
  decide +kernel

end Samples

end NixSeal.Cache
