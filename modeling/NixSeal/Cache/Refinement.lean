import NixSeal.Cache.Export

/-!
# A cache is two write-once maps

The machine of a caller: a cache, the directories it exports to and imports from, and the public
operations one after another.  Beside it stands the machine the cache is meant to be, which knows
nothing of files: two maps, and for each path the contents that were exported there.  The first
simulates the second, in whatever order each call lists its directories.
-/

namespace NixSeal.Cache

open Faulty Faulty.Program Fallible Ordered

/-- The public operations.  A missing path stands for the directory of the cache itself. -/
inductive Operation where
  | put (bytes : Bytes)
  | get (digest : String)
  | putArtifact (address : ArtifactAddress) (ciphertext envelope : Bytes)
  | loadArtifact (address : ArtifactAddress)
  | inventory
  | artifactRecords
  | garbageCollect (request : GcRequest)
  | exportTo (path : Option String)
  | importFrom (path : Option String)

/-- What an operation returns. -/
inductive Reply where
  | stored (result : Except CacheError String)
  | read (result : Except CacheError Bytes)
  | published (result : Except CacheError ArtifactRecord)
  | loaded (result : Except CacheError (Option ArtifactRecord))
  | counted (result : Except CacheError CacheInventory)
  | listed (result : Except CacheError (List ArtifactRecord))
  | collected (result : Except CacheError GcReport)
  | transferred (result : Except CacheError CacheTransferReport)

/-- A cache and the directories at the paths of its caller. -/
structure System where
  cache : Root
  exchanges : String → Root

namespace System

/-- An empty root that has been opened, and nothing at any path. -/
def start (env : Environment) : System where
  cache := ((openCache env).passing Root.missing).2
  exchanges _ := Root.missing

/-- The directory at a path. -/
def directory (system : System) : Option String → Root
  | none => system.cache
  | some path => system.exchanges path

/-- The directory named to an import. -/
def source (system : System) : Option String → Source
  | none => .itself
  | some path => .elsewhere (system.exchanges path)

/-- What stands at a path after an export to it. -/
def publish (system : System) (path : Option String) (exported : Root) : System :=
  match path with
  | none => system
  | some path => { system with exchanges := Function.update system.exchanges path exported }

/-- One operation of the crate. -/
def perform (env : Environment) (system : System) : Operation → Reply × System
  | .put bytes =>
      let ended := (Cache.put env bytes).passing system.cache
      (.stored ended.1, { system with cache := ended.2 })
  | .get digest => (.read (system.cache.own.get env digest), system)
  | .putArtifact address ciphertext envelope =>
      let ended := (Cache.putArtifact env address ciphertext envelope).passing system.cache
      (.published ended.1, { system with cache := ended.2 })
  | .loadArtifact address => (.loaded (system.cache.own.loadArtifact env address), system)
  | .inventory => (.counted (system.cache.own.inventory env), system)
  | .artifactRecords => (.listed (system.cache.own.artifactRecords env), system)
  | .garbageCollect request =>
      let ended := (Cache.garbageCollect env request).passing system.cache
      (.collected ended.1, { system with cache := ended.2 })
  | .exportTo path =>
      let ended := (Cache.exportTo env (system.directory path)).passing system.cache
      match ended.1 with
      | .ok (report, exported) =>
          (.transferred (.ok report), publish { system with cache := ended.2 } path exported)
      | .error error => (.transferred (.error error), { system with cache := ended.2 })
  | .importFrom path =>
      let ended := (Cache.importFrom env (system.source path)).passing system.cache
      (.transferred ended.1, { system with cache := ended.2 })

/-- A sequence of operations; each call may see its directories in an order of its own. -/
def run (system : System) : List (Environment × Operation) → List Reply × System
  | [] => ([], system)
  | (env, operation) :: rest =>
      let next := system.perform env operation
      let final := run next.2 rest
      (next.1 :: final.1, final.2)

end System

namespace Contents

/-- The entries a collection retains, or all of them when it does not execute. -/
def retain (contents : Contents) (request : GcRequest) : Contents :=
  if request.execute then
    { objects := contents.objects.filter fun digest _ => request.keepsObject digest
      artifacts := contents.artifacts.filter fun key _ => request.keepsArtifact key }
  else contents

/-- No bundle contradicts the one under its key. -/
def agrees (env : Environment) (old added : Contents) : Bool :=
  added.artifacts.toList.all fun entry =>
    (old.artifacts[entry.1]?).all fun existing => existing.Agrees env entry.2

end Contents

/-- Two maps, and the contents that were exported to each path. -/
structure State where
  contents : Contents
  exchanges : String → Option Contents

namespace State

def start : State := ⟨⟨∅, ∅⟩, fun _ => none⟩

/-- One operation on the two maps. -/
def perform (env : Environment) (state : State) : Operation → Reply × State
  | .put bytes =>
      if bytes.length ≤ maxCiphertextBytes then
        (.stored (.ok (env.digest bytes)), { state with contents := state.contents.put env bytes })
      else (.stored (.error .limit), state)
  | .get digest => (.read (state.contents.get digest), state)
  | .putArtifact address ciphertext envelope =>
      match address.key env with
      | .error error => (.published (.error error), state)
      | .ok key =>
          match state.contents.refusal key ⟨ciphertext, envelope⟩ with
          | some error => (.published (.error error), state)
          | none => (.published (.ok (Contents.record env key ⟨ciphertext, envelope⟩)),
              { state with contents := state.contents.putArtifact key ⟨ciphertext, envelope⟩ })
  | .loadArtifact address =>
      (.loaded ((address.key env).map fun key =>
        state.contents.artifacts[key]?.map (Contents.record env key)), state)
  | .inventory => (.counted (.ok state.contents.inventory), state)
  | .artifactRecords => (.listed (.ok (state.contents.records env)), state)
  | .garbageCollect request =>
      if request.retainedArtifacts.all isDigest && request.retainedObjects.all isDigest then
        (.collected (.ok (state.contents.collected request state.contents.objects.keys
          state.contents.artifacts.keys)),
          { state with contents := state.contents.retain request })
      else (.collected (.error .invalidAddress), state)
  | .exportTo none => (.transferred (.error .destinationExists), state)
  | .exportTo (some path) =>
      match state.exchanges path with
      | some _ => (.transferred (.error .destinationExists), state)
      | none => (.transferred (.ok state.contents.report),
          { state with exchanges := Function.update state.exchanges path (some state.contents) })
  | .importFrom none => (.transferred (.error .unsafeMetadata), state)
  | .importFrom (some path) =>
      match state.exchanges path with
      | none => (.transferred (.error (.io .notFound)), state)
      | some added =>
          if Contents.agrees env state.contents added then
            (.transferred (.ok added.report),
              { state with contents := state.contents.merge added })
          else (.transferred (.error .conflict), state)

def run (env : Environment) (state : State) : List Operation → List Reply × State
  | [] => ([], state)
  | operation :: rest =>
      let next := state.perform env operation
      let final := run env next.2 rest
      (next.1 :: final.1, final.2)

/-- Every state of a run stays within the entry and byte limits. -/
def Bounded (env : Environment) (state : State) : List Operation → Prop
  | [] => state.contents.WithinLimits
  | operation :: rest =>
      state.contents.WithinLimits ∧ Bounded env (state.perform env operation).2 rest

instance decidableBounded (env : Environment) (state : State) :
    (operations : List Operation) → Decidable (state.Bounded env operations)
  | [] => inferInstanceAs (Decidable state.contents.WithinLimits)
  | operation :: rest =>
      have := decidableBounded env (state.perform env operation).2 rest
      inferInstanceAs (Decidable (_ ∧ _))

end State

/-- The files of a system store the maps of a state. -/
structure Refines (env : Environment) (system : System) (state : State) : Prop where
  holds : Holds env true true system.cache state.contents
  rooted : HasRoot env system.cache
  absent : ∀ path, state.exchanges path = none → (system.exchanges path).metadata = none
  present : ∀ path contents, state.exchanges path = some contents →
    Exchanged env (system.exchanges path) contents ∧ contents.WithinLimits

/-- One operation returns the same, and leaves files that store the new maps. -/
def Simulated (env : Environment) (system : System) (state : State) (operation : Operation) :
    Prop :=
  (system.perform env operation).1 = (state.perform env operation).1 ∧
    Refines env (system.perform env operation).2 (state.perform env operation).2

section Simulation

variable {env : Environment} {system : System} {state : State}

theorem steady_pass {L : Type} : Steady fun _ : L => Verdict.pass :=
  Steady.of_pass fun _ => rfl

/-- Only the cache changed, and its root directory is the same. -/
theorem Refines.set_cache (refines : Refines env system state) {cache : Root} {contents : Contents}
    (holds : Holds env true true cache contents)
    (place : cache.metadata = system.cache.metadata) :
    Refines env { system with cache := cache } { state with contents := contents } :=
  ⟨holds, refines.rooted.of_metadata_eq place, refines.absent, refines.present⟩

/-- The contents stand at a path. -/
theorem Refines.publish (refines : Refines env system state) (path : String) {exported : Root}
    (exchanged : Exchanged env exported state.contents) (limits : state.contents.WithinLimits) :
    Refines env (system.publish (some path) exported)
      { state with exchanges := Function.update state.exchanges path (some state.contents) } := by
  refine ⟨refines.holds, refines.rooted, fun other missing => ?_, fun other contents found => ?_⟩
  · by_cases same : other = path
    · subst same
      simp at missing
    · simp only [Function.update_of_ne same] at missing
      simp only [System.publish, Function.update_of_ne same]
      exact refines.absent other missing
  · by_cases same : other = path
    · subst same
      simp only [Function.update_self, Option.some.injEq] at found
      subst found
      simp only [System.publish, Function.update_self]
      exact ⟨exchanged, limits⟩
    · simp only [Function.update_of_ne same] at found
      simp only [System.publish, Function.update_of_ne same]
      exact refines.present other contents found

theorem simulated_put (refines : Refines env system state) (bytes : Bytes) :
    Simulated env system state (.put bytes) := by
  have place : ((put env bytes).passing system.cache).2.metadata = system.cache.metadata :=
    (keeps_put bytes).passing system.cache
  have met : (put env bytes).Meets (fun _ => .pass) system.cache
      (fun digest after => bytes.length ≤ maxCiphertextBytes ∧ digest = env.digest bytes ∧
        Holds env true true after (state.contents.put env bytes))
      (fun error after => ¬bytes.length ≤ maxCiphertextBytes ∧ error = .limit ∧
        Holds env true true after state.contents) fun _ => True :=
    put_meets steady_pass (.inr (by simp)) refines.holds (fun fits after held => ⟨fits, rfl, held⟩)
      (fun long after held => ⟨long, rfl, held⟩) fun _ _ => trivial
  unfold Simulated System.perform State.perform
  dsimp only
  rcases met.passing with ⟨_, after, ended, fits, rfl, held⟩ | ⟨_, after, ended, long, rfl, held⟩
  · rw [ended] at place ⊢
    rw [if_pos fits]
    exact ⟨rfl, refines.set_cache held place⟩
  · rw [ended] at place ⊢
    rw [if_neg long]
    exact ⟨rfl, refines.set_cache held place⟩

theorem simulated_putArtifact (refines : Refines env system state) (address : ArtifactAddress)
    (ciphertext envelope : Bytes) :
    Simulated env system state (.putArtifact address ciphertext envelope) := by
  have place : ((putArtifact env address ciphertext envelope).passing system.cache).2.metadata =
      system.cache.metadata :=
    (keeps_putArtifact address ciphertext envelope).passing system.cache
  have met : (putArtifact env address ciphertext envelope).Meets (fun _ => .pass) system.cache
      (fun record after => ∃ key, address.key env = .ok key ∧
        state.contents.refusal key ⟨ciphertext, envelope⟩ = none ∧
          record = Contents.record env key ⟨ciphertext, envelope⟩ ∧
            Holds env true true after (state.contents.putArtifact key ⟨ciphertext, envelope⟩))
      (fun error after => Holds env true true after state.contents ∧
        (address.key env = .error error ∨ ∃ key, address.key env = .ok key ∧
          state.contents.refusal key ⟨ciphertext, envelope⟩ = some error)) fun _ => True := by
    apply Meets.bind
    refine Meets.lift (fun key addressed => ?_) fun error failed => ⟨refines.holds, .inl failed⟩
    change (putArtifactByKey env key (Bundle.mk ciphertext envelope).ciphertext
      (Bundle.mk ciphertext envelope).envelope).Meets _ _ _ _ _
    exact putArtifactByKey_meets steady_pass (.inr (by simp)) refines.holds
      (fun accepted after held => ⟨key, addressed, accepted, rfl, held⟩)
      (fun error refused after held => ⟨held, .inr ⟨key, addressed, refused⟩⟩) fun _ _ => trivial
  unfold Simulated System.perform State.perform
  dsimp only
  rcases met.passing with ⟨_, after, ended, key, addressed, accepted, rfl, held⟩ |
    ⟨error, after, ended, held, failed | ⟨key, addressed, refused⟩⟩
  · rw [ended] at place ⊢
    simp only [addressed, accepted, true_and]
    exact refines.set_cache held place
  · rw [ended] at place ⊢
    simp only [failed, true_and]
    exact refines.set_cache held place
  · rw [ended] at place ⊢
    simp only [addressed, refused, true_and]
    exact refines.set_cache held place

/-- Reading operations change nothing and depend on the maps alone. -/
theorem simulated_get (refines : Refines env system state) (digest : String) :
    Simulated env system state (.get digest) :=
  ⟨congrArg Reply.read (refines.holds.shows.get_eq digest), refines⟩

theorem simulated_loadArtifact (refines : Refines env system state) (address : ArtifactAddress) :
    Simulated env system state (.loadArtifact address) :=
  ⟨congrArg Reply.loaded (refines.holds.shows.loadArtifact_eq address), refines⟩

theorem simulated_inventory (refines : Refines env system state)
    (limits : state.contents.WithinLimits) : Simulated env system state .inventory :=
  ⟨congrArg Reply.counted (refines.holds.shows.inventory_eq limits.countable), refines⟩

theorem simulated_artifactRecords (refines : Refines env system state)
    (limits : state.contents.WithinLimits) : Simulated env system state .artifactRecords := by
  have few : state.contents.artifacts.size ≤ maxTransferEntries := by
    have entries := limits.entries
    omega
  exact ⟨congrArg Reply.listed (refines.holds.shows.artifactRecords_eq few limits.envelopes),
    refines⟩

theorem Contents.same_retain {contents : Contents} {request : GcRequest} {digests keys : List String}
    (listed : digests.Perm contents.objects.keys) (ordered : keys.Perm contents.artifacts.keys) :
    (contents.retain request).Same (contents.sweep request digests keys) := by
  constructor
  · intro digest
    have present : digest ∈ digests ↔ (contents.objects[digest]?).isSome := by
      rw [listed.mem_iff, Std.TreeMap.mem_keys, Std.TreeMap.mem_iff_isSome_getElem?]
    rw [Contents.sweep_objects]
    unfold Contents.retain
    cases request.execute with
    | false => simp
    | true =>
        rw [if_pos rfl, Std.TreeMap.getElem?_filter']
        cases found : contents.objects[digest]? with
        | none => simp
        | some bytes => cases request.keepsObject digest <;> simp [Option.filter, present, found]
  · intro key
    have present : key ∈ keys ↔ (contents.artifacts[key]?).isSome := by
      rw [ordered.mem_iff, Std.TreeMap.mem_keys, Std.TreeMap.mem_iff_isSome_getElem?]
    rw [Contents.sweep_artifacts]
    unfold Contents.retain
    cases request.execute with
    | false => simp
    | true =>
        rw [if_pos rfl, Std.TreeMap.getElem?_filter']
        cases found : contents.artifacts[key]? with
        | none => simp
        | some bundle => cases request.keepsArtifact key <;> simp [Option.filter, present, found]

theorem simulated_garbageCollect (refines : Refines env system state)
    (limits : state.contents.WithinLimits) (request : GcRequest) :
    Simulated env system state (.garbageCollect request) := by
  have place : ((garbageCollect env request).passing system.cache).2.metadata =
      system.cache.metadata :=
    (keeps_garbageCollect request).passing system.cache
  have met := garbageCollect_meets steady_pass ⟨by simp, by simp⟩ refines.holds request
  unfold Simulated System.perform State.perform
  dsimp only
  rcases met.passing with
    ⟨_, after, ended, wellFormed, digests, keys, listed, rfl, held⟩ |
      ⟨_, after, ended, kept, _, held, ⟨malformed, rfl, rfl⟩ | ⟨_, exceeded⟩⟩
  · obtain ⟨digests_perm, keys_perm⟩ := listed rfl
    rw [ended] at place ⊢
    have accepted : (request.retainedArtifacts.all isDigest &&
      request.retainedObjects.all isDigest) = true := wellFormed
    rw [if_pos accepted, Contents.collected_congr digests_perm keys_perm]
    exact ⟨rfl, refines.set_cache (held.of_same (Contents.same_retain digests_perm keys_perm)) place⟩
  · rw [ended] at place ⊢
    have refused : ¬(request.retainedArtifacts.all isDigest &&
      request.retainedObjects.all isDigest) = true := malformed
    rw [if_neg refused]
    exact ⟨rfl, refines.set_cache held place⟩
  · exact absurd ⟨rfl, limits⟩ exceeded

theorem simulated_exportTo (refines : Refines env system state)
    (limits : state.contents.WithinLimits) (path : Option String) :
    Simulated env system state (.exportTo path) := by
  have place : ((exportTo env (system.directory path)).passing system.cache).2.metadata =
      system.cache.metadata :=
    (keeps_exportTo (system.directory path)).passing system.cache
  have met := exportTo_meets steady_pass refines.holds limits (system.directory path)
  cases path with
  | none =>
      obtain ⟨metadata, found, _⟩ := refines.rooted
      have taken : (system.directory none).metadata ≠ none := by
        rw [System.directory, found]
        simp
      unfold Simulated System.perform State.perform
      dsimp only
      rcases met.passing with ⟨_, _, _, missing, _⟩ | ⟨_, _, ended, _, rfl, rfl⟩
      · exact absurd missing taken
      · rw [ended]
        exact ⟨rfl, refines⟩
  | some path =>
      cases exported : state.exchanges path with
      | some contents =>
          have taken : (system.directory (some path)).metadata ≠ none := by
            intro missing
            have opened := (refines.present path contents exported).1.opened
            rw [openExisting, show (system.exchanges path).metadata = none from missing] at opened
            cases opened
          unfold Simulated System.perform State.perform
          simp only [exported]
          rcases met.passing with ⟨_, _, _, missing, _⟩ | ⟨_, _, ended, _, rfl, rfl⟩
          · exact absurd missing taken
          · rw [ended]
            exact ⟨rfl, refines⟩
      | none =>
          unfold Simulated System.perform State.perform
          simp only [exported]
          rcases met.passing with ⟨⟨report, directory⟩, after, ended, _, rfl, whole, opened, held⟩ |
            ⟨_, _, _, taken, _⟩
          · rw [ended] at place ⊢
            exact ⟨rfl, (refines.set_cache held place).publish path (whole.exchanged opened) limits⟩
          · exact absurd (refines.absent path exported) taken

theorem Contents.agrees_iff {old added : Contents} :
    Contents.agrees env old added = true ↔ Compatible env old added := by
  unfold Contents.agrees Compatible
  rw [List.all_eq_true]
  constructor
  · intro all key left right known stored
    have member := Std.TreeMap.mem_toList_iff_getElem?_eq_some.mpr stored
    simpa [known] using all _ member
  · rintro compatible ⟨key, bundle⟩ member
    have stored := Std.TreeMap.mem_toList_iff_getElem?_eq_some.mp member
    cases known : old.artifacts[key]? with
    | none => simp
    | some existing => simpa using compatible key existing bundle known stored

theorem importFrom_missing {root exchange : Root} (missing : exchange.metadata = none)
    {verdict : ImportStep → Verdict} :
    importFrom env (.elsewhere exchange) verdict root = .err (.io .notFound) root := by
  simp only [importFrom, openExisting, missing]
  rfl

theorem simulated_importFrom (refines : Refines env system state) (path : Option String) :
    Simulated env system state (.importFrom path) := by
  have place : ((importFrom env (system.source path)).passing system.cache).2.metadata =
      system.cache.metadata :=
    (keeps_importFrom (system.source path)).passing system.cache
  cases path with
  | none =>
      unfold Simulated System.perform State.perform System.source
      dsimp only
      rw [passing_eq_error (importFrom_itself refines.rooted)]
      exact ⟨rfl, refines⟩
  | some path =>
      simp only [System.source] at place
      cases exported : state.exchanges path with
      | none =>
          unfold Simulated System.perform State.perform System.source
          simp only [exported]
          rw [passing_eq_error (importFrom_missing (refines.absent path exported))]
          exact ⟨rfl, refines⟩
      | some added =>
          obtain ⟨exchanged, limits⟩ := refines.present path added exported
          unfold Simulated System.perform State.perform System.source
          simp only [exported]
          by_cases agree : Contents.agrees env state.contents added = true
          · obtain ⟨after, ended, held⟩ := importFrom_eq_ok (fun _ => rfl) refines.holds exchanged
              limits (Contents.agrees_iff.mp agree)
            rw [passing_eq_ok ended] at place ⊢
            rw [if_pos agree]
            exact ⟨rfl, refines.set_cache held place⟩
          · obtain ⟨after, ended, held⟩ := importFrom_eq_conflict (fun _ => rfl) refines.holds
              exchanged limits fun compatible => agree (Contents.agrees_iff.mpr compatible)
            rw [passing_eq_error ended] at place ⊢
            rw [if_neg agree]
            exact ⟨rfl, refines.set_cache held place⟩

/-- Every operation is simulated. -/
theorem Refines.perform (refines : Refines env system state) (limits : state.contents.WithinLimits)
    (operation : Operation) : Simulated env system state operation := by
  cases operation with
  | put bytes => exact simulated_put refines bytes
  | get digest => exact simulated_get refines digest
  | putArtifact address ciphertext envelope =>
      exact simulated_putArtifact refines address ciphertext envelope
  | loadArtifact address => exact simulated_loadArtifact refines address
  | inventory => exact simulated_inventory refines limits
  | artifactRecords => exact simulated_artifactRecords refines limits
  | garbageCollect request => exact simulated_garbageCollect refines limits request
  | exportTo path => exact simulated_exportTo refines limits path
  | importFrom path => exact simulated_importFrom refines path

end Simulation

namespace Environment.SameHost

variable {env other : Environment}

theorem refines (same : env.SameHost other) {system : System} {state : State}
    (refines : Refines env system state) : Refines other system state := by
  refine ⟨same.holds refines.holds, ?_, refines.absent, fun path contents found => ?_⟩
  · unfold HasRoot Status.Admissible
    rw [same.user]
    exact refines.rooted
  · obtain ⟨exchanged, limits⟩ := refines.present path contents found
    exact ⟨same.exchanged exchanged, limits⟩

/-- The two maps depend on the hash function alone. -/
theorem perform_eq (same : env.SameHost other) (state : State) (operation : Operation) :
    state.perform other operation = state.perform env operation := by
  have record : Contents.record other = Contents.record env := by
    funext key bundle
    rw [Contents.record, Contents.record, same.digest]
  have key : ArtifactAddress.key other = ArtifactAddress.key env := by
    funext address
    rw [ArtifactAddress.key, ArtifactAddress.key, same.digest]
  have agrees : Contents.agrees other = Contents.agrees env := by
    funext old added
    rw [Bool.eq_iff_iff, Contents.agrees_iff, Contents.agrees_iff]
    unfold Compatible Bundle.Agrees
    rw [same.digest]
  cases operation with
  | put bytes => simp only [State.perform, Contents.put, same.digest]
  | putArtifact address ciphertext envelope => simp only [State.perform, key, record]
  | loadArtifact address => simp only [State.perform, key, record]
  | artifactRecords => simp only [State.perform, Contents.records, record]
  | importFrom path =>
      cases path with
      | none => rfl
      | some path => simp only [State.perform, agrees]
  | get digest => rfl
  | inventory => rfl
  | garbageCollect request => rfl
  | exportTo path =>
      cases path with
      | none => rfl
      | some path => rfl

end Environment.SameHost

section Runs

variable {env : Environment}

/-- Along a run the replies are the same, and the files store the maps. -/
theorem Refines.run {steps : List (Environment × Operation)}
    (hosts : ∀ step ∈ steps, env.SameHost step.1) {system : System} {state : State}
    (refines : Refines env system state) (bounded : state.Bounded env (steps.map Prod.snd)) :
    (system.run steps).1 = (state.run env (steps.map Prod.snd)).1 ∧
      Refines env (system.run steps).2 (state.run env (steps.map Prod.snd)).2 ∧
        (state.run env (steps.map Prod.snd)).2.contents.WithinLimits := by
  induction steps generalizing system state with
  | nil => exact ⟨rfl, refines, bounded⟩
  | cons step rest ih =>
      obtain ⟨other, operation⟩ := step
      have same : env.SameHost other := hosts _ List.mem_cons_self
      obtain ⟨limits, remaining⟩ := bounded
      obtain ⟨reply, kept⟩ := (same.refines refines).perform limits operation
      rw [same.perform_eq] at reply kept
      obtain ⟨replies, final, within⟩ := ih (fun step member => hosts step (by simp [member]))
        (same.symm.refines kept) remaining
      refine ⟨?_, final, within⟩
      simp only [System.run, State.run, List.map_cons, reply, replies]

theorem refines_start (env : Environment) :
    (openCache env).passing Root.missing = (.ok (), (System.start env).cache) ∧
      Refines env (System.start env) State.start := by
  have met : (openCache env).Meets (fun _ => .pass) Root.missing
      (fun _ after => Holds env true true after ⟨∅, ∅⟩ ∧ HasRoot env after) (fun _ _ => False)
      fun _ => True :=
    openCache_meets steady_pass (holds_missing env false true)
      (fun after held opened => ⟨held, opened⟩) fun _ _ => trivial
  rcases met.passing with ⟨_, after, ended, held, opened⟩ | ⟨_, _, _, impossible⟩
  · have same : (System.start env).cache = after := by rw [System.start, ended]
    refine ⟨by rw [same, ended], by rw [same]; exact held, by rw [same]; exact opened,
      fun _ _ => rfl, fun _ _ found => ?_⟩
    cases found
  · exact impossible.elim

end Runs

end NixSeal.Cache
