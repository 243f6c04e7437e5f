import NixSeal.Cache.Crash
import NixSeal.Lib.Dialogue

/-!
# A cache that processes share

The commands reach a cache through its public operations.  Writers hold the lock and publish with
one rename, and nothing that is stored changes, so that one operation is one step for the others.
Without a collection, a shared cache only grows: whatever processes do and wherever they are killed,
every bundle stays as it was stored.
-/

namespace NixSeal.Cache

open Faulty Faulty.Program Ordered

/-- What a transaction asks of a cache. -/
inductive Query where
  /-- A step in the directory for transactions; nothing else reads it. -/
  | transaction
  | loadArtifact (address : ArtifactAddress)
  | putArtifact (address : ArtifactAddress) (ciphertext envelope : Bytes)

/-- What is answered. -/
def Query.Reply : Query → Type
  | .transaction => Except IoKind Unit
  | .loadArtifact _ => Except CacheError (Option ArtifactRecord)
  | .putArtifact _ _ _ => Except CacheError ArtifactRecord

/-- A process that is alone with a cache and in which nothing fails. -/
def answer (env : Environment) : (query : Query) → Root → query.Reply × Root
  | .transaction, root => (.ok (), root)
  | .loadArtifact address, root => (root.own.loadArtifact env address, root)
  | .putArtifact address ciphertext envelope, root =>
      (putArtifact env address ciphertext envelope).passing root

/-- What processes on one host are answered.  Each lists directories and names temporary files in
its own way. -/
inductive Answers (env : Environment) :
    (query : Query) → Root → query.Reply → Root → Prop where
  | transaction {root : Root} (reply : Except IoKind Unit) :
      Answers env .transaction root reply root
  | loadArtifact {root : Root} {other : Environment} {address : ArtifactAddress}
      (same : env.SameHost other) :
      Answers env (.loadArtifact address) root (root.own.loadArtifact other address) root
  | putArtifact {root after : Root} {other : Environment} {verdict : Step → Verdict}
      {address : ArtifactAddress} {ciphertext envelope : Bytes}
      {reply : Except CacheError ArtifactRecord} (same : env.SameHost other)
      (steady : Steady verdict) (spared : SparedStaging other verdict)
      (ended : attempt (putArtifact other address ciphertext envelope) verdict root =
        .ok reply after) : Answers env (.putArtifact address ciphertext envelope) root reply after

/-- What a process leaves that is killed while it asks. -/
inductive Leaves (env : Environment) : Query → Root → Root → Prop where
  | before {query : Query} {root : Root} : Leaves env query root root
  | putArtifact {root after : Root} {other : Environment} {verdict : Step → Verdict}
      {address : ArtifactAddress} {ciphertext envelope : Bytes} (same : env.SameHost other)
      (steady : Steady verdict) (spared : SparedStaging other verdict)
      (killed : putArtifact other address ciphertext envelope verdict root = .killed after) :
      Leaves env (.putArtifact address ciphertext envelope) root after

/-- An operation that removes nothing. -/
def Attempt.Adding : Attempt → Prop
  | .garbageCollect _ _ => False
  | _ => True

/-- A cache that processes share with each other and with operations that remove nothing. -/
def shared (env : Environment) : Dialogue.Store Query Query.Reply Root where
  answers := Answers env
  leaves := Leaves env
  drifts root after := ∃ (other : Environment) (attempt : Attempt), env.SameHost other ∧
    attempt.Spared other ∧ attempt.Adding ∧ after = attempt.run other root

/-- Every bundle is there as it was. -/
def Contents.Within (contents more : Contents) : Prop :=
  ∀ (key : String) (bundle : Bundle), contents.artifacts[key]? = some bundle →
    more.artifacts[key]? = some bundle

/-- A cache that holds some bundles and maybe others. -/
def Retains (env : Environment) (contents : Contents) (root : Root) : Prop :=
  ∃ more, Holds env false false root more ∧ contents.Within more

/-- A cache that can be opened and read. -/
def Live (env : Environment) (root : Root) : Prop :=
  ∃ contents, Holds env false false root contents

/-- Whatever bundles the cache held, it still holds. -/
def Grows (env : Environment) (before after : Root) : Prop :=
  ∀ contents, Holds env false false before contents → Retains env contents after

section Growth

variable {env other : Environment} {root before after : Root} {contents more : Contents}

theorem Contents.Within.refl (contents : Contents) : contents.Within contents :=
  fun _ _ found => found

theorem Contents.Within.trans {third : Contents} (first : contents.Within more)
    (second : more.Within third) : contents.Within third :=
  fun key bundle found => second key bundle (first key bundle found)

theorem Contents.within_put (contents : Contents) (bytes : Bytes) :
    contents.Within (contents.put env bytes) := by
  intro key bundle found
  unfold Contents.put
  split
  · exact found
  · exact found

theorem Contents.within_putArtifact (contents : Contents) (key : String) (bundle : Bundle) :
    contents.Within (contents.putArtifact key bundle) := by
  intro other known found
  unfold Contents.putArtifact
  split
  · exact found
  · rename_i absent
    rw [getElem?_insert_eq, if_neg]
    · exact found
    · rintro rfl
      rw [absent] at found
      cases found

theorem Contents.within_merge (contents added : Contents) :
    contents.Within (contents.merge added) := by
  intro key bundle found
  rw [Contents.merge_artifacts, found, Option.some_or]

theorem Grows.refl (root : Root) : Grows env root root :=
  fun contents holds => ⟨contents, holds, .refl contents⟩

theorem Grows.trans {third : Root} (first : Grows env root before)
    (second : Grows env before third) : Grows env root third := by
  intro contents holds
  obtain ⟨more, held, within⟩ := first contents holds
  obtain ⟨most, kept, further⟩ := second more held
  exact ⟨most, kept, within.trans further⟩

theorem Live.grow (live : Live env root) (grows : Grows env root after) : Live env after := by
  obtain ⟨contents, holds⟩ := live
  obtain ⟨more, held, -⟩ := grows contents holds
  exact ⟨more, held⟩

theorem Grows.of_sameHost (same : env.SameHost other) (grows : Grows other before after) :
    Grows env before after := by
  intro contents holds
  obtain ⟨more, held, within⟩ := grows contents (same.holds holds)
  exact ⟨more, same.symm.holds held, within⟩

theorem putArtifact_meets {settled tidy : Bool} {verdict : Step → Verdict}
    (steady : Steady verdict) (spared : SparedStaging env verdict)
    (holds : Holds env settled tidy root contents) (address : ArtifactAddress)
    (ciphertext envelope : Bytes) :
    (putArtifact env address ciphertext envelope).Meets verdict root
      (fun record after => ∃ key, address.key env = .ok key ∧
        contents.refusal key ⟨ciphertext, envelope⟩ = none ∧
          record = Contents.record env key ⟨ciphertext, envelope⟩ ∧
            Holds env settled tidy after (contents.putArtifact key ⟨ciphertext, envelope⟩))
      (fun error after => Holds env settled tidy after contents ∧
        (address.key env = .error error ∨ ∃ key, address.key env = .ok key ∧
          contents.refusal key ⟨ciphertext, envelope⟩ = some error))
      fun after => Holds env false false after contents ∨ ∃ key,
        Holds env false false after (contents.putArtifact key ⟨ciphertext, envelope⟩) := by
  apply Meets.bind
  refine Meets.lift (fun key addressed => ?_) fun error failed => ⟨holds, .inl failed⟩
  change (putArtifactByKey env key (Bundle.mk ciphertext envelope).ciphertext
    (Bundle.mk ciphertext envelope).envelope).Meets _ _ _ _ _
  exact putArtifactByKey_meets steady spared holds
    (fun accepted after held => ⟨key, addressed, accepted, rfl, held⟩)
    (fun error refused after held => ⟨held, .inr ⟨key, addressed, refused⟩⟩)
    fun after either => either.imp_right fun both => ⟨key, both.2⟩

theorem putArtifact_grows {verdict : Step → Verdict} (steady : Steady verdict)
    (spared : SparedStaging env verdict) (root : Root) (address : ArtifactAddress)
    (ciphertext envelope : Bytes) :
    Grows env root (putArtifact env address ciphertext envelope verdict root).state := by
  intro contents holds
  refine Meets.leaves ((putArtifact_meets steady spared holds address ciphertext envelope).mono
    ?_ ?_ ?_)
  · rintro _ after ⟨key, -, -, -, held⟩
    exact ⟨_, held, contents.within_putArtifact _ _⟩
  · rintro _ after ⟨held, -⟩
    exact ⟨_, held, .refl _⟩
  · rintro after (held | ⟨key, held⟩)
    · exact ⟨_, held, .refl _⟩
    · exact ⟨_, held, contents.within_putArtifact _ _⟩

theorem openCache_grows {verdict : Step → Verdict} (steady : Steady verdict) (root : Root) :
    Grows env root (openCache env verdict root).state := by
  intro contents holds
  exact Meets.leaves (openCache_meets steady holds
    (fun after held _ => ⟨_, held.unsettle, .refl _⟩) fun after held => ⟨_, held, .refl _⟩)

/-- Any operation but a collection grows a cache, killed or not. -/
theorem Attempt.grows {attempt : Attempt} (spared : attempt.Spared env) (adding : attempt.Adding)
    (root : Root) : Grows env root (attempt.run env root) := by
  cases attempt with
  | openCache verdict => exact openCache_grows spared root
  | put bytes verdict =>
      intro contents holds
      obtain ⟨steady, linked⟩ := spared
      refine Meets.leaves (put_meets steady linked holds (fun _ after held => ?_)
        (fun _ after held => ?_) fun after either => ?_)
      · exact ⟨_, held, contents.within_put bytes⟩
      · exact ⟨_, held, .refl _⟩
      · rcases either with held | held
        · exact ⟨_, held, .refl _⟩
        · exact ⟨_, held, contents.within_put bytes⟩
  | putArtifact address ciphertext envelope verdict =>
      exact putArtifact_grows spared.1 spared.2 root address ciphertext envelope
  | importFrom source verdict =>
      intro contents holds
      obtain ⟨steady, copied⟩ := spared
      cases source with
      | itself =>
          refine Meets.leaves ?_
          apply Meets.bind
          apply Meets.read
          apply Meets.bind
          exact Meets.lift (fun _ _ => Meets.raise ⟨_, holds, .refl _⟩)
            fun _ _ => ⟨_, holds, .refl _⟩
      | elsewhere exchange =>
          refine Meets.leaves ((importFrom_meets steady copied holds exchange).mono ?_ ?_ ?_)
          · rintro _ after ⟨added, -, -, -, -, held⟩
            exact ⟨_, held, contents.within_merge added⟩
          · rintro _ after ⟨-, -, held, -⟩
            exact ⟨_, held, .refl _⟩
          · rintro after (held | ⟨added, -, -, -, digests, keys, merged, merge, held⟩)
            · exact ⟨_, held, .refl _⟩
            · refine ⟨_, held, fun key bundle found => ?_⟩
              rw [merge.artifact, found, Option.some_or]
  | garbageCollect request verdict => exact adding.elim

theorem state_of_attempt {L σ ε α : Type} {program : Program L σ ε α} {verdict : L → Verdict}
    {state next : σ} {reply : Except ε α} (ended : attempt program verdict state = .ok reply next) :
    (program verdict state).state = next := by
  simp only [attempt] at ended
  cases outcome : program verdict state with
  | ok value after =>
      simp only [outcome] at ended
      cases ended
      rfl
  | err error after =>
      simp only [outcome] at ended
      cases ended
      rfl
  | killed after =>
      simp only [outcome] at ended
      cases ended

theorem attempt_passing {L σ ε α : Type} (program : Program L σ ε α) (state : σ) :
    attempt program (fun _ => .pass) state =
      .ok (program.passing state).1 (program.passing state).2 := by
  rcases program.honest (fun _ => .pass) state with ⟨_, _, _, killed, _⟩ | ⟨_, lives⟩
  · cases killed
  · cases outcome : program (fun _ => .pass) state with
    | ok value after =>
        rw [passing_eq_ok outcome]
        simp only [attempt, outcome]
    | err error after =>
        rw [passing_eq_error outcome]
        simp only [attempt, outcome]
    | killed after => exact absurd outcome (lives after)

/-- A process that is alone with a cache is answered like any other. -/
theorem answers_answer (env : Environment) (query : Query) (root : Root) :
    Answers env query root (answer env query root).1 (answer env query root).2 := by
  have same : env.SameHost env := ⟨rfl, rfl⟩
  cases query with
  | transaction => exact .transaction _
  | loadArtifact address => exact .loadArtifact same
  | putArtifact address ciphertext envelope =>
      exact .putArtifact same (Steady.of_pass fun _ => rfl) (.inr (by simp))
        (attempt_passing _ root)

/-- Every answer grows the cache. -/
theorem Answers.grows {query : Query} {reply : query.Reply}
    (answers : Answers env query root reply after) : Grows env root after := by
  cases answers with
  | putArtifact same steady spared ended =>
      rw [← state_of_attempt ended]
      exact (putArtifact_grows steady spared root _ _ _).of_sameHost same
  | _ => exact .refl root

theorem Leaves.grows {query : Query} (leaves : Leaves env query root after) :
    Grows env root after := by
  cases leaves with
  | before => exact .refl root
  | @putArtifact root after other verdict address ciphertext envelope same steady spared killed =>
      have left := putArtifact_grows steady spared root address ciphertext envelope
      rw [killed] at left
      exact left.of_sameHost same

/-- In every pool, the cache only grows. -/
theorem shared_drifts (before after : Root) (drifts : (shared env).drifts before after) :
    Grows env before after := by
  obtain ⟨other, attempt, same, spared, adding, rfl⟩ := drifts
  exact (attempt.grows spared adding before).of_sameHost same

end Growth

/-! ## Questions

Each question is asked at the type of its answer. -/

namespace Asking

variable {ε : Type} {env : Environment} {root : Root}

def transaction : Dialogue Query Query.Reply ε (Except IoKind Unit) :=
  Dialogue.query Query.transaction

def loadArtifact (address : ArtifactAddress) :
    Dialogue Query Query.Reply ε (Except CacheError (Option ArtifactRecord)) :=
  Dialogue.query (Query.loadArtifact address)

def putArtifact (address : ArtifactAddress) (ciphertext envelope : Bytes) :
    Dialogue Query Query.Reply ε (Except CacheError ArtifactRecord) :=
  Dialogue.query (Query.putArtifact address ciphertext envelope)

@[simp]
theorem run_loadArtifact (address : ArtifactAddress) :
    (loadArtifact address : Dialogue Query Query.Reply ε _).run (answer env) root =
      (.ok (root.own.loadArtifact env address), root) :=
  rfl

@[simp]
theorem run_putArtifact (address : ArtifactAddress) (ciphertext envelope : Bytes) :
    (putArtifact address ciphertext envelope : Dialogue Query Query.Reply ε _).run (answer env)
      root = (.ok ((Cache.putArtifact env address ciphertext envelope).passing root).1,
        ((Cache.putArtifact env address ciphertext envelope).passing root).2) :=
  rfl

end Asking

/-! ## What a dialogue delivers -/

/-- Whatever others do to a cache between its questions, a dialogue that returns leaves a condition
on its value and the cache. -/
def Delivers {ε α : Type} (env : Environment) (returned : α → Root → Prop)
    (dialogue : Dialogue Query Query.Reply ε α) (root : Root) : Prop :=
  dialogue.Guarantees (shared env) (Grows env)
    (fun result after => ∀ value, result = .ok value → returned value after) root

section Deliveries

variable {ε α β : Type} {env : Environment} {returned : α → Root → Prop} {root : Root}

theorem Delivers.lift {result : Except ε α}
    (holds : ∀ value, result = .ok value → returned value root) :
    Delivers env returned (Dialogue.lift result) root :=
  holds

theorem Delivers.mono {dialogue : Dialogue Query Query.Reply ε α} {weaker : α → Root → Prop}
    (delivers : Delivers env returned dialogue root)
    (implies : ∀ value root, returned value root → weaker value root) :
    Delivers env weaker dialogue root :=
  Dialogue.Guarantees.mono delivers fun _ root holds value same =>
    implies value root (holds value same)

theorem Delivers.bind {middle : β → Root → Prop} {dialogue : Dialogue Query Query.Reply ε β}
    {after : β → Dialogue Query Query.Reply ε α} (first : Delivers env middle dialogue root)
    (next : ∀ value root, middle value root → Delivers env returned (after value) root) :
    Delivers env returned (dialogue >>= after) root :=
  Dialogue.Guarantees.bind first (fun value state holds => next value state (holds value rfl))
    fun error state _ value same => by cases same

theorem Delivers.lift_bind {result : Except ε β} {after : β → Dialogue Query Query.Reply ε α}
    (next : ∀ value, result = .ok value → Delivers env returned (after value) root) :
    Delivers env returned (Dialogue.lift result >>= after) root :=
  Dialogue.Guarantees.lift_bind next fun error _ value same => by cases same

/-- A question is answered by a cache that has grown. -/
theorem Delivers.query_bind {query : Query} {after : query.Reply → Dialogue Query Query.Reply ε α}
    (next : ∀ later reply answered, Grows env root later → Answers env query later reply answered →
      Delivers env returned (after reply) answered) :
    Delivers env returned (Dialogue.query query >>= after) root :=
  Dialogue.Guarantees.query_bind fun later grown =>
    ⟨fun _ leaves => leaves.grows, fun reply answered answers =>
      ⟨answers.grows, next later reply answered grown answers⟩⟩

end Deliveries

/-! ## Answers about bundles -/

section Bundles

variable {env : Environment} {root after : Root} {contents : Contents} {address : ArtifactAddress}

theorem Environment.SameHost.key_eq {other : Environment} (same : env.SameHost other)
    (address : ArtifactAddress) : address.key other = address.key env := by
  rw [ArtifactAddress.key, same.digest, ← ArtifactAddress.key]

theorem Environment.SameHost.record_eq {other : Environment} (same : env.SameHost other)
    (key : String) (bundle : Bundle) :
    Contents.record other key bundle = Contents.record env key bundle := by
  rw [Contents.record, same.digest, ← Contents.record]

theorem loaded_of_answers {reply : Except CacheError (Option ArtifactRecord)}
    (holds : Holds env false false root contents)
    (answers : Answers env (.loadArtifact address) root reply after) :
    after = root ∧ reply = (address.key env).map fun key =>
      contents.artifacts[key]?.map (Contents.record env key) := by
  cases answers with
  | @loadArtifact _ other _ same =>
      refine ⟨rfl, ?_⟩
      rw [(same.holds holds).shows.loadArtifact_eq address, same.key_eq]
      cases address.key env with
      | error error => rfl
      | ok key =>
          simp only [Except.map, funext (same.record_eq key)]

theorem stored_of_answers {ciphertext envelope : Bytes} {record : ArtifactRecord}
    {reply : Except CacheError ArtifactRecord} (holds : Holds env false false root contents)
    (answers : Answers env (.putArtifact address ciphertext envelope) root reply after)
    (put : reply = .ok record) :
    ∃ key, address.key env = .ok key ∧
      contents.refusal key ⟨ciphertext, envelope⟩ = none ∧
      record = Contents.record env key ⟨ciphertext, envelope⟩ ∧
      Holds env false false after (contents.putArtifact key ⟨ciphertext, envelope⟩) := by
  cases answers with
  | @putArtifact _ _ other verdict _ _ _ _ same steady spared ended =>
      subst put
      have met := putArtifact_meets steady spared (same.holds holds) address ciphertext envelope
      rw [Meets, attempt_eq_ok.mp ended] at met
      obtain ⟨key, addressed, accepted, whole, held⟩ := met
      rw [same.key_eq] at addressed
      rw [same.record_eq] at whole
      exact ⟨key, addressed, accepted, whole, same.symm.holds held⟩

theorem hasBundle_iff {settled : Bool} {cache : Cache} (shows : Shows env cache settled contents)
    {key : String} {bundle : Bundle} :
    HasBundle env cache key bundle ↔ contents.artifacts[key]? = some bundle := by
  refine ⟨fun present => ?_, shows.hasBundle⟩
  cases stored : contents.artifacts[key]? with
  | none =>
      obtain ⟨digest, ⟨node, found, -⟩, -⟩ := present
      rw [shows.bundleDirectory_missing digest stored] at found
      cases found
  | some other => rw [(shows.hasBundle stored).unique present]

theorem artifact_putArtifact {key : String} {bundle : Bundle}
    (accepted : contents.refusal key bundle = none) :
    (contents.putArtifact key bundle).artifacts[key]? = some bundle := by
  have absent : contents.artifacts[key]? = none := by
    unfold Contents.refusal at accepted
    grind
  rw [Contents.putArtifact, absent]
  exact (getElem?_insert_eq _ _ _ _).trans (if_pos rfl)

end Bundles

end NixSeal.Cache
