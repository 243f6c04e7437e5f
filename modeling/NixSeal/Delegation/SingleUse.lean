import NixSeal.Delegation.Authorization

/-!
# How often a delegated capability can be used

No command records that a capability was used: what refuses a second use is the ciphertext that the
first one left at the destination.  A run is a sequence of operations on one repository, each of
which holds the repository lock for its writes.
-/

namespace NixSeal.Delegation

open Faulty Program Manifest Policy Authoring

variable {T : Tools}

/-! ## Operations -/

/-- The file-system steps of a deletion. -/
inductive DeleteStep where
  | lock
  /-- The source is looked up below the repository root. -/
  | resolve
  /-- The ciphertext is opened and hashed. -/
  | hash
  /-- The quarantine directory and the tombstone in it are made. -/
  | tombstone
  /-- The file that describes the tombstone is written. -/
  | metadata
  /-- The source is looked at again. -/
  | recheck
  | rename
  | sync
  deriving DecidableEq, Repr

/-- The fields of a `DeleteRequest`, without its paths to the repository and the quarantine. -/
structure DeleteCall where
  relativeSource : String
  secretId : String
  deletedAt : String

/-- `delete_secret`, as far as it concerns the canonical ciphertexts. -/
def deleteSecret (call : DeleteCall) : Program DeleteStep Repository CommandError Unit := do
  Program.step .lock (.authoring .io) id
  require (call.secretId ≠ "" ∧ call.deletedAt ≠ "") (CommandError.authoring .unsafePath)
  let source ← lift (resolveDestination call.relativeSource)
  Program.step .resolve (.authoring .unsafePath) id
  let repository ← read
  require (repository source ≠ none) (CommandError.authoring .destinationState)
  Program.step .hash (.authoring .io) id
  Program.step .tombstone (.authoring .io) id
  Program.step .metadata (.authoring .io) id
  Program.step .recheck (.authoring .sourceChanged) id
  Program.step .rename (.authoring .io) fun repository => Function.update repository source none
  Program.step .sync (.authoring .durabilityUnknown) id

/-- One operation on a repository, with what the system does at its steps. -/
inductive Operation (T : Tools) where
  | create (call : CreateCall) (verdict : CreateStep → Verdict)
  | complete (call : CompleteCall T) (verdict : CreateStep → Verdict)
  | delete (call : DeleteCall) (verdict : DeleteStep → Verdict)
  /-- Any other operation, such as a replacement or a batch, by what it does to the ciphertexts. -/
  | other (change : Repository → Repository)

/-- What an operation leaves behind, however it ends. -/
def Operation.apply : Operation T → Repository → Repository
  | .create call verdict, before => (runDelegatedCreate T call verdict before).state
  | .complete call verdict, before => (runBootstrapComplete T call verdict before).state
  | .delete call verdict, before => (deleteSecret call verdict before).state
  | .other change, before => change before

/-- The repository when operation `index` of a run starts. -/
def stateAt (operations : List (Operation T)) (before : Repository) (index : Nat) : Repository :=
  (operations.take index).foldl (fun repository operation => operation.apply repository) before

/-- Operation `index` of a run uses the signed capability, and it writes. -/
def WritesWith (signed : SignedDelegatedCreateCapability) (operations : List (Operation T))
    (before : Repository) (index : Nat) : Prop :=
  ∃ call verdict, operations[index]? = some (.create call verdict) ∧
    T.capabilityFromJson call.capability = some signed ∧
    (runDelegatedCreate T call verdict (stateAt operations before index)).state ≠
      stateAt operations before index

/-- At most one creation of a run writes with the signed capability. -/
def SingleUse (signed : SignedDelegatedCreateCapability) (operations : List (Operation T))
    (before : Repository) : Prop :=
  ∀ first second, WritesWith signed operations before first →
    WritesWith signed operations before second → first = second

/-- The path a signed capability is for. -/
def destination (T : Tools) (signed : SignedDelegatedCreateCapability) :
    Option (List PathComponent) := do
  let payload ← Base64.decode signed.payload
  let capability ← T.codec.fromJson payload
  some (pathComponents capability.source)

/-- An operation other than a creation takes the ciphertext at a path away. -/
def Operation.Removes (path : List PathComponent) (before : Repository) : Operation T → Prop
  | .create _ _ => False
  | .complete _ _ => False
  | .delete call verdict =>
      before path ≠ none ∧ (deleteSecret call verdict before).state path = none
  | .other change => before path ≠ none ∧ change before path = none

/-! ## Creations take nothing away -/

theorem Creates.keeps {randomness : Nat} {relative : String} {input : Bytes}
    {recipients : List String} {before after : Repository} {path : List PathComponent}
    (creates : Creates T randomness relative input recipients before after)
    (present : before path ≠ none) : after path ≠ none := by
  obtain ⟨created, ciphertext, -, absent, -, rfl⟩ := creates
  have apart : path ≠ created := by
    rintro rfl
    exact present absent
  rwa [Function.update_of_ne apart]

theorem keeps_of_createsSecret {randomness : Nat} {plan : Plan} {secretId : Id} {input : Bytes}
    {before after : Repository} {path : List PathComponent}
    (ended : after = before ∨ CreatesSecret T randomness plan secretId input before after)
    (present : before path ≠ none) : after path ≠ none := by
  rcases ended with rfl | ⟨secret, recipients, -, -, creates⟩
  · exact present
  · exact creates.keeps present

theorem runDelegatedCreate_keeps (call : CreateCall) (verdict : CreateStep → Verdict)
    {before : Repository} {path : List PathComponent} (present : before path ≠ none) :
    (runDelegatedCreate T call verdict before).state path ≠ none := by
  by_cases unchanged : (runDelegatedCreate T call verdict before).state = before
  · rwa [unchanged]
  · obtain ⟨_, _, _, _, _, -, creates⟩ := authorized_of_changed unchanged
    exact creates.keeps present

theorem runBootstrapComplete_keeps (call : CompleteCall T) (verdict : CreateStep → Verdict)
    {before : Repository} {path : List PathComponent} (present : before path ≠ none) :
    (runBootstrapComplete T call verdict before).state path ≠ none := by
  have kept : (runBootstrapComplete T call).Meets verdict before
      (fun _ after => after path ≠ none) (fun _ after => after path ≠ none)
      fun after => after path ≠ none := by
    unfold runBootstrapComplete
    refine Meets.bind (Meets.lift (fun plan _ => ?_) fun _ _ => present)
    refine Meets.bind (Meets.lift (fun secret _ => ?_) fun _ _ => present)
    refine Meets.bind (Meets.lift (fun key _ => ?_) fun _ _ => present)
    refine Meets.bind (Meets.lift (fun _ _ => ?_) fun _ _ => present)
    refine Meets.bind (Meets.lift (fun hash _ => ?_) fun _ _ => present)
    refine Meets.bind (Meets.lift (fun _ _ => ?_) fun _ _ => present)
    refine Meets.bind (Meets.lift (fun input _ => ?_) fun _ _ => present)
    refine Meets.bind (Meets.lift (fun _ _ => ?_) fun _ _ => present)
    exact (writeBootstrapSecret_meets verdict before call.randomness plan secret input).mono
      (fun _ _ ended => keeps_of_createsSecret ended present)
      (fun _ _ ended => keeps_of_createsSecret ended present)
      fun _ ended => keeps_of_createsSecret ended present
  exact kept.leaves

/-- What is there stays there through an operation that does not remove it. -/
theorem Operation.keeps {operation : Operation T} {before : Repository} {path : List PathComponent}
    (kept : ¬operation.Removes path before) (present : before path ≠ none) :
    operation.apply before path ≠ none := by
  cases operation with
  | create call verdict => exact runDelegatedCreate_keeps call verdict present
  | complete call verdict => exact runBootstrapComplete_keeps call verdict present
  | delete call verdict => exact fun absent => kept ⟨present, absent⟩
  | other change => exact fun absent => kept ⟨present, absent⟩

/-! ## Runs -/

theorem stateAt_succ {operations : List (Operation T)} {operation : Operation T} {index : Nat}
    (before : Repository) (next : operations[index]? = some operation) :
    stateAt operations before (index + 1) = operation.apply (stateAt operations before index) := by
  unfold stateAt
  rw [List.take_add_one, next, List.foldl_append]
  rfl

theorem stateAt_of_none {operations : List (Operation T)} {index : Nat} (before : Repository)
    (ended : operations[index]? = none) :
    stateAt operations before (index + 1) = stateAt operations before index := by
  unfold stateAt
  rw [List.take_add_one, ended]
  simp

/-- A ciphertext that no operation removes is there at all later times. -/
theorem present_after {operations : List (Operation T)} {before : Repository}
    {path : List PathComponent}
    (kept : ∀ index (operation : Operation T), operations[index]? = some operation →
      ¬operation.Removes path (stateAt operations before index))
    {start : Nat} (present : stateAt operations before start path ≠ none) (later : Nat) :
    stateAt operations before (start + later) path ≠ none := by
  induction later with
  | zero => exact present
  | succ later ih =>
      rw [← Nat.add_assoc]
      cases next : operations[start + later]? with
      | none => rwa [stateAt_of_none before next]
      | some operation =>
          rw [stateAt_succ before next]
          exact Operation.keeps (kept _ operation next) ih

theorem eq_pathComponents {relative : String} {path : List PathComponent}
    (resolved : resolveDestination relative = .ok path) : path = pathComponents relative := by
  unfold resolveDestination at resolved
  rw [Fallible.guard_eq_ok] at resolved
  exact (Except.ok.inj resolved.2).symm

theorem fills_destination {signed : SignedDelegatedCreateCapability} {call : CreateCall}
    {verdict : CreateStep → Verdict} {before : Repository}
    (uses : T.capabilityFromJson call.capability = some signed)
    (changed : (runDelegatedCreate T call verdict before).state ≠ before) :
    ∃ path, destination T signed = some path ∧ before path = none ∧
      (runDelegatedCreate T call verdict before).state path ≠ none := by
  obtain ⟨plan, found, capability, secret, recipients, authorized, creates⟩ :=
    authorized_of_changed changed
  obtain ⟨path, ciphertext, resolved, absent, -, written⟩ := creates
  refine ⟨path, ?_, absent, ?_⟩
  · obtain ⟨payload, _, _, _, _, _, decoded, parsed, -⟩ := authorized.signature
    rw [authorized.envelope] at uses
    cases uses
    rw [← authorized.source] at resolved
    rw [eq_pathComponents resolved]
    simp [destination, decoded, parsed]
  · rw [written, Function.update_self]
    exact Option.some_ne_none _

/-- In a run in which nothing takes the ciphertext away from the destination of a capability, the
capability is used at most once. -/
theorem singleUse_of_kept {signed : SignedDelegatedCreateCapability}
    {operations : List (Operation T)} {before : Repository}
    (kept : ∀ path, destination T signed = some path →
      ∀ index (operation : Operation T), operations[index]? = some operation →
        ¬operation.Removes path (stateAt operations before index)) :
    SingleUse signed operations before := by
  have once : ∀ {first second}, WritesWith signed operations before first →
      WritesWith signed operations before second → ¬first < second := by
    rintro first second ⟨call, verdict, next, uses, changed⟩ ⟨again, verdict', next', uses', changed'⟩
      earlier
    obtain ⟨path, bound, -, filled⟩ := fills_destination uses changed
    obtain ⟨path', bound', absent, -⟩ := fills_destination uses' changed'
    cases Option.some.inj (bound.symm.trans bound')
    have present : stateAt operations before (first + 1) path ≠ none := by
      rw [stateAt_succ before next]
      exact filled
    obtain ⟨later, rfl⟩ := Nat.exists_eq_add_of_le (Nat.succ_le_of_lt earlier)
    exact present_after (kept path bound) present later absent
  intro first second writes writes'
  rcases Nat.lt_trichotomy first second with earlier | same | later
  · exact absurd earlier (once writes writes')
  · exact same
  · exact absurd later (once writes' writes)

namespace Sample

/-- The sample secret is deleted. -/
def removal : DeleteCall where
  relativeSource := "token.age"
  secretId := "token"
  deletedAt := "2023-11-14T22:19:00Z"

/-- The same capability is used again, within its window. -/
def again : CreateCall := { create with now := ⟨1700000400, by decide⟩ }

theorem follows_again : Follows tools issue (signedText ++ utf8 "\n") again :=
  ⟨rfl, rfl, by decide, by decide, follows.nonempty, follows.short, follows.committed⟩

theorem creates_when_absent {call : CreateCall}
    (used : Follows tools issue (signedText ++ utf8 "\n") call) {before : Repository}
    (absent : before (pathComponents "token.age") = none) :
    (runDelegatedCreate tools call (fun _ => .pass) before).state =
      Function.update before (pathComponents "token.age")
        (some (utf8 "age-encryption.org/v1\n" ++ call.stdin)) := by
  obtain ⟨found, secret, recipients, parsed, pending, -, creates⟩ :=
    create_of_issued lawful issued used
  have same : found = plan := Except.ok.inj (parsed.symm.trans read)
  subst same
  cases Option.some.inj pending
  rw [creates before _ absent rfl]
  rfl

theorem writesWith_of_absent {call : CreateCall} {operations : List (Operation tools)}
    {before : Repository} {index : Nat}
    (used : Follows tools issue (signedText ++ utf8 "\n") call)
    (next : operations[index]? = some (.create call fun _ => .pass))
    (absent : stateAt operations before index (pathComponents "token.age") = none) :
    WritesWith signed operations before index := by
  refine ⟨call, fun _ => .pass, next, ?_, ?_⟩
  · rw [used.file, capabilityFromJson_tools, lookup_self]
  · intro unchanged
    rw [creates_when_absent used absent] at unchanged
    have written := congrFun unchanged (pathComponents "token.age")
    rw [Function.update_self, absent] at written
    cases written

theorem absent_after_removal {before : Repository}
    (present : before (pathComponents "token.age") ≠ none) :
    (deleteSecret removal (fun _ => .pass) before).state (pathComponents "token.age") = none := by
  have resolved : resolveDestination removal.relativeSource = .ok (pathComponents "token.age") :=
    resolveDestination_of_valid (by decide)
  have removed : (deleteSecret removal).Meets (fun _ => .pass) before
      (fun _ after => after (pathComponents "token.age") = none) (fun _ _ => False)
      fun _ => False := by
    refine Meets.bind (Meets.step_unrefused ?_)
    refine Meets.bind (Meets.require (fun _ => ?_) (absurd (by decide)))
    refine Meets.lift_ok resolved ?_
    refine Meets.bind (Meets.step_unrefused ?_)
    refine Meets.bind (Meets.read (Meets.bind (Meets.require (fun _ => ?_) (absurd present))))
    refine Meets.bind (Meets.step_unrefused ?_)
    refine Meets.bind (Meets.step_unrefused ?_)
    refine Meets.bind (Meets.step_unrefused ?_)
    refine Meets.bind (Meets.step_unrefused ?_)
    refine Meets.bind (Meets.step_unrefused ?_)
    exact Meets.step_unrefused (Function.update_self _ _ _)
  exact (removed.mono (fun _ _ gone => gone) (fun _ _ impossible => impossible.elim)
    fun _ impossible => impossible.elim : (deleteSecret removal).Meets _ _ _
      (fun _ after => after (pathComponents "token.age") = none)
      fun after => after (pathComponents "token.age") = none).leaves

/-- A use, a deletion, and another use. -/
def recreated : List (Operation tools) :=
  [.create create fun _ => .pass, .delete removal fun _ => .pass, .create again fun _ => .pass]

/-- A use, a re-encryption of every ciphertext, and another use. -/
def rekeyed : List (Operation tools) :=
  [.create create fun _ => .pass,
    .other fun repository path => (repository path).map fun _ => utf8 "age-encryption.org/v1\n",
    .create again fun _ => .pass]

end Sample

/-- A secret that is created with a capability and then deleted is created again with the same
capability. -/
theorem capability_used_twice : ¬SingleUse Sample.signed Sample.recreated fun _ => none := by
  intro single
  have first : WritesWith Sample.signed Sample.recreated (fun _ => none) 0 :=
    Sample.writesWith_of_absent Sample.follows rfl rfl
  have filled : stateAt Sample.recreated (fun _ => none) 1 (pathComponents "token.age") ≠ none := by
    have next : Sample.recreated[0]? = some (.create Sample.create fun _ => .pass) := rfl
    rw [stateAt_succ _ next, Operation.apply, Sample.creates_when_absent Sample.follows rfl,
      Function.update_self]
    exact Option.some_ne_none _
  have removed : stateAt Sample.recreated (fun _ => none) 2 (pathComponents "token.age") = none := by
    have next : Sample.recreated[1]? = some (.delete Sample.removal fun _ => .pass) := rfl
    rw [stateAt_succ _ next, Operation.apply]
    exact Sample.absent_after_removal filled
  have second : WritesWith Sample.signed Sample.recreated (fun _ => none) 2 :=
    Sample.writesWith_of_absent Sample.follows_again rfl removed
  cases single 0 2 first second

/-- Without a deletion the second use is refused. -/
theorem singleUse_of_kept_rekeyed :
    WritesWith Sample.signed Sample.rekeyed (fun _ => none) 0 ∧
      SingleUse Sample.signed Sample.rekeyed fun _ => none := by
  refine ⟨Sample.writesWith_of_absent Sample.follows rfl rfl, singleUse_of_kept ?_⟩
  intro path _ index operation next removes
  have member := List.mem_of_getElem? next
  simp only [Sample.rekeyed, List.mem_cons, List.not_mem_nil, or_false] at member
  rcases member with rfl | rfl | rfl
  · exact removes
  · obtain ⟨present, absent⟩ := removes
    exact present (Option.map_eq_none_iff.mp absent)
  · exact removes

end NixSeal.Delegation
