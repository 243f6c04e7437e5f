import NixSeal.Lib.History
import NixSeal.Runtime.ActiveGeneration

/-!
# Service actions in every run

An activation runs beside a log of its switches and of the service actions that have succeeded.  A
generation with actions becomes the current one while its marker is there, and the marker goes away
after the actions only.
-/

namespace NixSeal.Runtime.Generations

open Cache Faulty Program Runs

/-! ## The log -/

/-- What is noted of a run. -/
inductive LogEntry where
  /-- `current` was renamed to a generation, with what stood at the name of the marker. -/
  | switched (number : Nat) (commit : Commit) (marker : Option Node)
  /-- `run_post_switch` returned for a request. -/
  | acted (planHash : String) (actions : PostSwitchSpec)

/-- The last switch, and the request that it was for. -/
def lastSwitch : List LogEntry → Option (Nat × Commit)
  | [] => none
  | .switched number commit _ :: _ => some (number, commit)
  | .acted _ _ :: earlier => lastSwitch earlier

/-- The actions that have succeeded after the last switch, with the hashes of their plans. -/
def actedSince : List LogEntry → List (String × PostSwitchSpec)
  | [] | .switched _ _ _ :: _ => []
  | .acted planHash actions :: earlier => (planHash, actions) :: actedSince earlier

theorem acted_of_mem_actedSince {log : List LogEntry} {planHash : String}
    {actions : PostSwitchSpec} (member : (planHash, actions) ∈ actedSince log) :
    .acted planHash actions ∈ log := by
  induction log with
  | nil => cases member
  | cons entry earlier ih =>
      cases entry with
      | switched number commit marker => cases member
      | acted otherHash others =>
          rcases List.mem_cons.mp member with same | member
          · cases same
            exact List.mem_cons_self
          · exact List.mem_cons_of_mem _ (ih member)

/-- The program of an operation beside the log. -/
abbrev Logged : Type → Type := Program Call (World × List LogEntry) RuntimeError

/-- `switch_current`; the switch is noted as soon as the link is renamed. -/
def switchCurrentLogged (number : Nat) (commit : Commit) : Logged Unit := do
  silent (prepareLink number)
  silent (renameOver (.switch .rename) currentNextName currentName)
  note fun world => .switched number commit (world.lookup pendingMarker)
  silent (idle (.switch .sync))

/-- `run_post_switch` and `clear_pending`. -/
def runPostSwitchLogged (E : Environment) (clearing : Clearing) (planHash : String)
    (actions : PostSwitchSpec) : Logged Unit := do
  silent (runPostSwitch E actions)
  note fun _ => .acted planHash actions
  silent (clearPending clearing)

/-- The actions of a new generation. -/
def actLogged (E : Environment) (commit : Commit) : Logged Unit :=
  match commit.actions with
  | none => pure ()
  | some actions => runPostSwitchLogged E .acted commit.planHash actions

/-- `commit_and_switch_optional` before the superseded generations are removed. -/
def switchGenerationLogged (E : Environment) (generation : Generation) (commit : Commit) :
    Logged Nat := do
  let prepared ← silent (onError (prepareCommit E generation.transaction commit)
    (Program.step .dropTransaction .io (World.drop generation.transaction)))
  let destination := generationName prepared.1
  silent (publish generation.transaction destination prepared.2)
  silent (onError (recordPending destination commit) (unpublish destination prepared.2))
  onError (switchCurrentLogged prepared.1 commit)
    (silent (unpublishUnswitched destination prepared.2))
  actLogged E commit
  pure prepared.1

/-- `commit_and_switch_optional`. -/
def commitLogged (E : Environment) (generation : Generation) (commit : Commit) :
    Logged (List FileName) := do
  let number ← switchGenerationLogged E generation commit
  silent (pruneSupersededGenerations E number)
  pure [generationName number]

/-- `Generation::finish_unchanged`. -/
def finishUnchangedLogged (E : Environment) (current : List FileName) (commit : Commit) :
    Logged Unit := do
  let present ← silent (pendingMarkerExists (.finish .inspect))
  Program.when (present = true) do
    let same ← silent (pendingMatches current commit.planHash)
    silent (require (same = true) .pendingPostSwitch)
    match commit.actions with
    | none => raise .pendingPostSwitch
    | some actions => runPostSwitchLogged E .retried commit.planHash actions

/-- The end of `activate` when the current generation has the same content. -/
def finishLogged (E : Environment) (current : List FileName) (commit : Commit) : Logged Bool := do
  let created ← silent (ensureCompatibilitySymlinks commit.runtimeRoot commit.compatibility)
  finishUnchangedLogged E current commit
  let number ← silent (lift (generationNumber current))
  silent (pruneSupersededGenerations E number)
  pure !created.isEmpty

section Erasure

theorem switchCurrentLogged_erases (number : Nat) (commit : Commit) :
    Erases (switchCurrentLogged number commit) (switchCurrent number) := by
  rw [switchCurrent_eq]
  exact (Erases.silent _).bind fun _ =>
    (Erases.silent _).bind fun _ => Erases.after_note _ (Erases.silent _)

theorem runPostSwitchLogged_erases (E : Environment) (clearing : Clearing) (planHash : String)
    (actions : PostSwitchSpec) :
    Erases (runPostSwitchLogged E clearing planHash actions) (do
      runPostSwitch E actions
      clearPending clearing) :=
  (Erases.silent _).bind fun _ => Erases.after_note _ (Erases.silent _)

theorem actLogged_erases (E : Environment) (commit : Commit) :
    Erases (actLogged E commit) (act E commit.actions) := by
  unfold actLogged
  cases commit.actions with
  | none => exact Erases.pure ()
  | some actions => exact runPostSwitchLogged_erases E .acted commit.planHash actions

theorem switchGenerationLogged_erases (E : Environment) (generation : Generation)
    (commit : Commit) :
    Erases (switchGenerationLogged E generation commit) (switchGeneration E generation commit) := by
  rw [switchGeneration_eq]
  simp only [installGeneration, bind_assoc]
  refine (Erases.silent _).bind fun prepared => (Erases.silent _).bind fun _ => ?_
  refine (Erases.silent _).bind fun _ => ?_
  refine ((switchCurrentLogged_erases _ commit).onError (Erases.silent _)).bind fun _ => ?_
  exact (actLogged_erases E commit).bind fun _ => Erases.pure _

theorem commitLogged_erases (E : Environment) (generation : Generation) (commit : Commit) :
    Erases (commitLogged E generation commit) (commitAndSwitchOptional E generation commit) :=
  (switchGenerationLogged_erases E generation commit).bind fun _ =>
    (Erases.silent _).bind fun _ => Erases.pure _

theorem finishUnchangedLogged_erases (E : Environment) (current : List FileName)
    (commit : Commit) :
    Erases (finishUnchangedLogged E current commit) (finishUnchanged E current commit) := by
  refine (Erases.silent _).bind fun _ => Erases.when ((Erases.silent _).bind fun _ => ?_)
  refine (Erases.silent _).bind fun _ => ?_
  cases commit.actions with
  | none => exact Erases.raise _
  | some actions => exact runPostSwitchLogged_erases E .retried commit.planHash actions

theorem finishLogged_erases (E : Environment) (current : List FileName) (commit : Commit) :
    Erases (finishLogged E current commit) (finishActivation E current commit) :=
  (Erases.silent _).bind fun _ =>
    (finishUnchangedLogged_erases E current commit).bind fun _ =>
      (Erases.silent _).bind fun _ => (Erases.silent _).bind fun _ => Erases.pure _

end Erasure

/-! ## The marker -/

/-- The marker of a generation and the plan that it was committed for. -/
def Marks (number : Nat) (planHash : String) (marker : Option Node) : Prop :=
  ∃ payload, pendingPayload [generationName number] planHash = .ok payload ∧
    marker = some (.file payload 1)

/-- What stands at the name of the marker when a request is switched to. -/
def Ready (number : Nat) (commit : Commit) (marker : Option Node) : Prop :=
  match commit.actions with
  | none => marker = none
  | some _ => Marks number commit.planHash marker

/-- What stands at `current` and at the name of the marker. -/
def marks (world : World) : Option Node × Option Node :=
  (world.lookup currentName, world.lookup pendingMarker)

section Marker

variable {verdict : Call → Verdict} {world after : World}

theorem planHash_eq_of_pendingPayload {generation : List FileName} {planHash other : String}
    {payload : Bytes} (first : pendingPayload generation planHash = .ok payload)
    (second : pendingPayload generation other = .ok payload) : planHash = other := by
  unfold pendingPayload at first second
  split at first
  · cases first
  · rename_i name named
    rw [named] at second
    have same := utf8_injective (Except.ok.inj (first.trans second.symm))
    have texts : (toString planHash).toList = (toString other).toList := by
      simpa using congrArg String.toList same
    exact String.toList_inj.mp texts

theorem idle_bind_eq_ok {α : Type} {label : Call} {next : Unit → Operation α} {result : α} :
    (idle label >>= next) verdict world = .ok result after ↔
      verdict label = .pass ∧ next () verdict world = .ok result after :=
  step_bind_eq_ok

theorem pendingMarkerExists_ok {label : Call} {present : Bool}
    (returned : pendingMarkerExists label verdict world = .ok present after) :
    after = world ∧ (world.lookup pendingMarker).isSome = present := by
  have kept : (pendingMarkerExists label).Keeps id := pendingMarkerExists_keeps label
  refine ⟨kept.of_ok returned, ?_⟩
  obtain ⟨-, rest⟩ := idle_bind_eq_ok.mp returned
  have found := read_bind_eq_ok.mp rest
  split at found
  · rename_i absent
    rw [absent]
    exact (pure_eq_ok.mp found).1
  · rename_i bytes links held
    rw [held]
    exact (pure_eq_ok.mp found).1
  · exact absurd found raise_ne_ok

theorem openRegular_ok {label : Call} {name : FileName} {bytes : Bytes}
    (returned : openRegular label name verdict world = .ok bytes after) :
    after = world ∧ world.lookup name = some (.file bytes 1) := by
  have kept : (openRegular label name).Keeps id := openRegular_keeps label name
  refine ⟨kept.of_ok returned, ?_⟩
  obtain ⟨-, rest⟩ := idle_bind_eq_ok.mp returned
  have found := read_bind_eq_ok.mp rest
  split at found
  · exact absurd found raise_ne_ok
  · rename_i bytes links held
    split at found
    · obtain ⟨rfl, -⟩ := pure_eq_ok.mp found
      subst links
      exact held
    · exact absurd found raise_ne_ok
  · exact absurd found raise_ne_ok

/-- The marker that matches a request is that of the generation and of its plan. -/
theorem pendingMatches_ok {generation : List FileName} {planHash : String}
    (returned : pendingMatches generation planHash verdict world = .ok true after) :
    ∃ payload, pendingPayload generation planHash = .ok payload ∧
      world.lookup pendingMarker = some (.file payload 1) := by
  obtain ⟨present, between, looked, rest⟩ := bind_eq_ok.mp returned
  obtain ⟨rfl, -⟩ := pendingMarkerExists_ok looked
  cases present with
  | false => cases (pure_eq_ok.mp rest).1
  | true =>
      rw [if_pos rfl] at rest
      obtain ⟨bytes, opened, opening, matching⟩ := bind_eq_ok.mp rest
      obtain ⟨rfl, held⟩ := openRegular_ok opening
      obtain ⟨-, matching⟩ := idle_bind_eq_ok.mp matching
      obtain ⟨-, matching⟩ := require_bind_eq_ok.mp matching
      obtain ⟨payload, last, lifted, compared⟩ := bind_eq_ok.mp matching
      obtain ⟨computed, -⟩ := lift_eq_ok.mp lifted
      obtain ⟨same, -⟩ := pure_eq_ok.mp compared
      rw [decide_eq_true_iff] at same
      subst same
      exact ⟨bytes, computed, held⟩

theorem renameOver_ok {label : Call} {source target : FileName}
    (returned : renameOver label source target verdict world = .ok () after) :
    after = world.move source target := by
  obtain ⟨-, rest⟩ := require_bind_eq_ok.mp (read_bind_eq_ok.mp returned)
  obtain ⟨-, rest⟩ := require_bind_eq_ok.mp rest
  exact (step_eq_ok.mp rest).2.symm

theorem writePending_ok {generation : List FileName} {planHash : String}
    (returned : writePending generation planHash verdict world = .ok () after) :
    ∃ payload, pendingPayload generation planHash = .ok payload ∧
      after.lookup pendingMarker = some (.file payload 1) := by
  obtain ⟨_, cleared, _, rest⟩ := bind_eq_ok.mp returned
  obtain ⟨-, rest⟩ := require_bind_eq_ok.mp (read_bind_eq_ok.mp rest)
  obtain ⟨-, rest⟩ := step_bind_eq_ok.mp rest
  obtain ⟨-, rest⟩ := step_bind_eq_ok.mp rest
  obtain ⟨payload, created, lifted, rest⟩ := bind_eq_ok.mp rest
  obtain ⟨computed, rfl⟩ := lift_eq_ok.mp lifted
  obtain ⟨_, written, writing, rest⟩ := bind_eq_ok.mp rest
  obtain ⟨-, rfl⟩ := write_eq_ok.mp writing
  obtain ⟨-, rest⟩ := step_bind_eq_ok.mp rest
  obtain ⟨_, renamed, moving, rest⟩ := bind_eq_ok.mp rest
  obtain ⟨-, rfl⟩ := step_eq_ok.mp rest
  rw [renameOver_ok moving]
  exact ⟨payload, computed, World.lookup_move World.lookup_put⟩

theorem clearPending_ok {clearing : Clearing}
    (returned : clearPending clearing verdict world = .ok () after) :
    after.lookup pendingMarker = none := by
  obtain ⟨present, between, looked, rest⟩ := bind_eq_ok.mp returned
  obtain ⟨rfl, found⟩ := pendingMarkerExists_ok looked
  cases present with
  | false =>
      obtain ⟨-, rfl⟩ := pure_eq_ok.mp rest
      exact Option.isNone_iff_eq_none.mp (Option.isSome_eq_false_iff.mp found)
  | true =>
      obtain ⟨bytes, opened, opening, rest⟩ := bind_eq_ok.mp rest
      obtain ⟨-, rest⟩ := step_bind_eq_ok.mp rest
      obtain ⟨-, rfl⟩ := step_eq_ok.mp rest
      exact World.lookup_drop

theorem recordPending_ok {number : Nat} {commit : Commit}
    (returned : recordPending (generationName number) commit verdict world = .ok () after) :
    Ready number commit (after.lookup pendingMarker) := by
  unfold recordPending at returned
  unfold Ready
  cases asked : commit.actions with
  | none =>
      rw [asked] at returned
      exact clearPending_ok returned
  | some actions =>
      rw [asked] at returned
      exact writePending_ok returned

/-- An action on a unit has succeeded. -/
def Succeeds (E : Environment) (actions : PostSwitchSpec) (reload : Bool) (unit : String) : Prop :=
  ∃ arguments, managerArguments E actions.manager reload unit = .ok arguments ∧
    E.manager actions unit arguments = .ok (some 0)

/-- A unit is not restarted because it is inactive or unknown. -/
def Inactive (E : Environment) (actions : PostSwitchSpec) (unit : String) : Prop :=
  ∃ code, E.manager actions unit ((if actions.manager = .systemdUser then ["--user"] else []) ++
    ["is-active", "--quiet", unit]) = .ok (some code) ∧ (code = 3 ∨ code = 4)

/-- Every unit was reloaded or restarted, or is inactive. -/
structure Handled (E : Environment) (actions : PostSwitchSpec) : Prop where
  reloaded : ∀ unit ∈ actions.reloadUnits, Succeeds E actions true unit
  restarted : ∀ unit ∈ actions.restartUnits,
    Succeeds E actions false unit ∨ Inactive E actions unit

theorem runAction_ok {E : Environment} {actions : PostSwitchSpec} {reload : Bool} {unit : String}
    (returned : runAction E actions reload unit verdict world = .ok () after) :
    Succeeds E actions reload unit := by
  obtain ⟨arguments, between, lifted, rest⟩ := bind_eq_ok.mp returned
  obtain ⟨computed, rfl⟩ := lift_eq_ok.mp lifted
  obtain ⟨status, ran, running, required⟩ := bind_eq_ok.mp rest
  obtain ⟨-, managed⟩ := step_bind_eq_ok.mp running
  obtain ⟨rfl, -⟩ := require_eq_ok.mp required
  exact ⟨arguments, computed, (lift_eq_ok.mp managed).1⟩

theorem restartUnit_ok {E : Environment} {actions : PostSwitchSpec} {unit : String}
    (returned : restartUnit E actions unit verdict world = .ok () after) :
    Succeeds E actions false unit ∨ Inactive E actions unit := by
  unfold restartUnit at returned
  split at returned
  · exact .inl (runAction_ok returned)
  · obtain ⟨status, ran, running, rest⟩ := bind_eq_ok.mp returned
    obtain ⟨-, managed⟩ := step_bind_eq_ok.mp running
    have exited := (lift_eq_ok.mp managed).1
    unfold Program.when at rest
    split at rest
    · obtain ⟨-, acting⟩ := require_bind_eq_ok.mp rest
      exact .inl (runAction_ok acting)
    · rename_i passed
      rcases not_not.mp passed with rfl | rfl
      · exact .inr ⟨3, exited, .inl rfl⟩
      · exact .inr ⟨4, exited, .inr rfl⟩

theorem runPostSwitch_ok {E : Environment} {actions : PostSwitchSpec}
    (returned : runPostSwitch E actions verdict world = .ok () after) : Handled E actions := by
  obtain ⟨_, validated, _, rest⟩ := bind_eq_ok.mp returned
  obtain ⟨_, reloaded, reloading, restarting⟩ := bind_eq_ok.mp rest
  constructor
  · intro unit member
    obtain ⟨_, _, _, _, stepped⟩ := step_of_foldlM_eq_ok reloading member
    exact runAction_ok stepped
  · intro unit member
    obtain ⟨_, _, _, _, stepped⟩ := step_of_foldlM_eq_ok restarting member
    exact restartUnit_ok stepped

theorem prepareCommit_unmarked {E : Environment} {transaction : FileName} {commit : Commit}
    {prepared : Nat × List (String × String)}
    (returned : prepareCommit E transaction commit verdict world = .ok prepared after) :
    world.lookup pendingMarker = none := by
  obtain ⟨pending, first, looked, rest⟩ := bind_eq_ok.mp returned
  obtain ⟨rfl, unmarked⟩ := pendingMarkerExists_ok looked
  obtain ⟨absent, -⟩ := require_bind_eq_ok.mp rest
  rw [absent] at unmarked
  exact Option.isNone_iff_eq_none.mp (Option.isSome_eq_false_iff.mp unmarked)

end Marker

/-! ## What is owed -/

/-- `current` is as the log says. -/
def Linked (start : World) (log : List LogEntry) (link : Option Node) : Prop :=
  match lastSwitch log with
  | none => link = start.lookup currentName
  | some (number, _) => link = some (.symlink (generationName number))

/-- The actions of the last switch, if it has any, have succeeded after it. -/
def Done (log : List LogEntry) : Prop :=
  ∀ number commit, lastSwitch log = some (number, commit) → commit.actions.isSome = true →
    ∃ actions, (commit.planHash, actions) ∈ actedSince log

/-- The marker is that of the last switch. -/
def Owed (log : List LogEntry) (marker : Option Node) : Prop :=
  ∃ number commit, lastSwitch log = some (number, commit) ∧ Marks number commit.planHash marker

/-- The root after a run, beside the log of the run. -/
structure Accounted (start : World) (asked : String → PostSwitchSpec → Prop)
    (state : World × List LogEntry) : Prop where
  linked : Linked start state.2 (state.1.lookup currentName)
  settled : Done state.2 ∨ Owed state.2 (state.1.lookup pendingMarker)
  /-- A generation was made current without a marker, or with its own. -/
  guarded : ∀ number commit marker, .switched number commit marker ∈ state.2 →
    marker = none ∨ Marks number commit.planHash marker
  requested : ∀ planHash actions, .acted planHash actions ∈ state.2 → asked planHash actions

section Accounted

variable {start world after : World} {asked : String → PostSwitchSpec → Prop}
  {log : List LogEntry} {number : Nat} {commit : Commit} {planHash : String}
  {actions : PostSwitchSpec}

theorem Accounted.of_marks (accounted : Accounted start asked (world, log))
    (kept : marks after = marks world) : Accounted start asked (after, log) := by
  obtain ⟨linked, settled, guarded, requested⟩ := accounted
  obtain ⟨link, marker⟩ := Prod.mk.inj kept
  exact ⟨link ▸ linked, marker ▸ settled, guarded, requested⟩

/-- When nothing is owed, the marker does not matter. -/
theorem Accounted.of_done (accounted : Accounted start asked (world, log)) (done : Done log)
    (kept : after.lookup currentName = world.lookup currentName) :
    Accounted start asked (after, log) :=
  ⟨kept ▸ accounted.linked, .inl done, accounted.guarded, accounted.requested⟩

theorem Accounted.acted (accounted : Accounted start asked (world, log))
    (done : Done (.acted planHash actions :: log)) (request : asked planHash actions) :
    Accounted start asked (world, .acted planHash actions :: log) := by
  refine ⟨accounted.linked, .inl done, ?_, ?_⟩
  · intro number commit marker member
    rcases List.mem_cons.mp member with impossible | member
    · cases impossible
    · exact accounted.guarded number commit marker member
  · intro otherHash others member
    rcases List.mem_cons.mp member with same | member
    · cases same
      exact request
    · exact accounted.requested otherHash others member

theorem Accounted.switched (accounted : Accounted start asked (world, log))
    (link : after.lookup currentName = some (.symlink (generationName number)))
    (ready : Ready number commit (after.lookup pendingMarker)) :
    Accounted start asked
      (after, .switched number commit (after.lookup pendingMarker) :: log) := by
  unfold Ready at ready
  refine ⟨link, ?_, ?_, ?_⟩
  · cases given : commit.actions with
    | none =>
        left
        intro _ _ last acting
        cases last
        rw [given] at acting
        cases acting
    | some actions =>
        rw [given] at ready
        exact .inr ⟨number, commit, rfl, ready⟩
  · intro otherNumber other marker member
    rcases List.mem_cons.mp member with same | member
    · cases same
      split at ready
      · exact .inl ready
      · exact .inr ready
    · exact accounted.guarded otherNumber other marker member
  · intro otherHash others member
    rcases List.mem_cons.mp member with impossible | member
    · cases impossible
    · exact accounted.requested otherHash others member

/-- Without a marker nothing is owed. -/
theorem Accounted.done_of_unmarked (accounted : Accounted start asked (world, log))
    (unmarked : world.lookup pendingMarker = none) : Done log := by
  rcases accounted.settled with done | ⟨number, commit, -, payload, -, marked⟩
  · exact done
  · have marked : world.lookup pendingMarker = some (.file payload 1) := marked
    rw [unmarked] at marked
    cases marked

/-- A request that matches the marker pays what is owed. -/
theorem Accounted.done_of_retry (accounted : Accounted start asked (world, log))
    {target : FileName} {payload : Bytes}
    (link : world.lookup currentName = some (.symlink target))
    (computed : pendingPayload [target] planHash = .ok payload)
    (marked : world.lookup pendingMarker = some (.file payload 1)) :
    Done (.acted planHash actions :: log) := by
  intro number commit last acting
  have last : lastSwitch log = some (number, commit) := last
  rcases accounted.settled with done | ⟨_, _, owing, owed, expected, marks⟩
  · obtain ⟨others, member⟩ := done number commit last acting
    exact ⟨others, List.mem_cons_of_mem _ member⟩
  · have owing : lastSwitch log = _ := owing
    rw [last] at owing
    cases owing
    have linked := accounted.linked
    simp only [Linked, last, link, Option.some.injEq, Node.symlink.injEq] at linked
    have same : world.lookup pendingMarker = some (.file owed 1) := marks
    rw [marked] at same
    cases same
    rw [linked] at computed
    have same := planHash_eq_of_pendingPayload computed expected
    exact ⟨actions, by rw [same]; exact List.mem_cons_self⟩

theorem done_of_last (last : lastSwitch log = some (number, commit)) :
    Done (.acted commit.planHash actions :: log) := by
  intro otherNumber other found _
  have found : lastSwitch log = some (otherNumber, other) := found
  rw [last] at found
  cases found
  exact ⟨actions, List.mem_cons_self⟩

end Accounted

/-! ## One call -/

section Marks

theorem marks_of_beside {names : List FileName} {before after : World}
    (kept : beside names after = beside names before) (linkApart : currentName ∉ names)
    (markerApart : pendingMarker ∉ names) : marks after = marks before :=
  Prod.ext (lookup_of_beside kept linkApart) (lookup_of_beside kept markerApart)

theorem keeps_marks_of_beside {α : Type} {program : Operation α} {names : List FileName}
    (keeps : program.Keeps (beside names)) (linkApart : currentName ∉ names)
    (markerApart : pendingMarker ∉ names) : program.Keeps marks :=
  fun verdict world => marks_of_beside (keeps verdict world) linkApart markerApart

theorem keeps_marks_of_root {α : Type} {program : Operation α} (keeps : program.Keeps World.root) :
    program.Keeps marks :=
  keeps_marks_of_beside (keeps_beside_of_root keeps) List.not_mem_nil List.not_mem_nil

theorem transaction_ne_pendingMarker (generation : Generation) :
    generation.transaction ≠ pendingMarker := by
  intro same
  have texts := congrArg (fun name => name.toStr.map String.toList) same
  simp [Generation.transaction, pendingMarker, FileName.toStr] at texts

theorem currentName_ne_generationName (number : Nat) : currentName ≠ generationName number := by
  intro same
  have generation := isGeneration_generationName number
  rw [← same] at generation
  cases generation

theorem marks_apart_transaction (generation : Generation) :
    currentName ∉ [generation.transaction] ∧ pendingMarker ∉ [generation.transaction] := by
  constructor
  · simpa using (transaction_ne generation).symm
  · simpa using (transaction_ne_pendingMarker generation).symm

theorem not_mem_of_mark {name mark : FileName} (generation : isGeneration name = true)
    (other : isGeneration mark = false) : mark ∉ [name] := by
  intro member
  rw [List.mem_singleton.mp member, generation] at other
  cases other

theorem pruneSupersededGenerations_keeps_marks (E : Environment) (number : Nat) :
    (pruneSupersededGenerations E number).Keeps marks := by
  refine Keeps.bind (idle_keeps _) fun _ => Keeps.bind Keeps.read fun _ => ?_
  refine Keeps.bind (Keeps.foldlM fun _ name => ?_) fun _ => idle_keeps _
  refine pruneEntry_keeps_of fun value read _ => ?_
  have generation : isGeneration name = true := by
    by_contra other
    rw [nameNumber, generationSuffix_of_not_isGeneration (by simpa using other)] at read
    cases read
  exact keeps_marks_of_beside (removeGenerationTree_keeps name)
    (not_mem_of_mark generation rfl) (not_mem_of_mark generation rfl)

end Marks

theorem currentGeneration_ok {root : Entries} {current : List FileName}
    (found : currentGeneration root = .ok (some current)) :
    ∃ target, current = [target] ∧ root.lookup currentName = some (.symlink target) := by
  unfold currentGeneration at found
  split at found
  · cases found
  · rename_i target linked
    split at found
    · cases found
    split at found
    · cases found
    split at found
    · cases found
    split at found
    · cases found
    split at found
    · cases found
      exact ⟨target, rfl, linked⟩
    · cases found
  · cases found

section Calls

variable {start world : World} {asked : String → PostSwitchSpec → Prop} {log : List LogEntry}
  {verdict : Call → Verdict} {E : Environment} {commit : Commit}

/-- A program that keeps the marks keeps the account. -/
theorem Accounted.silent {α : Type} {program : Operation α} (keeps : program.Keeps marks)
    (accounted : Accounted start asked (world, log)) :
    (silent program : Logged α).Meets verdict (world, log)
      (fun _ => Accounted start asked) (fun _ => Accounted start asked) (Accounted start asked) :=
  Meets.silent ((keeps.meets verdict world).mono
    (fun _ _ returned => accounted.of_marks returned.2) (fun _ _ kept => accounted.of_marks kept)
    fun _ kept => accounted.of_marks kept)

/-- Actions that pay what is owed, and the removal of the marker. -/
theorem runPostSwitchLogged_meets {clearing : Clearing} {planHash : String}
    {actions : PostSwitchSpec} (accounted : Accounted start asked (world, log))
    (request : Handled E actions → asked planHash actions)
    (done : Done (.acted planHash actions :: log)) :
    (runPostSwitchLogged E clearing planHash actions).Meets verdict (world, log)
      (fun _ => Accounted start asked) (fun _ => Accounted start asked) (Accounted start asked) := by
  have acting : (runPostSwitch E actions).Keeps marks := runPostSwitch_keeps E actions
  refine acting.silent_seq ?_ (fun _ _ kept => accounted.of_marks kept)
    fun _ kept => accounted.of_marks kept
  intro _ between returned kept
  refine Meets.bind (Meets.note ?_)
  have paid := (accounted.of_marks kept).acted done (request (runPostSwitch_ok returned))
  have clearing : (clearPending clearing).Keeps (beside [pendingMarker]) :=
    clearPending_keeps clearing (by simp)
  have cleared : ∀ after, beside [pendingMarker] after = beside [pendingMarker] between →
      Accounted start asked (after, .acted planHash actions :: log) := fun after kept =>
    paid.of_done done (lookup_of_beside kept (by decide))
  exact Meets.silent ((clearing.meets verdict between).mono
    (fun _ after returned => cleared after returned.2) (fun _ => cleared) cleared)

/-- Until the link is renamed nothing is owed; from then on the marker is there. -/
theorem switchCurrentLogged_meets {number : Nat} (accounted : Accounted start asked (world, log))
    (done : Done log) (ready : Ready number commit (world.lookup pendingMarker))
    (synced : verdict (.switch .sync) ≠ .fail) :
    (switchCurrentLogged number commit).Meets verdict (world, log)
      (fun _ state => Accounted start asked state ∧ lastSwitch state.2 = some (number, commit))
      (fun _ state => Accounted start asked state ∧ Done state.2) (Accounted start asked) := by
  have unswitched : ∀ after, beside [currentNextName] after = beside [currentNextName] world →
      Accounted start asked (after, log) := fun after kept =>
    accounted.of_marks (marks_of_beside kept (by decide) (by decide))
  refine (prepareLink_keeps number (by simp)).silent_seq ?_
    (fun _ after kept => ⟨unswitched after kept, done⟩) unswitched
  intro _ between prepared kept
  have link := prepareLink_ok prepared
  have moving : (renameOver (.switch .rename) currentNextName currentName).Keeps
      (beside [currentNextName, currentName]) := renameOver_keeps _ (by simp) (by simp)
  refine Meets.bind (Meets.silent
    (((renameOver_meets _ _ _ verdict between).keeping moving).mono ?_ ?_ ?_))
  · intro _ renamed ended
    obtain ⟨⟨node, found, moved⟩, others⟩ := ended
    rw [link, Option.some.injEq] at found
    subst found
    have switched : renamed.lookup currentName = some (.symlink (generationName number)) := by
      rw [moved]
      exact World.lookup_move link
    have ready : Ready number commit (renamed.lookup pendingMarker) := by
      rw [lookup_of_beside others (by decide), lookup_of_beside kept (by decide)]
      exact ready
    have noted := (unswitched between kept).switched switched ready
    refine Meets.bind (Meets.note (Meets.silent (Meets.step ⟨noted, rfl⟩ ?_ fun _ _ => noted)))
    exact fun refused => absurd refused synced
  · intro _ after ended
    exact ⟨ended.1 ▸ unswitched between kept, done⟩
  · intro after ended
    exact ended.1 ▸ unswitched between kept

/-- The actions of a generation that was just switched to. -/
theorem actLogged_meets {number : Nat} (accounted : Accounted start asked (world, log))
    (last : lastSwitch log = some (number, commit))
    (request : ∀ actions, commit.actions = some actions → Handled E actions →
      asked commit.planHash actions) :
    (actLogged E commit).Meets verdict (world, log)
      (fun _ => Accounted start asked) (fun _ => Accounted start asked) (Accounted start asked) := by
  unfold actLogged
  cases given : commit.actions with
  | none => exact Meets.pure accounted
  | some actions =>
      exact runPostSwitchLogged_meets accounted (request actions given) (done_of_last last)

theorem switchGenerationLogged_meets {generation : Generation}
    (accounted : Accounted start asked (world, log))
    (request : ∀ actions, commit.actions = some actions → Handled E actions →
      asked commit.planHash actions)
    (synced : verdict (.switch .sync) ≠ .fail) :
    (switchGenerationLogged E generation commit).Meets verdict (world, log)
      (fun _ => Accounted start asked) (fun _ => Accounted start asked) (Accounted start asked) := by
  have transactionApart := marks_apart_transaction generation
  have dropping : (Program.step .dropTransaction .io (World.drop generation.transaction) :
      Operation Unit).Keeps (beside [generation.transaction]) :=
    Keeps.step fun _ => beside_drop (by simp)
  have preparing : (onError (prepareCommit E generation.transaction commit)
      (Program.step .dropTransaction .io (World.drop generation.transaction))).Keeps marks :=
    (keeps_marks_of_root (prepareCommit_keeps E _ commit)).onError
      (keeps_marks_of_beside dropping transactionApart.1 transactionApart.2)
  refine preparing.silent_seq ?_ (fun _ _ kept => accounted.of_marks kept)
    fun _ kept => accounted.of_marks kept
  intro prepared ready returned kept
  have done : Done log :=
    accounted.done_of_unmarked (prepareCommit_unmarked (onError_eq_ok.mp returned))
  have different : currentName ≠ generationName prepared.1 := currentName_ne_generationName _
  have publishing : (publish generation.transaction (generationName prepared.1)
      prepared.2).Keeps (beside [generationName prepared.1, generation.transaction]) :=
    publish_keeps _ (by simp) (by simp)
  have recording : (onError (recordPending (generationName prepared.1) commit)
      (unpublish (generationName prepared.1) prepared.2)).Keeps
        (beside [generationName prepared.1, pendingMarker, postSwitchNextName]) :=
    (recordPending_keeps _ commit (by simp) (by simp)).onError (unpublish_keeps _ (by simp))
  have unswitching : (unpublishUnswitched (generationName prepared.1) prepared.2).Keeps
      (beside [generationName prepared.1, pendingMarker]) :=
    unpublishUnswitched_keeps _ (by simp) (by simp)
  have accountedReady := accounted.of_marks kept
  have published : ∀ after,
      beside [generationName prepared.1, generation.transaction] after =
        beside [generationName prepared.1, generation.transaction] ready →
          Accounted start asked (after, log) := fun after kept =>
    accountedReady.of_done done (lookup_of_beside kept
      (List.not_mem_cons_of_ne_of_not_mem different transactionApart.1))
  refine publishing.silent_seq ?_ (fun _ => published) published
  intro _ committed _ kept
  have accountedCommitted := published committed kept
  have recorded : ∀ after,
      beside [generationName prepared.1, pendingMarker, postSwitchNextName] after =
        beside [generationName prepared.1, pendingMarker, postSwitchNextName] committed →
          Accounted start asked (after, log) := fun after kept =>
    accountedCommitted.of_done done (lookup_of_beside kept
      (List.not_mem_cons_of_ne_of_not_mem different (by decide)))
  refine recording.silent_seq ?_ (fun _ => recorded) recorded
  intro _ marked returned kept
  have ready := recordPending_ok (onError_eq_ok.mp returned)
  refine Meets.bind (Meets.onError _
    ((switchCurrentLogged_meets (recorded marked kept) done ready synced).mono ?_
      (fun _ _ failed => failed) fun _ stopped => stopped) ?_)
  · intro _ switched ended
    exact Meets.bind ((actLogged_meets ended.1 ended.2 request).mono
      (fun _ _ accounted => Meets.pure accounted) (fun _ _ accounted => accounted)
      fun _ accounted => accounted)
  · intro _ failed unswitched
    have cleaned : ∀ after, beside [generationName prepared.1, pendingMarker] after =
        beside [generationName prepared.1, pendingMarker] failed.1 →
          Accounted start asked (after, failed.2) := fun after kept =>
      unswitched.1.of_done unswitched.2 (lookup_of_beside kept
        (List.not_mem_cons_of_ne_of_not_mem different (by decide)))
    exact Meets.silent ((unswitching.meets verdict failed.1).mono
      (fun _ after returned => cleaned after returned.2) (fun _ => cleaned) cleaned)

theorem commitLogged_meets {generation : Generation}
    (accounted : Accounted start asked (world, log))
    (request : ∀ actions, commit.actions = some actions → Handled E actions →
      asked commit.planHash actions)
    (synced : verdict (.switch .sync) ≠ .fail) :
    (commitLogged E generation commit).Meets verdict (world, log)
      (fun _ => Accounted start asked) (fun _ => Accounted start asked) (Accounted start asked) := by
  refine (switchGenerationLogged_meets accounted request synced).seq fun number switched kept => ?_
  exact (kept.silent (pruneSupersededGenerations_keeps_marks E number)).seq
    fun _ _ pruned => Meets.pure pruned

/-- The actions are retried for the request that the marker names, and for no other. -/
theorem finishUnchangedLogged_meets {target : FileName}
    (accounted : Accounted start asked (world, log))
    (request : ∀ actions, commit.actions = some actions → Handled E actions →
      asked commit.planHash actions)
    (link : world.lookup currentName = some (.symlink target)) :
    (finishUnchangedLogged E [target] commit).Meets verdict (world, log)
      (fun _ => Accounted start asked) (fun _ => Accounted start asked) (Accounted start asked) := by
  have unchanged : ∀ after, id after = id world → Accounted start asked (after, log) :=
    fun after same => (show after = world from same) ▸ accounted
  have looking : (pendingMarkerExists (.finish .inspect)).Keeps id := pendingMarkerExists_keeps _
  refine looking.silent_seq ?_ (fun _ => unchanged) unchanged
  intro present looked _ same
  obtain rfl : looked = world := same
  refine Meets.when (fun _ => ?_) fun _ => accounted
  have comparing : (pendingMatches [target] commit.planHash).Keeps id := pendingMatches_keeps _ _
  refine comparing.silent_seq ?_ (fun _ => unchanged) unchanged
  intro matching compared returned same
  obtain rfl : compared = looked := same
  refine Meets.bind (Meets.silent (Meets.require ?_ fun _ => accounted))
  rintro rfl
  obtain ⟨payload, computed, marked⟩ := pendingMatches_ok returned
  cases given : commit.actions with
  | none => exact Meets.raise accounted
  | some actions =>
      exact runPostSwitchLogged_meets accounted (request actions given)
        (accounted.done_of_retry link computed marked)

theorem finishLogged_meets {current : List FileName}
    (accounted : Accounted start asked (world, log))
    (request : ∀ actions, commit.actions = some actions → Handled E actions →
      asked commit.planHash actions)
    (found : currentGeneration world.root = .ok (some current)) :
    (finishLogged E current commit).Meets verdict (world, log)
      (fun _ => Accounted start asked) (fun _ => Accounted start asked) (Accounted start asked) := by
  obtain ⟨target, rfl, link⟩ := currentGeneration_ok found
  have linking : (ensureCompatibilitySymlinks commit.runtimeRoot commit.compatibility).Keeps
      World.root := ensureCompatibilitySymlinksFrom_keeps _ _ _
  have rooted : ∀ after, after.root = world.root → Accounted start asked (after, log) := by
    intro after same
    exact accounted.of_marks (by simp only [marks, World.lookup, same])
  refine linking.silent_seq ?_ (fun _ => rooted) rooted
  intro _ linked _ same
  have link : linked.lookup currentName = some (.symlink target) := by
    rw [World.lookup, same]
    exact link
  refine (finishUnchangedLogged_meets (rooted linked same) request link).seq ?_
  intro _ finished accounted
  refine (accounted.silent (Keeps.lift _)).seq fun number numbered accounted => ?_
  exact (accounted.silent (pruneSupersededGenerations_keeps_marks E number)).seq
    fun _ _ pruned => Meets.pure pruned

end Calls

/-! ## Every run -/

/-- The request of an activation. -/
def Event.request : Event → Option Commit
  | .begin _ | .write _ _ | .discard _ | .leave _ _ => none
  | .finish _ _ request _ | .commit _ _ request _ => some request

/-- The service manager that an activation meets has handled some actions. -/
def Event.Handles (event : Event) (actions : PostSwitchSpec) : Prop :=
  match event with
  | .begin _ | .write _ _ | .discard _ | .leave _ _ => False
  | .finish E _ _ _ | .commit E _ _ _ => Handled E actions

/-- The log after an event. -/
def Event.logged (event : Event) (state : World × List LogEntry) : List LogEntry :=
  match event with
  | .begin _ | .write _ _ | .discard _ | .leave _ _ => state.2
  | .finish E current request verdict => (finishLogged E current request verdict state).state.2
  | .commit E generation request verdict => (commitLogged E generation request verdict state).state.2

/-- The root can be synced after `current` is renamed. -/
def Event.Synced : Event → Prop
  | .begin _ | .write _ _ | .discard _ | .leave _ _ | .finish _ _ _ _ => True
  | .commit _ _ _ verdict => verdict (.switch .sync) ≠ .fail

/-- The requests of a run. -/
def requests (trace : List (Moment World Event)) : List Commit :=
  trace.filterMap fun moment => moment.event.request

/-- The log of a run, from the last entry to the first. -/
def history (trace : List (Moment World Event)) : List LogEntry :=
  trace.foldl (fun log moment => moment.event.logged (moment.before, log)) []

theorem Step.accounted {start before after : World} {asked : String → PostSwitchSpec → Prop}
    {log : List LogEntry} {event : Event} (moves : Step before event after)
    (accounted : Accounted start asked (before, log)) (synced : event.Synced)
    (request : ∀ commit, event.request = some commit → ∀ actions,
      commit.actions = some actions → event.Handles actions → asked commit.planHash actions) :
    Accounted start asked (after, event.logged (before, log)) := by
  have transacted : ∀ (generation : Generation) (after : World),
      beside [generation.transaction] after = beside [generation.transaction] before →
        Accounted start asked (after, log) := by
    intro generation after kept
    have apart := marks_apart_transaction generation
    exact accounted.of_marks (marks_of_beside kept apart.1 apart.2)
  cases moves with
  | begin free => exact transacted _ _ (beside_put List.mem_cons_self)
  | write there => exact transacted _ _ (beside_put List.mem_cons_self)
  | discard => exact transacted _ _ (beside_drop List.mem_cons_self)
  | @leave name tree generation inactive =>
      have kept : beside [name] (before.put name tree) = beside [name] before :=
        beside_put List.mem_cons_self
      exact accounted.of_marks (marks_of_beside kept (not_mem_of_mark generation rfl)
        (not_mem_of_mark generation rfl))
  | @finish E current commit verdict found =>
      have erased := (finishLogged_erases E current commit).state verdict (before, log)
      rw [← erased]
      exact (finishLogged_meets accounted (request commit rfl) found).leaves
  | @commit E generation commit verdict sized =>
      have erased := (commitLogged_erases E generation commit).state verdict (before, log)
      rw [← erased]
      exact (commitLogged_meets accounted (request commit rfl) synced).leaves

/-- A request of a run carries these actions for a plan. -/
def Carried (trace : List (Moment World Event)) (planHash : String) (actions : PostSwitchSpec) :
    Prop :=
  ∃ request ∈ requests trace, request.planHash = planHash ∧ request.actions = some actions

/-- The actions of a request of a run were handled in one of its activations. -/
def Performed (trace : List (Moment World Event)) (planHash : String) (actions : PostSwitchSpec) :
    Prop :=
  ∃ moment ∈ trace, ∃ request, moment.event.request = some request ∧ request.planHash = planHash ∧
    request.actions = some actions ∧ moment.event.Handles actions

theorem Performed.carried {trace : List (Moment World Event)} {planHash : String}
    {actions : PostSwitchSpec} (performed : Performed trace planHash actions) :
    Carried trace planHash actions := by
  obtain ⟨moment, member, request, asked, plan, given, -⟩ := performed
  exact ⟨request, List.mem_filterMap.mpr ⟨moment, member, asked⟩, plan, given⟩

theorem accounted_of_run {start world : World} {trace : List (Moment World Event)}
    (run : Run Step start trace world) (synced : ∀ moment ∈ trace, moment.event.Synced) :
    Accounted start (Performed trace) (world, history trace) := by
  have begins : Accounted start (Performed trace) (start, []) := by
    refine ⟨rfl, .inl ?_, ?_, ?_⟩
    · intro number commit impossible
      cases impossible
    · intro number commit marker impossible
      cases impossible
    · intro planHash actions impossible
      cases impossible
  have listed : ∀ moment ∈ trace, moment ∈ trace := fun _ member => member
  refine run.invariant_fold (fun world log => Accounted start (Performed trace) (world, log)) ?_
    begins listed
  intro before event after log member accounted moves
  refine moves.accounted accounted (synced _ member) ?_
  intro commit asked actions given handled
  exact ⟨_, member, commit, asked, rfl, given, handled⟩

/-- No service action is lost.  In every run of activations, however its calls end, `current` names
the generation that was last switched to.  If its request has actions, the actions of a request with
that plan have succeeded since (every unit was reloaded or restarted, or is inactive), or the marker
is there for this generation and this plan.  No generation is made current while the marker of
another one is there. -/
theorem service_actions_not_lost {start world : World} {trace : List (Moment World Event)}
    (run : Run Step start trace world) (synced : ∀ moment ∈ trace, moment.event.Synced) :
    Linked start (history trace) (world.lookup currentName) ∧
      (∀ number commit actions, lastSwitch (history trace) = some (number, commit) →
        commit.actions = some actions →
          (∃ done, (commit.planHash, done) ∈ actedSince (history trace) ∧
            Performed trace commit.planHash done ∧
            ((∀ other, Carried trace commit.planHash other → other = actions) → done = actions)) ∨
          Marks number commit.planHash (world.lookup pendingMarker)) ∧
      ∀ number commit marker, .switched number commit marker ∈ history trace →
        marker = none ∨ Marks number commit.planHash marker := by
  have accounted := accounted_of_run run synced
  refine ⟨accounted.linked, ?_, accounted.guarded⟩
  intro number commit actions last given
  rcases accounted.settled with done | ⟨_, _, owing, marks⟩
  · obtain ⟨done, member⟩ := done number commit last (by rw [given]; rfl)
    have performed := accounted.requested commit.planHash done (acted_of_mem_actedSince member)
    exact .inl ⟨done, member, performed, fun only => only done performed.carried⟩
  · have owing : lastSwitch (history trace) = _ := owing
    rw [last] at owing
    cases owing
    exact .inr marks

namespace Sample

def actions : PostSwitchSpec :=
  ⟨"/run/current-system/sw/bin/systemctl", .systemdSystem, [], ["example.service"], 30⟩

/-- A request with actions. -/
def acting : Commit := ⟨"/run/nix-seal", none, "plan", some actions, []⟩

/-- A system that kills the process after `current` is renamed. -/
def killing : Call → Verdict
  | .switch .sync => .kill 0
  | _ => .pass

def killed : List (Moment World Event) :=
  events ++ [⟨transacted, .commit environment generation acting killing⟩]

end Sample

theorem service_actions_not_lost_sample :
    ∃ world, Run Step Sample.empty Sample.killed world ∧
      world.lookup currentName = some (.symlink (generationName 1)) ∧
      actedSince (history Sample.killed) = [] ∧
      Marks 1 "plan" (world.lookup pendingMarker) := by
  have run : Run Step Sample.empty Sample.killed
      (commitAndSwitchOptional Sample.environment Sample.generation Sample.acting Sample.killing
        Sample.transacted).state :=
    .snoc Sample.run (.commit (by simp [Commit.Sized, Sample.acting]))
  have synced : ∀ moment ∈ Sample.killed, moment.event.Synced := by
    intro moment member
    simp only [Sample.killed, Sample.events, List.mem_append, List.mem_cons, List.not_mem_nil,
      or_false] at member
    rcases member with (rfl | rfl) | rfl
    · trivial
    · trivial
    · simp [Event.Synced, Sample.killing]
  obtain ⟨linked, settled, -⟩ := service_actions_not_lost run synced
  have last : lastSwitch (history Sample.killed) = some (1, Sample.acting) := rfl
  have none : actedSince (history Sample.killed) = [] := rfl
  refine ⟨_, run, ?_, none, ?_⟩
  · simpa [Linked, last] using linked
  · rcases settled 1 Sample.acting Sample.actions last rfl with ⟨done, member, -⟩ | marks
    · rw [none] at member
      cases member
    · exact marks

end NixSeal.Runtime.Generations
