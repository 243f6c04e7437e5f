import NixSeal.Lib.Runs
import NixSeal.Runtime.Pruning

/-!
# The active generation in every run

`current` and the directory that it names, through every call on a runtime root and every way in
which a call can end.  One cleanup is wrong: when the directory cannot be synced after `current` was
renamed, the generation that it already names is removed.
-/

namespace NixSeal.Runtime.Generations

open Cache Faulty Program Runs

/-- The names on which the active generation depends. -/
def activeNames (world : World) : List FileName :=
  match world.lookup currentName with
  | some (.symlink target) => [currentName, target]
  | _ => [currentName]

/-- `current` and what it names are as before. -/
def Same (before after : World) : Prop :=
  ∀ name ∈ activeNames before, after.lookup name = before.lookup name

/-- There is no `current`, or it names a generation that is there. -/
def Sound (world : World) : Prop :=
  world.lookup currentName = none ∨
    ∃ number tree, number < 2 ^ 64 ∧ tree.isDir = true ∧ Current number tree world

/-- What a commit leaves: the active generation as it was, or the new one, whole. -/
def Settles (before : World) (transaction : FileName) (after : World) : Prop :=
  Same before after ∨
    ∃ number tree, before.lookup transaction = some tree ∧ tree.isDir = true ∧
      tree.plain = true ∧ number < 2 ^ 64 ∧ Current number tree after

section Active

variable {before between after world : World} {names : List FileName} {number : Nat} {tree : Node}

theorem Current.activeNames_eq (current : Current number tree world) :
    activeNames world = [currentName, generationName number] := by
  simp [activeNames, current.linked]

theorem Sound.mem_activeNames (sound : Sound world) {name : FileName}
    (member : name ∈ activeNames world) : name = currentName ∨ isGeneration name = true := by
  rcases sound with absent | ⟨number, tree, -, -, current⟩
  · left
    simpa [activeNames, absent] using member
  · rw [current.activeNames_eq] at member
    rcases List.mem_cons.mp member with same | listed
    · exact .inl same
    · rw [List.mem_singleton.mp listed]
      exact .inr (isGeneration_generationName number)

/-- Other names than `current` and those of generations play no part. -/
theorem Sound.apart (sound : Sound world)
    (other : ∀ name ∈ names, isGeneration name = false ∧ name ≠ currentName) :
    ∀ name ∈ activeNames world, name ∉ names := by
  intro name member listed
  obtain ⟨unnumbered, different⟩ := other name listed
  rcases sound.mem_activeNames member with same | generation
  · exact different same
  · rw [unnumbered] at generation
    cases generation

/-- A generation that `current` does not name plays no part either. -/
theorem Sound.not_active (sound : Sound world) {name : FileName}
    (generation : isGeneration name = true)
    (inactive : world.lookup currentName ≠ some (.symlink name)) : name ∉ activeNames world := by
  intro member
  rcases sound with absent | ⟨number, tree, -, -, current⟩
  · simp only [activeNames, absent, List.mem_singleton] at member
    rw [member] at generation
    cases generation
  · rw [current.activeNames_eq] at member
    rcases List.mem_cons.mp member with rfl | listed
    · cases generation
    · rw [List.mem_singleton.mp listed] at inactive
      exact inactive current.linked

theorem Sound.held (sound : Sound world) {target : FileName}
    (linked : world.lookup currentName = some (.symlink target)) :
    ∃ tree, world.lookup target = some tree ∧ tree.isDir = true := by
  rcases sound with absent | ⟨number, tree, -, directory, current⟩
  · rw [absent] at linked
    cases linked
  · rw [current.linked] at linked
    cases linked
    exact ⟨tree, current.held, directory⟩

theorem apart_cons {destination : FileName} (free : destination ∉ activeNames world)
    (apart : ∀ name ∈ activeNames world, name ∉ names) :
    ∀ name ∈ activeNames world, name ∉ destination :: names := by
  intro name member listed
  rcases List.mem_cons.mp listed with rfl | listed
  · exact free member
  · exact apart name member listed

theorem Same.of_root (kept : after.root = before.root) : Same before after := by
  intro name _
  rw [World.lookup, World.lookup, kept]

theorem Same.of_beside (same : Same before between)
    (kept : beside names after = beside names between)
    (apart : ∀ name ∈ activeNames before, name ∉ names) : Same before after := by
  intro name member
  rw [lookup_of_beside kept (apart name member)]
  exact same name member

theorem Same.current (same : Same before after) (small : number < 2 ^ 64)
    (directory : tree.isDir = true) (current : Current number tree before) :
    Current number tree after := by
  rw [Same, current.activeNames_eq] at same
  have linked := same currentName (by simp)
  have held := same (generationName number) (by simp)
  exact .of_lookups small directory (held.trans current.held) (linked.trans current.linked)

theorem Same.sound (same : Same before after) (sound : Sound before) : Sound after := by
  rcases sound with absent | ⟨number, tree, small, directory, current⟩
  · left
    rw [same currentName (by simp [activeNames, absent])]
    exact absent
  · exact .inr ⟨number, tree, small, directory, same.current small directory current⟩

theorem Settles.sound {transaction : FileName} (settles : Settles before transaction after)
    (sound : Sound before) : Sound after := by
  rcases settles with same | ⟨number, tree, -, directory, -, small, current⟩
  · exact same.sound sound
  · exact .inr ⟨number, tree, small, directory, current⟩

theorem Current.of_beside (current : Current number tree before) (small : number < 2 ^ 64)
    (directory : tree.isDir = true) (kept : beside names after = beside names before)
    (linkApart : currentName ∉ names) (nameApart : generationName number ∉ names) :
    Current number tree after :=
  .of_lookups small directory ((lookup_of_beside kept nameApart).trans current.held)
    ((lookup_of_beside kept linkApart).trans current.linked)

end Active

/-! ## One commit -/

section Commit

variable {verdict : Call → Verdict} {before world : World} {transaction destination : FileName}
  {created : List (String × String)} {number : Nat}

/-- A directory with something in it cannot be renamed over. -/
theorem publish_meets_occupied (occupied : vacant (world.lookup destination) = false) :
    (publish transaction destination created).Meets verdict world (fun _ _ => False)
      (fun _ after => after.root = world.root) fun after => after.root = world.root := by
  have cleaned : ∀ error, (do removeCompatibilitySymlinks created; raise error :
      Operation Unit).Meets verdict world (fun _ _ => False)
        (fun _ after => after.root = world.root) fun after => after.root = world.root :=
    fun _ => (removeCompatibilitySymlinks_keeps created).seq (fun _ _ _ kept => Meets.raise kept)
      (fun _ _ kept => kept) fun _ kept => kept
  refine Meets.bind (Meets.attempt (Meets.bind (Meets.read (Meets.bind ?_))))
  refine Meets.require (fun _ => ?_) fun _ => cleaned _
  refine Meets.bind (Meets.require (fun free => ?_) fun _ => cleaned _)
  rw [occupied] at free
  cases free

/-- The system refuses neither the sync after `current` is renamed, nor to look for the generation
that is asked for when `current` names it and it is empty. -/
def Steady (before : World) (commit : Commit) (verdict : Call → Verdict) : Prop :=
  verdict (.switch .sync) ≠ .fail ∧
    ∀ number, commit.generation = some number → verdict .inspectDestination = .fail →
      before.lookup currentName = some (.symlink (generationName number)) →
        before.lookup (generationName number) ≠ some (.directory [])

/-- Numbers that are asked for have 64 bits. -/
def Commit.Sized (commit : Commit) : Prop :=
  ∀ number, commit.generation = some number → number < 2 ^ 64

theorem transaction_ne (generation : Generation) :
    generation.transaction ≠ currentName := by
  intro same
  have texts := congrArg (fun name => name.toStr.map String.toList) same
  simp [Generation.transaction, currentName, FileName.toStr] at texts

/-- `commit_and_switch_optional` from the rename of the transaction directory up to pruning. -/
def installGeneration (E : Environment) (transaction : FileName) (commit : Commit) (number : Nat)
    (created : List (String × String)) : Operation Unit := do
  publish transaction (generationName number) created
  onError (recordPending (generationName number) commit) (unpublish (generationName number) created)
  onError (switchCurrent number) (unpublishUnswitched (generationName number) created)
  act E commit.actions

theorem switchGeneration_eq (E : Environment) (generation : Generation) (commit : Commit) :
    switchGeneration E generation commit = (do
      let prepared ← onError (prepareCommit E generation.transaction commit)
        (Program.step .dropTransaction .io (World.drop generation.transaction))
      installGeneration E generation.transaction commit prepared.1 prepared.2
      pure prepared.1) := by
  simp only [switchGeneration, installGeneration, bind_assoc]

/-- The cleanup after an error removes a generation that `current` does not name. -/
theorem cleaned_same {cleanup : Operation Unit} {names : List FileName} (same : Same before world)
    (cleaned : cleanup.Keeps (beside names)) (apart : ∀ name ∈ activeNames before, name ∉ names) :
    cleanup.Meets verdict world (fun _ after => Same before after) (fun _ after => Same before after)
      fun after => Same before after :=
  (cleaned.meets verdict world).mono (fun _ _ ended => same.of_beside ended.2 apart)
    (fun _ _ kept => same.of_beside kept apart) fun _ kept => same.of_beside kept apart

section Install

variable {E : Environment} {commit : Commit} {tree : Node}

/-- Every ending of the switch before the link moves leaves the active generation alone, and every
ending after it leaves the new one. -/
theorem switchAndAct_meets (sound : Sound before) (same : Same before world)
    (free : generationName number ∉ activeNames before) (small : number < 2 ^ 64)
    (held : world.lookup (generationName number) = some tree) (directory : tree.isDir = true)
    (synced : verdict (.switch .sync) ≠ .fail) :
    (do
      onError (switchCurrent number) (unpublishUnswitched (generationName number) created)
      act E commit.actions : Operation Unit).Meets verdict world
        (fun _ after => Current number tree after)
        (fun _ after => Same before after ∨ Current number tree after)
        fun after => Same before after ∨ Current number tree after := by
  have switched : ∀ after,
      beside [currentName, currentNextName] after = beside [currentName, currentNextName] world →
        after.lookup currentName = some (.symlink (generationName number)) →
          Current number tree after := by
    intro after kept linked
    have same := lookup_of_beside kept
      (not_mem_of_isGeneration (isGeneration_generationName number) (by decide))
    exact .of_lookups small directory (same.trans held) linked
  have unswitched : ∀ after,
      beside [currentName, currentNextName] after = beside [currentName, currentNextName] world →
        after.lookup currentName = world.lookup currentName → Same before after := by
    intro after kept linked name member
    rcases sound.mem_activeNames member with rfl | generation
    · exact linked.trans (same _ member)
    · have untouched := lookup_of_beside kept (not_mem_of_isGeneration generation (by decide))
      exact untouched.trans (same name member)
  have switching : (switchCurrent number).Keeps (beside [currentName, currentNextName]) :=
    switchCurrent_keeps number (by simp) (by simp)
  have described := (switchCurrent_meets number verdict world).keeping switching
  refine Meets.bind (Meets.onError (fun _ after => Same before after)
    (described.mono ?_ ?_ ?_) ?_)
  · intro _ after ended
    have current := switched after ended.2 ended.1
    have acting : (act E commit.actions).Keeps (beside [pendingMarker]) := act_keeps E _ (by simp)
    have apart : generationName number ∉ [pendingMarker] :=
      not_mem_of_isGeneration (isGeneration_generationName number) (by decide)
    refine (acting.meets verdict after).mono ?_ ?_ ?_
    · exact fun _ left ended => current.of_beside small directory ended.2 (by decide) apart
    · exact fun _ left kept => .inr (current.of_beside small directory kept (by decide) apart)
    · exact fun left kept => .inr (current.of_beside small directory kept (by decide) apart)
  · intro _ after ended
    rcases ended.1 with linked | refused
    · exact unswitched after ended.2 linked
    · exact absurd refused synced
  · intro after ended
    rcases ended.1 with linked | linked
    · exact .inl (unswitched after ended.2 linked)
    · exact .inr (switched after ended.2 linked)
  · intro _ after same
    have cleaning : (unpublishUnswitched (generationName number) created).Keeps
        (beside [generationName number, pendingMarker]) :=
      unpublishUnswitched_keeps created (by simp) (by simp)
    exact (cleaned_same same cleaning (apart_cons free (sound.apart (by decide)))).mono
      (fun _ _ same => .inl same) (fun _ _ same => .inl same) fun _ same => .inl same

/-- Where `current` does not name the destination, a commit leaves the active generation alone or
leaves the new one. -/
theorem installGeneration_meets {transaction : FileName} (sound : Sound before)
    (same : Same before world)
    (incidental : isGeneration transaction = false ∧ transaction ≠ currentName)
    (free : generationName number ∉ activeNames before) (small : number < 2 ^ 64)
    (committed : world.lookup transaction = some tree) (directory : tree.isDir = true)
    (synced : verdict (.switch .sync) ≠ .fail) :
    (installGeneration E transaction commit number created).Meets verdict world
      (fun _ after => Current number tree after)
      (fun _ after => Same before after ∨ Current number tree after)
      fun after => Same before after ∨ Current number tree after := by
  have publishing : (publish transaction (generationName number) created).Keeps
      (beside [generationName number, transaction]) :=
    publish_keeps created (by simp) (by simp)
  have apart : ∀ name ∈ activeNames before, name ∉ [generationName number, transaction] :=
    apart_cons free (sound.apart (by simpa using incidental))
  refine publishing.seq ?_ (fun _ _ kept => .inl (same.of_beside kept apart))
    fun _ kept => .inl (same.of_beside kept apart)
  intro _ published ended kept
  have same := same.of_beside kept apart
  have held : published.lookup (generationName number) = some tree := by
    rw [publish_ok ended]
    exact World.lookup_move committed
  have recording : (recordPending (generationName number) commit).Keeps
      (beside [pendingMarker, postSwitchNextName]) :=
    recordPending_keeps _ _ (by simp) (by simp)
  have marked : ∀ name ∈ activeNames before, name ∉ [pendingMarker, postSwitchNextName] :=
    sound.apart (by decide)
  refine Meets.bind (Meets.onError (fun _ after => Same before after)
    ((recording.meets verdict published).mono ?_ ?_ ?_) ?_)
  · intro _ recorded ended
    have unmarked := lookup_of_beside ended.2
      (not_mem_of_isGeneration (isGeneration_generationName number) (by decide))
    exact switchAndAct_meets sound (same.of_beside ended.2 marked) free small
      (unmarked.trans held) directory synced
  · exact fun _ after kept => same.of_beside kept marked
  · exact fun after kept => .inl (same.of_beside kept marked)
  · intro _ after same
    have cleaning : (unpublish (generationName number) created).Keeps
        (beside [generationName number]) :=
      unpublish_keeps created (by simp)
    exact (cleaned_same same cleaning (apart_cons free (sound.apart (by simp)))).mono
      (fun _ _ same => .inl same) (fun _ _ same => .inl same) fun _ same => .inl same

end Install

/-- A commit does not get past the current generation, unless it is empty. -/
theorem occupied_of_active {commit : Commit} (sound : Sound before)
    (steady : Steady before commit verdict) (named : generationName number ∈ activeNames before)
    (choice : commit.generation = some number ∨ before.lookup (generationName number) = none)
    (seen : verdict .inspectDestination ≠ .fail →
      before.lookup (generationName number) = none) :
    vacant (before.lookup (generationName number)) = false := by
  have linked : before.lookup currentName = some (.symlink (generationName number)) := by
    by_contra inactive
    exact sound.not_active (isGeneration_generationName number) inactive named
  obtain ⟨tree, held, directory⟩ := sound.held linked
  have asked : commit.generation = some number := choice.resolve_right (by simp [held])
  have refused : verdict .inspectDestination = .fail := by
    by_contra unrefused
    rw [seen unrefused] at held
    cases held
  have filled := steady.2 number asked refused linked
  rw [held] at filled ⊢
  cases tree with
  | directory entries =>
      cases entries with
      | nil => exact absurd rfl filled
      | cons entry rest => rfl
  | file bytes links => cases directory
  | symlink target => cases directory
  | special => cases directory

theorem switchGeneration_meets {E : Environment} {generation : Generation} {commit : Commit}
    (sound : Sound before) (sized : commit.Sized) (steady : Steady before commit verdict) :
    (switchGeneration E generation commit).Meets verdict before
      (fun number after => ∃ tree, before.lookup generation.transaction = some tree ∧
        tree.isDir = true ∧ tree.plain = true ∧ number < 2 ^ 64 ∧ Current number tree after)
      (fun _ after => Settles before generation.transaction after)
      fun after => Settles before generation.transaction after := by
  rw [switchGeneration_eq]
  refine Meets.bind (Meets.onError (fun _ after => after.root = before.root)
    (((prepareCommit_keeps E generation.transaction commit).meets verdict before).mono ?_
      (fun _ _ kept => kept) fun after kept => .inl (.of_root kept)) ?_)
  · intro prepared world ended
    obtain ⟨returned, root⟩ := ended
    obtain ⟨number, created⟩ := prepared
    obtain ⟨-, choice, seen, tree, committed, directory, plain⟩ := prepareCommit_ok returned
    have choice : commit.generation = some number ∧ number < 2 ^ 64 ∨
        number < 2 ^ 64 ∧ before.lookup (generationName number) = none := by
      rcases choice with given | ⟨-, computed⟩
      · exact .inl ⟨given, sized number given⟩
      · exact .inr (free_of_nextGeneration (E.listing_perm .next _) computed)
    have small : number < 2 ^ 64 := by
      rcases choice with given | free
      · exact given.2
      · exact free.1
    by_cases named : generationName number ∈ activeNames before
    · have occupied := occupied_of_active sound steady named (choice.imp And.left And.right) seen
      rw [World.lookup, ← root] at occupied
      refine Meets.bind (Meets.bind ((publish_meets_occupied occupied).mono ?_ ?_ ?_))
      · exact fun _ _ impossible => impossible.elim
      · exact fun _ after kept => .inl (.of_root (kept.trans root))
      · exact fun after kept => .inl (.of_root (kept.trans root))
    · have found : world.lookup generation.transaction = some tree := by
        rw [World.lookup, root]
        exact committed
      have installed : ∀ after, Same before after ∨ Current number tree after →
          Settles before generation.transaction after := fun after settled =>
        settled.imp_right fun current => ⟨number, tree, committed, directory, plain, small, current⟩
      refine Meets.bind ((installGeneration_meets sound (.of_root root)
        ⟨isGeneration_transaction generation, transaction_ne generation⟩ named small found directory
        steady.1).mono ?_ (fun _ => installed) installed)
      exact fun _ after current => Meets.pure ⟨tree, committed, directory, plain, small, current⟩
  · intro _ world root
    have dropping : (Program.step .dropTransaction .io (World.drop generation.transaction) :
        Operation Unit).Keeps (beside [generation.transaction]) :=
      Keeps.step fun _ => beside_drop (by simp)
    have apart : ∀ name ∈ activeNames before, name ∉ [generation.transaction] :=
      sound.apart (by simp [isGeneration_transaction, transaction_ne])
    exact (cleaned_same (.of_root root) dropping apart).mono (fun _ _ same => .inl same)
      (fun _ _ same => .inl same) fun _ same => .inl same

/-- However a commit ends, `current` names what it named before or the new generation. -/
theorem commitAndSwitchOptional_meets {E : Environment} {generation : Generation} {commit : Commit}
    (sound : Sound before) (sized : commit.Sized) (steady : Steady before commit verdict) :
    (commitAndSwitchOptional E generation commit).Meets verdict before
      (fun _ after => Settles before generation.transaction after)
      (fun _ after => Settles before generation.transaction after)
      fun after => Settles before generation.transaction after := by
  refine (switchGeneration_meets sound sized steady).seq ?_
  intro number switched ended
  obtain ⟨tree, committed, directory, plain, small, current⟩ := ended
  have pruned : ∀ after, settled number after = settled number switched →
      Settles before generation.transaction after := fun after kept =>
    .inr ⟨number, tree, committed, directory, plain, small,
      current.of_settled small directory kept⟩
  exact (pruneSupersededGenerations_keeps E small).seq
    (fun _ after _ kept => Meets.pure (pruned after kept)) (fun _ => pruned) pruned

end Commit

/-! ## Every run -/

section Finish

variable {before world : World} {number : Nat} {tree : Node}

theorem pendingMatches_keeps {γ : Type} {view : World → γ} (generation : List FileName)
    (planHash : String) : (pendingMatches generation planHash).Keeps view := by
  refine Keeps.bind (pendingMarkerExists_keeps _) fun present => ?_
  cases present with
  | false => exact Keeps.pure false
  | true =>
      exact Keeps.bind (openRegular_keeps _ _) fun _ => Keeps.bind (idle_keeps _) fun _ =>
        Keeps.bind (Keeps.require _) fun _ => Keeps.bind (Keeps.lift _) fun _ => Keeps.pure _

theorem finishUnchanged_keeps (E : Environment) (current : List FileName) (commit : Commit)
    {names : List FileName} (marker : pendingMarker ∈ names) :
    (finishUnchanged E current commit).Keeps (beside names) := by
  refine Keeps.bind (pendingMarkerExists_keeps _) fun _ => Keeps.when ?_
  refine Keeps.bind (pendingMatches_keeps _ _) fun _ => Keeps.bind (Keeps.require _) fun _ => ?_
  cases commit.actions with
  | none => exact Keeps.raise _
  | some actions =>
      exact Keeps.bind (runPostSwitch_keeps E actions) fun _ => clearPending_keeps _ marker

/-- An activation that finds nothing new leaves the active generation alone. -/
theorem finishActivation_meets {E : Environment} {current : List FileName} {commit : Commit}
    {verdict : Call → Verdict} (sound : Sound before)
    (found : currentGeneration before.root = .ok (some current)) :
    (finishActivation E current commit).Meets verdict before (fun _ after => Same before after)
      (fun _ after => Same before after) fun after => Same before after := by
  rcases sound with absent | ⟨number, tree, small, directory, active⟩
  · rw [World.lookup] at absent
    simp [currentGeneration, absent] at found
  have marked : ∀ name ∈ activeNames before, name ∉ [pendingMarker] :=
    Sound.apart (.inr ⟨number, tree, small, directory, active⟩) (by decide)
  rw [active.path] at found
  cases found
  have linking : (ensureCompatibilitySymlinks commit.runtimeRoot commit.compatibility).Keeps
      World.root := ensureCompatibilitySymlinksFrom_keeps _ _ _
  refine linking.seq ?_ (fun _ _ kept => .of_root kept) fun _ kept => .of_root kept
  intro _ linked _ root
  have same : Same before linked := .of_root root
  have finishing : (finishUnchanged E [generationName number] commit).Keeps
      (beside [pendingMarker]) := finishUnchanged_keeps E _ commit (by simp)
  refine finishing.seq ?_ (fun _ _ kept => same.of_beside kept marked)
    fun _ kept => same.of_beside kept marked
  intro _ finished _ kept
  have same := same.of_beside kept marked
  have settles : ∀ after, settled number after = settled number finished → Same before after := by
    intro after kept name member
    rw [← same name member]
    rw [active.activeNames_eq] at member
    rcases List.mem_cons.mp member with rfl | listed
    · exact lookup_of_settled kept rfl
    · rw [List.mem_singleton.mp listed]
      exact lookup_of_settled kept (not_superseded_generationName number)
  refine Meets.lift_ok active.numbered ?_
  exact (pruneSupersededGenerations_keeps E small).seq
    (fun _ after _ kept => Meets.pure (settles after kept)) (fun _ => settles) settles

end Finish

/-- What happens to a runtime root. -/
inductive Event where
  /-- A transaction directory is made. -/
  | begin (generation : Generation)
  /-- Something is written in a transaction directory. -/
  | write (generation : Generation) (tree : Node)
  /-- A transaction directory is removed, or is no longer there. -/
  | discard (generation : Generation)
  /-- A removal that was cut short left part of a generation. -/
  | leave (name : FileName) (tree : Node)
  /-- `activate` finds that nothing has changed. -/
  | finish (E : Environment) (current : List FileName) (commit : Commit)
      (verdict : Call → Verdict)
  | commit (E : Environment) (generation : Generation) (commit : Commit)
      (verdict : Call → Verdict)

/-- The steps of a runtime root. -/
inductive Step : World → Event → World → Prop where
  | begin {before : World} {generation : Generation}
      (free : before.lookup generation.transaction = none) :
      Step before (.begin generation) (before.put generation.transaction (.directory []))
  | write {before : World} {generation : Generation} {tree : Node}
      (there : (before.lookup generation.transaction).isSome = true) :
      Step before (.write generation tree) (before.put generation.transaction tree)
  | discard {before : World} {generation : Generation} :
      Step before (.discard generation) (before.drop generation.transaction)
  | leave {before : World} {name : FileName} {tree : Node} (generation : isGeneration name = true)
      (inactive : before.lookup currentName ≠ some (.symlink name)) :
      Step before (.leave name tree) (before.put name tree)
  | finish {before : World} {E : Environment} {current : List FileName} {commit : Commit}
      {verdict : Call → Verdict} (found : currentGeneration before.root = .ok (some current)) :
      Step before (.finish E current commit verdict)
        (finishActivation E current commit verdict before).state
  | commit {before : World} {E : Environment} {generation : Generation} {commit : Commit}
      {verdict : Call → Verdict} (sized : commit.Sized) :
      Step before (.commit E generation commit verdict)
        (commitAndSwitchOptional E generation commit verdict before).state

/-- The condition on a moment of a run: its commit, if there is one, is steady. -/
def SteadyMoment (moment : Moment World Event) : Prop :=
  match moment.event with
  | .commit _ _ commit verdict => Steady moment.before commit verdict
  | _ => True

/-- A step keeps the root sound. -/
theorem Step.sound {before after : World} {event : Event} (moves : Step before event after)
    (steady : SteadyMoment ⟨before, event⟩) (sound : Sound before) : Sound after := by
  have transacted : ∀ (generation : Generation) (after : World),
      beside [generation.transaction] after = beside [generation.transaction] before →
        Sound after := by
    intro generation after kept
    have same : Same before before := fun _ _ => rfl
    exact (same.of_beside kept (sound.apart (by
      simp [isGeneration_transaction, transaction_ne]))).sound sound
  cases moves with
  | begin free => exact transacted _ _ (beside_put List.mem_cons_self)
  | write there => exact transacted _ _ (beside_put List.mem_cons_self)
  | discard => exact transacted _ _ (beside_drop List.mem_cons_self)
  | leave generation inactive =>
      have apart := apart_cons (sound.not_active generation inactive) fun _ _ => List.not_mem_nil
      have same : Same before before := fun _ _ => rfl
      exact (same.of_beside (beside_put List.mem_cons_self) apart).sound sound
  | finish found => exact (finishActivation_meets sound found).leaves.sound sound
  | commit sized => exact (commitAndSwitchOptional_meets sound sized steady).leaves.sound sound

/-- In every run whose commits are steady, `current` names a whole generation or is not there; and
however a further such commit ends, `current` names what it named before or the new generation. -/
theorem current_never_dangles {start before : World} {trace : List (Moment World Event)}
    (fresh : start.lookup currentName = none) (run : Run Step start trace before)
    (steady : ∀ moment ∈ trace, SteadyMoment moment) :
    Sound before ∧
      ∀ (E : Environment) (generation : Generation) (commit : Commit) (verdict : Call → Verdict),
        commit.Sized → Steady before commit verdict →
          Settles before generation.transaction
            (commitAndSwitchOptional E generation commit verdict before).state ∧
          Sound (commitAndSwitchOptional E generation commit verdict before).state := by
  have sound : Sound before := run.invariant_where
    (fun _ _ _ good earlier moves => moves.sound good earlier) (.inl fresh) steady
  refine ⟨sound, fun E generation commit verdict sized steady => ?_⟩
  have settles : Settles before generation.transaction
      (commitAndSwitchOptional E generation commit verdict before).state :=
    (commitAndSwitchOptional_meets sound sized steady).leaves
  exact ⟨settles, settles.sound sound⟩

namespace Sample

/-- A root in which nothing is. -/
def empty : World := ⟨∅, fun _ => none⟩

/-- A system that refuses to sync the root after `current` is renamed. -/
def refusing : Call → Verdict
  | .switch .sync => .fail
  | _ => .pass

/-- A transaction with one secret. -/
def transacted : World :=
  (empty.put generation.transaction (.directory [])).put generation.transaction
    (.directory [(.text "token", .file [1] 1)])

def events : List (Moment World Event) :=
  [⟨empty, .begin generation⟩, ⟨empty.put generation.transaction (.directory []),
    .write generation (.directory [(.text "token", .file [1] 1)])⟩]

theorem run : Run Step empty events transacted :=
  .snoc (.snoc .refl (.begin rfl)) (.write rfl)

end Sample

theorem current_never_dangles_sample :
    ∃ after, commitAndSwitchOptional Sample.environment Sample.generation Sample.commit
        (fun _ => .pass) Sample.transacted = .ok [generationName 1] after ∧
      Settles Sample.transacted Sample.generation.transaction after ∧ Sound after := by
  obtain ⟨-, commits⟩ := current_never_dangles rfl Sample.run (by simp [Sample.events, SteadyMoment])
  obtain ⟨after, returned⟩ : ∃ after, commitAndSwitchOptional Sample.environment Sample.generation
      Sample.commit (fun _ => .pass) Sample.transacted = .ok [generationName 1] after := ⟨_, rfl⟩
  have settled := commits Sample.environment Sample.generation Sample.commit (fun _ => .pass)
    (by simp [Commit.Sized, Sample.commit]) ⟨by simp, by simp [Sample.commit]⟩
  rw [returned] at settled
  exact ⟨after, returned, settled⟩

/-- The first commit of a root: `current` is renamed, the root cannot be synced, and the generation
that `current` names is removed. -/
theorem current_dangles :
    Run Step Sample.empty Sample.events Sample.transacted ∧
      ∃ after, commitAndSwitchOptional Sample.environment Sample.generation Sample.commit
          Sample.refusing Sample.transacted = .err .io after ∧
        after.lookup currentName = some (.symlink (generationName 1)) ∧
        after.lookup (generationName 1) = none ∧ currentGeneration after.root = .error .io :=
  ⟨Sample.run, _, rfl, rfl, rfl, rfl⟩

end NixSeal.Runtime.Generations
