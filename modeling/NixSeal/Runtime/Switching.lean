import NixSeal.Runtime.Numbering

/-!
# Switching to a generation

What the parts of a commit leave alone, and what the root holds once `current` is switched.
-/

namespace NixSeal.Runtime.Generations

open Cache Faulty Program

/-- What stands at the names that are not listed. -/
def beside (names : List FileName) (world : World) (other : FileName) : Option Node :=
  if other ∈ names then none else world.lookup other

namespace World

variable {name other source target : FileName} {node : Node} {world : World}

@[simp]
theorem lookup_put : (world.put name node).lookup name = some node :=
  AList.lookup_insert world.root

theorem lookup_put_of_ne (different : other ≠ name) :
    (world.put name node).lookup other = world.lookup other :=
  AList.lookup_insert_ne different

@[simp]
theorem lookup_drop : (world.drop name).lookup name = none :=
  AList.lookup_erase name world.root

theorem lookup_drop_of_ne (different : other ≠ name) :
    (world.drop name).lookup other = world.lookup other :=
  AList.lookup_erase_ne different

theorem lookup_move (found : world.lookup source = some node) :
    (world.move source target).lookup target = some node := by
  simp [move, found]

end World

section Beside

variable {names : List FileName} {name source target other : FileName} {node : Node}
  {world before after : World}

theorem lookup_of_beside (kept : beside names after = beside names before)
    (outside : other ∉ names) : after.lookup other = before.lookup other := by
  have same := congrFun kept other
  simpa [beside, outside] using same

theorem beside_put (listed : name ∈ names) :
    beside names (world.put name node) = beside names world := by
  funext other
  by_cases inside : other ∈ names
  · simp [beside, inside]
  · have different : other ≠ name := fun same => inside (same ▸ listed)
    simp [beside, inside, World.lookup_put_of_ne different]

theorem beside_drop (listed : name ∈ names) :
    beside names (world.drop name) = beside names world := by
  funext other
  by_cases inside : other ∈ names
  · simp [beside, inside]
  · have different : other ≠ name := fun same => inside (same ▸ listed)
    simp [beside, inside, World.lookup_drop_of_ne different]

theorem beside_move (sourceListed : source ∈ names) (targetListed : target ∈ names) :
    beside names (world.move source target) = beside names world := by
  unfold World.move
  cases world.lookup source with
  | none => rfl
  | some node => rw [beside_put targetListed, beside_drop sourceListed]

end Beside

/-! ## What is left alone -/

section Frames

variable {γ : Type} {view : World → γ} {names : List FileName}

theorem idle_keeps (label : Call) : (idle label).Keeps view :=
  Keeps.step fun _ => rfl

theorem pendingMarkerExists_keeps (label : Call) : (pendingMarkerExists label).Keeps view := by
  refine Keeps.bind (idle_keeps label) fun _ => Keeps.bind Keeps.read fun world => ?_
  split
  · exact Keeps.pure false
  · exact Keeps.pure true
  · exact Keeps.raise _

theorem openRegular_keeps (label : Call) (name : FileName) :
    (openRegular label name).Keeps view := by
  refine Keeps.bind (idle_keeps label) fun _ => Keeps.bind Keeps.read fun world => ?_
  split
  · exact Keeps.raise _
  · split
    · exact Keeps.pure _
    · exact Keeps.raise _
  · exact Keeps.raise _

theorem renameOver_keeps (label : Call) {source target : FileName} (sourceListed : source ∈ names)
    (targetListed : target ∈ names) : (renameOver label source target).Keeps (beside names) :=
  Keeps.bind Keeps.read fun _ =>
    Keeps.bind (Keeps.require _) fun _ =>
      Keeps.bind (Keeps.require _) fun _ =>
        Keeps.step fun _ => beside_move sourceListed targetListed

theorem clearPending_keeps (clearing : Clearing) (marker : pendingMarker ∈ names) :
    (clearPending clearing).Keeps (beside names) :=
  Keeps.bind (pendingMarkerExists_keeps _) fun _ =>
    Keeps.when <|
      Keeps.bind (openRegular_keeps _ _) fun _ =>
        Keeps.bind (Keeps.step fun _ => beside_drop marker) fun _ => idle_keeps _

theorem removeStaleMarker_keeps (next : postSwitchNextName ∈ names) :
    removeStaleMarker.Keeps (beside names) :=
  Keeps.bind (idle_keeps _).attempt fun _ =>
    Keeps.bind Keeps.read fun _ =>
      Keeps.when <|
        Keeps.bind (openRegular_keeps _ _) fun _ => Keeps.step fun _ => beside_drop next

theorem writePending_keeps (generation : List FileName) (planHash : String)
    (marker : pendingMarker ∈ names) (next : postSwitchNextName ∈ names) :
    (writePending generation planHash).Keeps (beside names) :=
  Keeps.bind (removeStaleMarker_keeps next) fun _ =>
    Keeps.bind Keeps.read fun _ =>
      Keeps.bind (Keeps.require _) fun _ =>
        Keeps.bind (Keeps.step fun _ => beside_put next) fun _ =>
          Keeps.bind (idle_keeps _) fun _ =>
            Keeps.bind (Keeps.lift _) fun _ =>
              Keeps.bind (Keeps.write (fun _ _ => beside_put next) fun _ => beside_put next)
                fun _ =>
                  Keeps.bind (idle_keeps _) fun _ =>
                    Keeps.bind (renameOver_keeps _ next marker) fun _ => idle_keeps _

theorem recordPending_keeps (destination : FileName) (commit : Commit)
    (marker : pendingMarker ∈ names) (next : postSwitchNextName ∈ names) :
    (recordPending destination commit).Keeps (beside names) := by
  unfold recordPending
  cases commit.actions with
  | none => exact clearPending_keeps _ marker
  | some actions => exact writePending_keeps _ _ marker next

theorem runAction_keeps (E : Environment) (actions : PostSwitchSpec) (reload : Bool)
    (unit : String) : (runAction E actions reload unit).Keeps view :=
  Keeps.bind (Keeps.lift _) fun _ =>
    Keeps.bind (Keeps.bind (Keeps.step fun _ => rfl) fun _ => Keeps.lift _) fun _ =>
      Keeps.require _

theorem restartUnit_keeps (E : Environment) (actions : PostSwitchSpec) (unit : String) :
    (restartUnit E actions unit).Keeps view := by
  unfold restartUnit
  split
  · exact runAction_keeps E actions false unit
  · exact Keeps.bind (Keeps.bind (Keeps.step fun _ => rfl) fun _ => Keeps.lift _) fun _ =>
      Keeps.when <| Keeps.bind (Keeps.require _) fun _ => runAction_keeps E actions false unit

theorem runPostSwitch_keeps (E : Environment) (actions : PostSwitchSpec) :
    (runPostSwitch E actions).Keeps view :=
  Keeps.bind (Keeps.lift _) fun _ =>
    Keeps.bind (Keeps.foldlM fun _ unit => runAction_keeps E actions true unit) fun _ =>
      Keeps.foldlM fun _ unit => restartUnit_keeps E actions unit

theorem act_keeps (E : Environment) (actions : Option PostSwitchSpec)
    (marker : pendingMarker ∈ names) : (act E actions).Keeps (beside names) := by
  cases actions with
  | none => exact Keeps.pure ()
  | some actions =>
      exact Keeps.bind (runPostSwitch_keeps E actions) fun _ => clearPending_keeps _ marker

theorem checkCurrent_keeps : checkCurrent.Keeps view :=
  Keeps.bind (idle_keeps _).attempt fun _ =>
    Keeps.bind Keeps.read fun _ =>
      Keeps.when <| Keeps.bind (Keeps.when (idle_keeps _)) fun _ => Keeps.lift _

theorem removeStaleLink_keeps (next : currentNextName ∈ names) :
    removeStaleLink.Keeps (beside names) :=
  Keeps.bind (idle_keeps _).attempt fun _ =>
    Keeps.bind Keeps.read fun _ =>
      Keeps.when <| Keeps.bind (Keeps.require _) fun _ => Keeps.step fun _ => beside_drop next

/-- `switch_current` up to the link that it prepares. -/
def prepareLink (number : Nat) : Operation Unit := do
  checkCurrent
  removeStaleLink
  let world ← Program.read
  require ((world.lookup currentNextName).isNone = true) .io
  Program.step (.switch .link) .io (World.put currentNextName (.symlink (generationName number)))

theorem switchCurrent_eq (number : Nat) :
    switchCurrent number = (do
      prepareLink number
      renameOver (.switch .rename) currentNextName currentName
      idle (.switch .sync)) := by
  simp only [switchCurrent, prepareLink, bind_assoc]

theorem prepareLink_keeps (number : Nat) (next : currentNextName ∈ names) :
    (prepareLink number).Keeps (beside names) :=
  Keeps.bind checkCurrent_keeps fun _ =>
    Keeps.bind (removeStaleLink_keeps next) fun _ =>
      Keeps.bind Keeps.read fun _ =>
        Keeps.bind (Keeps.require _) fun _ => Keeps.step fun _ => beside_put next

theorem switchCurrent_keeps (number : Nat) (current : currentName ∈ names)
    (next : currentNextName ∈ names) : (switchCurrent number).Keeps (beside names) := by
  rw [switchCurrent_eq]
  exact Keeps.bind (prepareLink_keeps number next) fun _ =>
    Keeps.bind (renameOver_keeps _ next current) fun _ => idle_keeps _

theorem removeCompatibilitySymlinks_keeps (created : List (String × String)) :
    (removeCompatibilitySymlinks created).Keeps World.root :=
  Keeps.foldlM fun _ _ =>
    Keeps.bind (Keeps.step fun _ => rfl) fun _ =>
      Keeps.bind (idle_keeps _) fun _ =>
        Keeps.bind Keeps.read fun _ =>
          Keeps.bind (Keeps.when (idle_keeps _)) fun _ =>
            Keeps.bind (Keeps.lift _) fun _ => Keeps.when (Keeps.step fun _ => rfl)

theorem installCompatibilitySymlink_keeps (path target : String) :
    (installCompatibilitySymlink path target).Keeps World.root :=
  Keeps.bind (Keeps.step fun _ => rfl) fun _ =>
    Keeps.bind (idle_keeps _) fun _ =>
      Keeps.bind Keeps.read fun _ =>
        Keeps.bind (Keeps.when (idle_keeps _)) fun _ =>
          Keeps.bind (Keeps.lift _) fun _ =>
            Keeps.bind (Keeps.when (Keeps.step fun _ => rfl)) fun _ => Keeps.pure _

theorem ensureCompatibilitySymlinksFrom_keeps (runtimeRoot : String)
    (created : List (String × String)) (links : List (String × Id)) :
    (ensureCompatibilitySymlinksFrom runtimeRoot created links).Keeps World.root := by
  induction links generalizing created with
  | nil => exact Keeps.pure created
  | cons link rest ih =>
      refine Keeps.bind (Keeps.onError (installCompatibilitySymlink_keeps _ _) ?_) fun _ => ih _
      exact removeCompatibilitySymlinks_keeps created

theorem keeps_beside_of_root {α : Type} {program : Operation α} (keeps : program.Keeps World.root) :
    program.Keeps (beside names) := by
  intro verdict world
  have same := keeps verdict world
  funext other
  simp only [beside, World.lookup, same]

theorem ignoring_keeps {α : Type} {program : Operation α} (keeps : program.Keeps view) :
    (ignoring program).Keeps view :=
  Keeps.bind keeps.attempt fun _ => Keeps.pure ()

theorem unpublish_keeps {destination : FileName} (created : List (String × String))
    (listed : destination ∈ names) : (unpublish destination created).Keeps (beside names) :=
  Keeps.bind (ignoring_keeps (Keeps.step fun _ => beside_drop listed)) fun _ =>
    ignoring_keeps (keeps_beside_of_root (removeCompatibilitySymlinks_keeps created))

theorem unpublishUnswitched_keeps {destination : FileName} (created : List (String × String))
    (listed : destination ∈ names) (marker : pendingMarker ∈ names) :
    (unpublishUnswitched destination created).Keeps (beside names) :=
  Keeps.bind (ignoring_keeps (Keeps.step fun _ => beside_drop listed)) fun _ =>
    Keeps.bind (ignoring_keeps (clearPending_keeps _ marker)) fun _ =>
      ignoring_keeps (keeps_beside_of_root (removeCompatibilitySymlinks_keeps created))

theorem renameTransaction_keeps {transaction destination : FileName}
    (sourceListed : transaction ∈ names) (targetListed : destination ∈ names) :
    (renameTransaction transaction destination).Keeps (beside names) :=
  Keeps.bind Keeps.read fun _ =>
    Keeps.bind (Keeps.require _) fun _ =>
      Keeps.bind (Keeps.require _) fun _ =>
        Keeps.step fun _ => beside_move sourceListed targetListed

theorem publish_keeps {transaction destination : FileName} (created : List (String × String))
    (sourceListed : transaction ∈ names) (targetListed : destination ∈ names) :
    (publish transaction destination created).Keeps (beside names) := by
  refine Keeps.bind (renameTransaction_keeps sourceListed targetListed).attempt fun result => ?_
  have cleaned : (removeCompatibilitySymlinks created).Keeps (beside names) :=
    keeps_beside_of_root (removeCompatibilitySymlinks_keeps created)
  cases result with
  | error error => exact Keeps.bind cleaned fun _ => Keeps.raise error
  | ok published => exact Keeps.onError (idle_keeps _) (unpublish_keeps created targetListed)

theorem syncTree_keeps (transaction : FileName) : (syncTree transaction).Keeps view :=
  Keeps.bind (idle_keeps _) fun _ =>
    Keeps.bind Keeps.read fun _ =>
      Keeps.bind (Keeps.require _) fun _ => Keeps.bind (Keeps.require _) fun _ => idle_keeps _

theorem chooseGeneration_keeps (E : Environment) (asked : Option Nat) :
    (chooseGeneration E asked).Keeps view := by
  cases asked with
  | some number => exact Keeps.pure number
  | none => exact Keeps.bind (idle_keeps _) fun _ => Keeps.bind Keeps.read fun _ => Keeps.lift _

theorem prepareCommit_keeps (E : Environment) (transaction : FileName) (commit : Commit) :
    (prepareCommit E transaction commit).Keeps World.root := by
  refine Keeps.bind (pendingMarkerExists_keeps _) fun _ => Keeps.bind (Keeps.require _) fun _ => ?_
  refine Keeps.bind (chooseGeneration_keeps E _) fun _ => ?_
  refine Keeps.bind (ensureCompatibilitySymlinksFrom_keeps _ _ _) fun created => ?_
  have cleaned := removeCompatibilitySymlinks_keeps created
  refine Keeps.bind (Keeps.onError (syncTree_keeps transaction) cleaned) fun _ => ?_
  refine Keeps.bind (idle_keeps _).attempt fun _ => Keeps.bind Keeps.read fun _ => ?_
  refine Keeps.bind (Keeps.when ?_) fun _ => Keeps.pure _
  exact Keeps.bind cleaned fun _ => Keeps.raise _

end Frames

/-! ## What a commit does -/

section Returned

variable {verdict : Call → Verdict} {world after : World} {transaction : FileName} {number : Nat}

theorem renameOver_meets (label : Call) (source target : FileName) (verdict : Call → Verdict)
    (world : World) :
    (renameOver label source target).Meets verdict world
      (fun _ after => ∃ node, world.lookup source = some node ∧ after = world.move source target)
      (fun _ after => after = world) fun after => after = world := by
  refine Meets.bind (Meets.read (Meets.bind (Meets.require ?_ fun _ => rfl)))
  intro present
  obtain ⟨node, found⟩ := Option.isSome_iff_exists.mp present
  refine Meets.bind (Meets.require ?_ fun _ => rfl)
  intro _
  exact Meets.step ⟨node, found, rfl⟩ (fun _ => rfl) fun _ _ => rfl

theorem prepareLink_ok (returned : prepareLink number verdict world = .ok () after) :
    after.lookup currentNextName = some (.symlink (generationName number)) := by
  obtain ⟨_, _, _, rest⟩ := bind_eq_ok.mp returned
  obtain ⟨_, _, _, rest⟩ := bind_eq_ok.mp rest
  obtain ⟨_, _, _, rest⟩ := bind_eq_ok.mp rest
  obtain ⟨_, _, _, linked⟩ := bind_eq_ok.mp rest
  rw [← (step_eq_ok.mp linked).2]
  exact World.lookup_put

/-- `current` moves to the new link; an error after that is one of the last sync. -/
theorem switchCurrent_meets (number : Nat) (verdict : Call → Verdict) (world : World) :
    (switchCurrent number).Meets verdict world
      (fun _ after => after.lookup currentName = some (.symlink (generationName number)))
      (fun _ after => after.lookup currentName = world.lookup currentName ∨
        verdict (.switch .sync) = .fail)
      fun after => after.lookup currentName = world.lookup currentName ∨
        after.lookup currentName = some (.symlink (generationName number)) := by
  rw [switchCurrent_eq]
  have unmoved : ∀ between, beside [currentNextName] between = beside [currentNextName] world →
      between.lookup currentName = world.lookup currentName :=
    fun between kept => lookup_of_beside kept (by decide)
  refine (prepareLink_keeps number (by simp)).seq ?_ (fun _ between kept => .inl (unmoved _ kept))
    fun between kept => .inl (unmoved _ kept)
  intro _ between prepared kept
  have link := prepareLink_ok prepared
  refine Meets.bind ((renameOver_meets _ _ _ verdict between).mono ?_ ?_ ?_)
  · intro _ after moved
    obtain ⟨node, found, rfl⟩ := moved
    rw [link, Option.some.injEq] at found
    subst found
    have switched : (between.move currentNextName currentName).lookup currentName = _ :=
      World.lookup_move link
    exact Meets.step switched .inr fun _ _ => .inr switched
  · intro _ after same
    exact .inl (same ▸ unmoved between kept)
  · intro after same
    exact .inl (same ▸ unmoved between kept)

theorem syncTree_ok (returned : syncTree transaction verdict world = .ok () after) :
    ∃ node, world.lookup transaction = some node ∧ node.isDir = true ∧ node.plain = true := by
  obtain ⟨-, rest⟩ := step_bind_eq_ok.mp returned
  obtain ⟨directory, rest⟩ := require_bind_eq_ok.mp (read_bind_eq_ok.mp rest)
  obtain ⟨plain, -⟩ := require_bind_eq_ok.mp rest
  obtain ⟨node, found, isDir⟩ := (Option.any_eq_true _ _).mp directory
  rw [found] at plain
  exact ⟨node, found, isDir, plain⟩

theorem chooseGeneration_ok {E : Environment} {asked : Option Nat}
    (returned : chooseGeneration E asked verdict world = .ok number after) :
    asked = some number ∨
      asked = none ∧ nextGeneration (E.listing .next world.root.keys) world.root = .ok number := by
  cases asked with
  | some chosen =>
      obtain ⟨rfl, -⟩ := pure_eq_ok.mp returned
      exact .inl rfl
  | none =>
      obtain ⟨-, rest⟩ := step_bind_eq_ok.mp returned
      have chosen := read_bind_eq_ok.mp rest
      exact .inr ⟨rfl, (lift_eq_ok.mp chosen).1⟩

theorem attempt_idle_refused {label : Call} {error : RuntimeError}
    (tried : attempt (idle label) verdict world = .ok (.error error) after) :
    verdict label = .fail := by
  simp only [attempt, idle, Program.step, Program.write] at tried
  cases found : verdict label with
  | pass => simp [found] at tried
  | fail => rfl
  | kill progress => simp [found] at tried

/-- What stops with an error returns only when it is not entered. -/
theorem unless_ok {condition : Prop} [Decidable condition] {cleanup : Operation Unit}
    {error : RuntimeError}
    (returned : Program.when condition (do cleanup; raise error) verdict world = .ok () after) :
    ¬condition ∧ world = after := by
  unfold Program.when at returned
  split at returned
  · obtain ⟨_, _, -, raised⟩ := bind_eq_ok.mp returned
    exact absurd raised raise_ne_ok
  · exact ⟨‹_›, (pure_eq_ok.mp returned).2⟩

/-- Before the transaction directory is renamed, only compatibility links have changed. -/
theorem prepareCommit_ok {E : Environment} {commit : Commit} {created : List (String × String)}
    (returned : prepareCommit E transaction commit verdict world = .ok (number, created) after) :
    after.root = world.root ∧
      (commit.generation = some number ∨ commit.generation = none ∧
        nextGeneration (E.listing .next world.root.keys) world.root = .ok number) ∧
      (verdict .inspectDestination ≠ .fail → world.lookup (generationName number) = none) ∧
      ∃ node, world.lookup transaction = some node ∧ node.isDir = true ∧ node.plain = true := by
  obtain ⟨pending, first, checked, rest⟩ := bind_eq_ok.mp returned
  have root_first : first.root = world.root := (pendingMarkerExists_keeps _).of_ok checked
  obtain ⟨-, rest⟩ := require_bind_eq_ok.mp rest
  obtain ⟨chosen, second, choice, rest⟩ := bind_eq_ok.mp rest
  have root_second : second.root = first.root := (chooseGeneration_keeps E _).of_ok choice
  obtain ⟨links, third, ensured, rest⟩ := bind_eq_ok.mp rest
  have root_third : third.root = second.root :=
    (ensureCompatibilitySymlinksFrom_keeps _ _ _).of_ok ensured
  obtain ⟨_, fourth, synced, rest⟩ := bind_eq_ok.mp rest
  have synced := onError_eq_ok.mp synced
  have root_fourth : fourth.root = third.root := (syncTree_keeps transaction).of_ok synced
  obtain ⟨inspected, fifth, looked, rest⟩ := bind_eq_ok.mp rest
  have root_fifth : fifth.root = fourth.root := (idle_keeps _).attempt.of_ok looked
  obtain ⟨_, sixth, free, rest⟩ := bind_eq_ok.mp (read_bind_eq_ok.mp rest)
  obtain ⟨vacant, rfl⟩ := unless_ok free
  obtain ⟨same, rfl⟩ := pure_eq_ok.mp rest
  obtain ⟨rfl, rfl⟩ := Prod.mk.inj same
  have root_synced : third.root = world.root := root_third.trans (root_second.trans root_first)
  have root_last : fifth.root = world.root := root_fifth.trans (root_fourth.trans root_synced)
  have choice := chooseGeneration_ok choice
  rw [root_first] at choice
  obtain ⟨node, found, shape⟩ := syncTree_ok synced
  rw [World.lookup, root_synced] at found
  refine ⟨root_last, choice, ?_, node, found, shape⟩
  intro unrefused
  have seen : inspected.isOk = true := by
    cases inspected with
    | ok value => rfl
    | error error => exact absurd (attempt_idle_refused looked) unrefused
  rw [World.lookup, ← root_last]
  exact Option.not_isSome_iff_eq_none.mp fun present => vacant ⟨seen, present⟩

theorem publish_ok {destination : FileName} {created : List (String × String)}
    (returned : publish transaction destination created verdict world = .ok () after) :
    after = world.move transaction destination := by
  obtain ⟨result, between, tried, rest⟩ := bind_eq_ok.mp returned
  cases result with
  | error error =>
      obtain ⟨_, _, -, raised⟩ := bind_eq_ok.mp rest
      exact absurd raised raise_ne_ok
  | ok published =>
      have renamed := read_bind_eq_ok.mp (attempt_eq_ok.mp tried)
      obtain ⟨-, renamed⟩ := require_bind_eq_ok.mp renamed
      obtain ⟨-, renamed⟩ := require_bind_eq_ok.mp renamed
      obtain ⟨-, rfl⟩ := step_eq_ok.mp renamed
      exact (step_eq_ok.mp (onError_eq_ok.mp rest)).2.symm

end Returned

/-- The root after a switch: `current` names the new generation, which is the whole transaction
directory, and the other generations are as before. -/
structure Switched (before : World) (transaction : FileName) (number : Nat) (tree : Node)
    (after : World) : Prop where
  committed : before.lookup transaction = some tree
  directory : tree.isDir = true
  plain : tree.plain = true
  linked : after.lookup currentName = some (.symlink (generationName number))
  published : after.lookup (generationName number) = some tree
  others : ∀ name, isGeneration name = true → name ≠ generationName number →
    after.lookup name = before.lookup name

theorem not_mem_of_isGeneration {name : FileName} {names : List FileName}
    (generation : isGeneration name = true) (other : names.any isGeneration = false) :
    name ∉ names := by
  intro listed
  have found : names.any isGeneration = true := List.any_eq_true.mpr ⟨name, listed, generation⟩
  rw [other] at found
  cases found

theorem isGeneration_transaction (generation : Generation) :
    isGeneration generation.transaction = false := by
  simp [isGeneration, Generation.transaction, startsWith, generationPrefix]

/-- A commit that returns has switched to the number that it chose. -/
theorem switchGeneration_ok {E : Environment} {generation : Generation} {commit : Commit}
    {verdict : Call → Verdict} {world after : World} {number : Nat}
    (returned : switchGeneration E generation commit verdict world = .ok number after) :
    (commit.generation = some number ∨ commit.generation = none ∧
        nextGeneration (E.listing .next world.root.keys) world.root = .ok number) ∧
      ∃ tree, Switched world generation.transaction number tree after := by
  obtain ⟨⟨chosen, created⟩, prepared, ready, rest⟩ := bind_eq_ok.mp returned
  obtain ⟨root_prepared, choice, -, tree, committed, directory, plain⟩ :=
    prepareCommit_ok (onError_eq_ok.mp ready)
  obtain ⟨_, published, publishing, rest⟩ := bind_eq_ok.mp rest
  have moved := publish_ok publishing
  obtain ⟨_, recorded, recording, rest⟩ := bind_eq_ok.mp rest
  have recording := onError_eq_ok.mp recording
  obtain ⟨_, switched, switching, rest⟩ := bind_eq_ok.mp rest
  have switching := onError_eq_ok.mp switching
  obtain ⟨_, acted, acting, rest⟩ := bind_eq_ok.mp rest
  obtain ⟨rfl, rfl⟩ := pure_eq_ok.mp rest
  have unmarked : beside [pendingMarker] acted = beside [pendingMarker] switched :=
    (act_keeps E commit.actions (by simp)).of_ok acting
  have linking : beside [currentName, currentNextName] switched =
      beside [currentName, currentNextName] recorded :=
    (switchCurrent_keeps chosen (by simp) (by simp)).of_ok switching
  have marking : beside [pendingMarker, postSwitchNextName] recorded =
      beside [pendingMarker, postSwitchNextName] published :=
    (recordPending_keeps _ commit (by simp) (by simp)).of_ok recording
  have kept : ∀ name, isGeneration name = true → acted.lookup name = published.lookup name := by
    intro name isName
    have last := lookup_of_beside unmarked (not_mem_of_isGeneration isName (by decide))
    have middle := lookup_of_beside linking (not_mem_of_isGeneration isName (by decide))
    have first := lookup_of_beside marking (not_mem_of_isGeneration isName (by decide))
    exact last.trans (middle.trans first)
  refine ⟨choice, tree, committed, directory, plain, ?_, ?_, ?_⟩
  · rw [lookup_of_beside unmarked (by decide)]
    exact (switchCurrent_meets chosen verdict recorded).of_ok switching
  · rw [kept _ (isGeneration_generationName chosen), moved]
    exact World.lookup_move (by rw [World.lookup, root_prepared]; exact committed)
  · intro name isName different
    have elsewhere : name ≠ generation.transaction := by
      rintro rfl
      rw [isGeneration_transaction] at isName
      cases isName
    have moving : beside [generation.transaction, generationName chosen]
        (prepared.move generation.transaction (generationName chosen)) =
          beside [generation.transaction, generationName chosen] prepared :=
      beside_move (by simp) (by simp)
    have untouched := lookup_of_beside moving
      (List.not_mem_cons_of_ne_of_not_mem elsewhere (mt List.mem_singleton.mp different))
    rw [kept name isName, moved, untouched, World.lookup, root_prepared]
    rfl

end NixSeal.Runtime.Generations
