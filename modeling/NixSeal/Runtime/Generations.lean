import NixSeal.Lib.Focus
import NixSeal.Runtime.Spec

/-!
# Generations of a runtime root

A runtime root holds a directory for each generation and the link `current` to one of them.  A
complete generation is renamed to the next number, `current` is switched to it, service actions
run, and the superseded generations are removed.  Every call to the system can fail, and the process
can be killed at any of them.
-/

namespace NixSeal.Runtime.Generations

open Cache Faulty Program

/-- What a name in a directory stands for. -/
inductive Node where
  | file (bytes : Bytes) (links : Nat)
  /-- A directory, with its entries in the order in which they are listed. -/
  | directory (entries : List (FileName × Node))
  | symlink (target : FileName)
  | special

/-- `FileType::is_dir`. -/
def Node.isDir : Node → Bool
  | .directory _ => true
  | .file _ _ | .symlink _ | .special => false

/-- `FileType::is_symlink`. -/
def Node.isSymlink : Node → Bool
  | .symlink _ => true
  | .file _ _ | .directory _ | .special => false

mutual

/-- Whether a tree holds nothing but files and directories. -/
def Node.plain : Node → Bool
  | .file _ _ => true
  | .directory entries => plainEntries entries
  | .symlink _ | .special => false

def plainEntries : List (FileName × Node) → Bool
  | [] => true
  | (_, node) :: rest => node.plain && plainEntries rest

end

/-- The entries of a runtime root; names are unique. -/
abbrev Entries : Type := AList fun _ : FileName => Node

/-- A runtime root, and what is at the paths of compatibility links. -/
structure World where
  root : Entries
  links : String → Option Node

namespace World

def lookup (world : World) (name : FileName) : Option Node := world.root.lookup name

def put (name : FileName) (node : Node) (world : World) : World :=
  { world with root := world.root.insert name node }

def drop (name : FileName) (world : World) : World :=
  { world with root := world.root.erase name }

/-- What `rename` does. -/
def move (source target : FileName) (world : World) : World :=
  match world.lookup source with
  | none => world
  | some node => (world.drop source).put target node

def putLink (path : String) (node : Option Node) (world : World) : World :=
  { world with links := Function.update world.links path node }

end World

/-! ## Names and numbers -/

/-- The prefix of the names of generations. -/
def generationPrefix : String := "generation-"

/-- `generation-{number}`. -/
def generationName (number : Nat) : FileName := .text (generationPrefix ++ toString number)

/-- `to_str` and `strip_prefix`. -/
def generationSuffix (name : FileName) : Option String :=
  name.toStr.bind (stripLiteral generationPrefix)

/-- The checks on a suffix. -/
def isDecimal (suffix : String) : Bool := !suffix.toList.isEmpty && suffix.toList.all isAsciiDigit

/-- `str::parse::<u64>`: an optional plus sign and digits, without overflow. -/
def u64FromStr (value : String) : Option Nat :=
  let digits := if value.toList.head? = some '+' then value.toList.drop 1 else value.toList
  if digits.isEmpty || !digits.all isAsciiDigit then none
  else
    let number := Nat.ofDigitChars 10 digits 0
    if number < 2 ^ 64 then some number else none

def currentName : FileName := .text "current"

/-- The name that `switch_current` prepares a link at. -/
def currentNextName : FileName := .text ".current-next"

/-- `PENDING_MARKER`. -/
def pendingMarker : FileName := .text ".post-switch-pending-v1"

/-- The name that `write_pending` prepares a marker at. -/
def postSwitchNextName : FileName := .text ".post-switch-next"

/-- The maximum after one more entry of `next_generation`. -/
def scanEntry (root : Entries) (maximum : Nat) (name : FileName) : Except RuntimeError Nat :=
  match root.lookup name with
  | none => .error .io
  | some node =>
      match generationSuffix name with
      | none => .ok maximum
      | some suffix =>
          if !node.isDir || !isDecimal suffix then .error .invalidDestination
          else
            match u64FromStr suffix with
            | none => .error .invalidDestination
            | some value => .ok (max maximum value)

/-- `next_generation`, for a listing of the root. -/
def nextGeneration (listing : List FileName) (root : Entries) : Except RuntimeError Nat := do
  let maximum ← listing.foldlM (scanEntry root) 0
  if maximum + 1 < 2 ^ 64 then .ok (maximum + 1) else .error .invalidDestination

/-- `generation_number`; a path is the names that lead to it from the root. -/
def generationNumber (path : List FileName) : Except RuntimeError Nat :=
  match (path.getLast?.bind generationSuffix).bind u64FromStr with
  | none => .error .invalidDestination
  | some number => .ok number

/-- `current_generation`. -/
def currentGeneration (root : Entries) : Except RuntimeError (Option (List FileName)) :=
  match root.lookup currentName with
  | none => .ok none
  | some (.symlink target) =>
      match target.toStr with
      | none => .error .invalidDestination
      | some name =>
          match stripLiteral generationPrefix name with
          | none => .error .invalidDestination
          | some suffix =>
              if !isDecimal suffix || (pathComponents name).length ≠ 1 then
                .error .invalidDestination
              else
                match root.lookup target with
                | none => .error .io
                | some node =>
                    if node.isDir then .ok (some [target]) else .error .invalidDestination
  | some _ => .error .invalidDestination

/-! ## Calls -/

/-- The calls of `pending_marker_exists` and `clear_pending`. -/
inductive MarkerCall where
  | inspect
  | open
  | remove
  | sync
  deriving DecidableEq

/-- The calls of `write_pending`. -/
inductive RecordCall where
  | inspectNext
  | openNext
  | removeNext
  | create
  | protect
  | write
  | syncFile
  | rename
  | sync
  deriving DecidableEq

/-- The calls of `switch_current`. -/
inductive SwitchCall where
  | inspectCurrent
  | readCurrent
  | inspectNext
  | removeNext
  | link
  | rename
  | sync
  deriving DecidableEq

/-- The calls on one compatibility link. -/
inductive LinkCall where
  /-- The checks of the directories above the link. -/
  | parent
  | inspect
  | read
  | publish
  | reopen
  | recheck
  | reread
  | remove
  deriving DecidableEq

/-- The calls of `remove_generation_tree` on one path. -/
inductive TreeCall where
  | inspect
  | list
  | remove
  deriving DecidableEq

/-- The calls of `finish_unchanged` before the actions. -/
inductive FinishCall where
  | inspect
  | inspectAgain
  | open
  | read
  deriving DecidableEq

/-- The times at which the marker is cleared. -/
inductive Clearing where
  | unneeded
  | unswitched
  | acted
  | retried
  deriving DecidableEq

/-- The calls of `commit_and_switch_optional` and of `activate` when nothing has changed. -/
inductive Call where
  | pending
  | listNext
  | link (path : String) (call : LinkCall)
  | walkTransaction
  | syncTransaction
  | inspectDestination
  | rename
  | syncPublished
  | record (call : RecordCall)
  | switch (call : SwitchCall)
  | clear (clearing : Clearing) (call : MarkerCall)
  | finish (call : FinishCall)
  | manager (arguments : List String)
  | dropTransaction
  | dropPublished
  | listPrune
  | inspectGeneration (name : FileName)
  | tree (path : List FileName) (call : TreeCall)
  | syncPruned
  deriving DecidableEq

/-- The two listings of the root. -/
inductive Scan where
  | next
  | prune
  deriving DecidableEq

/-- What the code takes from the system. -/
structure Environment where
  /-- The order in which the root is listed. -/
  listing : Scan → List FileName → List FileName
  listing_perm : ∀ scan names, (listing scan names).Perm names
  /-- `run_manager_action`, with the exit code of the manager, if it has one. -/
  manager : PostSwitchSpec → String → List String → Except RuntimeError (Option Int)
  /-- The effective user. -/
  user : Nat

/-- The program of an operation on a runtime root. -/
abbrev Operation : Type → Type := Program Call World RuntimeError

/-- A call that changes nothing. -/
def idle (label : Call) : Operation Unit := Program.step label .io id

/-- Runs a program and ignores its errors. -/
def ignoring {α : Type} (program : Operation α) : Operation Unit := do
  let _ ← attempt program

/-- `rename` of what is no directory. -/
def renameOver (label : Call) (source target : FileName) : Operation Unit := do
  let world ← Program.read
  require ((world.lookup source).isSome = true) .io
  require ((world.lookup target).any Node.isDir = false) .io
  Program.step label .io (World.move source target)

/-! ## The marker -/

/-- `pending_marker_exists`. -/
def pendingMarkerExists (label : Call) : Operation Bool := do
  idle label
  let world ← Program.read
  match world.lookup pendingMarker with
  | none => pure false
  | some (.file _ _) => pure true
  | some _ => raise .invalidDestination

/-- `open_regular_nofollow` below the root. -/
def openRegular (label : Call) (name : FileName) : Operation Bytes := do
  idle label
  let world ← Program.read
  match world.lookup name with
  | none => raise .io
  | some (.file bytes links) => if links = 1 then pure bytes else raise .unsafeSource
  | some _ => raise .unsafeSource

/-- `clear_pending`. -/
def clearPending (clearing : Clearing) : Operation Unit := do
  let present ← pendingMarkerExists (.clear clearing .inspect)
  Program.when (present = true) do
    let _ ← openRegular (.clear clearing .open) pendingMarker
    Program.step (.clear clearing .remove) .io (World.drop pendingMarker)
    idle (.clear clearing .sync)

/-- `pending_payload`. -/
def pendingPayload (generation : List FileName) (planHash : String) :
    Except RuntimeError Bytes :=
  match generation.getLast?.bind FileName.toStr with
  | none => .error .invalidDestination
  | some name => .ok (utf8 s!"nix-seal.post-switch.v1\n{name}\n{planHash}\n")

/-- The part of `write_pending` that removes a marker that was not renamed.  A marker that cannot be
inspected counts as absent. -/
def removeStaleMarker : Operation Unit := do
  let inspected ← attempt (idle (.record .inspectNext))
  let world ← Program.read
  Program.when (inspected.isOk = true ∧ (world.lookup postSwitchNextName).isSome = true) do
    let _ ← openRegular (.record .openNext) postSwitchNextName
    Program.step (.record .removeNext) .io (World.drop postSwitchNextName)

/-- `write_pending`. -/
def writePending (generation : List FileName) (planHash : String) : Operation Unit := do
  removeStaleMarker
  let world ← Program.read
  require ((world.lookup postSwitchNextName).isNone = true) .io
  Program.step (.record .create) .io (World.put postSwitchNextName (.file [] 1))
  idle (.record .protect)
  let payload ← lift (pendingPayload generation planHash)
  write (.record .write) .io
    (fun progress => World.put postSwitchNextName (.file (payload.take progress) 1))
    (World.put postSwitchNextName (.file payload 1))
  idle (.record .syncFile)
  renameOver (.record .rename) postSwitchNextName pendingMarker
  idle (.record .sync)

/-! ## Compatibility links -/

/-- What is at a path where a compatibility link should be. -/
def sameLink (target : String) : Option Node → Except RuntimeError Bool
  | none => .ok false
  | some (.symlink found) => if found = .text target then .ok true else .error .compatibilityPath
  | some _ => .error .compatibilityPath

/-- `install_compatibility_symlink`: whether the link is new. -/
def installCompatibilitySymlink (path target : String) : Operation Bool := do
  Program.step (.link path .parent) .compatibilityPath id
  idle (.link path .inspect)
  let world ← Program.read
  Program.when ((world.links path).any Node.isSymlink = true) (idle (.link path .read))
  let present ← lift (sameLink target (world.links path))
  Program.when (present = false)
    (Program.step (.link path .publish) .io (World.putLink path (some (.symlink (.text target)))))
  pure !present

/-- `remove_compatibility_symlink_if_matches`. -/
def removeCompatibilitySymlinkIfMatches (link : String × String) : Operation Unit := do
  Program.step (.link link.1 .reopen) .compatibilityPath id
  idle (.link link.1 .recheck)
  let world ← Program.read
  Program.when ((world.links link.1).any Node.isSymlink = true) (idle (.link link.1 .reread))
  let present ← lift (sameLink link.2 (world.links link.1))
  Program.when (present = true)
    (Program.step (.link link.1 .remove) .io (World.putLink link.1 none))

/-- `remove_compatibility_symlinks`. -/
def removeCompatibilitySymlinks (created : List (String × String)) : Operation Unit :=
  created.reverse.foldlM (fun _ link => removeCompatibilitySymlinkIfMatches link) ()

/-- The loop of `ensure_compatibility_symlinks`. -/
def ensureCompatibilitySymlinksFrom (runtimeRoot : String) (created : List (String × String)) :
    List (String × Id) → Operation (List (String × String))
  | [] => pure created
  | (path, secretId) :: rest => do
      let target := runtimeRoot ++ "/current/" ++ secretId.value
      let installed ← onError (installCompatibilitySymlink path target)
        (removeCompatibilitySymlinks created)
      ensureCompatibilitySymlinksFrom runtimeRoot
        (if installed then created ++ [(path, target)] else created) rest

/-- `ensure_compatibility_symlinks`: the links that are new. -/
def ensureCompatibilitySymlinks (runtimeRoot : String) (links : List (String × Id)) :
    Operation (List (String × String)) :=
  ensureCompatibilitySymlinksFrom runtimeRoot [] links

/-! ## Service actions -/

/-- `manager_arguments`. -/
def managerArguments (E : Environment) (manager : ServiceManager) (reload : Bool)
    (unit : String) : Except RuntimeError (List String) :=
  match manager, reload with
  | .systemdSystem, true => .ok ["reload", unit]
  | .systemdUser, true => .ok ["--user", "reload", unit]
  | .launchdSystem, true | .launchdUser, true => .error .invalidSpec
  | .systemdSystem, false => .ok ["try-restart", unit]
  | .systemdUser, false => .ok ["--user", "try-restart", unit]
  | .launchdSystem, false => .ok ["kickstart", "-k", "system/" ++ unit]
  | .launchdUser, false => .ok ["kickstart", "-k", s!"gui/{E.user}/{unit}"]

/-- A call of `run`. -/
def runManager (E : Environment) (actions : PostSwitchSpec) (unit : String)
    (arguments : List String) : Operation (Option Int) := do
  Program.step (.manager arguments) (.serviceAction unit) id
  lift (E.manager actions unit arguments)

/-- An action that must succeed. -/
def runAction (E : Environment) (actions : PostSwitchSpec) (reload : Bool) (unit : String) :
    Operation Unit := do
  let arguments ← lift (managerArguments E actions.manager reload unit)
  let status ← runManager E actions unit arguments
  require (status = some 0) (.serviceAction unit)

/-- One turn of the loop over the units to restart. -/
def restartUnit (E : Environment) (actions : PostSwitchSpec) (unit : String) : Operation Unit :=
  if actions.manager.isLaunchd then runAction E actions false unit
  else do
    let user := if actions.manager = .systemdUser then ["--user"] else []
    let status ← runManager E actions unit (user ++ ["is-active", "--quiet", unit])
    -- a unit that is inactive or unknown is not restarted
    Program.when (¬(status = some 3 ∨ status = some 4)) do
      require (status = some 0) (.serviceAction unit)
      runAction E actions false unit

/-- `run_post_switch`. -/
def runPostSwitch (E : Environment) (actions : PostSwitchSpec) : Operation Unit := do
  lift actions.validate
  actions.reloadUnits.foldlM (fun _ unit => runAction E actions true unit) ()
  actions.restartUnits.foldlM (fun _ unit => restartUnit E actions unit) ()

/-! ## Switching -/

/-- The check of `switch_current` on what `current` names. -/
def switchable (world : World) : Except RuntimeError Unit :=
  match world.lookup currentName with
  | none => .ok ()
  | some (.symlink target) =>
      if (generationSuffix target).any isDecimal then .ok () else .error .invalidDestination
  | some _ => .error .invalidDestination

/-- The checks of `switch_current` before it prepares a link.  What cannot be inspected counts as
absent. -/
def checkCurrent : Operation Unit := do
  let inspected ← attempt (idle (.switch .inspectCurrent))
  let world ← Program.read
  Program.when (inspected.isOk = true) do
    Program.when ((world.lookup currentName).any Node.isSymlink = true)
      (idle (.switch .readCurrent))
    lift (switchable world)

/-- The part of `switch_current` that removes a link that was not renamed. -/
def removeStaleLink : Operation Unit := do
  let inspected ← attempt (idle (.switch .inspectNext))
  let world ← Program.read
  Program.when (inspected.isOk = true ∧ (world.lookup currentNextName).isSome = true) do
    require ((world.lookup currentNextName).any Node.isSymlink = true) .invalidDestination
    Program.step (.switch .removeNext) .io (World.drop currentNextName)

/-- `switch_current`. -/
def switchCurrent (generation : Nat) : Operation Unit := do
  checkCurrent
  removeStaleLink
  let world ← Program.read
  require ((world.lookup currentNextName).isNone = true) .io
  Program.step (.switch .link) .io
    (World.put currentNextName (.symlink (generationName generation)))
  renameOver (.switch .rename) currentNextName currentName
  idle (.switch .sync)

/-! ## Pruning -/

/-- The entries of the directory that is removed first. -/
def firstEntries : List (FileName × Node) → List (FileName × Node)
  | (_, .directory entries) :: _ => entries
  | _ => []

/-- Other entries in the directory that is removed first. -/
def withFirstEntries (entries : List (FileName × Node)) :
    List (FileName × Node) → List (FileName × Node)
  | (name, .directory _) :: rest => (name, .directory entries) :: rest
  | other => other

/-- The program that removes entries, on the entries that are left of a directory. -/
abbrev Removal : Type := Program Call (List (FileName × Node)) RuntimeError Unit

mutual

/-- One turn of the loop of `remove_generation_tree`; the entry is the first one left. -/
def removeEntry (path : List FileName) : Node → Removal
  | .file _ _ => do
      Program.step (.tree path .inspect) .io id
      Program.step (.tree path .remove) .io List.tail
  | .directory entries => do
      Program.step (.tree path .inspect) .io id
      Program.step (.tree path .list) .io id
      focus firstEntries withFirstEntries (removeEntries path entries)
      Program.step (.tree path .remove) .io List.tail
  | .symlink _ | .special => do
      Program.step (.tree path .inspect) .io id
      raise .invalidDestination

/-- The loop of `remove_generation_tree`. -/
def removeEntries (path : List FileName) : List (FileName × Node) → Removal
  | [] => pure ()
  | (name, node) :: rest => do
      removeEntry (path ++ [name]) node
      removeEntries path rest

end

/-- The entries of a directory below the root. -/
def World.entriesOf (name : FileName) (world : World) : List (FileName × Node) :=
  match world.lookup name with
  | some (.directory entries) => entries
  | _ => []

/-- `remove_generation_tree`. -/
def removeGenerationTree (name : FileName) : Operation Unit := do
  idle (.tree [name] .inspect)
  let world ← Program.read
  require ((world.lookup name).any Node.isDir = true) .invalidDestination
  idle (.tree [name] .list)
  focus (World.entriesOf name) (fun entries => World.put name (.directory entries))
    (removeEntries [name] (world.entriesOf name))
  Program.step (.tree [name] .remove) .io (World.drop name)

/-- One turn of the loop of `prune_superseded_generations`. -/
def pruneEntry (current : Nat) (name : FileName) : Operation Unit :=
  match generationSuffix name with
  | none => pure ()
  | some suffix =>
      match u64FromStr suffix with
      | none => raise .invalidDestination
      | some generation => do
          idle (.inspectGeneration name)
          let world ← Program.read
          require ((world.lookup name).isSome = true) .io
          require ((world.lookup name).any Node.isDir = true) .invalidDestination
          Program.when (generation ≠ current) (removeGenerationTree name)

/-- `prune_superseded_generations`. -/
def pruneSupersededGenerations (E : Environment) (current : Nat) : Operation Unit := do
  idle .listPrune
  let world ← Program.read
  (E.listing .prune world.root.keys).foldlM (fun _ name => pruneEntry current name) ()
  idle .syncPruned

/-! ## Committing -/

/-- A `Generation`: the random part of the name of its transaction directory. -/
structure Generation where
  random : String

/-- The name of the transaction directory. -/
def Generation.transaction (generation : Generation) : FileName :=
  .text (".generation-" ++ generation.random)

/-- The arguments of `commit_and_switch_optional`, with the path of the root. -/
structure Commit where
  runtimeRoot : String
  generation : Option Nat
  planHash : String
  actions : Option PostSwitchSpec
  compatibility : List (String × Id)

/-- `sync_tree`. -/
def syncTree (transaction : FileName) : Operation Unit := do
  idle .walkTransaction
  let world ← Program.read
  require ((world.lookup transaction).any Node.isDir = true) .io
  require ((world.lookup transaction).any Node.plain = true) .invalidDestination
  idle .syncTransaction

/-- The number that is asked for, or the next one. -/
def chooseGeneration (E : Environment) : Option Nat → Operation Nat
  | some generation => pure generation
  | none => do
      idle .listNext
      let world ← Program.read
      lift (nextGeneration (E.listing .next world.root.keys) world.root)

/-- The part of `commit_and_switch_optional` before the transaction directory is kept: the number
of the generation and the links that are new. -/
def prepareCommit (E : Environment) (transaction : FileName) (commit : Commit) :
    Operation (Nat × List (String × String)) := do
  let pending ← pendingMarkerExists .pending
  require (pending = false) .pendingPostSwitch
  let number ← chooseGeneration E commit.generation
  let created ← ensureCompatibilitySymlinks commit.runtimeRoot commit.compatibility
  onError (syncTree transaction) (removeCompatibilitySymlinks created)
  -- a destination that cannot be inspected counts as absent
  let inspected ← attempt (idle .inspectDestination)
  let world ← Program.read
  Program.when (inspected.isOk = true ∧ (world.lookup (generationName number)).isSome = true) do
    removeCompatibilitySymlinks created
    raise .invalidDestination
  pure (number, created)

/-- What a directory can be renamed to. -/
def vacant : Option Node → Bool
  | none | some (.directory []) => true
  | _ => false

/-- `rename` of the transaction directory. -/
def renameTransaction (transaction destination : FileName) : Operation Unit := do
  let world ← Program.read
  require ((world.lookup transaction).isSome = true) .io
  require (vacant (world.lookup destination) = true) .io
  Program.step .rename .io (World.move transaction destination)

/-- `remove_dir_all` of the published directory. -/
def dropPublished (destination : FileName) : Operation Unit :=
  Program.step .dropPublished .io (World.drop destination)

/-- The cleanup after the directory is published. -/
def unpublish (destination : FileName) (created : List (String × String)) : Operation Unit := do
  ignoring (dropPublished destination)
  ignoring (removeCompatibilitySymlinks created)

/-- The cleanup when `current` could not be switched. -/
def unpublishUnswitched (destination : FileName) (created : List (String × String)) :
    Operation Unit := do
  ignoring (dropPublished destination)
  ignoring (clearPending .unswitched)
  ignoring (removeCompatibilitySymlinks created)

/-- The transaction directory becomes a generation; from here on it is not removed when the commit
ends. -/
def publish (transaction destination : FileName) (created : List (String × String)) :
    Operation Unit := do
  match ← attempt (renameTransaction transaction destination) with
  | .error error => do
      removeCompatibilitySymlinks created
      raise error
  | .ok () => onError (idle .syncPublished) (unpublish destination created)

/-- The marker of a generation with actions, or none. -/
def recordPending (destination : FileName) (commit : Commit) : Operation Unit :=
  match commit.actions with
  | some _ => writePending [destination] commit.planHash
  | none => clearPending .unneeded

/-- The actions of a generation. -/
def act (E : Environment) : Option PostSwitchSpec → Operation Unit
  | none => pure ()
  | some actions => do
      runPostSwitch E actions
      clearPending .acted

/-- `commit_and_switch_optional` before the superseded generations are removed: the number of the
generation. -/
def switchGeneration (E : Environment) (generation : Generation) (commit : Commit) :
    Operation Nat := do
  let transaction := generation.transaction
  let (number, created) ← onError (prepareCommit E transaction commit)
    -- the transaction directory is removed with its guard
    (Program.step .dropTransaction .io (World.drop transaction))
  let destination := generationName number
  publish transaction destination created
  onError (recordPending destination commit) (unpublish destination created)
  onError (switchCurrent number) (unpublishUnswitched destination created)
  act E commit.actions
  pure number

/-- `pending_matches`. -/
def pendingMatches (generation : List FileName) (planHash : String) : Operation Bool := do
  let present ← pendingMarkerExists (.finish .inspectAgain)
  if present then do
    let bytes ← openRegular (.finish .open) pendingMarker
    idle (.finish .read)
    require (bytes.length ≤ 1024) .limit
    let payload ← lift (pendingPayload generation planHash)
    pure (decide (bytes = payload))
  else pure false

/-- `Generation::finish_unchanged`. -/
def finishUnchanged (E : Environment) (current : List FileName) (commit : Commit) :
    Operation Unit := do
  let present ← pendingMarkerExists (.finish .inspect)
  Program.when (present = true) do
    let same ← pendingMatches current commit.planHash
    require (same = true) .pendingPostSwitch
    match commit.actions with
    | none => raise .pendingPostSwitch
    | some actions => do
        runPostSwitch E actions
        clearPending .retried

/-- The end of `activate` when the current generation has the same content: whether there are new
links. -/
def finishActivation (E : Environment) (current : List FileName) (commit : Commit) :
    Operation Bool := do
  let created ← ensureCompatibilitySymlinks commit.runtimeRoot commit.compatibility
  finishUnchanged E current commit
  let number ← lift (generationNumber current)
  pruneSupersededGenerations E number
  pure !created.isEmpty

/-- `commit_and_switch_optional`: the path of the generation. -/
def commitAndSwitchOptional (E : Environment) (generation : Generation) (commit : Commit) :
    Operation (List FileName) := do
  let number ← switchGeneration E generation commit
  pruneSupersededGenerations E number
  pure [generationName number]

end NixSeal.Runtime.Generations
