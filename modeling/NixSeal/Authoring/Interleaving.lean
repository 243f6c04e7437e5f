import NixSeal.Authoring.Basic

/-!
# Authoring operations on one source

Several processes work on the ciphertext at one repository path.  Each operation is a script of
atomic steps; any process may take the next step, and any step that can fail may fail.  The
repository lock is taken by `acquire_repository_lock` and released when the function that took it
returns.  Steps on other files, and checks that do not look at the source, are `elsewhere`.
-/

namespace NixSeal.Authoring

/-- One ciphertext that was at the source at some time. -/
structure Version where
  /-- When the ciphertext was staged. -/
  serial : Nat
  /-- The file number `same_file` compares. -/
  inode : Nat
  ciphertext : Bytes
  deriving DecidableEq, Repr

/-- One step of an authoring operation. -/
inductive Action where
  | elsewhere
  /-- `acquire_repository_lock`, which waits for the holder. -/
  | acquire
  /-- `validate_destination`; the metadata is kept or dropped. -/
  | validate (mode : WriteMode) (kept : Bool)
  /-- `open_nofollow_regular` of the source, whose content is then decrypted. -/
  | openSource
  /-- A private temporary file with the new ciphertext. -/
  | stage
  /-- `ensure_unchanged`, or for a creation the test that nothing is there. -/
  | recheck (mode : WriteMode)
  /-- `persist`, or `persist_noclobber` for a creation. -/
  | persist (mode : WriteMode)
  /-- The rename of the source to the backup of a batch. -/
  | backup
  /-- The removal of a committed output during a rollback. -/
  | remove
  /-- The rename of the backup to the source. -/
  | restore
  /-- The rename of the source into a tombstone. -/
  | quarantine
  deriving DecidableEq, Repr

/-- The steps that change what is at the source. -/
def Action.changes : Action → Bool
  | .persist _ => true
  | .backup => true
  | .remove => true
  | .restore => true
  | .quarantine => true
  | _ => false

abbrev Ending : Type := Except AuthoringError Unit

/-- A sequential operation. -/
inductive Script where
  | finish (ending : Ending)
  | act (action : Action) (succeeded : Script) (failed : AuthoringError → Script)

namespace Script

/-- A step whose failure ends the operation, as `?` does. -/
def attempt (action : Action) (next : Script) : Script :=
  .act action next fun error => .finish (.error error)

/-- The synchronization of the directories after a commit. -/
def sync : Script :=
  .act .elsewhere (.finish (.ok ())) fun _ => .finish (.error .durabilityUnknown)

end Script

open Script

/-- Comparison and replacement at the end of `write_secret_checked` and `rekey_secret_inner`. -/
def commit : WriteMode → Script
  | .create => attempt (.persist .create) sync
  | .replace => attempt (.recheck .replace) <| attempt (.persist .replace) sync

/-- `write_secret_checked`. -/
def writeSecret (mode : WriteMode) : Script :=
  attempt .acquire <| attempt .elsewhere <| attempt (.validate mode true) <|
    attempt .stage <| commit mode

/-- `write_secret_create_delegated`. -/
def writeSecretCreateDelegated : Script :=
  attempt .acquire <| attempt .elsewhere <| attempt (.validate .create false) <|
    attempt .stage <| attempt (.persist .create) sync

/-- `rekey_secret_inner` of this source, or of another one to this source. -/
def rekeySecret (inPlace : Bool) (mode : WriteMode) : Script :=
  attempt .acquire <| attempt .elsewhere <|
    attempt (if inPlace then .openSource else .elsewhere) <| attempt (.validate mode true) <|
      attempt .stage <| commit mode

/-- `restore_batch` and `restore_combined`, as far as they concern this source. -/
def rollback (committed backedUp : Bool) : Script :=
  let ended := fun restored => Script.finish
    (.error (if restored then .batchRolledBack else .batchRecoveryUnknown))
  let others := fun restored =>
    Script.act .elsewhere (ended restored) fun _ => ended false
  let restoring := fun restored =>
    if backedUp then Script.act .restore (others restored) fun _ => others false
    else others restored
  if committed then Script.act .remove (restoring true) fun _ => restoring false
  else restoring true

/-- The commit loop of a batch, before, at and after this source. -/
def commitBatch (mode : WriteMode) (backedUp : Bool) : Script :=
  .act .elsewhere
    (.act (.persist mode)
      (.act .elsewhere sync fun _ => rollback true backedUp)
      fun _ => rollback false backedUp)
    fun _ => rollback false backedUp

/-- A batch that writes this source among other destinations.  In the loop that moves the originals
away, a backup that cannot be created ends the call at once, and one that cannot be filled starts
a rollback. -/
def writeBatch (mode : WriteMode) : Script :=
  attempt .acquire <| attempt .elsewhere <| attempt (.validate mode true) <| attempt .stage <|
    attempt .elsewhere <| attempt (.recheck mode) <| attempt .elsewhere <|
      match mode with
      | .create => commitBatch .create false
      | .replace =>
          .act .backup
            (attempt .elsewhere <|
              .act .elsewhere (commitBatch .replace true) fun _ => rollback false true)
            fun _ => rollback false false

/-- `delete_secret`. -/
def deleteSecret : Script :=
  attempt .acquire <| attempt .elsewhere <| attempt (.validate .replace true) <|
    attempt .openSource <| attempt .elsewhere <| attempt (.recheck .replace) <|
      attempt .quarantine <| attempt .elsewhere sync

/-- `edit_secret_checked`: the lock is taken only in the final `write_secret`. -/
def editSecretChecked : Script :=
  attempt .elsewhere <| attempt (.validate .replace false) <| attempt .elsewhere <|
    attempt .openSource <| attempt .elsewhere <| writeSecret .replace

/-- The operations other processes run on the source. -/
inductive AuthoringScript : Script → Prop where
  | write (mode : WriteMode) : AuthoringScript (writeSecret mode)
  | delegated : AuthoringScript writeSecretCreateDelegated
  | rekey (inPlace : Bool) (mode : WriteMode) : AuthoringScript (rekeySecret inPlace mode)
  | batch (mode : WriteMode) : AuthoringScript (writeBatch mode)
  | delete : AuthoringScript deleteSecret
  | edit : AuthoringScript editSecretChecked

/-- A process and what it remembers. -/
structure Process where
  /-- What remains to be done. -/
  script : Script
  /-- The metadata `validate_destination` returned. -/
  previous : Option Version := none
  /-- The version opened for decryption. -/
  decrypted : Option Version := none
  /-- The staged ciphertext. -/
  staged : Option Version := none
  /-- The original moved away by a batch. -/
  backup : Option Version := none
  /-- What was at the source when the lock was taken. -/
  found : Option Version := none
  /-- Whether the staged ciphertext was put at the source. -/
  committed : Bool := false
  /-- The version that the staged ciphertext replaced. -/
  replaced : Option Version := none
  /-- The value the operation returned. -/
  ending : Option Ending := none

/-- The source, the lock and the processes. -/
structure World where
  source : Option Version
  holder : Option Nat := none
  /-- Number of steps performed so far. -/
  clock : Nat := 1
  processes : Nat → Process

/-- What the system decides about one step. -/
structure Choice where
  /-- The error the step fails with, if it fails. -/
  failure : Option AuthoringError := none
  /-- The file number of a staged ciphertext. -/
  inode : Nat := 0
  /-- The staged ciphertext: encryption is randomized. -/
  ciphertext : Bytes := []
  deriving DecidableEq, Repr

/-- Effect of a step other than taking the lock, if the system does not refuse it. -/
def perform (action : Action) (choice : Choice) (world : World) (process : Process) :
    Except AuthoringError (Option Version × Process) :=
  match action with
  | .elsewhere => .ok (world.source, process)
  | .acquire => .ok (world.source, process)
  | .validate .create kept =>
      if world.source.isSome then .error .destinationState
      else .ok (world.source, if kept then { process with previous := none } else process)
  | .validate .replace kept =>
      if world.source.isNone then .error .destinationState
      else
        .ok (world.source, if kept then { process with previous := world.source } else process)
  | .openSource =>
      if world.source.isNone then .error .io
      else .ok (world.source, { process with decrypted := world.source })
  | .stage =>
      .ok (world.source,
        { process with staged := some ⟨world.clock, choice.inode, choice.ciphertext⟩ })
  | .recheck .create =>
      if world.source.isSome then .error .destinationState else .ok (world.source, process)
  | .recheck .replace =>
      match process.previous, world.source with
      | none, _ => .error .destinationState
      | some _, none => .error .io
      | some previous, some current =>
          if previous.inode ≠ current.inode then .error .destinationState
          else .ok (world.source, process)
  | .persist mode =>
      if mode = .create ∧ world.source.isSome then .error .io
      else
        .ok (process.staged,
          { process with staged := none, committed := true, replaced := world.source })
  | .backup => .ok (none, { process with backup := world.source })
  | .remove => if world.source.isNone then .error .io else .ok (none, process)
  | .restore => .ok (process.backup, { process with backup := none })
  | .quarantine => if world.source.isNone then .error .io else .ok (none, process)

/-- Replace one process. -/
def World.update (world : World) (id : Nat) (process : Process) : Nat → Process :=
  Function.update world.processes id process

/-- One step of one process, or `none` when it has ended or waits for the lock. -/
def step (id : Nat) (choice : Choice) (world : World) : Option World :=
  let process := world.processes id
  match process.script with
  | .finish ending =>
      if process.ending.isSome then none
      else
        some
          { world with
            holder := if world.holder = some id then none else world.holder
            processes := world.update id { process with ending := some ending } }
  | .act action succeeded failed =>
      match choice.failure with
      | some error =>
          some { world with processes := world.update id { process with script := failed error } }
      | none =>
          if action = .acquire then
            if world.holder.isSome then none
            else
              some
                { world with
                  holder := some id
                  processes := world.update id
                    { process with script := succeeded, found := world.source } }
          else
            match perform action choice world process with
            | .error error =>
                some
                  { world with
                    processes := world.update id { process with script := failed error } }
            | .ok (source, after) =>
                some
                  { world with
                    source := source
                    clock := world.clock + 1
                    processes := world.update id { after with script := succeeded } }

/-- A run: which process takes each step, and what the system decides. -/
def run : List (Nat × Choice) → World → Option World
  | [], world => some world
  | (id, choice) :: rest, world => (step id choice world).bind (run rest)

end NixSeal.Authoring
