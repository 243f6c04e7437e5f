import NixSeal.Cache.Hold

/-!
# Locking, directories and recovery

What the operations do before they write, and what opening a cache does with the entries an
interrupted process left behind.  The system refuses no step here; a kill can come at any step.
-/

namespace NixSeal.Cache

open Faulty Faulty.Program

variable {env : Environment} {verdict : Step → Verdict}

/-- No step is refused by the system. -/
def Steady {L : Type} (verdict : L → Verdict) : Prop := ∀ label, verdict label ≠ .fail

/-- A step in a steady system. -/
theorem Steady.step {L σ ε : Type} {verdict : L → Verdict} (steady : Steady verdict) {label : L}
    {error : ε} {effect : σ → σ} {state : σ} {returns : Unit → σ → Prop}
    {raises : ε → σ → Prop} {stops : σ → Prop} (onReturn : returns () (effect state))
    (onStop : ∀ progress, verdict label = .kill progress → stops state) :
    (Program.step label error effect).Meets verdict state returns raises stops :=
  Meets.step onReturn (fun failed => absurd failed (steady label)) onStop

theorem Steady.write {L σ ε : Type} {verdict : L → Verdict} (steady : Steady verdict) {label : L}
    {error : ε} {interrupted : Nat → σ → σ} {effect : σ → σ} {state : σ}
    {returns : Unit → σ → Prop} {raises : ε → σ → Prop} {stops : σ → Prop}
    (onReturn : returns () (effect state))
    (onStop : ∀ progress, verdict label = .kill progress → stops (interrupted progress state)) :
    (Program.write label error interrupted effect).Meets verdict state returns raises stops :=
  Meets.write onReturn (fun failed => absurd failed (steady label)) onStop

theorem Steady.sync (steady : Steady verdict) {label : Step} {root : Root}
    {returns : Unit → Root → Prop} {raises : CacheError → Root → Prop} {stops : Root → Prop}
    (onReturn : returns () root) (onStop : stops root) :
    (Cache.sync label).Meets verdict root returns raises stops :=
  steady.step onReturn fun _ _ => onStop

theorem lock_meets (steady : Steady verdict) {root : Root} (lockable : Lockable env root.lock)
    {returns : Unit → Root → Prop} {raises : CacheError → Root → Prop} {stops : Root → Prop}
    (onReturn : ∀ lock, Lockable env lock → returns () { root with lock := lock })
    (onStop : ∀ lock, Lockable env lock → stops { root with lock := lock }) :
    (lock env).Meets verdict root returns raises stops := by
  unfold lock
  apply Meets.bind
  apply Meets.read
  have created : Lockable env (some (.file (env.created 0o600) [])) :=
    .inr ⟨_, _, rfl, rfl, rfl⟩
  have present : (Program.when (root.lock.isNone = true) (Program.step Step.createLock
      (CacheError.io .other) (fun root : Root =>
        { root with lock := some (.file (env.created 0o600) []) }))).Meets verdict root
      (fun _ after => ∃ status bytes, after = { root with lock := some (.file status bytes) } ∧
        status.links = 1 ∧ status.owner = env.user) raises stops := by
    apply Meets.when
    · intro _
      exact steady.step ⟨_, _, rfl, rfl, rfl⟩ fun _ _ => onStop _ lockable
    · intro present
      rcases lockable with missing | ⟨status, bytes, found, links, owner⟩
      · simp [missing] at present
      · exact ⟨status, bytes, by rw [← found], links, owner⟩
  refine present.seq ?_
  rintro _ _ ⟨status, bytes, rfl, links, owner⟩
  apply Meets.bind
  apply Meets.read
  apply Meets.bind
  apply Meets.require
  · intro _
    refine steady.step ?_ fun _ _ => ?_
    · exact onReturn _ (.inr ⟨_, _, rfl, links, owner⟩)
    · exact onStop _ (.inr ⟨_, _, rfl, links, owner⟩)
  · intro refused
    exact absurd ⟨links, owner⟩ refused

section Directories

variable {β γ : Type} {area : Area β} {holds : γ → Node β → Prop} {settled tidy : Bool}
  {root : Root} {map : Std.TreeMap String γ compare}
  {returns : Unit → Root → Prop} {raises : CacheError → Root → Prop} {stops : Root → Prop}

@[simp]
theorem Area.metadata_fill (status : Status) (entries : Folder (Node β)) :
    area.metadata (area.fill status entries root) = some ⟨.directory, status, 0⟩ := by
  simp [Area.metadata, Node.metadata]

theorem requireOwnDirectory_meets {metadata : Metadata} (kind : metadata.kind = .directory)
    (owner : metadata.status.owner = env.user) (onReturn : returns () root) :
    (requireOwnDirectory env (some metadata)).Meets verdict root returns raises stops := by
  unfold requireOwnDirectory
  apply Meets.bind
  apply Meets.require
  · intro _
    apply Meets.lift
    · intro _ _
      exact onReturn
    · intro error refused
      simp [validateOwner, owner] at refused
  · exact fun refused => absurd kind refused

theorem requirePrivateDirectory_meets {metadata : Metadata} (kind : metadata.kind = .directory)
    (admissible : metadata.status.Admissible env true) (onReturn : returns () root) :
    (requirePrivateDirectory env (some metadata)).Meets verdict root returns raises stops := by
  unfold requirePrivateDirectory
  have accepted := validatePrivateMetadata_directory_iff.mpr ⟨kind, admissible⟩
  apply Meets.lift
  · intro _ _
    exact onReturn
  · intro error refused
    rw [accepted] at refused
    cases refused

theorem setPrivatePermissions_meets (steady : Steady verdict) {label : Step} {directory : Bool}
    {metadata : Metadata} {change : Root → Root}
    (kind : metadata.kind = if directory then .directory else .file)
    (owner : metadata.status.owner = env.user)
    (links : directory = true ∨ metadata.status.links = 1) (onReturn : returns () (change root))
    (onStop : ∀ progress, verdict label = .kill progress → stops root) :
    (setPrivatePermissions env label directory (some metadata) change).Meets verdict root returns
      raises stops := by
  unfold setPrivatePermissions
  apply Meets.bind
  apply Meets.require
  · intro _
    exact steady.step onReturn onStop
  · exact fun refused => absurd ⟨kind, owner, links⟩ refused

/-- Making sure of a store leaves a private directory with the entries that were there. -/
theorem ensurePrivateDirectory_meets (steady : Steady verdict)
    (stores : area.Stores env holds settled tidy root map)
    (onReturn : ∀ status entries, status.owner = env.user → status.isPrivate →
      Stored entries holds (Leftover env settled) map →
        returns () (area.fill status entries root))
    (onStop : ∀ path, area.Stores env holds settled false (area.set path root) map →
      stops (area.set path root)) :
    (ensurePrivateDirectory env area).Meets verdict root returns raises stops := by
  have unchanged : area.set (area.get root) root = root := area.set_get root
  have untidy : area.Stores env holds settled false root map := by
    rcases stores with missing | ⟨status, entries, found, owner, _, stored⟩
    · exact .inl missing
    · exact .inr ⟨status, entries, found, owner, by simp, stored⟩
  have stopHere : stops root := by
    rw [← unchanged]
    exact onStop _ (by rwa [unchanged])
  have stopFilled : ∀ status entries, status.owner = env.user →
      Stored entries holds (Leftover env settled) map → stops (area.fill status entries root) :=
    fun status entries owner stored => onStop _ (.inr
      ⟨status, entries, area.get_fill status entries, owner, by simp, stored⟩)
  unfold ensurePrivateDirectory
  apply Meets.bind
  apply Meets.read
  have present : (Program.when ((area.get root).isNone = true)
      (Program.step (Step.createStore area.store) (CacheError.io .other)
        (area.set (some (.directory (env.created 0o777) ∅))))).Meets verdict root
      (fun _ after => ∃ status entries, after = area.fill status entries root ∧
        status.owner = env.user ∧ Stored entries holds (Leftover env settled) map) raises stops := by
    apply Meets.when
    · intro missing
      refine steady.step ⟨_, _, rfl, rfl, ?_⟩ fun _ _ => stopHere
      rcases stores with ⟨_, empty⟩ | ⟨_, _, found, _⟩
      · exact Stored.empty empty
      · simp [found] at missing
    · intro there
      rcases stores with ⟨missing, _⟩ | ⟨status, entries, found, owner, _, stored⟩
      · simp [missing] at there
      · refine ⟨status, entries, ?_, owner, stored⟩
        rw [Area.fill, ← found, unchanged]
  refine present.seq ?_
  rintro _ _ ⟨status, entries, rfl, owner, stored⟩
  apply Meets.bind
  apply Meets.read
  rw [Area.metadata_fill]
  apply Meets.bind
  apply requireOwnDirectory_meets rfl owner
  apply Meets.bind
  apply Meets.read
  rw [Area.metadata_fill]
  apply Meets.bind
  refine setPrivatePermissions_meets steady rfl owner (.inl rfl) ?_
    fun _ _ => stopFilled status entries owner stored
  have protected_eq : area.set (((area.get (area.fill status entries root))).map
      (Node.withMode 0o700)) (area.fill status entries root) =
        area.fill { status with mode := 0o700 } entries root := by
    rw [Area.get_fill]
    exact area.set_set _ _ _
  rw [protected_eq]
  apply Meets.bind
  apply Meets.read
  rw [Area.metadata_fill]
  have restricted : ({ status with mode := 0o700 } : Status).isPrivate :=
    Status.isPrivate_iff.mpr (show (0o700 : Nat) % 64 = 0 from rfl)
  exact requirePrivateDirectory_meets rfl ⟨restricted, fun _ => owner⟩
    (onReturn _ _ owner restricted stored)

/-- Removing a directory of an area with everything in it.  On the way only that entry changes,
and it stays a directory with the same status. -/
theorem removeDirAll_meets (steady : Steady verdict) {status inner : Status}
    {entries : Folder (Node β)} {children : Folder β} {name : FileName}
    {label : Option FileName → Step}
    (found : entries.lookup name = some (.directory inner children))
    (onReturn : ∀ left : Folder (Node β),
      (∀ other, left.lookup other = if other = name then none else entries.lookup other) →
        returns () (area.fill status left root))
    (onStop : ∀ (left : Folder (Node β)) (rest : Folder β), (∀ other, left.lookup other =
      if other = name then some (.directory inner rest) else entries.lookup other) →
        stops (area.fill status left root)) :
    (removeDirAll env area name label).Meets verdict (area.fill status entries root) returns
      raises stops := by
  unfold removeDirAll
  apply Meets.bind
  apply Meets.read
  rw [Area.child_fill, found, orNotFound]
  apply Meets.bind
  refine Meets.foldlM (fun _ _ after => ∃ (left : Folder (Node β)) (rest : Folder β),
    after = area.fill status left root ∧ ∀ other, left.lookup other =
      if other = name then some (.directory inner rest) else entries.lookup other)
    ⟨entries, children, rfl, ?_⟩ ?_ ?_
  · intro other
    by_cases same : other = name
    · rw [if_pos same, same, found]
    · rw [if_neg same]
  · rintro done child remaining _ _ _ ⟨left, rest, rfl, lookups⟩
    refine steady.step ⟨Folder.modify name (Node.mapEntries fun inside => inside.erase child) left,
      rest.erase child, ?_, fun other => ?_⟩ fun _ _ => onStop left rest lookups
    · rw [Area.changeEntry, Area.change_fill]
    · rw [lookup_modify, lookups, lookups]
      by_cases same : other = name
      · rw [if_pos same, if_pos same, if_pos rfl]
        rfl
      · rw [if_neg same, if_neg same, if_neg same]
  · rintro _ _ ⟨left, rest, rfl, lookups⟩
    refine steady.step ?_ fun _ _ => onStop left rest lookups
    rw [Area.change_fill]
    refine onReturn (left.erase name) fun other => ?_
    rw [lookup_erase_eq, lookups]
    by_cases same : other = name
    · rw [if_pos same, if_pos same]
    · rw [if_neg same, if_neg same, if_neg same]

/-- The entries of a store once the given transaction entries are removed. -/
structure Recovered (entries left : Folder (Node β)) (removed : List FileName) : Prop where
  gone : ∀ name ∈ removed, IsTransaction name → left.lookup name = none
  kept : ∀ name, ¬(name ∈ removed ∧ IsTransaction name) → left.lookup name = entries.lookup name

theorem startsWith_transaction_iff {text : String} :
    startsWith transactionPrefix text = true ↔ IsTransaction (.text text) := by
  unfold startsWith IsTransaction
  rw [decide_eq_true_iff]
  constructor
  · rintro ⟨rest, joined⟩
    refine ⟨String.ofList rest, ?_⟩
    rw [FileName.text.injEq, ← String.toList_inj, String.toList_append, String.toList_ofList, joined]
  · rintro ⟨suffix, same⟩
    cases same
    exact ⟨suffix.toList, String.toList_append.symm⟩

theorem Stored.recovered {entries left : Folder (Node β)} {removed : List FileName}
    (stored : Stored entries holds (Leftover env settled) map)
    (digests : ∀ (key : String) (value : γ), map[key]? = some value → isDigest key = true)
    (recovered : Recovered entries left removed) :
    Stored left holds (Leftover env settled) map := by
  refine ⟨fun key value mapped => ?_, fun name node found => ?_⟩
  · rw [recovered.kept _ fun both => not_transaction_of_present digests mapped both.2]
    exact stored.present key value mapped
  · by_cases both : name ∈ removed ∧ IsTransaction name
    · rw [recovered.gone name both.1 both.2] at found
      cases found
    · rw [recovered.kept name both] at found
      exact stored.accounted name node found

theorem recoverEntry_meets (steady : Steady verdict) {status : Status}
    {entries left : Folder (Node β)} {done : List FileName} {name : FileName} {removed : Bool}
    {returns : Bool → Root → Prop}
    (stored : Stored entries holds (Leftover env false) map)
    (digests : ∀ (key : String) (value : γ), map[key]? = some value → isDigest key = true)
    (recovered : Recovered entries left done) (listed : name ∈ entries) (fresh : name ∉ done)
    (onReturn : ∀ (flag : Bool) (next : Folder (Node β)), Recovered entries next (done ++ [name]) →
      returns flag (area.fill status next root))
    (onStop : ∀ next : Folder (Node β), Stored next holds (Leftover env false) map →
      stops (area.fill status next root)) :
    (recoverEntry env area removed name).Meets verdict (area.fill status left root) returns
      raises stops := by
  obtain ⟨node, found⟩ := Option.isSome_iff_exists.mp (AList.lookup_isSome.mpr listed)
  have here : left.lookup name = some node := by
    rw [recovered.kept name fun both => fresh both.1, found]
  have kept := stored.recovered digests recovered
  have advance : ∀ next : Folder (Node β), IsTransaction name → (∀ other, next.lookup other =
      if other = name then none else left.lookup other) →
        Recovered entries next (done ++ [name]) := by
    intro next transaction lookups
    constructor
    · intro other member transactional
      rw [lookups]
      by_cases same : other = name
      · rw [if_pos same]
      · rw [if_neg same]
        exact recovered.gone other (by simpa [same] using member) transactional
    · intro other spared
      have same : other ≠ name := by
        rintro rfl
        exact spared ⟨by simp, transaction⟩
      rw [lookups, if_neg same]
      exact recovered.kept other fun both => spared ⟨by simp [both.1], both.2⟩
  cases name with
  | raw bytes =>
      rcases stored.accounted _ _ found with ⟨key, value, same, _⟩ | ⟨_, ⟨suffix, same⟩, _⟩
      · cases same
      · cases same
  | text text =>
      simp only [recoverEntry, FileName.toStr]
      by_cases transaction : IsTransaction (.text text)
      · rw [startsWith_transaction_iff.mpr transaction, Bool.not_true, if_neg (by simp)]
        have removable : Removable env node := by
          rcases stored.accounted _ _ found with ⟨key, value, same, mapped⟩ | ⟨_, _, removable⟩
          · cases same
            exact absurd transaction (not_transaction_of_present digests mapped)
          · exact removable
        apply Meets.bind
        apply Meets.read
        rw [Area.child_fill, here, orNotFound]
        cases node with
        | symlink target => exact removable.elim
        | dangling => exact removable.elim
        | special inner => exact removable.elim
        | file inner bytes =>
            have accepted : validatePrivateMetadata env (Node.file inner bytes : Node β).metadata
                false true = .ok () :=
              validatePrivateMetadata_file_iff.mpr ⟨rfl, removable⟩
            simp only [Node.metadata] at accepted ⊢
            rw [accepted]
            apply Meets.bind
            apply Meets.pure
            apply Meets.bind
            refine steady.step ?_ fun _ _ => onStop left kept
            rw [Area.change_fill]
            refine onReturn _ _ (advance _ transaction fun other => ?_)
            rw [lookup_erase_eq]
        | directory inner children =>
            have accepted : validatePrivateMetadata env
                (Node.directory inner children : Node β).metadata true true = .ok () :=
              validatePrivateMetadata_directory_iff.mpr ⟨rfl, removable⟩
            simp only [Node.metadata] at accepted ⊢
            rw [accepted]
            apply Meets.bind
            apply Meets.pure
            apply Meets.bind
            refine removeDirAll_meets steady here ?_ ?_
            · intro next lookups
              exact onReturn _ _ (advance next transaction lookups)
            · intro next rest lookups
              refine onStop next (kept.transact digests transaction (fun other different => ?_) ?_)
              · rw [lookups, if_neg different]
              · intro found lookup
                rw [lookups, if_pos rfl, Option.some.injEq] at lookup
                subst lookup
                exact removable
      · have refused : startsWith transactionPrefix text = false := by
          rw [← Bool.not_eq_true, startsWith_transaction_iff]
          exact transaction
        rw [refused, Bool.not_false, if_pos rfl]
        apply Meets.pure
        refine onReturn _ _ ⟨fun other member transactional => ?_, fun other spared => ?_⟩
        · refine recovered.gone other ?_ transactional
          rcases List.mem_append.mp member with earlier | last
          · exact earlier
          · rw [List.mem_singleton.mp last] at transactional
            exact absurd transactional transaction
        · exact recovered.kept other fun both => spared ⟨by simp [both.1], both.2⟩

/-- Recovery leaves no transaction entry in a store. -/
theorem recoverArea_meets (steady : Steady verdict)
    (stores : area.Stores env holds false tidy root map)
    (digests : ∀ (key : String) (value : γ), map[key]? = some value → isDigest key = true)
    (onReturn : ∀ path, area.Stores env holds true tidy (area.set path root) map →
      returns () (area.set path root))
    (onStop : ∀ path, area.Stores env holds false tidy (area.set path root) map →
      stops (area.set path root)) :
    (recoverArea env area).Meets verdict root returns raises stops := by
  have unchanged : area.set (area.get root) root = root := area.set_get root
  unfold recoverArea
  apply Meets.bind
  apply Meets.read
  rcases stores with ⟨missing, empty⟩ | ⟨status, entries, found, owner, restricted, stored⟩
  · rw [missing]
    apply Meets.bind
    apply Meets.pure
    apply Meets.bind
    apply Meets.pure
    apply Meets.when
    · intro flagged
      cases flagged
    · intro _
      rw [← unchanged]
      exact onReturn _ (.inl ⟨by rw [unchanged]; exact missing, empty⟩)
  · have filled : root = area.fill status entries root := by
      rw [Area.fill, ← found, unchanged]
    have stopFilled : ∀ next : Folder (Node β), Stored next holds (Leftover env false) map →
        stops (area.fill status next root) :=
      fun next kept => onStop _ (Area.Stores.fill owner restricted kept)
    have listing : listNames env (.recover area.store) (area.get root) =
        .ok (env.listing (.recover area.store) entries.keys) := by
      rw [found]
      rfl
    rw [listing]
    apply Meets.bind
    apply Meets.pure
    apply Meets.bind
    have permuted := env.listing_perm (.recover area.store) entries.keys
    refine Meets.foldlM (fun done _ after => ∃ left, after = area.fill status left root ∧
      Recovered entries left done) ⟨entries, filled, by simp, by simp⟩ ?_ ?_
    · rintro done name rest flag _ split ⟨left, rfl, recovered⟩
      have listed : name ∈ entries := by
        rw [AList.mem_keys, ← permuted.mem_iff, split]
        simp
      have fresh : name ∉ done := by
        have distinct := permuted.nodup_iff.mpr entries.keys_nodup
        rw [split] at distinct
        exact fun member => List.disjoint_of_nodup_append distinct member (by simp)
      exact recoverEntry_meets steady stored digests recovered listed fresh
        (fun _ next advanced => ⟨next, rfl, advanced⟩) stopFilled
    · rintro flag _ ⟨left, rfl, recovered⟩
      have settledStore : Stored left holds (Leftover env true) map := by
        have kept := stored.recovered digests recovered
        refine ⟨kept.present, fun name node inside => ?_⟩
        rcases kept.accounted name node inside with known | ⟨_, transaction, _⟩
        · exact .inl known
        · have unlisted : name ∉ env.listing (.recover area.store) entries.keys := by
            intro member
            rw [recovered.gone name member transaction] at inside
            cases inside
          rw [recovered.kept name fun both => unlisted both.1] at inside
          rw [permuted.mem_iff, ← AList.mem_keys, ← AList.lookup_eq_none, inside] at unlisted
          cases unlisted
      have done : returns () (area.fill status left root) :=
        onReturn _ (Area.Stores.fill owner restricted settledStore)
      apply Meets.when
      · intro _
        exact steady.sync done (stopFilled left (stored.recovered digests recovered))
      · intro _
        exact done

end Directories

section Opening

variable {settled tidy : Bool} {root : Root} {contents : Contents}
  {returns : Unit → Root → Prop} {raises : CacheError → Root → Prop} {stops : Root → Prop}

/-- Recovery settles a cache and keeps its contents. -/
theorem recoverTransactions_meets (steady : Steady verdict)
    (holds : Holds env false tidy root contents)
    (onReturn : ∀ after, Holds env true tidy after contents → after.metadata = root.metadata →
      returns () after)
    (onStop : ∀ after, Holds env false tidy after contents → stops after) :
    (recoverTransactions env).Meets verdict root returns raises stops := by
  unfold recoverTransactions
  apply Meets.bind
  refine lock_meets steady holds.lockable (fun lock lockable => ?_)
    fun lock lockable => onStop _ (holds.set_lock lockable)
  have locked := holds.set_lock lockable
  apply Meets.bind
  refine recoverArea_meets steady locked.objects holds.valid.isDigest_object
    (fun path objects => ?_) fun path objects => ?_
  · have unsettled : Area.objects.Stores env (IsFile env true) false tidy
        (Area.objects.set path { root with lock := lock }) contents.objects := by
      rcases objects with missing | ⟨status, entries, found, owner, restricted, stored⟩
      · exact .inl missing
      · exact .inr ⟨status, entries, found, owner, restricted, stored.unsettle⟩
    have recovered := locked.set_objects holds.valid unsettled locked.artifacts
    refine recoverArea_meets steady recovered.artifacts holds.valid.isDigest_artifact
      (fun other artifacts => ?_) fun other artifacts => ?_
    · exact onReturn _ ⟨holds.valid, holds.directory, lockable, objects.of_get_eq rfl, artifacts⟩ rfl
    · exact onStop _ (recovered.set_artifacts holds.valid artifacts recovered.objects)
  · exact onStop _ (locked.set_objects holds.valid objects locked.artifacts)

/-- Only the root directory changed. -/
theorem Holds.set_metadata (holds : Holds env settled tidy root contents) {metadata : Metadata}
    (kind : metadata.kind = .directory) (owner : metadata.status.owner = env.user) :
    Holds env settled tidy { root with metadata := some metadata } contents :=
  ⟨holds.valid, by rintro _ ⟨⟩; exact ⟨kind, owner⟩, holds.lockable, holds.objects,
    holds.artifacts⟩

/-- An opened cache has a private root directory of the effective user. -/
def HasRoot (env : Environment) (root : Root) : Prop :=
  ∃ metadata, root.metadata = some metadata ∧ metadata.kind = .directory ∧
    metadata.status.Admissible env true

/-- Opening a cache settles it and keeps its contents. -/
theorem openCache_meets (steady : Steady verdict) (holds : Holds env false tidy root contents)
    (onReturn : ∀ after, Holds env true tidy after contents → HasRoot env after → returns () after)
    (onStop : ∀ after, Holds env false tidy after contents → stops after) :
    (openCache env).Meets verdict root returns raises stops := by
  unfold openCache
  apply Meets.bind
  apply Meets.read
  have present : (Program.when (root.metadata.isNone = true) (Program.step Step.createRoot
      (CacheError.io .other) (fun root : Root =>
        { root with metadata := some ⟨.directory, env.created 0o777, 0⟩ }))).Meets verdict root
      (fun _ after => Holds env false tidy after contents ∧ after.metadata.isSome) raises stops := by
    apply Meets.when
    · intro _
      exact steady.step ⟨holds.set_metadata rfl rfl, rfl⟩ fun _ _ => onStop _ holds
    · intro there
      exact ⟨holds, by simpa [← Option.isSome_iff_ne_none] using there⟩
  refine present.seq ?_
  rintro _ after ⟨holds, there⟩
  obtain ⟨metadata, found⟩ := Option.isSome_iff_exists.mp there
  obtain ⟨kind, owner⟩ := holds.directory metadata found
  apply Meets.bind
  apply Meets.read
  rw [found]
  apply Meets.bind
  apply requireOwnDirectory_meets kind owner
  apply Meets.bind
  apply Meets.read
  rw [found]
  apply Meets.bind
  refine setPrivatePermissions_meets steady kind owner (.inl rfl) ?_ fun _ _ => onStop _ holds
  rw [found, Option.map_some]
  have protectedRoot : Holds env false tidy
      { after with metadata := some { metadata with status.mode := 0o700 } } contents :=
    holds.set_metadata kind owner
  have restricted : ({ metadata.status with mode := 0o700 } : Status).Admissible env true :=
    ⟨Status.isPrivate_iff.mpr (show (0o700 : Nat) % 64 = 0 from rfl), fun _ => owner⟩
  apply Meets.bind
  apply Meets.read
  apply Meets.bind
  refine requirePrivateDirectory_meets kind restricted ?_
  exact recoverTransactions_meets steady protectedRoot
    (fun final settled same => onReturn final settled ⟨_, same, kind, restricted⟩) onStop

end Opening

end NixSeal.Cache
