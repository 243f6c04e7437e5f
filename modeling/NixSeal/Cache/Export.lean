import NixSeal.Cache.Collect
import NixSeal.Cache.Import

/-!
# Exporting a cache

No operation on an open cache touches the root directory itself.  An exported directory is
therefore a cache that can be imported, and importing it into an empty cache gives the exported
contents back.
-/

namespace NixSeal.Cache

open Faulty Faulty.Program

section Frames

variable {env : Environment} {β : Type}

theorem Area.metadata_change (area : Area β) (edit : Folder (Node β) → Folder (Node β))
    (root : Root) : (area.change edit root).metadata = root.metadata :=
  area.metadata_set _ root

theorem Area.metadata_changeEntry (area : Area β) (name : FileName) (edit : Node β → Node β)
    (root : Root) : (area.changeEntry name edit root).metadata = root.metadata :=
  area.metadata_change _ root

theorem keeps_sync (label : Step) : (sync label).Keeps Root.metadata :=
  Keeps.step fun _ => rfl

theorem keeps_setPrivatePermissions {label : Step} {directory : Bool} {metadata : Option Metadata}
    {change : Root → Root} (keeps : ∀ root, (change root).metadata = root.metadata) :
    (setPrivatePermissions env label directory metadata change).Keeps Root.metadata := by
  unfold setPrivatePermissions
  cases metadata with
  | none => exact Keeps.raise _
  | some metadata => exact Keeps.bind (Keeps.require _) fun _ => Keeps.step keeps

theorem keeps_requireOwnDirectory (metadata : Option Metadata) :
    (requireOwnDirectory env metadata).Keeps Root.metadata := by
  unfold requireOwnDirectory
  cases metadata with
  | none => exact Keeps.raise _
  | some metadata => exact Keeps.bind (Keeps.require _) fun _ => Keeps.lift _

theorem keeps_requirePrivateDirectory (metadata : Option Metadata) :
    (requirePrivateDirectory env metadata).Keeps Root.metadata := by
  unfold requirePrivateDirectory
  cases metadata with
  | none => exact Keeps.raise _
  | some metadata => exact Keeps.lift _

theorem keeps_ensurePrivateDirectory (area : Area β) :
    (ensurePrivateDirectory env area).Keeps Root.metadata := by
  unfold ensurePrivateDirectory
  refine Keeps.bind Keeps.read fun _ => ?_
  refine Keeps.bind (Keeps.when (Keeps.step (area.metadata_set _))) fun _ => ?_
  refine Keeps.bind Keeps.read fun _ => Keeps.bind (keeps_requireOwnDirectory _) fun _ => ?_
  refine Keeps.bind Keeps.read fun _ => ?_
  refine Keeps.bind (keeps_setPrivatePermissions fun root => area.metadata_set _ root) fun _ => ?_
  exact Keeps.bind Keeps.read fun _ => keeps_requirePrivateDirectory _

theorem keeps_lock : (lock env).Keeps Root.metadata := by
  unfold lock
  refine Keeps.bind Keeps.read fun _ => Keeps.bind (Keeps.when (Keeps.step fun _ => rfl)) fun _ => ?_
  refine Keeps.bind Keeps.read fun root => ?_
  split
  · exact Keeps.bind (Keeps.require _) fun _ => Keeps.step fun _ => rfl
  · exact Keeps.raise _
  · exact Keeps.raise _
  · exact Keeps.raise _
  · exact Keeps.raise _
  · exact Keeps.raise _

theorem keeps_removeDirAll (area : Area β) (name : FileName) (label : Option FileName → Step) :
    (removeDirAll env area name label).Keeps Root.metadata := by
  unfold removeDirAll
  refine Keeps.bind Keeps.read fun root => ?_
  split
  · exact Keeps.raise _
  · refine Keeps.bind (Keeps.foldlM fun _ _ => Keeps.step (area.metadata_changeEntry _ _)) fun _ => ?_
    exact Keeps.step (area.metadata_change _)
  · exact Keeps.raise _

theorem keeps_persistNoclobber (temporary destination : FileName) :
    (persistNoclobber env temporary destination).Keeps Root.metadata := by
  unfold persistNoclobber
  refine Keeps.bind Keeps.read fun _ => Keeps.bind (Keeps.require _) fun _ => ?_
  refine Keeps.bind Keeps.read fun root => ?_
  split
  · exact Keeps.raise _
  · split
    · exact Keeps.step (Area.objects.metadata_change _)
    · refine Keeps.bind (Keeps.step (Area.objects.metadata_change _)) fun _ => ?_
      refine Keeps.bind (Keeps.step (Area.objects.metadata_change _)).attempt fun _ => Keeps.pure _

theorem keeps_storeObject (destination : FileName) (bytes : Bytes) :
    (storeObject env destination bytes).Keeps Root.metadata := by
  unfold storeObject
  refine Keeps.bind Keeps.read fun _ => ?_
  refine Keeps.bind (Keeps.step (Area.objects.metadata_change _)) fun _ => ?_
  refine Keeps.bind (Keeps.onError ?_ (Keeps.step (Area.objects.metadata_change _)))
    fun _ => keeps_sync _
  refine Keeps.bind Keeps.read fun _ => ?_
  refine Keeps.bind (keeps_setPrivatePermissions (Area.objects.metadata_changeEntry _ _)) fun _ => ?_
  refine Keeps.bind (Keeps.write (fun _ => Area.objects.metadata_changeEntry _ _)
    (Area.objects.metadata_changeEntry _ _)) fun _ => ?_
  exact Keeps.bind (keeps_sync _) fun _ => keeps_persistNoclobber _ _

theorem keeps_putUnlocked (bytes : Bytes) : (putUnlocked env bytes).Keeps Root.metadata := by
  unfold putUnlocked
  refine Keeps.bind (Keeps.require _) fun _ => Keeps.bind (keeps_ensurePrivateDirectory _) fun _ => ?_
  refine Keeps.bind Keeps.read fun root => ?_
  split
  · exact Keeps.bind Keeps.read fun _ => Keeps.bind (Keeps.lift _) fun _ => Keeps.pure _
  · exact Keeps.bind (keeps_storeObject _ _) fun _ => Keeps.pure _
  · exact Keeps.raise _

theorem keeps_put (bytes : Bytes) : (put env bytes).Keeps Root.metadata :=
  Keeps.bind keeps_lock fun _ => keeps_putUnlocked bytes

theorem keeps_createPrivateFile (staged : FileName) (file : BundleFile) :
    (createPrivateFile env staged file).Keeps Root.metadata := by
  unfold createPrivateFile
  refine Keeps.bind Keeps.read fun root => ?_
  split
  · exact Keeps.raise _
  · refine Keeps.bind (Keeps.require _) fun _ => ?_
    refine Keeps.bind (Keeps.step (Area.artifacts.metadata_changeEntry _ _)) fun _ => ?_
    exact Keeps.step (Area.artifacts.metadata_changeEntry _ _)

theorem keeps_writeBundleFile (staged : FileName) (file : BundleFile) (bytes : Bytes) :
    (writeBundleFile staged file bytes).Keeps Root.metadata :=
  Keeps.write (fun _ => Area.artifacts.metadata_changeEntry _ _)
    (Area.artifacts.metadata_changeEntry _ _)

theorem keeps_renameNoreplace (staged destination : FileName) :
    (renameNoreplace staged destination).Keeps Root.metadata := by
  unfold renameNoreplace
  refine Keeps.bind Keeps.read fun root => ?_
  split
  · exact Keeps.raise _
  · refine Keeps.bind Keeps.read fun _ => Keeps.bind (Keeps.require _) fun _ => ?_
    exact Keeps.step (Area.artifacts.metadata_change _)

theorem keeps_stageBundle (staged destination : FileName) (ciphertext envelope : Bytes) :
    (stageBundle env staged destination ciphertext envelope).Keeps Root.metadata := by
  unfold stageBundle
  refine Keeps.bind Keeps.read fun _ => ?_
  refine Keeps.bind (keeps_setPrivatePermissions (Area.artifacts.metadata_changeEntry _ _))
    fun _ => ?_
  refine Keeps.bind (keeps_createPrivateFile _ _) fun _ => ?_
  refine Keeps.bind (keeps_writeBundleFile _ _ _) fun _ => Keeps.bind (Keeps.require _) fun _ => ?_
  refine Keeps.bind (keeps_sync _) fun _ => Keeps.bind (keeps_createPrivateFile _ _) fun _ => ?_
  refine Keeps.bind (keeps_writeBundleFile _ _ _) fun _ => Keeps.bind (keeps_sync _) fun _ => ?_
  exact Keeps.bind (keeps_sync _) fun _ => keeps_renameNoreplace _ _

theorem keeps_putArtifactByKeyUnlocked (key : String) (ciphertext envelope : Bytes) :
    (putArtifactByKeyUnlocked env key ciphertext envelope).Keeps Root.metadata := by
  unfold putArtifactByKeyUnlocked
  refine Keeps.bind (Keeps.require _) fun _ => Keeps.bind (Keeps.require _) fun _ => ?_
  refine Keeps.bind (keeps_ensurePrivateDirectory _) fun _ => ?_
  refine Keeps.bind Keeps.read fun _ => Keeps.bind (Keeps.require _) fun _ => ?_
  refine Keeps.bind Keeps.read fun _ => ?_
  refine Keeps.bind (Keeps.step (Area.artifacts.metadata_change _)) fun _ => ?_
  refine Keeps.bind (Keeps.onError (keeps_stageBundle _ _ _ _) (keeps_removeDirAll _ _ _))
    fun _ => ?_
  exact Keeps.bind (keeps_sync _) fun _ => Keeps.pure _

theorem keeps_putArtifactByKey (key : String) (ciphertext envelope : Bytes) :
    (putArtifactByKey env key ciphertext envelope).Keeps Root.metadata :=
  Keeps.bind keeps_lock fun _ => keeps_putArtifactByKeyUnlocked key ciphertext envelope

theorem keeps_copyObject (source : Cache) (locked : Bool) (report : CacheTransferReport)
    (name : FileName) : (copyObject env source locked report name).Keeps Root.metadata := by
  unfold copyObject
  refine Keeps.bind (Keeps.lift _) fun _ => Keeps.bind (Keeps.lift _) fun _ => ?_
  refine Keeps.bind (Keeps.lift _) fun _ => Keeps.bind (Keeps.lift _) fun _ => ?_
  refine Keeps.bind (Keeps.lift _) fun _ => Keeps.bind (Keeps.lift _) fun _ => ?_
  refine Keeps.bind (Keeps.require _) fun _ => Keeps.bind (Keeps.relabel ?_) fun _ => ?_
  · cases locked with
    | true => exact keeps_putUnlocked _
    | false => exact keeps_put _
  · exact Keeps.bind (Keeps.require _) fun _ => Keeps.pure _

theorem keeps_copyRecord (locked : Bool) (record : ArtifactRecord) (ciphertext : Bytes) :
    (copyRecord env locked record ciphertext).Keeps Root.metadata := by
  unfold copyRecord
  refine Keeps.bind (Keeps.attempt (Keeps.relabel ?_)) fun imported => ?_
  · cases locked with
    | true => exact keeps_putArtifactByKeyUnlocked _ _ _
    | false => exact keeps_putArtifactByKey _ _ _
  · unfold settleRecord
    split
    · exact Keeps.require _
    · exact Keeps.bind Keeps.read fun _ => Keeps.bind (Keeps.lift _) fun _ => Keeps.require _
    · exact Keeps.raise _

theorem keeps_copyArtifact (source : Cache) (locked : Bool) (report : CacheTransferReport)
    (key : String) : (copyArtifact env source locked report key).Keeps Root.metadata := by
  unfold copyArtifact
  refine Keeps.bind (Keeps.lift _) fun _ => Keeps.bind (Keeps.lift _) fun _ => ?_
  refine Keeps.bind (Keeps.lift _) fun _ => Keeps.bind (Keeps.lift _) fun _ => ?_
  refine Keeps.bind (Keeps.lift _) fun _ => Keeps.bind (Keeps.lift _) fun _ => ?_
  refine Keeps.bind (Keeps.lift _) fun _ => Keeps.bind (keeps_copyRecord _ _ _) fun _ => ?_
  exact Keeps.pure _

theorem keeps_copyIntoUnlockedWith (source : Cache) (locked : Bool) :
    (copyIntoUnlockedWith env source locked).Keeps Root.metadata := by
  unfold copyIntoUnlockedWith
  refine Keeps.bind (Keeps.lift _) fun _ => Keeps.bind (Keeps.lift _) fun _ => ?_
  refine Keeps.bind (Keeps.foldlM fun _ _ => keeps_copyObject _ _ _ _) fun _ => ?_
  exact Keeps.bind (Keeps.lift _) fun _ => Keeps.foldlM fun _ _ => keeps_copyArtifact _ _ _ _

theorem keeps_putArtifact (address : ArtifactAddress) (ciphertext envelope : Bytes) :
    (putArtifact env address ciphertext envelope).Keeps Root.metadata :=
  Keeps.bind (Keeps.lift _) fun _ => keeps_putArtifactByKey _ ciphertext envelope

theorem keeps_collectObject (request : GcRequest) (report : GcReport) (name : FileName) :
    (collectObject env request report name).Keeps Root.metadata := by
  unfold collectObject
  refine Keeps.bind (Keeps.lift _) fun _ => Keeps.bind Keeps.read fun _ => ?_
  refine Keeps.bind (Keeps.lift _) fun _ => Keeps.bind (Keeps.lift _) fun _ => ?_
  refine Keeps.bind (Keeps.require _) fun _ => ?_
  split
  · exact Keeps.bind (Keeps.lift _) fun _ => Keeps.pure _
  · refine Keeps.bind (Keeps.lift _) fun _ => Keeps.bind (Keeps.lift _) fun _ => ?_
    exact Keeps.bind (Keeps.when (Keeps.step (Area.objects.metadata_change _))) fun _ => Keeps.pure _

theorem keeps_removeArtifactBundle (key : String) :
    (removeArtifactBundle env key).Keeps Root.metadata := by
  unfold removeArtifactBundle
  refine Keeps.bind Keeps.read fun _ => Keeps.bind (Keeps.lift _) fun _ => ?_
  refine Keeps.bind (Keeps.lift _) fun _ => ?_
  refine Keeps.bind (Keeps.step (Area.artifacts.metadata_changeEntry _ _)) fun _ => ?_
  refine Keeps.bind (Keeps.step (Area.artifacts.metadata_changeEntry _ _)) fun _ => ?_
  exact Keeps.step (Area.artifacts.metadata_change _)

theorem keeps_collectArtifact (request : GcRequest) (report : GcReport) (name : FileName) :
    (collectArtifact env request report name).Keeps Root.metadata := by
  unfold collectArtifact
  refine Keeps.bind (Keeps.lift _) fun _ => Keeps.bind Keeps.read fun _ => ?_
  refine Keeps.bind (Keeps.lift _) fun _ => Keeps.bind (Keeps.lift _) fun _ => ?_
  refine Keeps.bind (Keeps.lift _) fun _ => ?_
  split
  · exact Keeps.bind (Keeps.lift _) fun _ => Keeps.pure _
  · refine Keeps.bind (Keeps.lift _) fun _ => Keeps.bind (Keeps.lift _) fun _ => ?_
    exact Keeps.bind (Keeps.when (keeps_removeArtifactBundle _)) fun _ => Keeps.pure _

theorem keeps_syncCollected {α : Type} (request : GcRequest) (store : Store)
    (path : Option (Node α)) : (syncCollected request store path).Keeps Root.metadata := by
  unfold syncCollected
  refine Keeps.bind (Keeps.lift _) fun entries => ?_
  cases entries with
  | none => exact Keeps.pure _
  | some entries => exact Keeps.when (keeps_sync _)

theorem keeps_garbageCollect (request : GcRequest) :
    (garbageCollect env request).Keeps Root.metadata := by
  unfold garbageCollect
  refine Keeps.bind (Keeps.require _) fun _ => Keeps.bind keeps_lock fun _ => ?_
  refine Keeps.bind Keeps.read fun _ => Keeps.bind (Keeps.lift _) fun _ => ?_
  refine Keeps.bind (Keeps.foldlM fun _ _ => keeps_collectObject _ _ _) fun _ => ?_
  refine Keeps.bind Keeps.read fun _ => Keeps.bind (keeps_syncCollected _ _ _) fun _ => ?_
  refine Keeps.bind Keeps.read fun _ => Keeps.bind (Keeps.lift _) fun _ => ?_
  refine Keeps.bind (Keeps.foldlM fun _ _ => keeps_collectArtifact _ _ _) fun _ => ?_
  refine Keeps.bind Keeps.read fun _ => Keeps.bind (keeps_syncCollected _ _ _) fun _ => ?_
  exact Keeps.pure _

theorem keeps_importFrom (source : Source) : (importFrom env source).Keeps Root.metadata := by
  unfold importFrom
  cases source with
  | itself =>
      exact Keeps.bind Keeps.read fun _ => Keeps.bind (Keeps.lift _) fun _ => Keeps.raise _
  | elsewhere root =>
      refine Keeps.bind (Keeps.lift _) fun _ => Keeps.bind Keeps.within fun _ => ?_
      refine Keeps.bind (Keeps.relabel keeps_lock) fun _ => Keeps.bind Keeps.read fun _ => ?_
      refine Keeps.bind (Keeps.lift _) fun _ => ?_
      refine Keeps.bind (Keeps.relabel (keeps_copyIntoUnlockedWith _ _)) fun _ => ?_
      exact Keeps.pure _

theorem keeps_exportTo (destination : Root) : (exportTo env destination).Keeps Root.metadata := by
  unfold exportTo
  refine Keeps.bind (Keeps.require _) fun _ => Keeps.bind Keeps.within fun _ => ?_
  refine Keeps.bind (Keeps.relabel keeps_lock) fun _ => Keeps.bind Keeps.read fun _ => ?_
  refine Keeps.bind Keeps.within fun _ => Keeps.bind (Keeps.step fun _ => rfl) fun _ => ?_
  exact Keeps.pure _

end Frames

section Exporting

variable {env : Environment} {verdict : ExportStep → Verdict} {tidy : Bool}
  {root : Root} {contents : Contents}

theorem HasRoot.of_metadata_eq {other : Root} (opened : HasRoot env root)
    (same : other.metadata = root.metadata) : HasRoot env other := by
  unfold HasRoot
  rw [same]
  exact opened

theorem compatible_empty (added : Contents) : Compatible env ⟨∅, ∅⟩ added := by
  intro key left right known
  simp at known

theorem stageExport_meets (steady : Steady verdict)
    (spared : SparedCopy env (verdict ∘ ExportStep.copy)) {source : Cache} {staged : Root}
    (shows : Shows env source true contents) (limits : contents.WithinLimits)
    (holds : Holds env true true staged ⟨∅, ∅⟩) (opened : HasRoot env staged) :
    (stageExport env source).Meets verdict staged
      (fun report after => report = contents.report ∧ Holds env true true after contents ∧
        HasRoot env after) (fun _ _ => False) fun _ => True := by
  unfold stageExport
  apply Meets.bind
  apply Meets.relabel
  refine ((copyIntoUnlockedWith_meets (steady.comp _) spared shows limits (compatible_empty contents)
    false holds).keeping (keeps_copyIntoUnlockedWith source false)).mono ?_
      (fun _ _ impossible => impossible.1.elim) fun _ _ => trivial
  rintro report copied ⟨⟨rfl, digests, keys, merged, digests_perm, keys_perm, merge, held⟩, place⟩
  apply Meets.bind
  refine steady.step ?_ fun _ _ => trivial
  refine Meets.pure ⟨rfl, ?_, opened.of_metadata_eq place⟩
  have whole : Holds env true true copied contents :=
    (merge.merge digests_perm keys_perm held).of_same ⟨fun digest => by simp, fun key => by simp⟩
  exact whole.set_lock (.inl rfl)

/-- An export within the limits publishes the contents of the cache, unless something is there. -/
theorem exportTo_meets (steady : Steady verdict) (holds : Holds env true tidy root contents)
    (limits : contents.WithinLimits) (destination : Root) :
    (exportTo env destination).Meets verdict root
      (fun result after => destination.metadata = none ∧ result.1 = contents.report ∧
        Holds env true true result.2 contents ∧ HasRoot env result.2 ∧
          Holds env true tidy after contents)
      (fun error after => destination.metadata ≠ none ∧ error = .destinationExists ∧ after = root)
      fun _ => True := by
  refine Meets.spare ?_ fun _ => trivial
  have steady := steady_spare steady
  have spared : SparedCopy env (spare verdict ∘ ExportStep.copy) :=
    sparedCopy_of_never env fun _ => spare_ne_kill verdict _
  unfold exportTo
  apply Meets.bind
  refine Meets.require (fun free => ?_) fun taken => ⟨?_, rfl, rfl⟩
  · have missing : destination.metadata = none := Option.isNone_iff_eq_none.mp free
    have opening : (relabel ExportStep.openStaging (openCache env)).Meets (spare verdict)
        Root.missing (fun _ after => Holds env true true after ⟨∅, ∅⟩ ∧ HasRoot env after)
        (fun _ _ => False) fun _ => True :=
      Meets.relabel (openCache_meets (steady.comp _) (holds_missing env false true)
        (fun after held opened => ⟨held, opened⟩) fun _ _ => trivial)
    apply Meets.bind
    refine Meets.within opening ?_ (fun _ _ impossible => impossible.elim) trivial
    rintro _ staged ⟨empty, opened⟩
    apply Meets.bind
    apply Meets.relabel
    refine holds.lock_meets (steady.comp _) (fun locked held _ _ => ?_) fun _ _ => trivial
    apply Meets.bind
    apply Meets.read
    apply Meets.bind
    refine Meets.within (stageExport_meets steady spared held.shows limits empty opened) ?_
      (fun _ _ impossible => impossible.elim) trivial
    rintro report exported ⟨rfl, whole, place⟩
    apply Meets.bind
    refine steady.step ?_ fun _ _ => trivial
    exact Meets.pure ⟨missing, rfl, whole, place, held⟩
  · intro missing
    rw [missing] at taken
    exact taken rfl

end Exporting

end NixSeal.Cache
