import NixSeal.Cache.Inventory

/-!
# Inventories and limits

The loops over a whole cache.  On a settled cache they succeed within their limits with the exact
counts and sums of the contents; a loop that succeeds on arbitrary files has checked every entry.
-/

namespace NixSeal.Cache

open Fallible Ordered

variable {env : Environment} {cache : Cache} {contents : Contents}

theorem Shows.listObjects (shows : Shows env cache true contents) (scan : Scan) :
    ∃ digests : List String, listNames env scan cache.root.objects = .ok (digests.map .text) ∧
      digests.Perm contents.objects.keys := by
  obtain ⟨folder, opens, holds⟩ := shows.objects
  exact holds.list opens scan

theorem Shows.listArtifacts (shows : Shows env cache true contents) (scan : Scan) :
    ∃ keys : List String, listNames env scan cache.root.artifacts = .ok (keys.map .text) ∧
      keys.Perm contents.artifacts.keys := by
  obtain ⟨folder, opens, holds⟩ := shows.artifacts
  exact holds.list opens scan

theorem exists_value {γ : Type} {map : Std.TreeMap String γ compare} {keys done rest : List String}
    {key : String} (listed : keys.Perm map.keys) (split : keys = done ++ key :: rest) :
    ∃ value, map[key]? = some value := by
  have member : key ∈ map := by
    rw [← Std.TreeMap.mem_keys, ← listed.mem_iff, split]
    simp
  exact Option.isSome_iff_exists.mp (Std.TreeMap.mem_iff_isSome_getElem?.mp member)

/-- A partial sum over a listing stays within the total. -/
theorem partial_le_total {γ : Type} {map : Std.TreeMap String γ compare} (weight : γ → Nat)
    {keys done rest : List String} {key : String} {value : γ} (listed : keys.Perm map.keys)
    (split : keys = done ++ key :: rest) (found : map[key]? = some value) :
    (done.map (weigh map weight)).sum + weight value ≤ total map weight := by
  have whole : (keys.map (weigh map weight)).sum = total map weight := sum_weigh listed
  rw [split] at whole
  simp only [List.map_append, List.map_cons, List.sum_append, List.sum_cons,
    weigh_of_getElem? found] at whole
  omega

theorem length_lt_size {γ : Type} {map : Std.TreeMap String γ compare}
    {keys done rest : List String} {key : String} (listed : keys.Perm map.keys)
    (split : keys = done ++ key :: rest) : done.length + 1 ≤ map.size := by
  have whole := length_of_perm_keys listed
  rw [split] at whole
  simp only [List.length_append, List.length_cons] at whole
  omega

theorem inventoryObject_eq (shows : Shows env cache true contents) {digest : String}
    {bytes : Bytes} (stored : contents.objects[digest]? = some bytes) {inventory : CacheInventory}
    (count : inventory.objectCount + 1 < 2 ^ 64)
    (sum : inventory.objectBytes + bytes.length < 2 ^ 64) :
    cache.inventoryObject env inventory (.text digest) = .ok { inventory with
      objectCount := inventory.objectCount + 1
      objectBytes := inventory.objectBytes + bytes.length } := by
  obtain ⟨found, small, hashed⟩ := shows.hasObject stored
  have named : digestName (.text digest) = .ok digest :=
    digestName_eq_ok_iff.mpr ⟨rfl, hashed ▸ env.isDigest_digest bytes⟩
  simp only [inventoryObject]
  rw [named, ok_bind, openPrivateRegular_eq_ok_iff.mpr found, ok_bind,
    readBounded_eq_ok_iff.mpr ⟨rfl, small⟩, ok_bind, if_neg (not_not.mpr hashed),
    checkedAdd_eq_ok_iff.mpr ⟨rfl, count⟩, ok_bind, checkedAdd_eq_ok_iff.mpr ⟨rfl, sum⟩, ok_bind]
  rfl

theorem inventoryArtifact_eq (shows : Shows env cache true contents) {key : String}
    {bundle : Bundle} (stored : contents.artifacts[key]? = some bundle)
    {inventory : CacheInventory} (count : inventory.artifactCount + 1 < 2 ^ 64)
    (ciphertexts : inventory.artifactCiphertextBytes + bundle.ciphertext.length < 2 ^ 64)
    (envelopes : inventory.artifactEnvelopeBytes + bundle.envelope.length < 2 ^ 64) :
    cache.inventoryArtifact env inventory (.text key) = .ok { inventory with
      artifactCount := inventory.artifactCount + 1
      artifactCiphertextBytes := inventory.artifactCiphertextBytes + bundle.ciphertext.length
      artifactEnvelopeBytes := inventory.artifactEnvelopeBytes + bundle.envelope.length } := by
  obtain ⟨digest, ⟨node, found, holds⟩, _⟩ := shows.hasBundle stored
  obtain ⟨⟨file, inside, isFile⟩, _⟩ := bundleFile_of_isBundle found holds
  have named : digestName (.text key) = .ok key := digestName_eq_ok_iff.mpr ⟨rfl, digest⟩
  simp only [inventoryArtifact]
  rw [named, ok_bind, shows.loadArtifactByKey_eq stored, ok_bind,
    checkedAdd_eq_ok_iff.mpr ⟨rfl, count⟩, ok_bind,
    fileLength_eq_ok_iff.mpr ⟨file, _, inside, isFile, rfl⟩, ok_bind,
    checkedAdd_eq_ok_iff.mpr ⟨rfl, ciphertexts⟩, ok_bind, Contents.record_envelope,
    checkedAdd_eq_ok_iff.mpr ⟨rfl, envelopes⟩, ok_bind]
  rfl

/-- The inventory of some of the objects and bundles. -/
def Contents.tally (contents : Contents) (digests keys : List String) : CacheInventory where
  objectCount := digests.length
  objectBytes := (digests.map (weigh contents.objects List.length)).sum
  artifactCount := keys.length
  artifactCiphertextBytes :=
    (keys.map (weigh contents.artifacts fun bundle => bundle.ciphertext.length)).sum
  artifactEnvelopeBytes :=
    (keys.map (weigh contents.artifacts fun bundle => bundle.envelope.length)).sum

theorem Contents.tally_all {digests keys : List String}
    (digests_perm : digests.Perm contents.objects.keys)
    (keys_perm : keys.Perm contents.artifacts.keys) :
    contents.tally digests keys = contents.inventory := by
  unfold Contents.tally
  rw [sum_weigh digests_perm, sum_weigh keys_perm, sum_weigh keys_perm,
    length_of_perm_keys digests_perm, length_of_perm_keys keys_perm]
  rfl

theorem inventoryObjects_eq (shows : Shows env cache true contents) (fits : contents.Countable)
    {digests : List String} (listed : digests.Perm contents.objects.keys) :
    (digests.map FileName.text).foldlM (cache.inventoryObject env) {} =
      .ok (contents.tally digests []) := by
  rw [List.foldlM_map]
  obtain ⟨final, folded, rfl⟩ : ∃ final,
      digests.foldlM (fun inventory digest => cache.inventoryObject env inventory (.text digest))
        {} = .ok final ∧ final = contents.tally digests [] := by
    refine foldlM_split (fun done inventory => inventory = contents.tally done []) rfl ?_
    rintro done digest rest _ split rfl
    obtain ⟨bytes, stored⟩ := exists_value listed split
    have sum := partial_le_total List.length listed split stored
    refine ⟨_, inventoryObject_eq shows stored ?_ ?_, ?_⟩
    · exact Nat.lt_of_le_of_lt (length_lt_size listed split) fits.objectCount
    · exact Nat.lt_of_le_of_lt sum fits.objectBytes
    · simp [Contents.tally, weigh_of_getElem? stored]
  exact folded

theorem inventoryArtifacts_eq (shows : Shows env cache true contents) (fits : contents.Countable)
    (digests : List String) {keys : List String} (listed : keys.Perm contents.artifacts.keys) :
    (keys.map FileName.text).foldlM (cache.inventoryArtifact env) (contents.tally digests []) =
      .ok (contents.tally digests keys) := by
  rw [List.foldlM_map]
  obtain ⟨final, folded, rfl⟩ : ∃ final,
      keys.foldlM (fun inventory key => cache.inventoryArtifact env inventory (.text key))
        (contents.tally digests []) = .ok final ∧ final = contents.tally digests keys := by
    refine foldlM_split (fun done inventory => inventory = contents.tally digests done) rfl ?_
    rintro done key rest _ split rfl
    obtain ⟨bundle, stored⟩ := exists_value listed split
    have ciphertexts :=
      partial_le_total (fun bundle => bundle.ciphertext.length) listed split stored
    have envelopes := partial_le_total (fun bundle => bundle.envelope.length) listed split stored
    refine ⟨_, inventoryArtifact_eq shows stored ?_ ?_ ?_, ?_⟩
    · exact Nat.lt_of_le_of_lt (length_lt_size listed split) fits.artifactCount
    · exact Nat.lt_of_le_of_lt ciphertexts fits.ciphertextBytes
    · exact Nat.lt_of_le_of_lt envelopes fits.envelopeBytes
    · simp [Contents.tally, weigh_of_getElem? stored]
  exact folded

/-- The inventory of a settled cache has the exact counts and sums. -/
theorem Shows.inventory_eq (shows : Shows env cache true contents) (fits : contents.Countable) :
    cache.inventory env = .ok contents.inventory := by
  obtain ⟨digests, listed, digests_perm⟩ := shows.listObjects .inventoryObjects
  obtain ⟨keys, listed', keys_perm⟩ := shows.listArtifacts .inventoryArtifacts
  unfold inventory
  rw [listed, ok_bind, inventoryObjects_eq shows fits digests_perm, ok_bind, listed', ok_bind,
    inventoryArtifacts_eq shows fits digests keys_perm, Contents.tally_all digests_perm keys_perm]

/-- Collecting keys that are distinct digests within the limit. -/
theorem addArtifactKeys_eq {keys : List String} (digests : ∀ key ∈ keys, isDigest key = true)
    (distinct : keys.Nodup) (few : keys.length ≤ maxTransferEntries) :
    ∃ found, (keys.map FileName.text).foldlM addArtifactKey ∅ = .ok found ∧
      (∀ key, key ∈ found ↔ key ∈ keys) := by
  rw [List.foldlM_map]
  obtain ⟨found, folded, members, _⟩ : ∃ found : Std.TreeSet String compare,
      keys.foldlM (fun found key => addArtifactKey found (.text key)) ∅ = .ok found ∧
        (∀ key, key ∈ found ↔ key ∈ keys) ∧ found.size = keys.length := by
    refine foldlM_split (fun done (found : Std.TreeSet String compare) =>
      (∀ key, key ∈ found ↔ key ∈ done) ∧ found.size = done.length) (by simp) ?_
    rintro done key rest found split ⟨members, size⟩
    have fresh : key ∉ found := by
      rw [members]
      rw [split] at distinct
      exact fun member => List.disjoint_of_nodup_append distinct member (by simp)
    have named : digestName (.text key) = .ok key :=
      digestName_eq_ok_iff.mpr ⟨rfl, digests key (by simp [split])⟩
    have grown : (found.insert key).size = done.length + 1 := by
      rw [Std.TreeSet.size_insert, if_neg (by rwa [Std.TreeSet.contains_iff_mem]), size]
    have bound : done.length + 1 ≤ maxTransferEntries := by
      rw [split] at few
      simp only [List.length_append, List.length_cons] at few
      omega
    refine ⟨found.insert key, ?_, fun other => ?_, by simpa using grown⟩
    · rw [addArtifactKey, named, ok_bind, if_neg fresh, if_neg (by omega)]
    · rw [Std.TreeSet.mem_insert, Std.LawfulEqCmp.compare_eq_iff_eq, members]
      simp [or_comm, eq_comm]
  exact ⟨found, folded, members⟩

theorem Shows.artifactKeys_eq (shows : Shows env cache true contents)
    (few : contents.artifacts.size ≤ maxTransferEntries) (scan : Scan) :
    ∃ keys, cache.artifactKeys env scan = .ok keys ∧ keys.toList = contents.artifacts.keys := by
  obtain ⟨listing, listed, permuted⟩ := shows.listArtifacts scan
  have digests : ∀ key ∈ listing, isDigest key = true := by
    intro key member
    have inside := Std.TreeMap.mem_keys.mp (permuted.mem_iff.mp member)
    obtain ⟨bundle, stored⟩ :=
      Option.isSome_iff_exists.mp (Std.TreeMap.mem_iff_isSome_getElem?.mp inside)
    exact (shows.valid.artifact key bundle stored).1
  obtain ⟨found, folded, members⟩ := addArtifactKeys_eq digests
    (permuted.nodup_iff.mpr Std.TreeMap.nodup_keys) (by rwa [length_of_perm_keys permuted])
  refine ⟨found, ?_, ?_⟩
  · rw [artifactKeys, listed, ok_bind, folded]
  · refine toList_eq_keys fun key => ?_
    rw [members, permuted.mem_iff, Std.TreeMap.mem_keys]

theorem addArtifactKeys_eq_ok {names : List FileName} {found : Std.TreeSet String compare}
    (collected : names.foldlM addArtifactKey ∅ = .ok found) :
    (∀ name ∈ names, ∃ key, name = .text key ∧ isDigest key = true) ∧
      (∀ key, key ∈ found ↔ FileName.text key ∈ names) ∧ found.size ≤ maxTransferEntries ∧
        found.size = names.length := by
  refine foldlM_eq_ok_induction collected
    (fun done (found : Std.TreeSet String compare) =>
      (∀ name ∈ done, ∃ key, name = .text key ∧ isDigest key = true) ∧
        (∀ key, key ∈ found ↔ FileName.text key ∈ done) ∧ found.size ≤ maxTransferEntries ∧
          found.size = done.length) (by simp) ?_
  rintro done name found next _ stepped ⟨digests, members, bound, size⟩
  unfold addArtifactKey at stepped
  obtain ⟨key, named, rest⟩ := bind_eq_ok.mp stepped
  obtain ⟨fresh, rest⟩ := guard_eq_ok.mp rest
  obtain ⟨small, same⟩ := guard_eq_ok.mp rest
  obtain ⟨rfl, digest⟩ := digestName_eq_ok_iff.mp named
  cases same
  refine ⟨fun name member => ?_, fun other => ?_, by omega, ?_⟩
  · rcases List.mem_append.mp member with earlier | last
    · exact digests name earlier
    · exact ⟨key, List.mem_singleton.mp last, digest⟩
  · rw [Std.TreeSet.mem_insert, Std.LawfulEqCmp.compare_eq_iff_eq, members]
    simp [or_comm, eq_comm]
  · rw [Std.TreeSet.size_insert, if_neg (by rwa [Std.TreeSet.contains_iff_mem]), size]
    simp

/-- Collecting the keys of a settled cache succeeds within the entry limit only. -/
theorem Shows.artifacts_few (shows : Shows env cache true contents) {scan : Scan}
    {keys : Std.TreeSet String compare} (collected : cache.artifactKeys env scan = .ok keys) :
    contents.artifacts.size ≤ maxTransferEntries := by
  obtain ⟨listing, listed, permuted⟩ := shows.listArtifacts scan
  rw [artifactKeys, listed, ok_bind] at collected
  obtain ⟨_, _, bound, size⟩ := addArtifactKeys_eq_ok collected
  rw [List.length_map, length_of_perm_keys permuted] at size
  omega

theorem map_record_eq_records {keys : List String} (listed : keys = contents.artifacts.keys) :
    keys.filterMap (fun key => contents.artifacts[key]?.map (Contents.record env key)) =
      contents.records env := by
  rw [listed, ← Std.TreeMap.map_fst_toList_eq_keys, List.filterMap_map, Contents.records,
    ← List.filterMap_eq_map]
  refine List.filterMap_congr fun entry member => ?_
  simp [Std.TreeMap.mem_toList_iff_getElem?_eq_some.mp member]

theorem addRecord_eq (shows : Shows env cache true contents) {key : String} {bundle : Bundle}
    (stored : contents.artifacts[key]? = some bundle) {collected : List ArtifactRecord × Nat}
    (bound : collected.2 + bundle.envelope.length ≤ maxInventoryEnvelopeBytes) :
    cache.addRecord env collected key =
      .ok (collected.1 ++ [Contents.record env key bundle],
        collected.2 + bundle.envelope.length) := by
  have small : maxInventoryEnvelopeBytes < 2 ^ 64 := by decide
  simp only [addRecord]
  rw [shows.loadArtifactByKey_eq stored, ok_bind, Contents.record_envelope,
    checkedAdd_eq_ok_iff.mpr ⟨rfl, by omega⟩, ok_bind, if_neg (by omega)]
  rfl

/-- The records of a settled cache within the limits of an inventory. -/
theorem Shows.artifactRecords_eq (shows : Shows env cache true contents)
    (few : contents.artifacts.size ≤ maxTransferEntries)
    (envelopes : contents.envelopeBytes ≤ maxInventoryEnvelopeBytes) :
    cache.artifactRecords env = .ok (contents.records env) := by
  obtain ⟨keys, collected, ordered⟩ := shows.artifactKeys_eq few .recordKeys
  have listed : keys.toList.Perm contents.artifacts.keys := by rw [ordered]
  obtain ⟨final, folded, same, _⟩ : ∃ final,
      keys.toList.foldlM (cache.addRecord env) ([], 0) = .ok final ∧
        final.1 = keys.toList.filterMap (fun key =>
          contents.artifacts[key]?.map (Contents.record env key)) ∧
          final.2 = (keys.toList.map
            (weigh contents.artifacts fun bundle => bundle.envelope.length)).sum := by
    refine foldlM_split (fun done (collected : List ArtifactRecord × Nat) =>
      collected.1 = done.filterMap (fun key =>
        contents.artifacts[key]?.map (Contents.record env key)) ∧ collected.2 = (done.map
          (weigh contents.artifacts fun bundle => bundle.envelope.length)).sum) (by simp) ?_
    rintro done key rest ⟨records, sum⟩ split ⟨rfl, rfl⟩
    obtain ⟨bundle, stored⟩ := exists_value listed split
    have bound := partial_le_total (fun bundle => bundle.envelope.length) listed split stored
    refine ⟨_, addRecord_eq shows stored (bound.trans envelopes), ?_, ?_⟩
    · simp [stored]
    · simp [weigh_of_getElem? stored]
  rw [artifactRecords, collected, ok_bind, folded, ok_bind, same, map_record_eq_records ordered]
  rfl

theorem limitObject_eq_ok_iff (shows : Shows env cache true contents) {digest : String}
    {bytes : Bytes} (stored : contents.objects[digest]? = some bytes) {totals next : Nat × Nat} :
    cache.limitObject env totals (.text digest) = .ok next ↔
      next = (totals.1 + 1, totals.2 + bytes.length) ∧ next.1 ≤ maxTransferEntries ∧
        next.2 ≤ maxTransferBytes := by
  obtain ⟨⟨node, found, isFile⟩, small, hashed⟩ := shows.hasObject stored
  have named : digestName (.text digest) = .ok digest :=
    digestName_eq_ok_iff.mpr ⟨rfl, hashed ▸ env.isDigest_digest bytes⟩
  have length : cache.fileLength env (cache.objectFile digest) = .ok bytes.length :=
    fileLength_eq_ok_iff.mpr ⟨node, bytes, found, isFile, rfl⟩
  have few : maxTransferEntries < 2 ^ 64 := by decide
  simp only [limitObject]
  rw [named, ok_bind, length]
  simp only [ok_bind]
  rw [bind_eq_ok]
  constructor
  · rintro ⟨count, counted, rest⟩
    obtain ⟨_, limited, rest⟩ := bind_eq_ok.mp rest
    obtain ⟨sum, summed, same⟩ := bind_eq_ok.mp (guard_eq_ok.mp rest).2
    cases same
    obtain ⟨rfl, _⟩ := checkedAdd_eq_ok_iff.mp counted
    obtain ⟨rfl, fits⟩ := checkedTransferBytes_eq_ok_iff.mp summed
    exact ⟨rfl, enforceTransferEntryLimit_eq_ok_iff.mp limited, fits⟩
  · rintro ⟨rfl, limited, fits⟩
    refine ⟨totals.1 + 1, checkedAdd_eq_ok_iff.mpr ⟨rfl, by simp only at limited; omega⟩, ?_⟩
    have counted : enforceTransferEntryLimit (totals.1 + 1) 0 = .ok () :=
      enforceTransferEntryLimit_eq_ok_iff.mpr limited
    rw [counted, ok_bind, if_neg (by omega), checkedTransferBytes_eq_ok_iff.mpr ⟨rfl, fits⟩, ok_bind]
    rfl

theorem limitArtifact_eq_ok_iff (shows : Shows env cache true contents) {key : String}
    {bundle : Bundle} (stored : contents.artifacts[key]? = some bundle) {objectCount : Nat}
    {totals next : LimitTotals} :
    cache.limitArtifact env objectCount totals key = .ok next ↔
      next = ⟨totals.artifactCount + 1,
        totals.bytes + bundle.ciphertext.length + bundle.envelope.length,
        totals.envelopeBytes + bundle.envelope.length⟩ ∧
        objectCount + next.artifactCount ≤ maxTransferEntries ∧
          next.bytes ≤ maxTransferBytes ∧ next.envelopeBytes ≤ maxInventoryEnvelopeBytes := by
  have laidOut := artifactLayout_eq_ok_iff.mpr ⟨bundle, shows.hasBundle stored, rfl⟩
  have few : maxTransferEntries < 2 ^ 64 := by decide
  have small : maxInventoryEnvelopeBytes < 2 ^ 64 := by decide
  simp only [limitArtifact]
  rw [laidOut]
  simp only [ok_bind]
  rw [bind_eq_ok]
  constructor
  · rintro ⟨count, counted, rest⟩
    obtain ⟨_, limited, rest⟩ := bind_eq_ok.mp rest
    obtain ⟨first, summed, rest⟩ := bind_eq_ok.mp rest
    obtain ⟨second, summed', rest⟩ := bind_eq_ok.mp rest
    obtain ⟨envelopes, added, rest⟩ := bind_eq_ok.mp rest
    obtain ⟨bounded, same⟩ := guard_eq_ok.mp rest
    cases same
    obtain ⟨rfl, _⟩ := checkedAdd_eq_ok_iff.mp counted
    obtain ⟨rfl, _⟩ := checkedTransferBytes_eq_ok_iff.mp summed
    obtain ⟨rfl, fits⟩ := checkedTransferBytes_eq_ok_iff.mp summed'
    obtain ⟨rfl, _⟩ := checkedAdd_eq_ok_iff.mp added
    exact ⟨rfl, enforceTransferEntryLimit_eq_ok_iff.mp limited, fits, Nat.le_of_not_lt bounded⟩
  · rintro ⟨rfl, limited, fits, bounded⟩
    simp only at limited fits bounded
    refine ⟨totals.artifactCount + 1, checkedAdd_eq_ok_iff.mpr ⟨rfl, by omega⟩, ?_⟩
    rw [enforceTransferEntryLimit_eq_ok_iff.mpr limited, ok_bind,
      checkedTransferBytes_eq_ok_iff.mpr ⟨rfl, by omega⟩, ok_bind,
      checkedTransferBytes_eq_ok_iff.mpr ⟨rfl, by omega⟩, ok_bind,
      checkedAdd_eq_ok_iff.mpr ⟨rfl, by omega⟩, ok_bind, if_neg (by omega)]
    rfl

/-- The totals of some of the objects. -/
def Contents.objectTotals (contents : Contents) (digests : List String) : Nat × Nat :=
  (digests.length, (digests.map (weigh contents.objects List.length)).sum)

/-- The totals of all objects and some of the bundles. -/
def Contents.limitTotals (contents : Contents) (start : Nat) (keys : List String) : LimitTotals where
  artifactCount := keys.length
  bytes := start +
    (keys.map (weigh contents.artifacts fun bundle => bundle.ciphertext.length)).sum +
      (keys.map (weigh contents.artifacts fun bundle => bundle.envelope.length)).sum
  envelopeBytes := (keys.map (weigh contents.artifacts fun bundle => bundle.envelope.length)).sum

theorem Contents.limitTotals_snoc {key : String} {bundle : Bundle}
    (stored : contents.artifacts[key]? = some bundle) {start : Nat} {done : List String} :
    contents.limitTotals start (done ++ [key]) =
      ⟨(contents.limitTotals start done).artifactCount + 1,
        (contents.limitTotals start done).bytes + bundle.ciphertext.length +
          bundle.envelope.length,
        (contents.limitTotals start done).envelopeBytes + bundle.envelope.length⟩ := by
  simp only [Contents.limitTotals, List.map_append, List.sum_append, List.length_append,
    List.map_cons, List.map_nil, List.sum_cons, List.sum_nil, List.length_cons, List.length_nil,
    weigh_of_getElem? stored, LimitTotals.mk.injEq, Nat.add_zero, true_and, and_true, Nat.zero_add]
  omega

theorem limitObjects_eq (shows : Shows env cache true contents) (limits : contents.WithinLimits)
    {digests : List String} (listed : digests.Perm contents.objects.keys) :
    (digests.map FileName.text).foldlM (cache.limitObject env) (0, 0) =
      .ok (contents.objectTotals digests) := by
  rw [List.foldlM_map]
  obtain ⟨final, folded, rfl⟩ : ∃ final,
      digests.foldlM (fun totals digest => cache.limitObject env totals (.text digest)) (0, 0) =
        .ok final ∧ final = contents.objectTotals digests := by
    refine foldlM_split (fun done totals => totals = contents.objectTotals done) rfl ?_
    rintro done digest rest _ split rfl
    obtain ⟨bytes, stored⟩ := exists_value listed split
    have count := length_lt_size listed split
    have sum := partial_le_total List.length listed split stored
    have entries := limits.entries
    have bytes_le := limits.bytes
    unfold Contents.objectBytes at bytes_le
    refine ⟨_, (limitObject_eq_ok_iff shows stored).mpr ⟨rfl, ?_, ?_⟩, ?_⟩
    · simp only [Contents.objectTotals]
      omega
    · simp only [Contents.objectTotals]
      omega
    · simp [Contents.objectTotals, weigh_of_getElem? stored]
  exact folded

theorem limitArtifacts_eq (shows : Shows env cache true contents) (limits : contents.WithinLimits)
    {keys : List String} (listed : keys.Perm contents.artifacts.keys) :
    keys.foldlM (cache.limitArtifact env contents.objects.size) ⟨0, contents.objectBytes, 0⟩ =
      .ok (contents.limitTotals contents.objectBytes keys) := by
  obtain ⟨final, folded, rfl⟩ : ∃ final,
      keys.foldlM (cache.limitArtifact env contents.objects.size) ⟨0, contents.objectBytes, 0⟩ =
        .ok final ∧ final = contents.limitTotals contents.objectBytes keys := by
    refine foldlM_split
      (fun done totals => totals = contents.limitTotals contents.objectBytes done) rfl ?_
    rintro done key rest _ split rfl
    obtain ⟨bundle, stored⟩ := exists_value listed split
    have count := length_lt_size listed split
    have ciphertexts :=
      partial_le_total (fun bundle => bundle.ciphertext.length) listed split stored
    have envelopes := partial_le_total (fun bundle => bundle.envelope.length) listed split stored
    obtain ⟨entries, bytes, envelopeLimit⟩ := limits
    unfold Contents.ciphertextBytes Contents.envelopeBytes at bytes
    unfold Contents.envelopeBytes at envelopeLimit
    refine ⟨_, (limitArtifact_eq_ok_iff shows stored).mpr ⟨rfl, ?_, ?_, ?_⟩, ?_⟩
    · simp only [Contents.limitTotals]
      omega
    · simp only [Contents.limitTotals]
      omega
    · simp only [Contents.limitTotals]
      omega
    · exact (Contents.limitTotals_snoc stored).symm
  exact folded

/-- The limits of an exchange are checked exactly. -/
theorem Shows.preflightTransferLimits_iff (shows : Shows env cache true contents) :
    cache.preflightTransferLimits env = .ok () ↔ contents.WithinLimits := by
  obtain ⟨digests, listed, digests_perm⟩ := shows.listObjects .limitObjects
  have counted : digests.length = contents.objects.size := length_of_perm_keys digests_perm
  have summed : (digests.map (weigh contents.objects List.length)).sum = contents.objectBytes :=
    sum_weigh digests_perm
  unfold preflightTransferLimits
  rw [listed, ok_bind]
  constructor
  · intro passed
    obtain ⟨totals, folded, rest⟩ := bind_eq_ok.mp passed
    obtain ⟨keys, collected, rest⟩ := bind_eq_ok.mp rest
    obtain ⟨final, folded', _⟩ := bind_eq_ok.mp rest
    obtain ⟨found, collected', ordered⟩ :=
      shows.artifactKeys_eq (shows.artifacts_few collected) .limitKeys
    rw [collected] at collected'
    cases collected'
    rw [List.foldlM_map] at folded
    obtain ⟨rfl, few, small⟩ := foldlM_eq_ok_induction folded (fun done totals =>
      totals = contents.objectTotals done ∧ totals.1 ≤ maxTransferEntries ∧
        totals.2 ≤ maxTransferBytes) (by simp [Contents.objectTotals]) (by
      rintro done digest _ next member stepped ⟨rfl, _, _⟩
      obtain ⟨before, after, split⟩ := List.append_of_mem member
      obtain ⟨bytes, stored⟩ := exists_value digests_perm split
      obtain ⟨rfl, few, small⟩ := (limitObject_eq_ok_iff shows stored).mp stepped
      exact ⟨by simp [Contents.objectTotals, weigh_of_getElem? stored], few, small⟩)
    simp only [Contents.objectTotals, counted, summed] at folded' few small
    have keys_perm : keys.toList.Perm contents.artifacts.keys := by rw [ordered]
    obtain ⟨rfl, entries, bytes, envelopes⟩ := foldlM_eq_ok_induction folded' (fun done totals =>
      totals = contents.limitTotals contents.objectBytes done ∧
        contents.objects.size + totals.artifactCount ≤ maxTransferEntries ∧
          totals.bytes ≤ maxTransferBytes ∧ totals.envelopeBytes ≤ maxInventoryEnvelopeBytes)
      (by simpa [Contents.limitTotals] using ⟨few, small⟩) (by
      rintro done key _ next member stepped ⟨rfl, _, _, _⟩
      obtain ⟨before, after, split⟩ := List.append_of_mem member
      obtain ⟨bundle, stored⟩ := exists_value keys_perm split
      obtain ⟨rfl, bounds⟩ := (limitArtifact_eq_ok_iff shows stored).mp stepped
      refine ⟨?_, bounds⟩
      simp only [Contents.limitTotals_snoc stored])
    simp only [Contents.limitTotals, sum_weigh keys_perm,
      length_of_perm_keys keys_perm] at entries bytes envelopes
    exact ⟨entries, bytes, envelopes⟩
  · intro limits
    have few : contents.artifacts.size ≤ maxTransferEntries := by
      have entries := limits.entries
      omega
    obtain ⟨keys, collected, ordered⟩ := shows.artifactKeys_eq few .limitKeys
    rw [limitObjects_eq shows limits digests_perm, ok_bind, collected, ok_bind]
    simp only [Contents.objectTotals]
    rw [counted, summed, limitArtifacts_eq shows limits (by rw [ordered]), ok_bind]
    rfl

end NixSeal.Cache
