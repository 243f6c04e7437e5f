import Mathlib.Tactic
import Std.Data.TreeMap
import Std.Data.TreeSet

/-!
# Ordered sets and maps with the same members

Listing an ordered set or map gives one list for its members, however it was built.
-/

namespace Ordered

variable {α β : Type} [Ord α]

/-- The total weight of the values of a map. -/
def total (map : Std.TreeMap α β compare) (weight : β → Nat) : Nat :=
  (map.toList.map fun entry => weight entry.2).sum

/-- The weight of the value under a key. -/
def weigh (map : Std.TreeMap α β compare) (weight : β → Nat) (key : α) : Nat :=
  (map[key]?.map weight).getD 0

theorem weigh_of_getElem? {map : Std.TreeMap α β compare} {weight : β → Nat} {key : α} {value : β}
    (stored : map[key]? = some value) : weigh map weight key = weight value := by
  rw [weigh, stored]
  rfl

theorem values_eq_map_toList [Std.TransOrd α] (map : Std.TreeMap α β compare) :
    map.values = map.toList.map Prod.snd := by
  have folded : map.values = map.foldr (fun _ value values => value :: values) [] := rfl
  rw [folded, Std.TreeMap.foldr_eq_foldr_toList]
  induction map.toList with
  | nil => rfl
  | cons entry rest ih => simp [ih]

theorem toList_ofList_singleton (key : α) (value : β) :
    (Std.TreeMap.ofList [(key, value)] compare).toList = [(key, value)] :=
  rfl

variable [Std.TransOrd α]

theorem length_of_perm_keys {map : Std.TreeMap α β compare} {keys : List α}
    (listed : keys.Perm map.keys) : keys.length = map.size := by
  rw [listed.length_eq, Std.TreeMap.length_keys]

variable [Std.LawfulEqOrd α]

theorem getElem?_insert_eq [DecidableEq α] (map : Std.TreeMap α β compare) (key other : α)
    (value : β) : (map.insert key value)[other]? = if key = other then some value else map[other]? := by
  simp [Std.TreeMap.getElem?_insert]

theorem getElem?_erase_eq [DecidableEq α] (map : Std.TreeMap α β compare) (key other : α) :
    (map.erase key)[other]? = if key = other then none else map[other]? := by
  simp [Std.TreeMap.getElem?_erase]

omit [Std.TransOrd α] in
theorem nodup_of_ordered {list : List α} (ordered : list.Pairwise fun a b => compare a b = .lt) :
    list.Nodup := by
  refine ordered.imp fun {a b} less equal => ?_
  rw [equal, Std.ReflOrd.compare_self] at less
  cases less

theorem eq_of_mem_iff {left right : List α}
    (left_ordered : left.Pairwise fun a b => compare a b = .lt)
    (right_ordered : right.Pairwise fun a b => compare a b = .lt)
    (same : ∀ item, item ∈ left ↔ item ∈ right) : left = right := by
  have permuted := (List.perm_ext_iff_of_nodup (nodup_of_ordered left_ordered)
    (nodup_of_ordered right_ordered)).mpr same
  refine permuted.eq_of_pairwise (fun a b _ _ less greater => ?_) left_ordered right_ordered
  rw [Std.OrientedOrd.eq_swap, greater] at less
  cases less

theorem toList_eq_keys {set : Std.TreeSet α compare} {map : Std.TreeMap α β compare}
    (same : ∀ item, item ∈ set ↔ item ∈ map) : set.toList = map.keys := by
  refine eq_of_mem_iff Std.TreeSet.ordered_toList Std.TreeMap.ordered_keys fun item => ?_
  rw [Std.TreeSet.mem_toList, Std.TreeMap.mem_keys]
  exact same item

/-- A relation with finitely many keys and one value for each is a map. -/
theorem exists_map (keys : List α) (holds : α → β → Prop)
    (single : ∀ key left right, holds key left → holds key right → left = right) :
    ∃ map : Std.TreeMap α β compare,
      ∀ key value, map[key]? = some value ↔ key ∈ keys ∧ holds key value := by
  induction keys with
  | nil => exact ⟨∅, by simp⟩
  | cons first rest ih =>
      obtain ⟨map, stored⟩ := ih
      by_cases known : ∃ value, holds first value
      · obtain ⟨found, held⟩ := known
        refine ⟨map.insert first found, fun key value => ?_⟩
        rw [Std.TreeMap.getElem?_insert]
        by_cases same : first = key
        · subst same
          rw [if_pos Std.ReflOrd.compare_self, Option.some.injEq]
          constructor
          · rintro rfl
            exact ⟨by simp, held⟩
          · rintro ⟨_, other⟩
            exact single _ _ _ held other
        · rw [if_neg (by rwa [Std.LawfulEqCmp.compare_eq_iff_eq]), stored key value]
          simp [Ne.symm same]
      · refine ⟨map, fun key value => ?_⟩
        rw [stored key value]
        constructor
        · rintro ⟨member, held⟩
          exact ⟨by simp [member], held⟩
        · rintro ⟨member, held⟩
          rcases List.mem_cons.mp member with rfl | member
          · exact absurd ⟨value, held⟩ known
          · exact ⟨member, held⟩

theorem sum_weigh {map : Std.TreeMap α β compare} {weight : β → Nat} {keys : List α}
    (listed : keys.Perm map.keys) : (keys.map (weigh map weight)).sum = total map weight := by
  rw [(listed.map (weigh map weight)).sum_nat, total, ← Std.TreeMap.map_fst_toList_eq_keys,
    List.map_map]
  congr 1
  refine List.map_congr_left fun entry member => ?_
  exact weigh_of_getElem? (Std.TreeMap.mem_toList_iff_getElem?_eq_some.mp member)

theorem total_le {map : Std.TreeMap α β compare} {weight : β → Nat} {bound : Nat}
    (bounded : ∀ (key : α) (value : β), map[key]? = some value → weight value ≤ bound) :
    total map weight ≤ map.size * bound := by
  have each : ∀ entry ∈ map.toList, weight entry.2 ≤ bound := fun entry member =>
    bounded entry.1 entry.2 (Std.TreeMap.mem_toList_iff_getElem?_eq_some.mp member)
  unfold total
  rw [← Std.TreeMap.length_toList]
  generalize map.toList = entries at each ⊢
  induction entries with
  | nil => simp
  | cons entry rest ih =>
      have head := each entry (by simp)
      have tail := ih fun other member => each other (by simp [member])
      simp only [List.map_cons, List.sum_cons, List.length_cons, Nat.add_mul, Nat.one_mul]
      omega

/-- A map of listed entries holds exactly these when no key is listed twice. -/
theorem getElem?_ofList_eq_some {entries : List (α × β)}
    (distinct : (entries.map Prod.fst).Nodup) {key : α} {value : β} :
    (Std.TreeMap.ofList entries compare)[key]? = some value ↔ (key, value) ∈ entries := by
  have apart : entries.Pairwise fun left right => ¬compare left.1 right.1 = .eq := by
    rw [List.nodup_iff_pairwise_ne, List.pairwise_map] at distinct
    exact distinct.imp fun different same => different (Std.LawfulEqOrd.eq_of_compare same)
  have held : ∀ {other : α} {found : β}, (other, found) ∈ entries →
      (Std.TreeMap.ofList entries compare)[other]? = some found := fun member =>
    Std.TreeMap.getElem?_ofList_of_mem Std.ReflOrd.compare_self apart member
  constructor
  · intro stored
    have present : key ∈ Std.TreeMap.ofList entries compare := by
      rw [Std.TreeMap.mem_iff_isSome_getElem?, stored]
      rfl
    classical
    rw [Std.TreeMap.mem_ofList, List.contains_iff_mem] at present
    obtain ⟨⟨other, found⟩, member, rfl⟩ := List.mem_map.mp present
    rw [held member] at stored
    cases stored
    exact member
  · exact held

/-- A list has as many distinct members as members exactly when none is repeated. -/
theorem size_ofList_eq_length_iff {list : List α} :
    (Std.TreeSet.ofList list compare).size = list.length ↔ list.Nodup := by
  classical
  have members : (Std.TreeSet.ofList list compare).toList.Perm list.dedup := by
    rw [List.perm_ext_iff_of_nodup (nodup_of_ordered Std.TreeSet.ordered_toList)
      (List.nodup_dedup list)]
    intro value
    rw [Std.TreeSet.mem_toList, Std.TreeSet.mem_ofList, List.contains_iff_mem, List.mem_dedup]
  rw [← Std.TreeSet.length_toList, members.length_eq]
  constructor
  · intro same
    exact List.dedup_eq_self.mp ((List.dedup_sublist list).eq_of_length same)
  · intro distinct
    rw [List.dedup_eq_self.mpr distinct]

end Ordered
