import NixSeal.Lib.Fallible
import Mathlib.Tactic
import Std.Data.TreeMap

/-!
# Disjoint unions of maps

Adding the entries of one map to another, entry by entry, fails at the first key that is there
already; it succeeds exactly when no key is in both, and then gives their union.
-/

namespace DisjointUnion

variable {α β ε : Type} [Ord α]

/-- Adds an entry under a new key. -/
def insertFresh (clash : α → ε) (map : Std.TreeMap α β compare) (entry : α × β) :
    Except ε (Std.TreeMap α β compare) :=
  if map.contains entry.1 then .error (clash entry.1) else .ok (map.insert entry.1 entry.2)

/-- Adds the entries of a second map in their order. -/
def insertAll (clash : α → ε) (left right : Std.TreeMap α β compare) :
    Except ε (Std.TreeMap α β compare) :=
  right.toList.foldlM (insertFresh clash) left

/-- No key is in both maps. -/
def Apart (left right : Std.TreeMap α β compare) : Prop :=
  ∀ key : α, left[key]? = none ∨ right[key]? = none

/-- A map with the entries of both. -/
def Joins (left right result : Std.TreeMap α β compare) : Prop :=
  ∀ key : α, result[key]? = left[key]?.or right[key]?

theorem Apart.symm {left right : Std.TreeMap α β compare} (apart : Apart left right) :
    Apart right left := fun key => (apart key).symm

variable {left right result : Std.TreeMap α β compare} [Std.TransOrd α] [Std.LawfulEqOrd α]

/-- The map on the way: what it had, and the entries that were added. -/
def Added (left : Std.TreeMap α β compare) (done : List (α × β))
    (map : Std.TreeMap α β compare) : Prop :=
  ∀ key value, map[key]? = some value ↔ left[key]? = some value ∨ (key, value) ∈ done

omit [Std.LawfulEqOrd α] in
theorem Added.fresh_iff {done : List (α × β)} {map : Std.TreeMap α β compare}
    (added : Added left done map) (key : α) :
    map.contains key = false ↔ left[key]? = none ∧ ∀ earlier ∈ done, earlier.1 ≠ key := by
  rw [← Bool.not_eq_true, ← Std.TreeMap.mem_iff_contains, Std.TreeMap.mem_iff_isSome_getElem?,
    Bool.not_eq_true, Option.isSome_eq_false_iff, Option.isNone_iff_eq_none,
    Option.eq_none_iff_forall_ne_some, Option.eq_none_iff_forall_ne_some]
  constructor
  · intro absent
    refine ⟨fun value stored => absent value ((added key value).mpr (.inl stored)), ?_⟩
    rintro ⟨other, value⟩ member rfl
    exact absent value ((added other value).mpr (.inr member))
  · rintro ⟨absent, others⟩ value stored
    rcases (added key value).mp stored with held | member
    · exact absent value held
    · exact others _ member rfl

theorem Added.insert {done : List (α × β)} {map : Std.TreeMap α β compare}
    (added : Added left done map) {entry : α × β} (fresh : map.contains entry.1 = false) :
    Added left (done ++ [entry]) (map.insert entry.1 entry.2) := by
  obtain ⟨absent, others⟩ := (added.fresh_iff entry.1).mp fresh
  intro key value
  rw [Std.TreeMap.getElem?_insert, List.mem_append, List.mem_singleton, Prod.ext_iff]
  by_cases same : entry.1 = key
  · subst same
    rw [if_pos Std.ReflOrd.compare_self, absent, Option.some.injEq]
    constructor
    · rintro rfl
      exact .inr (.inr ⟨rfl, rfl⟩)
    · rintro (held | member | ⟨-, rfl⟩)
      · cases held
      · exact absurd rfl (others (entry.1, value) member)
      · rfl
  · rw [if_neg (by rwa [Std.LawfulEqCmp.compare_eq_iff_eq]), added key value]
    constructor
    · rintro (held | member)
      · exact .inl held
      · exact .inr (.inl member)
    · rintro (held | member | ⟨rfl, -⟩)
      · exact .inl held
      · exact .inr member
      · exact absurd rfl same

omit [Std.TransOrd α] [Std.LawfulEqOrd α] in
theorem insertFresh_eq_ok {clash : α → ε} {map next : Std.TreeMap α β compare} {entry : α × β} :
    insertFresh clash map entry = .ok next ↔
      map.contains entry.1 = false ∧ next = map.insert entry.1 entry.2 := by
  rw [insertFresh, Fallible.guard_eq_ok, Bool.not_eq_true, Except.ok.injEq, eq_comm (b := next)]

/-- The entries are added exactly when no key is in both maps. -/
theorem insertAll_isOk_iff {clash : α → ε} :
    (∃ result, insertAll clash left right = .ok result) ↔ Apart left right := by
  have distinct : right.toList.Pairwise fun earlier later => earlier.1 ≠ later.1 := by
    have keys : (right.toList.map Prod.fst).Nodup := by
      rw [Std.TreeMap.map_fst_toList_eq_keys]
      exact Std.TreeMap.nodup_keys
    rwa [List.nodup_iff_pairwise_ne, List.pairwise_map] at keys
  rw [insertAll, @Fallible.foldlM_isOk_iff _ _ _ (insertFresh clash) right.toList left
    (fun entry => left[entry.1]? = none) (fun earlier later => earlier.1 ≠ later.1)
    (Added left) (by simp [Added])]
  · rw [and_iff_left distinct]
    constructor
    · intro absent key
      cases stored : right[key]? with
      | none => exact .inr rfl
      | some value =>
          exact .inl (absent _ (Std.TreeMap.mem_toList_iff_getElem?_eq_some.mpr stored))
    · intro apart entry member
      rw [Std.TreeMap.mem_toList_iff_getElem?_eq_some] at member
      rcases apart entry.1 with none | none
      · exact none
      · rw [member] at none
        cases none
  · intro done map entry added
    simp only [insertFresh_eq_ok, exists_eq_right, ← added.fresh_iff]
  · intro done map entry next added inserted
    obtain ⟨fresh, rfl⟩ := insertFresh_eq_ok.mp inserted
    exact added.insert fresh

theorem insertAll_eq_ok {clash : α → ε} (added : insertAll clash left right = .ok result) :
    Apart left right ∧ Joins left right result := by
  have apart := insertAll_isOk_iff.mp ⟨result, added⟩
  have held : Added left right.toList result := by
    refine Fallible.foldlM_eq_ok_split added (Added left) (by simp [Added]) ?_
    intro done entry rest map next _ inserted holds
    obtain ⟨fresh, rfl⟩ := insertFresh_eq_ok.mp inserted
    exact holds.insert fresh
  refine ⟨apart, fun key => Option.ext fun value => ?_⟩
  rw [held key value, Std.TreeMap.mem_toList_iff_getElem?_eq_some]
  rcases apart key with none | none <;> rw [none] <;> simp

end DisjointUnion
