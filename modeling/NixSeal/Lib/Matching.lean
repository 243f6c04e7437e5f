import Mathlib.Data.Finset.Card
import Mathlib.Data.List.Nodup
import Mathlib.Data.Option.Basic
import Std.Data.TreeMap.Lemmas

/-!
# Entries that match

Two finite maps match when they have related values under the same keys; a list enumerates a map
when each of its items stands for one entry.  Comparing sizes or key sets and looking up one side
decides both.
-/

namespace NixSeal
namespace Matching

variable {κ α β : Type} {related : α → β → Prop}

section Maps

variable [Ord κ] [Std.TransOrd κ] [Std.LawfulEqOrd κ]
  {left : Std.TreeMap κ α compare} {right : Std.TreeMap κ β compare}

/-- Two maps with related values under the same keys. -/
def Matches (related : α → β → Prop) (left : Std.TreeMap κ α compare)
    (right : Std.TreeMap κ β compare) : Prop :=
  ∀ key : κ, Option.Rel related left[key]? right[key]?

/-- The keys of a map that is as large as the other and lies in it are those of the other. -/
theorem mem_of_size_eq (size : left.size = right.size) (inside : ∀ key, key ∈ left → key ∈ right)
    {key : κ} (member : key ∈ right) : key ∈ left := by
  have distinct : left.keys.Nodup := Std.TreeMap.nodup_keys
  have subperm : left.keys.Subperm right.keys := by
    refine distinct.subperm fun key listed => ?_
    rw [Std.TreeMap.mem_keys] at listed ⊢
    exact inside key listed
  have permuted : left.keys.Perm right.keys := by
    refine subperm.perm_of_length_le ?_
    rw [Std.TreeMap.length_keys, Std.TreeMap.length_keys, size]
  rw [← Std.TreeMap.mem_keys] at member ⊢
  exact permuted.mem_iff.mpr member

/-- Equal sizes and a partner for each entry of one side make a match. -/
theorem matches_iff : Matches related left right ↔ left.size = right.size ∧
    ∀ (key : κ) (value : α), left[key]? = some value →
      ∃ partner, right[key]? = some partner ∧ related value partner := by
  constructor
  · intro same
    have partnered : ∀ (key : κ) (value : α), left[key]? = some value →
        ∃ partner, right[key]? = some partner ∧ related value partner := by
      intro key value stored
      have pair := same key
      rw [stored] at pair
      generalize found : right[key]? = partner at pair
      cases pair with
      | some close => exact ⟨_, rfl, close⟩
    refine ⟨?_, partnered⟩
    have permuted : left.keys.Perm right.keys := by
      rw [List.perm_ext_iff_of_nodup Std.TreeMap.nodup_keys Std.TreeMap.nodup_keys]
      intro key
      rw [Std.TreeMap.mem_keys, Std.TreeMap.mem_keys, Std.TreeMap.mem_iff_isSome_getElem?,
        Std.TreeMap.mem_iff_isSome_getElem?]
      have pair := same key
      generalize left[key]? = value at pair
      generalize right[key]? = partner at pair
      cases pair <;> rfl
    rw [← Std.TreeMap.length_keys, ← Std.TreeMap.length_keys, permuted.length_eq]
  · rintro ⟨size, partnered⟩ key
    cases stored : left[key]? with
    | some value =>
        obtain ⟨partner, found, close⟩ := partnered key value stored
        rw [found]
        exact .some close
    | none =>
        cases found : right[key]? with
        | none => exact .none
        | some partner =>
            have inside : ∀ key, key ∈ left → key ∈ right := by
              intro key member
              rw [Std.TreeMap.mem_iff_isSome_getElem?, Option.isSome_iff_exists] at member
              obtain ⟨value, stored⟩ := member
              obtain ⟨partner, found, -⟩ := partnered key value stored
              rw [Std.TreeMap.mem_iff_isSome_getElem?, found]
              rfl
            have member : key ∈ right := by
              rw [Std.TreeMap.mem_iff_isSome_getElem?, found]
              rfl
            have absurd_member := mem_of_size_eq size inside member
            rw [Std.TreeMap.mem_iff_isSome_getElem?, stored] at absurd_member
            cases absurd_member

end Maps

/-- Each item of a list stands for one entry, and each entry has one item. -/
structure Enumerates (key : α → κ) (related : α → β → Prop) (items : List α)
    (entry : κ → Option β) : Prop where
  partner : ∀ item ∈ items, ∃ value, entry (key item) = some value ∧ related item value
  unique : ∀ k value, entry k = some value → ∃! item, item ∈ items ∧ key item = k

/-- Items with distinct keys enumerate the entries under exactly these keys. -/
theorem enumerates_iff {key : α → κ} {items : List α} {entry : κ → Option β}
    (distinct : (items.map key).Nodup) :
    Enumerates key related items entry ↔
      (∀ k, (∃ item ∈ items, key item = k) ↔ ∃ value, entry k = some value) ∧
        ∀ item ∈ items, ∀ value, entry (key item) = some value → related item value := by
  constructor
  · rintro ⟨partner, unique⟩
    refine ⟨fun k => ⟨?_, ?_⟩, ?_⟩
    · rintro ⟨item, member, rfl⟩
      obtain ⟨value, stored, -⟩ := partner item member
      exact ⟨value, stored⟩
    · rintro ⟨value, stored⟩
      obtain ⟨item, listed, -⟩ := unique k value stored
      exact ⟨item, listed⟩
    · intro item member value stored
      obtain ⟨other, found, close⟩ := partner item member
      cases stored.symm.trans found
      exact close
  · rintro ⟨same, close⟩
    refine ⟨?_, ?_⟩
    · intro item member
      obtain ⟨value, stored⟩ := (same (key item)).mp ⟨item, member, rfl⟩
      exact ⟨value, stored, close item member value stored⟩
    · intro k value stored
      obtain ⟨item, member, rfl⟩ := (same k).mpr ⟨value, stored⟩
      refine ⟨item, ⟨member, rfl⟩, ?_⟩
      rintro other ⟨also, equal⟩
      exact List.inj_on_of_nodup_map distinct also member equal

end Matching
end NixSeal
