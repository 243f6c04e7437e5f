import Mathlib.Data.List.Forall2

/-!
# Position-wise correspondence of lists

Two lists correspond when their elements are related position by position.  Separation of the
partners carries over to the items they belong to.
-/

namespace Correspondence

variable {α β : Type*} {related : α → β → Prop} {items : List α} {partners : List β}

theorem exists_partner (paired : List.Forall₂ related items partners) {item : α}
    (member : item ∈ items) : ∃ partner ∈ partners, related item partner := by
  induction paired with
  | nil => cases member
  | cons first rest ih =>
      rcases List.mem_cons.mp member with rfl | member
      · exact ⟨_, List.mem_cons_self, first⟩
      · obtain ⟨partner, partner_member, item_related⟩ := ih member
        exact ⟨partner, List.mem_cons_of_mem _ partner_member, item_related⟩

theorem exists_item (paired : List.Forall₂ related items partners) {partner : β}
    (member : partner ∈ partners) : ∃ item ∈ items, related item partner :=
  exists_partner (List.Forall₂.flip (R := flip related) paired) member

/-- Items of pairwise separated partners are pairwise apart. -/
theorem pairwise_items {separated : β → β → Prop} {apart : α → α → Prop}
    (paired : List.Forall₂ related items partners) (pairwise : partners.Pairwise separated)
    (lift : ∀ {left right leftPartner rightPartner}, related left leftPartner →
      related right rightPartner → separated leftPartner rightPartner → apart left right) :
    items.Pairwise apart := by
  induction paired with
  | nil => exact List.Pairwise.nil
  | cons first rest ih =>
      rw [List.pairwise_cons] at pairwise ⊢
      refine ⟨?_, ih pairwise.2⟩
      intro other member
      obtain ⟨partner, partner_member, other_related⟩ := exists_partner rest member
      exact lift first other_related (pairwise.1 partner partner_member)

/-- Partners that determine their items are distinct when the items are. -/
theorem nodup_partners (paired : List.Forall₂ related items partners) (distinct : items.Nodup)
    (determined : ∀ {left right partner}, related left partner → related right partner →
      left = right) : partners.Nodup := by
  have flipped : List.Forall₂ (flip related) partners items := List.Forall₂.flip paired
  refine pairwise_items flipped distinct ?_
  rintro left right leftItem rightItem first second different rfl
  exact different (determined first second)

end Correspondence
