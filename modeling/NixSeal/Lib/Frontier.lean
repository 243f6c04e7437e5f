import Mathlib.Logic.Relation
import Mathlib.Data.Set.Basic

/-!
# Exploration of a graph from a frontier

A search keeps the nodes it has seen and, among them, the nodes whose successors it still has
to inspect.  The invariant below is preserved by inspecting one pending node, in any order, and
an exhausted search has seen exactly the nodes reachable from its roots.
-/

namespace Frontier

variable {α : Type*}

/-- `target` is reached from some root through zero or more edges. -/
def Reached (edge : α → α → Prop) (roots : Set α) (target : α) : Prop :=
  ∃ root ∈ roots, Relation.ReflTransGen edge root target

/-- The state of a search: `pending` are the seen nodes whose successors may be unseen. -/
structure Explored (edge : α → α → Prop) (roots seen pending : Set α) : Prop where
  /-- Everything seen is reachable. -/
  sound : ∀ node ∈ seen, Reached edge roots node
  /-- Every root is seen. -/
  rooted : roots ⊆ seen
  /-- The successors of an inspected node are seen. -/
  closed : ∀ node ∈ seen, node ∉ pending → ∀ next, edge node next → next ∈ seen

namespace Explored

variable {edge : α → α → Prop} {roots seen pending : Set α}

/-- A search starts with its roots seen and all of them pending. -/
theorem init (edge : α → α → Prop) {roots pending : Set α}
    (inner : ∀ node ∈ roots, node ∉ pending → ∀ next, ¬ edge node next) :
    Explored edge roots roots pending where
  sound node member := ⟨node, member, Relation.ReflTransGen.refl⟩
  rooted := subset_rfl
  closed node member inspected next step := absurd step (inner node member inspected next)

/-- Inspecting one pending node: its successors become seen, and the new ones that have
successors of their own become pending. -/
theorem advance (explored : Explored edge roots seen pending) {node : α} {seen' pending' : Set α}
    (node_seen : node ∈ seen)
    (seen_iff : ∀ x, x ∈ seen' ↔ x ∈ seen ∨ edge node x)
    (pending_of : ∀ x ∈ seen', x ∉ pending' →
      x = node ∨ (x ∈ seen ∧ x ∉ pending) ∨ ∀ next, ¬ edge x next) :
    Explored edge roots seen' pending' where
  sound := by
    intro x x_seen
    rcases (seen_iff x).mp x_seen with old | step
    · exact explored.sound x old
    · obtain ⟨root, root_mem, path⟩ := explored.sound node node_seen
      exact ⟨root, root_mem, path.tail step⟩
  rooted x x_root := (seen_iff x).mpr (Or.inl (explored.rooted x_root))
  closed := by
    intro x x_seen inspected next step
    rcases pending_of x x_seen inspected with rfl | ⟨old, old_inspected⟩ | leaf
    · exact (seen_iff next).mpr (Or.inr step)
    · exact (seen_iff next).mpr (Or.inl (explored.closed x old old_inspected next step))
    · exact absurd step (leaf next)

/-- A search with nothing pending has seen exactly the reachable nodes. -/
theorem mem_seen_iff (explored : Explored edge roots seen ∅) (target : α) :
    target ∈ seen ↔ Reached edge roots target := by
  constructor
  · exact explored.sound target
  · rintro ⟨root, root_mem, path⟩
    induction path with
    | refl => exact explored.rooted root_mem
    | tail _ step ih => exact explored.closed _ ih (Set.notMem_empty _) _ step

end Explored
end Frontier
