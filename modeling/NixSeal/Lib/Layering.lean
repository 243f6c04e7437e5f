import Mathlib.Data.List.Basic
import Mathlib.Data.List.Induction
import Mathlib.Data.List.Nodup
import Mathlib.Data.List.Perm.Subperm
import Mathlib.Data.Set.Finite.Lemmas
import Mathlib.Logic.Relation
import Mathlib.Order.WellFounded

/-!
# Layered removal

The nodes of a finite dependency graph, removed one after another once nothing they depend on is
left.  Counting unmet dependencies finds such an order; a graph in which every node is removed has
no cycle, and its nodes can be listed after what they depend on.
-/

namespace NixSeal
namespace Layering

variable {α : Type} [DecidableEq α] {needs : α → List α}

/-- Every node of a list stands after all that it depends on. -/
def Layered (needs : α → List α) (list : List α) : Prop :=
  ∀ before node after, list = before ++ node :: after → ∀ other ∈ needs node, other ∈ before

omit [DecidableEq α] in
theorem layered_nil : Layered needs [] := by
  intro before node after split
  simp at split

omit [DecidableEq α] in
theorem Layered.concat {list : List α} (layered : Layered needs list) {node : α}
    (met : ∀ other ∈ needs node, other ∈ list) : Layered needs (list ++ [node]) := by
  intro before last after split
  rcases List.eq_nil_or_concat' after with rfl | ⟨front, final, rfl⟩
  · obtain ⟨rfl, same⟩ := List.append_inj' split rfl
    cases same
    exact met
  · rw [← List.cons_append, ← List.append_assoc] at split
    obtain ⟨rfl, -⟩ := List.append_inj' split rfl
    exact layered before last front rfl

/-- What a node depends on stands earlier. -/
theorem Layered.idxOf_lt {list : List α} (layered : Layered needs list) {node other : α}
    (member : node ∈ list) (needed : other ∈ needs node) :
    other ∈ list ∧ list.idxOf other < list.idxOf node := by
  obtain ⟨before, after, rfl, fresh⟩ := List.eq_append_cons_of_mem member
  have earlier := layered before node after rfl other needed
  refine ⟨List.mem_append_left _ earlier, ?_⟩
  rw [List.idxOf_append_of_mem earlier, List.idxOf_append_of_notMem fresh, List.idxOf_cons_self]
  have bound := List.idxOf_lt_length_of_mem earlier
  omega

/-- The dependencies of a node that are left. -/
def unmet (needs : α → List α) (removed : List α) (node : α) : List α :=
  (needs node).filter fun other => decide (other ∉ removed)

theorem unmet_eq_nil {removed : List α} {node : α} :
    unmet needs removed node = [] ↔ ∀ other ∈ needs node, other ∈ removed := by
  rw [unmet, List.filter_eq_nil_iff]
  simp

theorem unmet_concat (removed : List α) (last node : α) :
    unmet needs (removed ++ [last]) node =
      (unmet needs removed node).filter fun other => decide (other ≠ last) := by
  rw [unmet, unmet, List.filter_filter]
  refine List.filter_congr fun other _ => ?_
  simp [and_comm]

/-- A removal under way: what is removed stands after what it depends on, the queue holds other
nodes with nothing left to wait for, and no node waits for more than its count. -/
structure Removal (needs : α → List α) (count : α → Option Nat) (removed queue : List α) :
    Prop where
  layered : Layered needs removed
  distinct : (removed ++ queue).Nodup
  idle : ∀ node ∈ removed ++ queue, count node = some 0
  counted : ∀ node left, count node = some left → (unmet needs removed node).length ≤ left

/-- The nodes of a list can still be released from a removed node. -/
def Spare (needs : α → List α) (count : α → Option Nat) (removed pending : List α) : Prop :=
  ∀ node ∈ pending, ∀ left, count node = some left → (unmet needs removed node).length < left

namespace Removal

variable {count : α → Option Nat} {removed queue : List α} {node : α}

/-- Before anything is removed, the nodes that wait for nothing are queued. -/
theorem start (distinct : queue.Nodup) (idle : ∀ node ∈ queue, count node = some 0)
    (counted : ∀ node left, count node = some left → (needs node).length ≤ left) :
    Removal needs count [] queue where
  layered := layered_nil
  distinct := distinct
  idle := idle
  counted node left found := by
    simpa [unmet] using counted node left found

/-- A queued node is removed; the nodes that depend on it can then be released from it. -/
theorem remove (removal : Removal needs count removed (node :: queue)) {pending : List α}
    (needing : ∀ other ∈ pending, node ∈ needs other) :
    Removal needs count (removed ++ [node]) queue ∧ Spare needs count (removed ++ [node]) pending := by
  have idle : count node = some 0 := removal.idle node (by simp)
  have fresh : node ∉ removed := by
    intro member
    exact (List.nodup_append.mp removal.distinct).2.2 node member node (by simp) rfl
  refine ⟨⟨removal.layered.concat ?_, ?_, ?_, ?_⟩, ?_⟩
  · exact unmet_eq_nil.mp (List.eq_nil_of_length_eq_zero
      (Nat.le_zero.mp (removal.counted node 0 idle)))
  · rw [List.append_assoc]
    exact removal.distinct
  · intro other member
    rw [List.append_assoc] at member
    exact removal.idle other member
  · intro other left found
    rw [unmet_concat]
    exact Nat.le_trans (List.length_filter_le _ _) (removal.counted other left found)
  · intro other member left found
    refine Nat.lt_of_lt_of_le ?_ (removal.counted other left found)
    rw [unmet_concat, List.length_filter_lt_length_iff_exists]
    refine ⟨node, ?_, by simp⟩
    rw [unmet, List.mem_filter]
    exact ⟨needing other member, decide_eq_true fresh⟩

theorem release (removal : Removal needs count removed queue) {pending : List α}
    (distinct : (node :: pending).Nodup) (spare : Spare needs count removed (node :: pending))
    {left : Nat} (found : count node = some (left + 1)) {next : α → Option Nat}
    (changed : ∀ other, next other = if node = other then some left else count other) :
    Removal needs next removed (if left = 0 then queue ++ [node] else queue) ∧
      Spare needs next removed pending := by
  have busy : node ∉ removed ++ queue := by
    intro member
    have idle := removal.idle node member
    rw [found] at idle
    cases idle
  have kept : ∀ other ∈ removed ++ queue, next other = some 0 := by
    intro other member
    rw [changed, if_neg fun same => busy (by rwa [same])]
    exact removal.idle other member
  have bound := spare node (by simp) _ found
  refine ⟨⟨removal.layered, ?_, ?_, ?_⟩, ?_⟩
  · split
    · rw [← List.append_assoc]
      rw [← List.concat_eq_append, List.nodup_concat]
      exact ⟨busy, removal.distinct⟩
    · exact removal.distinct
  · intro other member
    split at member
    · rename_i last
      rw [← List.append_assoc, List.mem_append, List.mem_singleton] at member
      rcases member with member | rfl
      · exact kept other member
      · rw [changed, if_pos rfl, last]
    · exact kept other member
  · intro other rest counted
    rw [changed] at counted
    split at counted
    · rename_i same
      subst same
      cases counted
      omega
    · exact removal.counted other rest counted
  · intro other member rest counted
    have different : node ≠ other := fun same => (List.nodup_cons.mp distinct).1 (by rwa [same])
    rw [changed, if_neg different] at counted
    exact spare other (List.mem_cons_of_mem _ member) rest counted

theorem length_le (removal : Removal needs count removed queue) (nodes : List α)
    (known : ∀ node, count node = some 0 → node ∈ nodes) :
    (removed ++ queue).length ≤ nodes.length :=
  (removal.distinct.subperm fun node member => known node (removal.idle node member)).length_le

/-- All nodes of a finite graph are removed when as many are removed as there are. -/
theorem complete (removal : Removal needs count removed queue) (nodes : List α)
    (known : ∀ node left, count node = some left → node ∈ nodes)
    (all : nodes.length ≤ removed.length) : ∀ node ∈ nodes, node ∈ removed := by
  have distinct := (List.nodup_append.mp removal.distinct).1
  have inside : removed ⊆ nodes := fun node member =>
    known node 0 (removal.idle node (List.mem_append_left _ member))
  have permuted := (distinct.subperm inside).perm_of_length_le all
  exact fun node member => permuted.mem_iff.mpr member

end Removal

/-! ## Cycles -/

/-- No node depends on itself, directly or through others. -/
def Acyclic (needs : α → List α) : Prop :=
  ∀ node, ¬ Relation.TransGen (fun node other => other ∈ needs node) node node

omit [DecidableEq α] in
/-- Cycles depend on what each node needs, not on the order or the repetitions. -/
theorem acyclic_congr {needs' : α → List α} (same : ∀ node other, other ∈ needs node ↔ other ∈ needs' node) :
    Acyclic needs ↔ Acyclic needs' := by
  have equal : (fun node other => other ∈ needs node) = fun node other => other ∈ needs' node := by
    funext node other
    exact propext (same node other)
  rw [Acyclic, Acyclic, equal]

/-- What stands in a layered list is on no cycle. -/
theorem Layered.acyclic {list : List α} (layered : Layered needs list)
    (all : ∀ node other, other ∈ needs node → other ∈ list) : Acyclic needs := by
  have earlier : ∀ {node other : α}, node ∈ list →
      Relation.TransGen (fun node other => other ∈ needs node) node other →
      other ∈ list ∧ list.idxOf other < list.idxOf node := by
    intro node other member path
    induction path with
    | single needed => exact layered.idxOf_lt member needed
    | tail _ needed ih =>
        obtain ⟨inside, before⟩ := ih
        obtain ⟨listed, before'⟩ := layered.idxOf_lt inside needed
        exact ⟨listed, before'.trans before⟩
  intro node cycle
  obtain ⟨last, -, needed⟩ := Relation.TransGen.tail'_iff.mp cycle
  exact Nat.lt_irrefl _ (earlier (all last node needed) cycle).2

omit [DecidableEq α] in
/-- Without cycles, some node of those left waits for none of them. -/
theorem Acyclic.exists_idle (acyclic : Acyclic needs) {left : List α} (some_left : left ≠ []) :
    ∃ node ∈ left, ∀ other ∈ needs node, other ∉ left := by
  let waits : {node // node ∈ left} → {node // node ∈ left} → Prop := fun other node =>
    Relation.TransGen (fun node other => other ∈ needs node) node.1 other.1
  have finite : Finite {node // node ∈ left} := left.finite_toSet.to_subtype
  have transitive : IsTrans _ waits := ⟨fun _ _ _ first second => second.trans first⟩
  have irreflexive : Std.Irrefl waits := ⟨fun node cycle => acyclic node.1 cycle⟩
  have founded : WellFounded waits := Finite.wellFounded_of_trans_of_irrefl waits
  obtain ⟨first, member⟩ := List.exists_mem_of_ne_nil left some_left
  obtain ⟨node, -, minimal⟩ := founded.has_min Set.univ ⟨⟨first, member⟩, trivial⟩
  exact ⟨node.1, node.2, fun other needed inside =>
    minimal ⟨other, inside⟩ trivial (Relation.TransGen.single needed)⟩

/-! ## Exact counts -/

/-- A removal that counts exactly: the pending releases apart, a node waits for as many nodes as its
count says, and every node that waits for none is removed or queued. -/
structure Exact (needs : α → List α) (count : α → Option Nat) (removed queue pending : List α) :
    Prop where
  removal : Removal needs count removed queue
  spare : Spare needs count removed pending
  tight : ∀ node left, count node = some left →
    left ≤ (unmet needs removed node).length + pending.count node
  queued : ∀ node, count node = some 0 → node ∈ removed ++ queue

/-- A node that is needed leaves one node less to wait for. -/
theorem length_unmet_concat_le (removed : List α) (last : α) {node : α} (distinct : (needs node).Nodup) :
    (unmet needs removed node).length ≤
      (unmet needs (removed ++ [last]) node).length + if last ∈ needs node then 1 else 0 := by
  have split := List.length_eq_countP_add_countP (fun other => decide (other ≠ last))
    (l := unmet needs removed node)
  have once : (unmet needs removed node).count last ≤ if last ∈ needs node then 1 else 0 := by
    split_ifs with needed
    · exact List.nodup_iff_count_le_one.mp (distinct.filter _) last
    · exact (List.count_eq_zero.mpr fun member => needed (List.mem_filter.mp member).1).le
  have same : (unmet needs removed node).countP (fun other => ¬ decide (other ≠ last)) =
      (unmet needs removed node).count last := by
    refine List.countP_congr fun other _ => ?_
    simp
  rw [unmet_concat, ← List.countP_eq_length_filter]
  omega

namespace Exact

variable {count : α → Option Nat} {removed queue pending : List α} {node : α}

/-- Before anything is removed, exactly the nodes that wait for nothing are queued. -/
theorem start (distinct : queue.Nodup) (idle : ∀ node, node ∈ queue ↔ count node = some 0)
    (counted : ∀ node left, count node = some left → left = (needs node).length) :
    Exact needs count [] queue [] where
  removal := Removal.start distinct (fun node => (idle node).mp)
    fun node left found => (counted node left found).ge
  spare _ member := by cases member
  tight node left found := by simp [unmet, counted node left found]
  queued node found := by simpa using (idle node).mpr found

/-- A queued node is removed; exactly the nodes that depend on it are to be released from it. -/
theorem remove (exact : Exact needs count removed (node :: queue) [])
    (distinct : ∀ other, (needs other).Nodup) (needing : ∀ other ∈ pending, node ∈ needs other)
    (needed : ∀ other left, count other = some left → node ∈ needs other → other ∈ pending) :
    Exact needs count (removed ++ [node]) queue pending := by
  obtain ⟨removal, spare⟩ := exact.removal.remove needing
  refine ⟨removal, spare, fun other left found => ?_, fun other found => ?_⟩
  · have tight := exact.tight other left found
    have shrinks := length_unmet_concat_le removed node (distinct other)
    have released : (if node ∈ needs other then 1 else 0) ≤ pending.count other := by
      split_ifs with needs
      · exact List.count_pos_iff.mpr (needed other left found needs)
      · exact Nat.zero_le _
    rw [List.count_nil] at tight
    omega
  · rw [List.append_assoc]
    exact exact.queued other found

theorem release (exact : Exact needs count removed queue (node :: pending))
    (distinct : (node :: pending).Nodup) {left : Nat} (found : count node = some (left + 1))
    {next : α → Option Nat}
    (changed : ∀ other, next other = if node = other then some left else count other) :
    Exact needs next removed (if left = 0 then queue ++ [node] else queue) pending := by
  obtain ⟨removal, spare⟩ := exact.removal.release distinct exact.spare found changed
  refine ⟨removal, spare, fun other rest counts => ?_, fun other idle => ?_⟩
  · rw [changed] at counts
    split_ifs at counts with same
    · subst same
      cases counts
      have tight := exact.tight node _ found
      rw [List.count_cons_self] at tight
      omega
    · have tight := exact.tight other rest counts
      rwa [List.count_cons_of_ne same] at tight
  · rw [changed] at idle
    split_ifs at idle with same
    · subst same
      cases idle
      simp
    · have member := exact.queued other idle
      split_ifs
      · rw [← List.append_assoc]
        exact List.mem_append_left _ member
      · exact member

theorem exists_count (exact : Exact needs count removed queue (node :: pending))
    (known : ∃ left, count node = some left) : ∃ left, count node = some (left + 1) := by
  obtain ⟨left, found⟩ := known
  have waits := exact.spare node (List.mem_cons_self ..) left found
  obtain ⟨smaller, rfl⟩ := Nat.exists_eq_add_of_lt waits
  exact ⟨_, found⟩

/-- When nothing is left to remove, every node was removed exactly when there are no cycles. -/
theorem length_eq_iff (exact : Exact needs count removed [] []) {nodes : List α}
    (distinct : nodes.Nodup) (known : ∀ node, node ∈ nodes ↔ ∃ left, count node = some left)
    (closed : ∀ node other, other ∈ needs node → other ∈ nodes) :
    removed.length = nodes.length ↔ Acyclic needs := by
  constructor
  · intro all
    refine exact.removal.layered.acyclic fun node other needed => ?_
    exact exact.removal.complete nodes (fun node left found => (known node).mpr ⟨left, found⟩)
      all.ge other (closed node other needed)
  · intro acyclic
    have removed_all : ∀ node ∈ nodes, node ∈ removed := by
      by_contra! some_left
      obtain ⟨first, member, outside⟩ := some_left
      have kept : first ∈ nodes.filter fun node => decide (node ∉ removed) := by
        simp [member, outside]
      obtain ⟨node, left, idle⟩ := acyclic.exists_idle (List.ne_nil_of_mem kept)
      rw [List.mem_filter, decide_eq_true_iff] at left
      obtain ⟨count, found⟩ := (known node).mp left.1
      have met : unmet needs removed node = [] := by
        refine unmet_eq_nil.mpr fun other needed => ?_
        by_contra outside
        exact idle other needed (by simp [closed node other needed, outside])
      have none_left := exact.tight node count found
      rw [met, List.length_nil, List.count_nil, Nat.le_zero] at none_left
      subst none_left
      exact left.2 (by simpa using exact.queued node found)
    have removed_distinct : removed.Nodup := (List.nodup_append.mp exact.removal.distinct).1
    refine le_antisymm (removed_distinct.subperm ?_).length_le
      (distinct.subperm removed_all).length_le
    exact fun node member => (known node).mpr ⟨0, exact.removal.idle node (by simp [member])⟩

end Exact
end Layering
end NixSeal
