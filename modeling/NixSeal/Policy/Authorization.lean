import NixSeal.Lib.Frontier
import NixSeal.Policy.Accepted
import NixSeal.Policy.Projection
import Mathlib.Tactic.Tauto

/-!
# Exactness of target authorization

The authorized secrets of a target, stated by reachability through group memberships, and the
proof that every traversal of the code agrees with this reference.
-/

namespace NixSeal
namespace Policy

/-- One group membership. -/
def Membership (plan : Plan) (groupId member : Id) : Prop :=
  ∃ group, plan.groups[groupId]? = some group ∧ member ∈ group.members

/-- A reference is reached from listed references through zero or more group memberships. -/
def Reaches (plan : Plan) (references : List Id) (id : Id) : Prop :=
  Frontier.Reached (Membership plan) {reference | reference ∈ references} id

theorem Membership.mem_groups {plan : Plan} {groupId member : Id}
    (membership : Membership plan groupId member) : groupId ∈ plan.groups := by
  obtain ⟨group, found, -⟩ := membership
  rw [Std.TreeMap.mem_iff_isSome_getElem?, found]
  rfl

section Expansion

variable {plan : Plan}

/-- What recording references adds to an expansion. -/
structure Recorded (plan : Plan) (references : List Id) (state final : Expansion) : Prop where
  /-- Leaves are the references that are no groups. -/
  leaves : ∀ id, id ∈ final.leaves ↔ id ∈ state.leaves ∨ (id ∈ references ∧ id ∉ plan.groups)
  /-- Visited are the groups. -/
  visited : ∀ id, id ∈ final.visited ↔ id ∈ state.visited ∨ (id ∈ references ∧ id ∈ plan.groups)
  /-- Pending are the groups not visited before. -/
  pending : ∀ id, id ∈ final.pending ↔
    id ∈ state.pending ∨ (id ∈ references ∧ id ∈ plan.groups ∧ id ∉ state.visited)
  /-- Every group visited is pending once. -/
  count : final.visited.size + state.pending.length = state.visited.size + final.pending.length

theorem Recorded.record (state : Expansion) (reference : Id) :
    Recorded plan [reference] state (Expansion.record plan state reference) := by
  by_cases group : reference ∈ plan.groups
  · by_cases seen : reference ∈ state.visited
    · have same : Expansion.record plan state reference = state := by
        simp [Expansion.record, group, seen]
      rw [same]
      constructor <;> grind
    · have recorded : Expansion.record plan state reference =
          { state with
            pending := reference :: state.pending
            visited := state.visited.insert reference } := by
        simp [Expansion.record, group, seen]
      rw [recorded]
      constructor
      · grind
      · intro id
        simp only [Std.TreeSet.mem_insert, Std.LawfulEqCmp.compare_eq_iff_eq]
        grind
      · grind
      · simp only [Std.TreeSet.size_insert, Std.TreeSet.contains_iff_mem, seen, if_false,
          List.length_cons]
        omega
  · have recorded : Expansion.record plan state reference =
        { state with leaves := state.leaves.insert reference } := by
      simp [Expansion.record, group]
    rw [recorded]
    constructor
    · intro id
      simp only [Std.TreeSet.mem_insert, Std.LawfulEqCmp.compare_eq_iff_eq]
      grind
    · grind
    · grind
    · rfl

theorem Recorded.trans {first second : List Id} {state middle final : Expansion}
    (recorded : Recorded plan first state middle) (next : Recorded plan second middle final) :
    Recorded plan (first ++ second) state final where
  leaves id := by
    rw [next.leaves, recorded.leaves, List.mem_append]
    tauto
  visited id := by
    rw [next.visited, recorded.visited, List.mem_append]
    tauto
  pending id := by
    rw [next.pending, recorded.pending, recorded.visited, List.mem_append]
    tauto
  count := by
    have first_count := recorded.count
    have second_count := next.count
    omega

theorem recorded_foldl (references : List Id) (state : Expansion) :
    Recorded plan references state (references.foldl (Expansion.record plan) state) := by
  induction references generalizing state with
  | nil => exact ⟨by simp, by simp, by simp, rfl⟩
  | cons reference rest ih => exact (Recorded.record state reference).trans (ih _)

/-- Invariant of `expand_group_leaves`: the search is sound and closed outside the pending groups,
and the remaining steps suffice to open every group once. -/
structure Expanding (plan : Plan) (references : List Id) (steps : Nat) (state : Expansion) :
    Prop where
  /-- The references found are explored from the listed ones. -/
  explored : Frontier.Explored (Membership plan) {reference | reference ∈ references}
    {id | id ∈ state.leaves ∨ id ∈ state.visited} {id | id ∈ state.pending}
  /-- Leaves are no groups. -/
  leaves : ∀ id ∈ state.leaves, id ∉ plan.groups
  /-- Visited references are groups. -/
  visited : ∀ id ∈ state.visited, id ∈ plan.groups
  /-- Pending groups are visited. -/
  pending : ∀ id ∈ state.pending, id ∈ state.visited
  /-- There are as many steps left as groups unvisited or pending. -/
  budget : state.visited.size + steps = plan.groups.size + state.pending.length

theorem Expanding.start (plan : Plan) (references : List Id) :
    Expanding plan references plan.groups.size
      (references.foldl (Expansion.record plan) {}) := by
  have recorded : Recorded plan references {} (references.foldl (Expansion.record plan) {}) :=
    recorded_foldl references {}
  have seen : {id | id ∈ (references.foldl (Expansion.record plan) {}).leaves ∨
      id ∈ (references.foldl (Expansion.record plan) {}).visited} =
        {reference | reference ∈ references} := by
    ext id
    simp only [Set.mem_ofPred_eq, recorded.leaves, recorded.visited]
    simp only [Std.TreeSet.not_mem_emptyc, false_or]
    tauto
  refine ⟨?_, ?_, ?_, ?_, ?_⟩
  · rw [seen]
    apply Frontier.Explored.init
    intro id member inspected next membership
    apply inspected
    exact (recorded.pending id).mpr
      (Or.inr ⟨member, membership.mem_groups, Std.TreeSet.not_mem_emptyc⟩)
  · intro id member
    rcases (recorded.leaves id).mp member with old | ⟨-, leaf⟩
    · exact absurd old Std.TreeSet.not_mem_emptyc
    · exact leaf
  · intro id member
    rcases (recorded.visited id).mp member with old | ⟨-, group⟩
    · exact absurd old Std.TreeSet.not_mem_emptyc
    · exact group
  · intro id member
    rcases (recorded.pending id).mp member with old | ⟨listed, group, -⟩
    · exact absurd old (by simp)
    · exact (recorded.visited id).mpr (Or.inr ⟨listed, group⟩)
  · have count := recorded.count
    simp only [List.length_nil, Std.TreeSet.size_emptyc] at count
    omega

theorem Expanding.open {references : List Id} {steps : Nat} {state : Expansion} {groupId : Id}
    {rest : List Id} {group : Group}
    (expanding : Expanding plan references (steps + 1) state)
    (next : state.pending = groupId :: rest) (found : plan.groups[groupId]? = some group) :
    Expanding plan references steps
      (group.members.foldl (Expansion.record plan) { state with pending := rest }) := by
  have recorded : Recorded plan group.members { state with pending := rest }
      (group.members.foldl (Expansion.record plan) { state with pending := rest }) :=
    recorded_foldl group.members _
  have members : ∀ id, Membership plan groupId id ↔ id ∈ group.members := by
    intro id
    constructor
    · rintro ⟨other, stored, member⟩
      rw [found] at stored
      exact Option.some.inj stored ▸ member
    · intro member
      exact ⟨group, found, member⟩
  have node_seen : groupId ∈ state.visited := expanding.pending groupId (by simp [next])
  refine ⟨?_, ?_, ?_, ?_, ?_⟩
  · refine expanding.explored.advance (Or.inr node_seen) ?_ ?_
    · intro id
      simp only [Set.mem_ofPred_eq, recorded.leaves, recorded.visited, members]
      tauto
    · intro id found_now inspected
      simp only [Set.mem_ofPred_eq, recorded.leaves, recorded.visited, recorded.pending, next,
        List.mem_cons] at found_now inspected ⊢
      by_cases group_id : id ∈ plan.groups
      · have no_leaf : id ∉ state.leaves := fun leaf => expanding.leaves id leaf group_id
        tauto
      · right
        right
        intro other membership
        exact group_id membership.mem_groups
  · intro id member
    rcases (recorded.leaves id).mp member with old | ⟨-, leaf⟩
    · exact expanding.leaves id old
    · exact leaf
  · intro id member
    rcases (recorded.visited id).mp member with old | ⟨-, inner⟩
    · exact expanding.visited id old
    · exact inner
  · intro id member
    rcases (recorded.pending id).mp member with old | ⟨listed, inner, -⟩
    · exact (recorded.visited id).mpr (Or.inl (expanding.pending id (by simp [next, old])))
    · exact (recorded.visited id).mpr (Or.inr ⟨listed, inner⟩)
  · have count := recorded.count
    have budget := expanding.budget
    simp only [next, List.length_cons] at budget
    simp only at count
    omega

theorem size_le_of_subset {visited : Std.TreeSet Id} {β : Type} {map : Std.TreeMap Id β}
    (subset : ∀ id ∈ visited, id ∈ map) : visited.size ≤ map.size := by
  have distinct : visited.toList.Nodup := by
    refine Std.TreeSet.distinct_toList.imp ?_
    intro left right different same
    exact different (Std.LawfulEqCmp.compare_eq_iff_eq.mpr same)
  rw [← Std.TreeSet.length_toList, ← Std.TreeMap.length_keys]
  refine (List.subperm_of_subset distinct ?_).length_le
  intro id member
  rw [Std.TreeMap.mem_keys]
  exact subset id (Std.TreeSet.mem_toList.mp member)

theorem Expanding.mem_leaves_iff {references : List Id} {steps : Nat} {state : Expansion}
    (expanding : Expanding plan references steps state) (done : state.pending = []) (id : Id) :
    id ∈ state.leaves ↔ Reaches plan references id ∧ id ∉ plan.groups := by
  have explored := expanding.explored
  have exhausted : {id | id ∈ state.pending} = (∅ : Set Id) := by
    simp [done]
  rw [exhausted] at explored
  have seen := explored.mem_seen_iff id
  rw [Set.mem_ofPred_eq] at seen
  rw [Reaches, ← seen]
  constructor
  · intro leaf
    exact ⟨Or.inl leaf, expanding.leaves id leaf⟩
  · rintro ⟨leaf | visited, no_group⟩
    · exact leaf
    · exact absurd (expanding.visited id visited) no_group

/-- The loop of `expand_group_leaves` ends with the leaves reached. -/
theorem Expanding.finish {references : List Id} {steps : Nat} {state : Expansion}
    (expanding : Expanding plan references steps state) :
    ∃ leaves, expandPending plan steps state = .ok leaves ∧
      ∀ id, id ∈ leaves ↔ Reaches plan references id ∧ id ∉ plan.groups := by
  induction steps generalizing state with
  | zero =>
      have bounded := size_le_of_subset expanding.visited
      have budget := expanding.budget
      have done : state.pending = [] := List.eq_nil_of_length_eq_zero (by omega)
      refine ⟨state.leaves, ?_, expanding.mem_leaves_iff done⟩
      rw [expandPending, done]
  | succ steps ih =>
      cases next : state.pending with
      | nil =>
          refine ⟨state.leaves, ?_, expanding.mem_leaves_iff next⟩
          rw [expandPending, next]
      | cons groupId rest =>
          have visited := expanding.visited groupId
            (expanding.pending groupId (by simp [next]))
          rw [Std.TreeMap.mem_iff_isSome_getElem?, Option.isSome_iff_exists] at visited
          obtain ⟨group, found⟩ := visited
          obtain ⟨leaves, expanded, exact_leaves⟩ := ih (expanding.open next found)
          refine ⟨leaves, ?_, exact_leaves⟩
          rw [expandPending]
          simp only [next, found]
          exact expanded

/-- `expand_group_leaves` returns exactly the references that are reached and are no groups. -/
theorem expandGroupLeaves_ok (plan : Plan) (references : List Id) :
    ∃ leaves, expandGroupLeaves plan references = .ok leaves ∧
      ∀ id, id ∈ leaves ↔ Reaches plan references id ∧ id ∉ plan.groups :=
  (Expanding.start plan references).finish

theorem mem_expandGroupLeaves {references : List Id} {leaves : Std.TreeSet Id}
    (expanded : expandGroupLeaves plan references = .ok leaves) (id : Id) :
    id ∈ leaves ↔ Reaches plan references id ∧ id ∉ plan.groups := by
  obtain ⟨found, equal, members⟩ := expandGroupLeaves_ok plan references
  rw [expanded] at equal
  cases equal
  exact members id

end Expansion

/-- A target satisfies every field of a selector that lists something: one of the listed kinds,
systems, usernames, configurations and environments, and all listed tags. -/
structure Satisfies (selectors : TargetSelectors) (target : Target) : Prop where
  /-- Kind. -/
  kind : selectors.kinds ≠ [] → target.kind ∈ selectors.kinds
  /-- System. -/
  system : selectors.systems ≠ [] → target.system ∈ selectors.systems
  /-- Username. -/
  username : selectors.usernames ≠ [] → ∃ name, target.username = some name ∧
    name ∈ selectors.usernames
  /-- Configuration. -/
  configuration : selectors.configurations ≠ [] → ∃ name, target.configuration = some name ∧
    name ∈ selectors.configurations
  /-- Environment. -/
  environment : selectors.environments ≠ [] → ∃ name, target.environment = some name ∧
    name ∈ selectors.environments
  /-- Tags. -/
  tags : ∀ tag ∈ selectors.tags, tag ∈ target.tags

/-- The base of a selector: the listed targets and the leaves of the listed groups, or every
target when nothing is listed. -/
def InSelectorBase (plan : Plan) (selectors : TargetSelectors) (id : Id) : Prop :=
  if selectors.targets = [] ∧ selectors.groups = [] then id ∈ plan.targets
  else id ∈ selectors.targets ∨ (Reaches plan selectors.groups id ∧ id ∉ plan.groups)

/-- A target is authorized for a secret: it is reached from the consumers, or a declared selector
selects it. -/
def Authorized (plan : Plan) (secret : Secret) (id : Id) (target : Target) : Prop :=
  Reaches plan secret.consumers id ∨
    (secret.selectors ≠ {} ∧ InSelectorBase plan secret.selectors id ∧
      Satisfies secret.selectors target)

theorem matchesTarget_iff (selectors : TargetSelectors) (target : Target) :
    TargetSelectors.matchesTarget selectors target = true ↔ Satisfies selectors target := by
  have optional : ∀ (values : List String) (value : Option String),
      (values.isEmpty || value.any values.contains) = true ↔
        (values ≠ [] → ∃ name, value = some name ∧ name ∈ values) := by
    intro values value
    cases values <;> cases value <;> simp
  have kinds : (selectors.kinds.isEmpty || selectors.kinds.contains target.kind) = true ↔
      (selectors.kinds ≠ [] → target.kind ∈ selectors.kinds) := by
    cases selectors.kinds <;> simp
  have systems : (selectors.systems.isEmpty || selectors.systems.contains target.system) = true ↔
      (selectors.systems ≠ [] → target.system ∈ selectors.systems) := by
    cases selectors.systems <;> simp
  have tags : (selectors.tags.all fun tag => target.tags.any fun candidate => candidate == tag) =
      true ↔ ∀ tag ∈ selectors.tags, tag ∈ target.tags := by
    simp
  simp only [TargetSelectors.matchesTarget, Bool.and_eq_true, optional, kinds, systems, tags]
  constructor
  · rintro ⟨⟨⟨⟨⟨kind, system⟩, username⟩, configuration⟩, environment⟩, tags⟩
    exact ⟨kind, system, username, configuration, environment, tags⟩
  · rintro ⟨kind, system, username, configuration, environment, tags⟩
    exact ⟨⟨⟨⟨⟨kind, system⟩, username⟩, configuration⟩, environment⟩, tags⟩

section Selection

variable {plan : Plan}

theorem reaches_iff_exists (references : List Id) (id : Id) :
    Reaches plan references id ↔ ∃ reference ∈ references, Reaches plan [reference] id := by
  simp [Reaches, Frontier.Reached]

/-- The candidates collected from the selector groups. -/
theorem foldlM_candidates (groups : List Id) (base : Std.TreeSet Id) :
    ∃ candidates,
      groups.foldlM
          (fun candidates group => do
            let leaves ← expandGroupLeaves plan [group]
            .ok (candidates ∪ leaves))
          base = .ok candidates ∧
        ∀ id, id ∈ candidates ↔
          id ∈ base ∨ (Reaches plan groups id ∧ id ∉ plan.groups) := by
  refine Fallible.foldlM_induction
    (fun done candidates => ∀ id, id ∈ candidates ↔
      id ∈ base ∨ (Reaches plan done id ∧ id ∉ plan.groups)) ?_ ?_
  · intro id
    simp [Reaches, Frontier.Reached]
  · intro done group candidates _ members
    obtain ⟨leaves, expanded, leaf_members⟩ := expandGroupLeaves_ok plan [group]
    refine ⟨candidates ∪ leaves, by rw [expanded, Fallible.ok_bind], ?_⟩
    intro id
    rw [Std.TreeSet.mem_union_iff, members, leaf_members, reaches_iff_exists (done ++ [group]),
      reaches_iff_exists done]
    simp only [List.mem_append, List.mem_singleton, or_and_right, exists_or, exists_eq_left]
    exact or_assoc

/-- `selected_consumer_targets` selects exactly the authorized targets. -/
theorem mem_selectedConsumerTargets {secret : Secret} {selected : Std.TreeSet Id}
    (selection : selectedConsumerTargets plan secret = .ok selected) {id : Id} {target : Target}
    (found : plan.targets[id]? = some target) (no_group : id ∉ plan.groups) :
    id ∈ selected ↔ Authorized plan secret id target := by
  have known : id ∈ plan.targets := by
    rw [Std.TreeMap.mem_iff_isSome_getElem?, found]
    rfl
  unfold selectedConsumerTargets at selection
  obtain ⟨consumers, expanded, selection⟩ := Fallible.bind_eq_ok.mp selection
  have consumer_members := mem_expandGroupLeaves expanded id
  by_cases unselective : secret.selectors = {}
  · rw [if_pos unselective] at selection
    cases selection
    rw [consumer_members, Authorized]
    tauto
  · rw [if_neg unselective] at selection
    obtain ⟨candidates, collected, selection⟩ := Fallible.bind_eq_ok.mp selection
    rw [Fallible.guard_eq_ok] at selection
    obtain ⟨-, selection⟩ := selection
    cases selection
    obtain ⟨others, collected_again, candidate_members⟩ :=
      @foldlM_candidates plan secret.selectors.groups
        (if !secret.selectors.targets.isEmpty || !secret.selectors.groups.isEmpty then
          Std.TreeSet.ofList secret.selectors.targets
        else Std.TreeSet.ofList plan.targets.keys)
    rw [collected] at collected_again
    cases collected_again
    have based : id ∈ candidates ↔ InSelectorBase plan secret.selectors id := by
      rw [candidate_members, InSelectorBase]
      by_cases listed : secret.selectors.targets = [] ∧ secret.selectors.groups = []
      · rw [if_pos listed]
        simp [listed, known, Std.TreeSet.mem_ofList]
      · rw [if_neg listed]
        have base : (!secret.selectors.targets.isEmpty || !secret.selectors.groups.isEmpty) =
            true := by
          rw [not_and_or] at listed
          simpa [List.isEmpty_iff] using listed
        rw [if_pos base]
        simp [Std.TreeSet.mem_ofList]
    rw [Std.TreeSet.mem_union_iff, consumer_members, Authorized, Std.TreeSet.mem_filter]
    simp only [Std.TreeSet.get_eq, found, matchesTarget_iff, exists_prop, based]
    tauto

end Selection

section Walk

variable {plan : Plan} {targetId : Id}

theorem Search.scan_none {references : List Id} {search : Search}
    (found : Search.scan plan targetId references search = none) : targetId ∈ references := by
  induction references generalizing search with
  | nil => cases found
  | cons reference rest ih =>
      unfold Search.scan at found
      split at found
      · rename_i same
        simp [same]
      · split at found
        · exact List.mem_cons_of_mem _ (ih found)
        · exact List.mem_cons_of_mem _ (ih found)

theorem Search.scan_some {references : List Id} {search final : Search}
    (scanned : Search.scan plan targetId references search = some final) :
    ∀ id ∈ final.pending, id ∈ search.pending ∨ id ∈ references := by
  induction references generalizing search with
  | nil =>
      cases scanned
      exact fun id member => Or.inl member
  | cons reference rest ih =>
      unfold Search.scan at scanned
      split at scanned
      · cases scanned
      · intro id member
        split at scanned
        · rcases ih scanned id member with pending | listed
          · rcases List.mem_cons.mp pending with rfl | pending
            · exact Or.inr (by simp)
            · exact Or.inl pending
          · exact Or.inr (by simp [listed])
        · rcases ih scanned id member with pending | listed
          · exact Or.inl pending
          · exact Or.inr (by simp [listed])

theorem Reaches.member {references : List Id} {groupId id : Id}
    (reaches : Reaches plan references groupId) (membership : Membership plan groupId id) :
    Reaches plan references id := by
  obtain ⟨root, root_listed, path⟩ := reaches
  exact ⟨root, root_listed, path.tail membership⟩

theorem reaches_of_mem {references : List Id} {id : Id} (listed : id ∈ references) :
    Reaches plan references id :=
  ⟨id, listed, Relation.ReflTransGen.refl⟩

/-- The walk of `target_is_consumer` only finds targets that the consumers reach. -/
theorem searchPending_sound {references : List Id} {steps : Nat} {search : Search}
    (reached : ∀ id ∈ search.pending, Reaches plan references id)
    (found : searchPending plan targetId steps search = true) :
    Reaches plan references targetId := by
  induction steps generalizing search with
  | zero => cases found
  | succ steps ih =>
      unfold searchPending at found
      split at found
      · cases found
      · rename_i groupId rest pending
        have reached_rest : ∀ id ∈ rest, Reaches plan references id := by
          intro id member
          exact reached id (by simp [pending, member])
        split at found
        · exact ih reached_rest found
        · rename_i group stored
          have reached_member : ∀ id ∈ group.members, Reaches plan references id := by
            intro id member
            exact (reached groupId (by simp [pending])).member ⟨group, stored, member⟩
          split at found
          · rename_i scanned
            exact reached_member targetId (Search.scan_none scanned)
          · rename_i next scanned
            refine ih ?_ found
            intro id member
            rcases Search.scan_some scanned id member with old | listed
            · exact reached_rest id old
            · exact reached_member id listed

/-- `target_is_consumer` agrees with `selected_consumer_targets` on targets. -/
theorem targetIsConsumer_iff {secret : Secret} {selected : Std.TreeSet Id}
    (selection : selectedConsumerTargets plan secret = .ok selected) {target : Target}
    (found : plan.targets[targetId]? = some target) (no_group : targetId ∉ plan.groups) :
    targetIsConsumer plan secret targetId = true ↔ targetId ∈ selected := by
  unfold targetIsConsumer
  rw [selection, Bool.or_eq_true, Std.TreeSet.contains_iff_mem]
  constructor
  · rintro (member | walked)
    · exact member
    · rw [mem_selectedConsumerTargets selection found no_group]
      left
      split at walked
      · rename_i scanned
        exact reaches_of_mem (Search.scan_none scanned)
      · rename_i search scanned
        refine searchPending_sound ?_ walked
        intro id member
        rcases Search.scan_some scanned id member with old | listed
        · cases old
        · exact reaches_of_mem listed
  · exact Or.inl

end Walk

section Projection

variable {E : Environment} {plan : Plan}

/-- An identity administers canonical ciphertext. -/
def Administers (plan : Plan) (id : Id) : Prop :=
  ∃ identity, plan.identities[id]? = some identity ∧
    IdentityKind.isAdministrator identity.kind = true

/-- What the recipient checks of `validate_secrets` establish. -/
structure CheckedRecipients (plan : Plan) (secret : Secret)
    (administrators selected : Std.TreeSet Id) : Prop where
  /-- Administrators are expanded. -/
  expanded : expandGroupLeaves plan secret.administrators = .ok administrators
  /-- Every administrator leaf is an administrator or recovery identity. -/
  compatible : ∀ id ∈ administrators, Administers plan id
  /-- Consumers are selected. -/
  selection : selectedConsumerTargets plan secret = .ok selected
  /-- Every selected consumer is a target. -/
  targets : ∀ id ∈ selected, id ∈ plan.targets
  /-- Some administrator is left, listed or by default, or direct delivery has a consumer. -/
  nonempty : (∃ id, id ∈ administrators) ∨
    (secret.administrators = [] ∧ ∃ id, Administers plan id) ∨
    (secret.delivery = .direct ∧ ∃ id, id ∈ selected)

theorem AcceptedSecret.checkedRecipients {id : Id} {secret : Secret}
    (accepted : AcceptedSecret plan id secret) :
    ∃ administrators selected, CheckedRecipients plan secret administrators selected := by
  obtain ⟨administrators, expanded, checked⟩ := Fallible.bind_eq_ok.mp accepted.recipients
  rw [Fallible.guard_eq_ok] at checked
  obtain ⟨compatible, checked⟩ := checked
  obtain ⟨selected, selection, checked⟩ := Fallible.bind_eq_ok.mp checked
  rw [Fallible.guard_eq_ok] at checked
  obtain ⟨only_targets, checked⟩ := checked
  rw [Fallible.guard_eq_ok] at checked
  obtain ⟨recipients, -⟩ := checked
  refine ⟨administrators, selected, expanded, ?_, selection, ?_, ?_⟩
  · simpa [Administers, Option.any_eq_true, Std.TreeSet.mem_toList] using compatible
  · simpa [Std.TreeSet.mem_toList] using only_targets
  · by_contra missing
    rw [not_or, not_or] at missing
    obtain ⟨no_leaves, no_default, no_direct⟩ := missing
    apply recipients
    have leaves_empty : administrators.isEmpty = true :=
      Std.TreeSet.isEmpty_iff_forall_not_mem.mpr fun id member => no_leaves ⟨id, member⟩
    have no_administrator : (secret.administrators.isEmpty &&
        plan.identities.toList.any fun entry => IdentityKind.isAdministrator entry.2.kind) =
          false := by
      rw [Bool.and_eq_false_iff, or_iff_not_imp_left, Bool.not_eq_false, List.isEmpty_iff]
      intro unlisted
      rw [List.any_eq_false]
      intro entry member administers
      exact no_default ⟨unlisted, entry.1, entry.2,
        Std.TreeMap.mem_toList_iff_getElem?_eq_some.mp member, administers⟩
    cases delivery : secret.delivery with
    | rekeyed => simp [leaves_empty, no_administrator]
    | direct =>
        have none_selected : selected.isEmpty = true :=
          Std.TreeSet.isEmpty_iff_forall_not_mem.mpr fun id member =>
            no_direct ⟨delivery, id, member⟩
        simp [leaves_empty, no_administrator, none_selected]

end Projection

end Policy
end NixSeal
