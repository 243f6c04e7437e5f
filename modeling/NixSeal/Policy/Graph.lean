import NixSeal.Core.Plan

/-!
# Groups and consumers of a plan

The traversals of the authorization graph: expansion of references to the leaves of their groups,
the selection of consumer targets, the fallback walk of `target_is_consumer`, and the layered
removal that rejects cyclic groups and generators.  A traversal that may loop is given as many
steps as the plan has groups or generators; it never needs more.
-/

namespace NixSeal
namespace Policy

/-- Policy compilation error with no secret-bearing context. -/
inductive PolicyError where
  /-- JSON encoding failed. -/
  | json
  /-- Schema version is unsupported. -/
  | schema (value : String)
  /-- Two sources declare the same object identifier. -/
  | duplicate (kind : String) (id : Id)
  /-- A policy invariant failed. -/
  | violation (message : String)
  deriving DecidableEq

/-- State of `expand_group_leaves`. -/
structure Expansion where
  /-- References found that are no groups. -/
  leaves : Std.TreeSet Id := {}
  /-- Groups still to open, the most recent first. -/
  pending : List Id := []
  /-- Groups found. -/
  visited : Std.TreeSet Id := {}

/-- Records one reference: a leaf, or a group that is opened once. -/
def Expansion.record (plan : Plan) (state : Expansion) (reference : Id) : Expansion :=
  if plan.groups.contains reference then
    if state.visited.contains reference then state
    else
      { state with
        pending := reference :: state.pending
        visited := state.visited.insert reference }
  else { state with leaves := state.leaves.insert reference }

/-- The loop of `expand_group_leaves` over pending groups. -/
def expandPending (plan : Plan) : Nat → Expansion → Except PolicyError (Std.TreeSet Id)
  | steps, state =>
      match state.pending with
      | [] => .ok state.leaves
      | groupId :: rest =>
          match steps with
          | 0 => .error (.violation "group expansion exceeds the number of groups")
          | steps + 1 =>
              match plan.groups[groupId]? with
              | none => .error (.violation s!"missing group {groupId}")
              | some group =>
                  expandPending plan steps
                    (group.members.foldl (Expansion.record plan) { state with pending := rest })

/-- `expand_group_leaves`. -/
def expandGroupLeaves (plan : Plan) (references : List Id) :
    Except PolicyError (Std.TreeSet Id) :=
  expandPending plan plan.groups.size (references.foldl (Expansion.record plan) {})

/-- The filter of `selected_consumer_targets` on one candidate. -/
def TargetSelectors.matchesTarget (selectors : TargetSelectors) (target : Target) : Bool :=
  (selectors.kinds.isEmpty || selectors.kinds.contains target.kind) &&
    (selectors.systems.isEmpty || selectors.systems.contains target.system) &&
    (selectors.usernames.isEmpty || target.username.any selectors.usernames.contains) &&
    (selectors.configurations.isEmpty ||
      target.configuration.any selectors.configurations.contains) &&
    (selectors.environments.isEmpty || target.environment.any selectors.environments.contains) &&
    selectors.tags.all fun tag => target.tags.any fun candidate => candidate == tag

/-- `selected_consumer_targets`. -/
def selectedConsumerTargets (plan : Plan) (secret : Secret) :
    Except PolicyError (Std.TreeSet Id) := do
  let selected ← expandGroupLeaves plan secret.consumers
  let selectors := secret.selectors
  if selectors = {} then .ok selected
  else do
    let hasBase := !selectors.targets.isEmpty || !selectors.groups.isEmpty
    let base : Std.TreeSet Id :=
      if hasBase then Std.TreeSet.ofList selectors.targets
      else Std.TreeSet.ofList plan.targets.keys
    let candidates ← selectors.groups.foldlM
      (fun candidates group => do
        let leaves ← expandGroupLeaves plan [group]
        .ok (candidates ∪ leaves))
      base
    let retained := candidates.filter fun targetId =>
      match plan.targets[targetId]? with
      | none => false
      | some target => TargetSelectors.matchesTarget selectors target
    let selected := selected ∪ retained
    if selected.toList.any fun targetId => !plan.targets.contains targetId then
      .error (.violation "secret consumer references a non-target object")
    else .ok selected

/-- State of the walk in `target_is_consumer`. -/
structure Search where
  /-- Groups still to open, the most recent first. -/
  pending : List Id := []
  /-- Groups found. -/
  visited : Std.TreeSet Id := {}

/-- Scans references for a target; `none` when the target is found. -/
def Search.scan (plan : Plan) (targetId : Id) : List Id → Search → Option Search
  | [], search => some search
  | reference :: rest, search =>
      if reference = targetId then none
      else if plan.groups.contains reference && !search.visited.contains reference then
        scan plan targetId rest
          { pending := reference :: search.pending, visited := search.visited.insert reference }
      else scan plan targetId rest search

/-- The loop of `target_is_consumer` over pending groups. -/
def searchPending (plan : Plan) (targetId : Id) : Nat → Search → Bool
  | 0, _ => false
  | steps + 1, search =>
      match search.pending with
      | [] => false
      | groupId :: rest =>
          match plan.groups[groupId]? with
          | none => searchPending plan targetId steps { search with pending := rest }
          | some group =>
              match Search.scan plan targetId group.members { search with pending := rest } with
              | none => true
              | some search => searchPending plan targetId steps search

/-- `target_is_consumer`. -/
def targetIsConsumer (plan : Plan) (secret : Secret) (targetId : Id) : Bool :=
  (match selectedConsumerTargets plan secret with
    | .ok targets => targets.contains targetId
    | .error _ => false) ||
  match Search.scan plan targetId secret.consumers {} with
  | none => true
  | some search => searchPending plan targetId plan.groups.size search

/-- A dependency graph under layered removal: the number of unmet dependencies of each node and,
for each node, the nodes that depend on it. -/
structure Layers where
  /-- Unmet dependencies. -/
  indegree : Std.TreeMap Id Nat := {}
  /-- Dependent nodes, in the order they were declared. -/
  dependents : Std.TreeMap Id (List Id) := {}

namespace Layers

/-- Declares a node with its distinct dependencies. -/
def declare (layers : Layers) (node : Id) (dependencies : Std.TreeSet Id) : Layers where
  indegree := layers.indegree.insert node dependencies.size
  dependents := dependencies.toList.foldl
    (fun dependents dependency =>
      dependents.insert dependency (dependents[dependency]?.getD [] ++ [node]))
    layers.dependents

/-- Nodes without dependencies, in order. -/
def ready (layers : Layers) : List Id :=
  layers.indegree.toList.filterMap fun entry => if entry.2 = 0 then some entry.1 else none

/-- Meets one dependency of each listed node and queues the nodes left without any. -/
def release (label : String) :
    List Id → Std.TreeMap Id Nat → List Id →
      Except PolicyError (Std.TreeMap Id Nat × List Id)
  | [], indegree, queue => .ok (indegree, queue)
  | dependent :: rest, indegree, queue =>
      match indegree[dependent]? with
      | none => .error (.violation s!"{label} graph is internally inconsistent")
      | some 0 => .error (.violation s!"{label} graph is internally inconsistent")
      | some (count + 1) =>
          release label rest (indegree.insert dependent count)
            (if count = 0 then queue ++ [dependent] else queue)

/-- Removes ready nodes until none is left and counts them. -/
def drain (label : String) (dependents : Std.TreeMap Id (List Id)) :
    Nat → Std.TreeMap Id Nat → List Id → Nat → Except PolicyError Nat
  | steps, indegree, queue, visited =>
      match queue with
      | [] => .ok visited
      | node :: rest =>
          match steps with
          | 0 => .error (.violation s!"{label} graph exceeds implementation limits")
          | steps + 1 =>
              if visited + 1 < 2 ^ 64 then do
                let (indegree, queue) ←
                  release label (dependents[node]?.getD []) indegree rest
                drain label dependents steps indegree queue (visited + 1)
              else .error (.violation s!"{label} graph exceeds implementation limits")

/-- The number of nodes that layered removal reaches. -/
def visit (label : String) (layers : Layers) : Except PolicyError Nat :=
  drain label layers.dependents layers.indegree.size layers.indegree layers.ready 0

end Layers

/-- Checks of `validate_group_graph` on one group. -/
def validateGroup (plan : Plan) (groupId : Id) (group : Group) : Except PolicyError Unit :=
  if 10000 < group.members.length then
    .error (.violation s!"group {groupId} exceeds the 10000 member limit")
  else
    group.members.forM fun member =>
      if (plan.groups.contains member).toNat + (plan.targets.contains member).toNat +
          (plan.identities.contains member).toNat ≠ 1 then
        .error (.violation s!"group {groupId} member {member} must resolve to exactly one group, target, or identity")
      else .ok ()

/-- `validate_group_graph`. -/
def validateGroupGraph (plan : Plan) : Except PolicyError Unit := do
  let layers ← plan.groups.toList.foldlM
    (fun (layers : Layers) entry => do
      validateGroup plan entry.1 entry.2
      .ok (layers.declare entry.1
        (Std.TreeSet.ofList (entry.2.members.filter plan.groups.contains))))
    {}
  let visited ← layers.visit "group"
  if visited ≠ plan.groups.size then
    .error (.violation "group membership graph contains a cycle")
  else .ok ()

end Policy
end NixSeal
