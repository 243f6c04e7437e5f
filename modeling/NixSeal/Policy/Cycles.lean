import NixSeal.Policy.Layers

/-!
# Exact cycle checks

The layered removals of `validate_group_graph` and `validate_generator_graph` always return, and
remove every node exactly when no node depends on itself.
-/

namespace NixSeal
namespace Policy

open Fallible Layering

namespace Layers

variable (label : String) {needs : Id → List Id} {nodes removed : List Id}

theorem exists_release {pending queue : List Id} {indegree : Std.TreeMap Id Nat}
    (exact : Exact needs (fun id => indegree[id]?) removed queue pending)
    (distinct : pending.Nodup) (known : ∀ id ∈ pending, id ∈ indegree) :
    ∃ released, release label pending indegree queue = .ok released ∧
      Exact needs (fun id => released.1[id]?) removed released.2 [] ∧
        ∀ id, id ∈ released.1 ↔ id ∈ indegree := by
  induction pending generalizing indegree queue with
  | nil => exact ⟨(indegree, queue), rfl, exact, fun _ => Iff.rfl⟩
  | cons dependent rest ih =>
      have member := known dependent (List.mem_cons_self ..)
      have stored : ∃ left, indegree[dependent]? = some left :=
        Option.isSome_iff_exists.mp (Std.TreeMap.mem_iff_isSome_getElem?.mp member)
      obtain ⟨left, found⟩ := exact.exists_count stored
      have changed := fun other => Ordered.getElem?_insert_eq indegree dependent other left
      have same : ∀ id, id ∈ indegree.insert dependent left ↔ id ∈ indegree := by
        intro id
        rw [Std.TreeMap.mem_insert, Std.LawfulEqCmp.compare_eq_iff_eq]
        constructor
        · rintro (rfl | inside)
          · exact member
          · exact inside
        · exact .inr
      obtain ⟨released, returned, exact, keys⟩ := ih (exact.release distinct found changed)
        (List.nodup_cons.mp distinct).2
        fun id listed => (same id).mpr (known id (List.mem_cons_of_mem _ listed))
      refine ⟨released, ?_, exact, fun id => (keys id).trans (same id)⟩
      rw [release, found]
      exact returned

/-- As many steps as there are nodes drain the queue. -/
theorem exists_drain {dependents : Std.TreeMap Id (List Id)}
    (declared : ∀ id, (dependents[id]?.getD []).Nodup ∧
      ∀ other, other ∈ dependents[id]?.getD [] ↔ other ∈ nodes ∧ id ∈ needs other)
    (distinct : ∀ id, (needs id).Nodup) (bounded : nodes.length < 2 ^ 64) {steps : Nat}
    {queue : List Id} {indegree : Std.TreeMap Id Nat}
    (exact : Exact needs (fun id => indegree[id]?) removed queue [])
    (known : ∀ id, id ∈ nodes ↔ id ∈ indegree) (fuel : nodes.length ≤ removed.length + steps) :
    ∃ (final : Std.TreeMap Id Nat) (order : List Id),
      drain label dependents steps indegree queue removed.length = .ok order.length ∧
        Exact needs (fun id => final[id]?) order [] [] ∧ ∀ id, id ∈ nodes ↔ id ∈ final := by
  have room := fun {removed queue : List Id} {indegree : Std.TreeMap Id Nat}
      (removal : Removal needs (fun id => indegree[id]?) removed queue)
      (known : ∀ id, id ∈ nodes ↔ id ∈ indegree) => removal.length_le nodes
        fun node found => (known node).mpr (by
          rw [Std.TreeMap.mem_iff_isSome_getElem?, found]
          rfl)
  induction steps generalizing indegree queue removed with
  | zero =>
      cases queue with
      | nil => exact ⟨indegree, removed, rfl, exact, known⟩
      | cons node rest =>
          have bound := room exact.removal known
          simp only [List.length_append, List.length_cons] at bound
          omega
  | succ steps ih =>
      cases queue with
      | nil => exact ⟨indegree, removed, rfl, exact, known⟩
      | cons node rest =>
          have bound := room exact.removal known
          simp only [List.length_append, List.length_cons] at bound
          have removal := exact.remove distinct
            (fun other listed => ((declared node).2 other |>.mp listed).2)
            fun other left found needed => (declared node).2 other |>.mpr
              ⟨(known other).mpr (by
                rw [Std.TreeMap.mem_iff_isSome_getElem?, found]
                rfl), needed⟩
          obtain ⟨released, returned, exact, keys⟩ := exists_release label removal
            (declared node).1 fun other listed =>
              (known other).mp ((declared node).2 other |>.mp listed).1
          have length : (removed ++ [node]).length = removed.length + 1 := by simp
          obtain ⟨final, order, drained, ended, known⟩ := ih exact
            (fun id => (known id).trans (keys id).symm) (by omega)
          refine ⟨final, order, ?_, ended, known⟩
          rw [drain, if_pos (by omega), returned, ok_bind, ← length]
          exact drained

/-- Every node of a list is declared, with the distinct nodes it needs. -/
structure Declared (needs : Id → List Id) (nodes : List Id) (layers : Layers) : Prop where
  counted : ∀ id count, layers.indegree[id]? = some count ↔ id ∈ nodes ∧ count = (needs id).length
  distinct : ∀ id : Id, (layers.dependents[id]?.getD []).Nodup
  needing : ∀ id other : Id,
    other ∈ layers.dependents[id]?.getD [] ↔ other ∈ nodes ∧ id ∈ needs other

namespace Declared

variable {layers : Layers}

theorem none : Declared needs [] {} := by
  refine ⟨by simp, by simp, by simp⟩

theorem declare (declared : Declared needs nodes layers) {node : Id} (fresh : node ∉ nodes)
    {dependencies : Std.TreeSet Id} (listed : needs node = dependencies.toList) :
    Declared needs (nodes ++ [node]) (layers.declare node dependencies) := by
  refine ⟨fun id count => ?_, fun id => ?_, fun id other => ?_⟩
  · rw [Layers.declare, Ordered.getElem?_insert_eq]
    split_ifs with same
    · subst same
      rw [Option.some.injEq, listed, Std.TreeSet.length_toList, eq_comm]
      simp
    · rw [declared.counted]
      simp [Ne.symm same]
  · rw [getD_dependents_declare]
    split_ifs
    · rw [← List.concat_eq_append, List.nodup_concat]
      exact ⟨fun member => fresh ((declared.needing id node).mp member).1, declared.distinct id⟩
    · rw [List.append_nil]
      exact declared.distinct id
  · rw [getD_dependents_declare, List.mem_append, declared.needing, List.mem_append,
      List.mem_singleton]
    by_cases same : other = node
    · subst same
      simp [fresh, listed]
    · split_ifs <;> simp [same]

theorem mem_iff (declared : Declared needs nodes layers) (id : Id) :
    id ∈ nodes ↔ id ∈ layers.indegree := by
  rw [Std.TreeMap.mem_iff_isSome_getElem?, Option.isSome_iff_exists]
  simp only [declared.counted, exists_and_left, exists_eq, and_true]

/-- The removal of declared nodes counts all of them exactly when there are no cycles. -/
theorem exists_visit (declared : Declared needs nodes layers) (listed : nodes.Nodup)
    (distinct : ∀ id, (needs id).Nodup) (closed : ∀ id other, other ∈ needs id → other ∈ nodes)
    (bounded : nodes.length < 2 ^ 64) :
    ∃ visited, layers.visit label = .ok visited ∧
      (visited = nodes.length ↔ Acyclic needs) := by
  have idle : ∀ id, id ∈ layers.ready ↔ layers.indegree[id]? = some 0 := by
    intro id
    refine ⟨idle_of_mem_ready, fun found => ?_⟩
    rw [ready_eq, List.mem_map]
    exact ⟨(id, 0), by simp [found], rfl⟩
  have started : Exact needs (fun id => layers.indegree[id]?) [] layers.ready [] :=
    Exact.start layers.nodup_ready idle fun id left found => ((declared.counted id left).mp found).2
  have size : nodes.length = layers.indegree.size := by
    refine Ordered.length_of_perm_keys ?_
    rw [List.perm_ext_iff_of_nodup listed Std.TreeMap.nodup_keys]
    exact fun id => (declared.mem_iff id).trans Std.TreeMap.mem_keys.symm
  have fuel : nodes.length ≤ ([] : List Id).length + layers.indegree.size := by
    rw [size, List.length_nil, Nat.zero_add]
  obtain ⟨final, order, drained, ended, known⟩ := exists_drain label
    (fun id => ⟨declared.distinct id, declared.needing id⟩) distinct bounded started
    declared.mem_iff fuel
  refine ⟨order.length, drained, ended.length_eq_iff listed (fun id => ?_) closed⟩
  rw [known, Std.TreeMap.mem_iff_isSome_getElem?, Option.isSome_iff_exists]

end Declared
end Layers

/-- The nodes among a list of references, each once and in order. -/
def distinctNodes (needs : Id → List Id) (id : Id) : List Id :=
  (Std.TreeSet.ofList (needs id)).toList

theorem mem_distinctNodes {needs : Id → List Id} {id other : Id} :
    other ∈ distinctNodes needs id ↔ other ∈ needs id := by
  rw [distinctNodes, Std.TreeSet.mem_toList, Std.TreeSet.mem_ofList, List.contains_iff_mem]

theorem nodup_distinctNodes (needs : Id → List Id) (id : Id) : (distinctNodes needs id).Nodup :=
  Ordered.nodup_of_ordered Std.TreeSet.ordered_toList

theorem acyclic_distinctNodes {needs : Id → List Id} :
    Acyclic (distinctNodes needs) ↔ Acyclic needs :=
  acyclic_congr fun _ _ => mem_distinctNodes

theorem exists_visit_keys {β : Type} {map : Std.TreeMap Id β} {needs : Id → List Id}
    {layers : Layers} (label : String)
    (declared : Layers.Declared (distinctNodes needs) map.keys layers)
    (closed : ∀ id other, other ∈ needs id → other ∈ map) (bounded : map.size < 2 ^ 64) :
    ∃ visited, layers.visit label = .ok visited ∧ (visited = map.size ↔ Acyclic needs) := by
  rw [← Std.TreeMap.length_keys] at bounded ⊢
  obtain ⟨visited, visits, all⟩ := declared.exists_visit label Std.TreeMap.nodup_keys
    (nodup_distinctNodes needs)
    (fun id other needed => Std.TreeMap.mem_keys.mpr (closed id other (mem_distinctNodes.mp needed)))
    bounded
  exact ⟨visited, visits, all.trans acyclic_distinctNodes⟩

/-- A fold that declares the entries of a map one after another declares all keys. -/
theorem declared_of_foldlM {β σ : Type} {map : Std.TreeMap Id β} {needs : Id → List Id}
    {step : σ → Id × β → Except PolicyError σ} (layersOf : σ → Layers) {init final : σ}
    (folded : map.toList.foldlM step init = .ok final) (start : layersOf init = {})
    (turn : ∀ state id value next, map[id]? = some value → step state (id, value) = .ok next →
      layersOf next = (layersOf state).declare id (Std.TreeSet.ofList (needs id))) :
    Layers.Declared (distinctNodes needs) map.keys (layersOf final) := by
  rw [← Std.TreeMap.map_fst_toList_eq_keys]
  refine foldlM_eq_ok_split folded (fun done state =>
    Layers.Declared (distinctNodes needs) (done.map Prod.fst) (layersOf state)) ?_ ?_
  · rw [start]
    exact Layers.Declared.none
  · intro done entry rest state next split stepped declared
    have stored : map[entry.1]? = some entry.2 :=
      Std.TreeMap.mem_toList_iff_getElem?_eq_some.mp (by simp [split])
    have keys : (map.toList.map Prod.fst).Nodup := by
      rw [Std.TreeMap.map_fst_toList_eq_keys]
      exact Std.TreeMap.nodup_keys
    rw [split, List.map_append, List.nodup_append] at keys
    rw [turn state entry.1 entry.2 next stored stepped, List.map_append]
    exact declared.declare (fun member => keys.2.2 _ member entry.1 (by simp) rfl) rfl

/-! ## Groups -/

/-- The groups among the members of a group. -/
def groupNeeds (plan : Plan) (id : Id) : List Id :=
  ((plan.groups[id]?.map Group.members).getD []).filter plan.groups.contains

/-- The members of every group are within the limit, and each is one group, target or identity. -/
structure GroupsResolve (plan : Plan) : Prop where
  bounded : ∀ (id : Id) (group : Group), plan.groups[id]? = some group →
    group.members.length ≤ 10000
  resolve : ∀ (id : Id) (group : Group), plan.groups[id]? = some group →
    ∀ member ∈ group.members,
      (plan.groups.contains member).toNat + (plan.targets.contains member).toNat +
        (plan.identities.contains member).toNat = 1

/-- The first loop of `validate_group_graph`. -/
def declareGroups (plan : Plan) : Except PolicyError Layers :=
  plan.groups.toList.foldlM
    (fun (layers : Layers) entry => do
      validateGroup plan entry.1 entry.2
      .ok (layers.declare entry.1
        (Std.TreeSet.ofList (entry.2.members.filter plan.groups.contains))))
    {}

theorem validateGroup_eq_ok {plan : Plan} (resolve : GroupsResolve plan) {id : Id} {group : Group}
    (stored : plan.groups[id]? = some group) : validateGroup plan id group = .ok () := by
  rw [validateGroup, guard_eq_ok, not_lt]
  refine ⟨resolve.bounded id group stored, forM_eq_ok.mpr fun member listed => ?_⟩
  rw [guard_eq_ok, not_not]
  exact ⟨resolve.resolve id group stored member listed, rfl⟩

theorem exists_declareGroups {plan : Plan} (resolve : GroupsResolve plan) :
    ∃ layers, declareGroups plan = .ok layers := by
  refine exists_foldlM fun layers entry member => ?_
  rw [validateGroup_eq_ok resolve (Std.TreeMap.mem_toList_iff_getElem?_eq_some.mp member)]
  exact ⟨_, rfl⟩

/-- The second loop of `validate_group_graph` returns, with all groups exactly when no group is
its own member. -/
theorem exists_visit_groups {plan : Plan} {layers : Layers}
    (declares : declareGroups plan = .ok layers) (bounded : plan.groups.size < 2 ^ 64) :
    ∃ visited, layers.visit "group" = .ok visited ∧
      (visited = plan.groups.size ↔ Acyclic (groupNeeds plan)) := by
  refine exists_visit_keys "group" ?_ ?_ bounded
  · refine declared_of_foldlM id declares rfl ?_
    intro layers id group next stored stepped
    obtain ⟨⟨⟩, -, returned⟩ := bind_eq_ok.mp stepped
    cases returned
    rw [groupNeeds, stored]
    rfl
  · intro id other needed
    exact Std.TreeMap.contains_iff_mem.mp (List.mem_filter.mp needed).2

/-- What `validate_group_graph` returns once the groups resolve. -/
theorem validateGroupGraph_cases {plan : Plan} (resolve : GroupsResolve plan)
    (bounded : plan.groups.size < 2 ^ 64) :
    Acyclic (groupNeeds plan) ∧ validateGroupGraph plan = .ok () ∨
      ¬ Acyclic (groupNeeds plan) ∧ validateGroupGraph plan =
        .error (.violation "group membership graph contains a cycle") := by
  obtain ⟨layers, declares⟩ := exists_declareGroups resolve
  obtain ⟨visited, visits, all⟩ := exists_visit_groups declares bounded
  have unfolded : validateGroupGraph plan =
      if visited ≠ plan.groups.size then
        .error (.violation "group membership graph contains a cycle")
      else .ok () := by
    change (declareGroups plan >>= _) = _
    rw [declares, ok_bind, visits, ok_bind]
  rw [unfolded, ← all]
  by_cases whole : visited = plan.groups.size
  · exact .inl ⟨whole, if_neg (not_not.mpr whole)⟩
  · exact .inr ⟨whole, if_pos whole⟩

/-- Two plans have the same groups, each with the same members in any order and repetition. -/
structure SameMembership (left right : Plan) : Prop where
  groups : ∀ id : Id, id ∈ left.groups ↔ id ∈ right.groups
  members : ∀ (id : Id) (first second : Group), left.groups[id]? = some first →
    right.groups[id]? = some second → ∀ member, member ∈ first.members ↔ member ∈ second.members

theorem SameMembership.mem_groupNeeds {left right : Plan} (same : SameMembership left right)
    (id other : Id) : other ∈ groupNeeds left id ↔ other ∈ groupNeeds right id := by
  simp only [groupNeeds, List.mem_filter, Std.TreeMap.contains_iff_mem, same.groups other]
  refine and_congr_left fun _ => ?_
  have known := same.groups id
  rw [Std.TreeMap.mem_iff_isSome_getElem?, Std.TreeMap.mem_iff_isSome_getElem?] at known
  cases first : left.groups[id]? with
  | none =>
      cases second : right.groups[id]? with
      | none => simp
      | some group => simp [first, second] at known
  | some group =>
      cases second : right.groups[id]? with
      | none => simp [first, second] at known
      | some group' => exact same.members id group group' first second other

/-! ## Generators -/

/-- The dependencies of every generator are within the limit, and each is a generator. -/
structure GeneratorsResolve (plan : Plan) : Prop where
  bounded : ∀ (id : Id) (generator : Generator), plan.generators[id]? = some generator →
    generator.dependencies.length ≤ 10000
  resolve : ∀ (id : Id) (generator : Generator), plan.generators[id]? = some generator →
    ∀ dependency ∈ generator.dependencies, dependency ∈ plan.generators

/-- No generator lists a dependency twice. -/
def GeneratorsOnce (plan : Plan) : Prop :=
  ∀ (id : Id) (generator : Generator), plan.generators[id]? = some generator →
    generator.dependencies.Nodup

/-- What `validate_generator_graph` does with the dependencies of one generator. -/
def declareDependencies (plan : Plan) (layers : Layers) (entry : Id × Generator) :
    Except PolicyError Layers :=
  let (generatorId, generator) := entry
  let dependencies := Std.TreeSet.ofList generator.dependencies
  if dependencies.size ≠ generator.dependencies.length then
    .error (.violation s!"generator {generatorId} contains duplicate dependencies")
  else do
    dependencies.toList.forM fun dependency =>
      if !plan.generators.contains dependency then
        .error (.violation
          s!"generator {generatorId} references missing dependency {dependency}")
      else .ok ()
    .ok (layers.declare generatorId dependencies)

/-- The graph part of `validate_generator_graph`. -/
def validateGeneratorDependencies (plan : Plan) : Except PolicyError Unit := do
  let layers ← plan.generators.toList.foldlM (declareDependencies plan) {}
  let visited ← layers.visit "generator"
  if visited ≠ plan.generators.size then
    .error (.violation "generator dependency graph contains a cycle")
  else .ok ()

theorem declareDependencies_eq_ok {plan : Plan} {layers next : Layers} {id : Id}
    {generator : Generator} :
    declareDependencies plan layers (id, generator) = .ok next ↔
      generator.dependencies.Nodup ∧ (∀ other ∈ generator.dependencies, other ∈ plan.generators) ∧
        next = layers.declare id (Std.TreeSet.ofList generator.dependencies) := by
  simp only [declareDependencies, guard_eq_ok, not_not, Ordered.size_ofList_eq_length_iff]
  refine and_congr_right fun _ => ?_
  constructor
  · intro checked
    obtain ⟨⟨⟩, known, returned⟩ := bind_eq_ok.mp checked
    cases returned
    refine ⟨fun other needed => ?_, rfl⟩
    have listed : other ∈ (Std.TreeSet.ofList generator.dependencies).toList := by
      rw [Std.TreeSet.mem_toList, Std.TreeSet.mem_ofList]
      simpa using needed
    have check := forM_eq_ok.mp known other listed
    rw [guard_eq_ok, Bool.not_eq_true', Bool.not_eq_false] at check
    exact Std.TreeMap.contains_iff_mem.mp check.1
  · rintro ⟨known, rfl⟩
    refine bind_eq_ok.mpr ⟨⟨⟩, forM_eq_ok.mpr fun other listed => ?_, rfl⟩
    rw [Std.TreeSet.mem_toList, Std.TreeSet.mem_ofList, List.contains_iff_mem] at listed
    rw [guard_eq_ok, Bool.not_eq_true', Bool.not_eq_false]
    exact ⟨Std.TreeMap.contains_iff_mem.mpr (known other listed), rfl⟩

theorem exists_declareDependencies_iff {plan : Plan} (resolve : GeneratorsResolve plan) :
    (∃ layers, plan.generators.toList.foldlM (declareDependencies plan) {} = .ok layers) ↔
      GeneratorsOnce plan := by
  constructor
  · rintro ⟨layers, folded⟩ id generator stored
    obtain ⟨before, after, stepped⟩ := step_of_foldlM_eq_ok folded
      (Std.TreeMap.mem_toList_iff_getElem?_eq_some.mpr stored)
    exact (declareDependencies_eq_ok.mp stepped).1
  · intro once
    refine exists_foldlM fun layers entry member => ?_
    obtain ⟨id, generator⟩ := entry
    have stored := Std.TreeMap.mem_toList_iff_getElem?_eq_some.mp member
    exact ⟨_, declareDependencies_eq_ok.mpr
      ⟨once id generator stored, resolve.resolve id generator stored, rfl⟩⟩

/-- The loop of `validate_generator_graph` returns, with all generators exactly when none depends
on itself. -/
theorem exists_visit_generators {plan : Plan} {layers : Layers}
    (declares : plan.generators.toList.foldlM (declareDependencies plan) {} = .ok layers)
    (bounded : plan.generators.size < 2 ^ 64) :
    ∃ visited, layers.visit "generator" = .ok visited ∧
      (visited = plan.generators.size ↔ Acyclic (generatorNeeds plan)) := by
  refine exists_visit_keys "generator" ?_ ?_ bounded
  · refine declared_of_foldlM id declares rfl ?_
    intro layers id generator next stored stepped
    rw [generatorNeeds_of_stored stored]
    exact (declareDependencies_eq_ok.mp stepped).2.2
  · intro id other needed
    cases stored : plan.generators[id]? with
    | none => simp [generatorNeeds, stored] at needed
    | some generator =>
        obtain ⟨before, after, stepped⟩ := step_of_foldlM_eq_ok declares
          (Std.TreeMap.mem_toList_iff_getElem?_eq_some.mpr stored)
        rw [generatorNeeds_of_stored stored] at needed
        exact (declareDependencies_eq_ok.mp stepped).2.1 other needed

/-- What the graph part of `validate_generator_graph` returns once the dependencies resolve and
none is repeated. -/
theorem validateGeneratorDependencies_cases {plan : Plan} (resolve : GeneratorsResolve plan)
    (once : GeneratorsOnce plan) (bounded : plan.generators.size < 2 ^ 64) :
    Acyclic (generatorNeeds plan) ∧ validateGeneratorDependencies plan = .ok () ∨
      ¬ Acyclic (generatorNeeds plan) ∧ validateGeneratorDependencies plan =
        .error (.violation "generator dependency graph contains a cycle") := by
  obtain ⟨layers, declares⟩ := (exists_declareDependencies_iff resolve).mpr once
  obtain ⟨visited, visits, all⟩ := exists_visit_generators declares bounded
  rw [validateGeneratorDependencies, declares, ok_bind, visits, ok_bind, ← all]
  by_cases whole : visited = plan.generators.size
  · exact .inl ⟨whole, if_neg (not_not.mpr whole)⟩
  · exact .inr ⟨whole, if_pos whole⟩

theorem foldlM_declareDependencies {plan : Plan} {sources : Std.TreeSet String}
    {items : List (Id × Generator)} {before after : GeneratorScan}
    (scanned : items.foldlM (validateGenerator plan sources) before = .ok after) :
    items.foldlM (declareDependencies plan) before.layers = .ok after.layers := by
  induction items generalizing before with
  | nil =>
      cases scanned
      rfl
  | cons entry rest ih =>
      obtain ⟨id, generator⟩ := entry
      rw [List.foldlM_cons] at scanned ⊢
      obtain ⟨middle, stepped, remaining⟩ := bind_eq_ok.mp scanned
      have declares := scanned_of_validateGenerator stepped
      rw [declareDependencies_eq_ok.mpr ⟨Ordered.size_ofList_eq_length_iff.mp declares.unrepeated,
        declares.known, declares.layers⟩, ok_bind]
      exact ih remaining

/-- `validate_generator_graph` accepts when its graph part and its other checks do. -/
theorem validateGeneratorGraph_eq_ok {plan : Plan} :
    validateGeneratorGraph plan = .ok () ↔
      (∃ scan, plan.generators.toList.foldlM (validateGenerator plan
          (Std.TreeSet.ofList (plan.secrets.toList.map fun entry => entry.2.source))) {} =
            .ok scan ∧
          validateGeneratedSecretDependencyOrder plan scan.outputs.producers = .ok ()) ∧
        validateGeneratorDependencies plan = .ok () := by
  simp only [validateGeneratorGraph, validateGeneratorDependencies, bind_eq_ok, guard_eq_ok,
    not_not]
  constructor
  · rintro ⟨scan, scanned, visited, visits, whole, ordered⟩
    exact ⟨⟨scan, scanned, ordered⟩, scan.layers, foldlM_declareDependencies scanned, visited,
      visits, whole, trivial⟩
  · rintro ⟨⟨scan, scanned, ordered⟩, layers, declares, visited, visits, whole, -⟩
    have same := foldlM_declareDependencies scanned
    cases declares.symm.trans same
    exact ⟨scan, scanned, visited, visits, whole, ordered⟩

namespace Sample

/-- A generator that depends on no other. -/
def upstream : Id := ⟨"upstream", by decide⟩

/-- A generator that depends on the other one. -/
def downstream : Id := ⟨"downstream", by decide⟩

/-- The generator under `upstream`. -/
def upstreamGenerator : Generator where
  executable := "/nix/store/upstream/bin/generate"
  outputs := []
  publicOutputs := [⟨upstream, "public/upstream"⟩]

/-- The generator under `downstream`, which lists its dependency twice. -/
def downstreamGenerator : Generator where
  executable := "/nix/store/downstream/bin/generate"
  dependencies := [upstream, upstream]
  outputs := []
  publicOutputs := [⟨downstream, "public/downstream"⟩]

/-- A plan with the two generators. -/
def repeatedPlan : Plan where
  generators :=
    Std.TreeMap.ofList [(upstream, upstreamGenerator), (downstream, downstreamGenerator)]

theorem generator_repeatedPlan {id : Id} {generator : Generator}
    (stored : repeatedPlan.generators[id]? = some generator) :
    generator.dependencies = if id = downstream then [upstream, upstream] else [] := by
  have listed := (Ordered.getElem?_ofList_eq_some (by decide)).mp stored
  simp only [List.mem_cons, Prod.mk.injEq, List.not_mem_nil, or_false] at listed
  rcases listed with ⟨rfl, rfl⟩ | ⟨rfl, rfl⟩
  · rfl
  · rfl

end Sample

/-- No generator of the sample depends on itself, and one is refused for its repetition. -/
theorem repeated_dependency_refused :
    GeneratorsResolve Sample.repeatedPlan ∧ Acyclic (generatorNeeds Sample.repeatedPlan) ∧
      validateGeneratorDependencies Sample.repeatedPlan =
        .error (.violation "generator downstream contains duplicate dependencies") ∧
      validateGeneratorGraph Sample.repeatedPlan =
        .error (.violation "generator downstream contains duplicate dependencies") := by
  have needed : ∀ id other, other ∈ generatorNeeds Sample.repeatedPlan id →
      id = Sample.downstream ∧ other = Sample.upstream := by
    intro id other member
    cases stored : Sample.repeatedPlan.generators[id]? with
    | none => simp [generatorNeeds, stored] at member
    | some generator =>
        rw [generatorNeeds_of_stored stored, Sample.generator_repeatedPlan stored] at member
        split_ifs at member with same
        · simp only [List.mem_cons, List.not_mem_nil, or_false, or_self] at member
          exact ⟨same, member⟩
        · cases member
  refine ⟨⟨fun id generator stored => ?_, fun id generator stored => ?_⟩, ?_, ?_, ?_⟩
  · rw [Sample.generator_repeatedPlan stored]
    split_ifs <;> simp
  · rw [Sample.generator_repeatedPlan stored]
    split_ifs
    · simp only [List.mem_cons, List.not_mem_nil, or_false, or_self, forall_eq]
      decide
    · simp
  · have layered : Layered (generatorNeeds Sample.repeatedPlan) ([] ++ [Sample.upstream]) :=
      layered_nil.concat fun other member => absurd (needed _ other member).1 (by decide)
    exact layered.acyclic fun id other member => by simp [(needed id other member).2]
  · decide +kernel
  · decide +kernel

/-- The cycle checks are exact: over groups that resolve, a plan is accepted exactly when no group
is its own member, whatever the order and the repetition of members; over dependencies that resolve,
exactly when none is repeated and no generator depends on itself; and the loops always return. -/
theorem cycle_checks_exact :
    (∀ plan : Plan, GroupsResolve plan → plan.groups.size < 2 ^ 64 →
      Acyclic (groupNeeds plan) ∧ validateGroupGraph plan = .ok () ∨
        ¬ Acyclic (groupNeeds plan) ∧ validateGroupGraph plan =
          .error (.violation "group membership graph contains a cycle")) ∧
    (∀ left right : Plan, GroupsResolve left → GroupsResolve right →
      left.groups.size < 2 ^ 64 → right.groups.size < 2 ^ 64 → SameMembership left right →
        validateGroupGraph left = validateGroupGraph right) ∧
    (∀ plan : Plan, GeneratorsResolve plan → plan.generators.size < 2 ^ 64 →
      (validateGeneratorDependencies plan = .ok () ↔
        GeneratorsOnce plan ∧ Acyclic (generatorNeeds plan)) ∧
      (GeneratorsOnce plan → ¬ Acyclic (generatorNeeds plan) →
        validateGeneratorDependencies plan =
          .error (.violation "generator dependency graph contains a cycle"))) ∧
    (∀ plan : Plan, validateGeneratorGraph plan = .ok () ↔
      (∃ scan, plan.generators.toList.foldlM (validateGenerator plan
          (Std.TreeSet.ofList (plan.secrets.toList.map fun entry => entry.2.source))) {} =
            .ok scan ∧
          validateGeneratedSecretDependencyOrder plan scan.outputs.producers = .ok ()) ∧
        validateGeneratorDependencies plan = .ok ()) ∧
    ∀ (plan : Plan) (layers : Layers),
      (declareGroups plan = .ok layers → plan.groups.size < 2 ^ 64 →
        ∃ visited, layers.visit "group" = .ok visited) ∧
      (plan.generators.toList.foldlM (declareDependencies plan) {} = .ok layers →
        plan.generators.size < 2 ^ 64 → ∃ visited, layers.visit "generator" = .ok visited) := by
  refine ⟨fun plan => validateGroupGraph_cases, ?_, ?_, fun plan => validateGeneratorGraph_eq_ok, ?_⟩
  · intro left right one other small small' same
    have cycles := acyclic_congr same.mem_groupNeeds
    rcases validateGroupGraph_cases one small with ⟨acyclic, first⟩ | ⟨cyclic, first⟩
    · rcases validateGroupGraph_cases other small' with ⟨-, second⟩ | ⟨cyclic, -⟩
      · rw [first, second]
      · exact absurd (cycles.mp acyclic) cyclic
    · rcases validateGroupGraph_cases other small' with ⟨acyclic, -⟩ | ⟨-, second⟩
      · exact absurd (cycles.mpr acyclic) cyclic
      · rw [first, second]
  · intro plan resolve small
    refine ⟨⟨fun accepted => ?_, fun accepts => ?_⟩, fun once cyclic => ?_⟩
    · obtain ⟨layers, declares, -⟩ := bind_eq_ok.mp accepted
      have once := (exists_declareDependencies_iff resolve).mp ⟨layers, declares⟩
      rcases validateGeneratorDependencies_cases resolve once small with ⟨acyclic, -⟩ | ⟨-, failed⟩
      · exact ⟨once, acyclic⟩
      · rw [failed] at accepted
        cases accepted
    · rcases validateGeneratorDependencies_cases resolve accepts.1 small with
        ⟨-, passed⟩ | ⟨cyclic, -⟩
      · exact passed
      · exact absurd accepts.2 cyclic
    · rcases validateGeneratorDependencies_cases resolve once small with ⟨acyclic, -⟩ | ⟨-, failed⟩
      · exact absurd acyclic cyclic
      · exact failed
  · intro plan layers
    refine ⟨fun declares small => ?_, fun declares small => ?_⟩
    · obtain ⟨visited, visits, -⟩ := exists_visit_groups declares small
      exact ⟨visited, visits⟩
    · obtain ⟨visited, visits, -⟩ := exists_visit_generators declares small
      exact ⟨visited, visits⟩

end Policy
end NixSeal
