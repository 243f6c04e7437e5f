import NixSeal.Lib.Layering
import NixSeal.Lib.Ordered
import NixSeal.Policy.Accepted

/-!
# Acyclic generator graphs

The layered removal of `validate_generator_graph` ends with every generator removed only when the
generators can be listed after what they depend on.
-/

namespace NixSeal
namespace Policy

open Fallible Layering

namespace Layers

variable {label : String} {needs : Id → List Id} {removed : List Id}

theorem removal_of_release {pending queue : List Id} {indegree : Std.TreeMap Id Nat}
    {released : Std.TreeMap Id Nat × List Id}
    (removal : Removal needs (fun id => indegree[id]?) removed queue) (distinct : pending.Nodup)
    (spare : Spare needs (fun id => indegree[id]?) removed pending)
    (returned : release label pending indegree queue = .ok released) :
    Removal needs (fun id => released.1[id]?) removed released.2 ∧
      ∀ id, id ∈ released.1 → id ∈ indegree := by
  induction pending generalizing indegree queue with
  | nil =>
      cases returned
      exact ⟨removal, fun _ member => member⟩
  | cons dependent rest ih =>
      rw [release] at returned
      split at returned
      · cases returned
      · cases returned
      · rename_i count found
        obtain ⟨removal, spare⟩ := removal.release distinct spare found
          fun other => Ordered.getElem?_insert_eq indegree dependent other count
        obtain ⟨removal, known⟩ := ih removal (List.nodup_cons.mp distinct).2 spare returned
        refine ⟨removal, fun id member => ?_⟩
        rcases Std.TreeMap.mem_insert.mp (known id member) with same | member
        · rw [← Std.LawfulEqOrd.eq_of_compare same, Std.TreeMap.mem_iff_isSome_getElem?, found]
          rfl
        · exact member

theorem removal_of_drain {dependents : Std.TreeMap Id (List Id)}
    (declared : ∀ id, (dependents[id]?.getD []).Nodup ∧
      ∀ other ∈ dependents[id]?.getD [], id ∈ needs other)
    {steps : Nat} {queue : List Id} {indegree : Std.TreeMap Id Nat} {total : Nat}
    (removal : Removal needs (fun id => indegree[id]?) removed queue)
    (drained : drain label dependents steps indegree queue removed.length = .ok total) :
    ∃ (final : Std.TreeMap Id Nat) (order : List Id),
      Removal needs (fun id => final[id]?) order [] ∧ order.length = total ∧
        ∀ id, id ∈ final → id ∈ indegree := by
  induction steps generalizing indegree queue removed with
  | zero =>
      cases queue with
      | nil =>
          cases drained
          exact ⟨indegree, removed, removal, rfl, fun _ member => member⟩
      | cons node rest => cases drained
  | succ steps ih =>
      cases queue with
      | nil =>
          cases drained
          exact ⟨indegree, removed, removal, rfl, fun _ member => member⟩
      | cons node rest =>
          rw [drain] at drained
          split at drained
          · obtain ⟨released, returned, drained⟩ := bind_eq_ok.mp drained
            obtain ⟨removal, spare⟩ := removal.remove (declared node).2
            obtain ⟨removal, known⟩ :=
              removal_of_release removal (declared node).1 spare returned
            have length : (removed ++ [node]).length = removed.length + 1 := by simp
            obtain ⟨final, order, ended, counted, known'⟩ := ih removal (by rw [length]; exact drained)
            exact ⟨final, order, ended, counted, fun id member => known id (known' id member)⟩
          · cases drained

theorem getD_dependents_declare (layers : Layers) (node : Id) (dependencies : Std.TreeSet Id)
    (id : Id) : (layers.declare node dependencies).dependents[id]?.getD [] =
      layers.dependents[id]?.getD [] ++ if id ∈ dependencies then [node] else [] := by
  have general : ∀ (list : List Id), list.Nodup → ∀ dependents : Std.TreeMap Id (List Id),
      (list.foldl (fun dependents dependency =>
        dependents.insert dependency (dependents[dependency]?.getD [] ++ [node]))
        dependents)[id]?.getD [] =
        dependents[id]?.getD [] ++ if id ∈ list then [node] else [] := by
    intro list distinct
    induction list with
    | nil => simp
    | cons first rest ih =>
        intro dependents
        obtain ⟨fresh, distinct⟩ := List.nodup_cons.mp distinct
        rw [List.foldl_cons, ih distinct, Ordered.getElem?_insert_eq]
        by_cases same : first = id
        · subst same
          simp [fresh]
        · simp [same, Ne.symm same]
  have distinct : dependencies.toList.Nodup :=
    Ordered.nodup_of_ordered Std.TreeSet.ordered_toList
  rw [declare, general _ distinct]
  simp only [Std.TreeSet.mem_toList]

theorem ready_eq (layers : Layers) : layers.ready =
    (layers.indegree.toList.filter fun entry => decide (entry.2 = 0)).map Prod.fst := by
  rw [ready]
  induction layers.indegree.toList with
  | nil => rfl
  | cons entry rest ih =>
      rw [List.filterMap_cons, ih]
      by_cases idle : entry.2 = 0
      · simp [idle]
      · simp [idle]

theorem nodup_ready (layers : Layers) : layers.ready.Nodup := by
  rw [ready_eq]
  refine (List.filter_sublist.map Prod.fst).nodup ?_
  rw [Std.TreeMap.map_fst_toList_eq_keys]
  exact Std.TreeMap.nodup_keys

theorem idle_of_mem_ready {layers : Layers} {id : Id} (queued : id ∈ layers.ready) :
    layers.indegree[id]? = some 0 := by
  rw [ready_eq, List.mem_map] at queued
  obtain ⟨⟨node, count⟩, kept, rfl⟩ := queued
  obtain ⟨listed, idle⟩ := List.mem_filter.mp kept
  cases of_decide_eq_true idle
  exact Std.TreeMap.mem_toList_iff_getElem?_eq_some.mp listed

end Layers

/-- The generators a generator depends on. -/
def generatorNeeds (plan : Plan) (id : Id) : List Id :=
  (plan.generators[id]?.map Generator.dependencies).getD []

theorem generatorNeeds_of_stored {plan : Plan} {id : Id} {generator : Generator}
    (stored : plan.generators[id]? = some generator) :
    generatorNeeds plan id = generator.dependencies := by
  rw [generatorNeeds, stored]
  rfl

/-- The layers that the generators of a list declare. -/
structure Declares (done : List (Id × Generator)) (layers : Layers) : Prop where
  counted : ∀ id count, layers.indegree[id]? = some count →
    ∃ generator, (id, generator) ∈ done ∧ count = generator.dependencies.length
  distinct : ∀ id : Id, (layers.dependents[id]?.getD []).Nodup
  needing : ∀ id : Id, ∀ other ∈ layers.dependents[id]?.getD [],
    ∃ generator, (other, generator) ∈ done ∧ id ∈ generator.dependencies

/-- What the scan of a generator leaves and requires. -/
structure Scanned (plan : Plan) (before : GeneratorScan) (id : Id) (generator : Generator)
    (after : GeneratorScan) : Prop where
  outputs : ∃ sources, validateGeneratorOutputs plan id generator sources before.outputs =
    .ok after.outputs
  unrepeated : (Std.TreeSet.ofList generator.dependencies).size = generator.dependencies.length
  known : ∀ dependency ∈ generator.dependencies, dependency ∈ plan.generators
  layers : after.layers =
    before.layers.declare id (Std.TreeSet.ofList generator.dependencies)

theorem scanned_of_validateGenerator {plan : Plan} {sources : Std.TreeSet String}
    {before after : GeneratorScan} {id : Id} {generator : Generator}
    (checked : validateGenerator plan sources before (id, generator) = .ok after) :
    Scanned plan before id generator after := by
  simp only [validateGenerator, guard_eq_ok] at checked
  obtain ⟨-, checked⟩ := checked
  obtain ⟨⟨⟩, -, checked⟩ := bind_eq_ok.mp checked
  obtain ⟨prompts, -, checked⟩ := bind_eq_ok.mp checked
  rw [guard_eq_ok] at checked
  obtain ⟨outputs, declared, checked⟩ := bind_eq_ok.mp checked.2
  obtain ⟨⟨⟩, -, checked⟩ := bind_eq_ok.mp checked
  simp only [guard_eq_ok, not_not] at checked
  obtain ⟨-, unrepeated, checked⟩ := checked
  obtain ⟨⟨⟩, known, returned⟩ := bind_eq_ok.mp checked
  cases returned
  refine ⟨⟨sources, declared⟩, unrepeated, fun dependency member => ?_, rfl⟩
  have listed : dependency ∈ (Std.TreeSet.ofList generator.dependencies).toList := by
    rw [Std.TreeSet.mem_toList, Std.TreeSet.mem_ofList]
    simpa using member
  have check := forM_eq_ok.mp known dependency listed
  rw [guard_eq_ok, Bool.not_eq_true', Bool.not_eq_false] at check
  exact Std.TreeMap.contains_iff_mem.mp check.1

theorem Declares.declare {done : List (Id × Generator)} {layers : Layers}
    (declares : Declares done layers) {id : Id} {generator : Generator}
    (fresh : id ∉ done.map Prod.fst)
    (unrepeated : (Std.TreeSet.ofList generator.dependencies).size =
      generator.dependencies.length) :
    Declares (done ++ [(id, generator)])
      (layers.declare id (Std.TreeSet.ofList generator.dependencies)) := by
  have listed : ∀ other, other ∈ Std.TreeSet.ofList generator.dependencies ↔
      other ∈ generator.dependencies := by
    intro other
    rw [Std.TreeSet.mem_ofList, List.contains_iff_mem]
  refine ⟨?_, ?_, ?_⟩
  · intro other count found
    rw [Layers.declare, Ordered.getElem?_insert_eq] at found
    split at found
    · rename_i same
      cases same
      cases found
      exact ⟨generator, by simp, unrepeated⟩
    · obtain ⟨earlier, member, counted⟩ := declares.counted other count found
      exact ⟨earlier, List.mem_append_left _ member, counted⟩
  · intro other
    rw [Layers.getD_dependents_declare]
    split
    · rw [← List.concat_eq_append, List.nodup_concat]
      refine ⟨fun member => ?_, declares.distinct other⟩
      obtain ⟨earlier, known, -⟩ := declares.needing other id member
      exact fresh (List.mem_map_of_mem known)
    · rw [List.append_nil]
      exact declares.distinct other
  · intro other dependent member
    rw [Layers.getD_dependents_declare] at member
    rcases List.mem_append.mp member with member | member
    · obtain ⟨earlier, known, needed⟩ := declares.needing other dependent member
      exact ⟨earlier, List.mem_append_left _ known, needed⟩
    · split at member
      · rename_i needed
        cases List.mem_singleton.mp member
        exact ⟨generator, by simp, (listed other).mp needed⟩
      · cases member

/-- The generators of an accepted plan in an order in which each stands after those it depends
on. -/
theorem AcceptedPlan.exists_layered {E : Environment} {plan : Plan}
    (accepted : AcceptedPlan E plan) :
    ∃ order, Layered (generatorNeeds plan) order ∧ order.length = plan.generators.size ∧
      ∀ id ∈ plan.generators, id ∈ order := by
  obtain ⟨scan, scanned, visiting⟩ := bind_eq_ok.mp accepted.generators
  obtain ⟨visited, visits, checked⟩ := bind_eq_ok.mp visiting
  rw [guard_eq_ok, not_not] at checked
  have stored : ∀ id generator, (id, generator) ∈ plan.generators.toList →
      generatorNeeds plan id = generator.dependencies := fun id generator member =>
    generatorNeeds_of_stored (Std.TreeMap.mem_toList_iff_getElem?_eq_some.mp member)
  have declares : Declares plan.generators.toList scan.layers := by
    refine foldlM_eq_ok_split scanned
      (fun done (scan : GeneratorScan) => Declares done scan.layers) ⟨by simp, by simp, by simp⟩ ?_
    rintro done ⟨id, generator⟩ rest before after split stepped declares
    have scanned := scanned_of_validateGenerator stepped
    rw [scanned.layers]
    refine declares.declare ?_ scanned.unrepeated
    have keys : (plan.generators.toList.map Prod.fst).Nodup := by
      rw [Std.TreeMap.map_fst_toList_eq_keys]
      exact Std.TreeMap.nodup_keys
    rw [split, List.map_append, List.nodup_append] at keys
    exact fun member => keys.2.2 id member id (by simp) rfl
  have started : Removal (generatorNeeds plan) (fun id => scan.layers.indegree[id]?) []
      scan.layers.ready := by
    refine Removal.start scan.layers.nodup_ready (fun _ queued => Layers.idle_of_mem_ready queued) ?_
    · intro id count found
      obtain ⟨generator, member, counted⟩ := declares.counted id count found
      rw [stored id generator member, counted]
  obtain ⟨final, order, ended, counted, known⟩ := Layers.removal_of_drain (fun id =>
    ⟨declares.distinct id, fun other member => by
      obtain ⟨generator, listed, needed⟩ := declares.needing id other member
      rw [stored other generator listed]
      exact needed⟩) started visits
  refine ⟨order, ended.layered, counted.trans checked.1, fun id member => ?_⟩
  refine ended.complete plan.generators.keys ?_ ?_ id (Std.TreeMap.mem_keys.mpr member)
  · intro other left found
    have declared : other ∈ scan.layers.indegree := by
      refine known other ?_
      rw [Std.TreeMap.mem_iff_isSome_getElem?, found]
      rfl
    rw [Std.TreeMap.mem_iff_isSome_getElem?, Option.isSome_iff_exists] at declared
    obtain ⟨count, counts⟩ := declared
    obtain ⟨generator, listed, -⟩ := declares.counted other count counts
    rw [← Std.TreeMap.map_fst_toList_eq_keys]
    exact List.mem_map_of_mem listed
  · rw [counted, Std.TreeMap.length_keys, checked.1]

/-! ## Producers of secrets -/

/-- The secrets that generators declared, each with the generator that produces it. -/
structure Produces (done : List (Id × Generator)) (declared : DeclaredOutputs) : Prop where
  producer : ∀ entry ∈ done, ∀ output ∈ entry.2.outputs, declared.producers[output]? = some entry.1
  secrets : ∀ entry ∈ done, ∀ output ∈ entry.2.outputs, output ∈ declared.secrets

/-- The declarations of a generator leave those before it in place. -/
theorem Produces.declare {plan : Plan} {sources : Std.TreeSet String}
    {done : List (Id × Generator)} {before after : DeclaredOutputs} (produces : Produces done before)
    {id : Id} {generator : Generator}
    (checked : validateGeneratorOutputs plan id generator sources before = .ok after) :
    Produces (done ++ [(id, generator)]) after := by
  obtain ⟨middle, scanned, remaining⟩ := bind_eq_ok.mp checked
  have public_kept : after.producers = middle.producers ∧ after.secrets = middle.secrets := by
    refine foldlM_eq_ok_induction remaining (fun _ (state : DeclaredOutputs) =>
      state.producers = middle.producers ∧ state.secrets = middle.secrets) ⟨rfl, rfl⟩ ?_
    intro _ output state next _ stepped kept
    rw [guard_eq_ok] at stepped
    cases stepped.2
    exact kept
  have scan : ∀ output, (output ∈ generator.outputs → middle.producers[output]? = some id ∧
      output ∈ middle.secrets) ∧ (output ∈ before.secrets → output ∈ middle.secrets ∧
        middle.producers[output]? = before.producers[output]?) := by
    refine foldlM_eq_ok_induction scanned (fun listed (state : DeclaredOutputs) => ∀ output,
      (output ∈ listed → state.producers[output]? = some id ∧ output ∈ state.secrets) ∧
      (output ∈ before.secrets → output ∈ state.secrets ∧
        state.producers[output]? = before.producers[output]?)) (by simp) ?_
    intro listed added state next _ stepped holds output
    simp only [guard_eq_ok, Bool.or_eq_true, not_or] at stepped
    obtain ⟨⟨-, fresh⟩, returned⟩ := stepped
    cases returned
    rw [Std.TreeSet.contains_iff_mem] at fresh
    simp only [Std.TreeSet.mem_insert, Std.LawfulEqCmp.compare_eq_iff_eq,
      Ordered.getElem?_insert_eq, List.mem_append, List.mem_singleton]
    constructor
    · rintro (earlier | rfl)
      · obtain ⟨produced, known⟩ := (holds output).1 earlier
        exact ⟨by rw [produced, ite_self], .inr known⟩
      · exact ⟨by simp, .inl rfl⟩
    · intro known
      obtain ⟨kept, same⟩ := (holds output).2 known
      have different : added ≠ output := fun equal => fresh (equal ▸ kept)
      exact ⟨.inr kept, by rw [if_neg different, same]⟩
  refine ⟨?_, ?_⟩
  · intro entry member output listed
    rw [public_kept.1]
    rcases List.mem_append.mp member with member | same
    · rw [((scan output).2 (produces.secrets entry member output listed)).2]
      exact produces.producer entry member output listed
    · cases List.mem_singleton.mp same
      exact ((scan output).1 listed).1
  · intro entry member output listed
    rw [public_kept.2]
    rcases List.mem_append.mp member with member | same
    · exact ((scan output).2 (produces.secrets entry member output listed)).1
    · cases List.mem_singleton.mp same
      exact ((scan output).1 listed).2

namespace AcceptedPlan

variable {E : Environment} {plan : Plan}

theorem generatorNeeds_mem (accepted : AcceptedPlan E plan) {id other : Id}
    (needed : other ∈ generatorNeeds plan id) : other ∈ plan.generators := by
  obtain ⟨scan, scanned, -⟩ := bind_eq_ok.mp accepted.generators
  cases stored : plan.generators[id]? with
  | none => simp [generatorNeeds, stored] at needed
  | some generator =>
      obtain ⟨before, after, stepped⟩ := step_of_foldlM_eq_ok scanned
        (Std.TreeMap.mem_toList_iff_getElem?_eq_some.mpr stored)
      rw [generatorNeeds_of_stored stored] at needed
      exact (scanned_of_validateGenerator stepped).known other needed

/-- A generator of an accepted plan depends on the generators that produce its secret
dependencies. -/
theorem producer_needed (accepted : AcceptedPlan E plan) {id producerId secretId : Id}
    {generator producer : Generator} (stored : plan.generators[id]? = some generator)
    (dependency : secretId ∈ generator.secretDependencies)
    (producer_stored : plan.generators[producerId]? = some producer)
    (produced : secretId ∈ producer.outputs) : producerId ∈ generatorNeeds plan id := by
  obtain ⟨scan, scanned, visiting⟩ := bind_eq_ok.mp accepted.generators
  obtain ⟨visited, -, checked⟩ := bind_eq_ok.mp visiting
  rw [guard_eq_ok] at checked
  have produces : Produces plan.generators.toList scan.outputs := by
    refine foldlM_eq_ok_induction scanned
      (fun done (scan : GeneratorScan) => Produces done scan.outputs) ⟨by simp, by simp⟩ ?_
    rintro done ⟨other, declared⟩ before after - stepped produces
    obtain ⟨sources, outputs⟩ := (scanned_of_validateGenerator stepped).outputs
    exact produces.declare outputs
  have found := produces.producer (producerId, producer)
    (Std.TreeMap.mem_toList_iff_getElem?_eq_some.mpr producer_stored) secretId produced
  have each := forM_eq_ok.mp checked.2 (id, generator)
    (Std.TreeMap.mem_toList_iff_getElem?_eq_some.mpr stored)
  have direct := forM_eq_ok.mp each secretId dependency
  simp only [found, guard_eq_ok, Bool.not_eq_true', Bool.not_eq_false, List.contains_iff_mem]
    at direct
  rw [generatorNeeds_of_stored stored]
  exact direct.1

end AcceptedPlan
end Policy
end NixSeal
