import NixSeal.Generate.Delivery
import NixSeal.Policy.Layers

/-!
# Order of generation

`run_generate` walks the dependencies of a generator depth first and runs every generator it meets
after those it depends on.  The walk is recursive; for an accepted plan it never goes deeper than
the plan has generators.
-/

namespace NixSeal.Generate

open Fallible Layering Policy

/-- How the walk ends without an order. -/
inductive WalkError where
  /-- The bound on the depth of the recursion was met. -/
  | depth
  | refused (error : GenerateError)
  deriving DecidableEq

/-- The two collections that `collect_generator_order` extends. -/
structure Walk where
  visited : Std.TreeSet Id := {}
  order : List Id := []

/-- `collect_generator_order`, with a bound on the depth of its recursion. -/
def collectGeneratorOrder (plan : Plan) : Nat → Walk → Id → Except WalkError Walk
  | 0, _, _ => .error .depth
  | depth + 1, walk, generatorId =>
      if walk.visited.contains generatorId then .ok walk
      else
        match plan.generators[generatorId]? with
        | none => .error (.refused (.message s!"unknown generator {generatorId}"))
        | some generator => do
            let walk ← generator.dependencies.foldlM (collectGeneratorOrder plan depth)
              { walk with visited := walk.visited.insert generatorId }
            .ok { walk with order := walk.order ++ [generatorId] }

/-- One generator directly depends on another. -/
def DependsOn (plan : Plan) (id dependency : Id) : Prop := dependency ∈ generatorNeeds plan id

section Walk

variable {plan : Plan}

theorem collectGeneratorOrder_mono {depth deeper : Nat} {walk final : Walk} {id : Id}
    (collected : collectGeneratorOrder plan depth walk id = .ok final) (le : depth ≤ deeper) :
    collectGeneratorOrder plan deeper walk id = .ok final := by
  induction depth generalizing deeper walk final id with
  | zero => cases collected
  | succ depth ih =>
      obtain ⟨deeper, rfl⟩ := Nat.exists_eq_succ_of_ne_zero (Nat.ne_zero_of_lt le)
      have inner : ∀ (list : List Id) (start finish : Walk),
          list.foldlM (collectGeneratorOrder plan depth) start = .ok finish →
            list.foldlM (collectGeneratorOrder plan deeper) start = .ok finish := by
        intro list
        induction list with
        | nil => exact fun _ _ folded => folded
        | cons first rest again =>
            intro start finish folded
            obtain ⟨next, stepped, remaining⟩ := bind_eq_ok.mp folded
            exact bind_eq_ok.mpr ⟨next, ih stepped (Nat.le_of_succ_le_succ le),
              again next finish remaining⟩
      rw [collectGeneratorOrder] at collected ⊢
      split
      · rename_i visited
        rwa [if_pos visited] at collected
      · rename_i unvisited
        rw [if_neg unvisited] at collected
        split at collected
        · cases collected
        · obtain ⟨middle, folded, returned⟩ := bind_eq_ok.mp collected
          exact bind_eq_ok.mpr ⟨middle, inner _ _ _ folded, returned⟩

/-- A walk below some generators: what is listed stands after what it depends on, and the visited
generators are those and the listed ones. -/
structure Below (plan : Plan) (above : List Id) (walk : Walk) : Prop where
  layered : Layered (generatorNeeds plan) walk.order
  distinct : walk.order.Nodup
  visited : ∀ id, id ∈ walk.visited ↔ id ∈ walk.order ∨ id ∈ above
  apart : ∀ id ∈ above, id ∉ walk.order

/-- A walk that was extended by generators that some generator reaches. -/
def Extends (plan : Plan) (id : Id) (walk final : Walk) : Prop :=
  ∃ added, final.order = walk.order ++ added ∧
    ∀ other ∈ added, Relation.ReflTransGen (DependsOn plan) id other

theorem below_nil : Below plan [] {} where
  layered := layered_nil
  distinct := List.nodup_nil
  visited id := by simp
  apart id member := absurd member List.not_mem_nil

theorem Below.enter {above : List Id} {walk : Walk} (below : Below plan above walk) {id : Id}
    (fresh : id ∉ walk.visited) :
    Below plan (id :: above) { walk with visited := walk.visited.insert id } where
  layered := below.layered
  distinct := below.distinct
  visited other := by
    rw [Std.TreeSet.mem_insert, Std.LawfulEqCmp.compare_eq_iff_eq, below.visited, List.mem_cons,
      @eq_comm _ id]
    exact or_left_comm
  apart other member := by
    rcases List.mem_cons.mp member with rfl | member
    · exact fun listed => fresh ((below.visited _).mpr (.inl listed))
    · exact below.apart other member

theorem Below.leave {above : List Id} {walk : Walk} {id : Id} (below : Below plan (id :: above) walk)
    (outside : id ∉ above) (met : ∀ other ∈ generatorNeeds plan id, other ∈ walk.order) :
    Below plan above { walk with order := walk.order ++ [id] } where
  layered := below.layered.concat met
  distinct := by
    rw [← List.concat_eq_append, List.nodup_concat]
    exact ⟨below.apart id List.mem_cons_self, below.distinct⟩
  visited other := by
    rw [below.visited, List.mem_cons, List.mem_append, List.mem_singleton, or_assoc]
  apart other member listed := by
    rcases List.mem_append.mp listed with listed | same
    · exact below.apart other (List.mem_cons_of_mem _ member) listed
    · exact outside (List.mem_singleton.mp same ▸ member)

/-- A walk that starts below generators that stand later in some layered order. -/
theorem exists_collected {layers : List Id} (layered : Layered (generatorNeeds plan) layers)
    (complete : ∀ id ∈ plan.generators, id ∈ layers)
    (known : ∀ id ∈ plan.generators, ∀ other ∈ generatorNeeds plan id, other ∈ plan.generators)
    {depth : Nat} {above : List Id} {walk : Walk} {id : Id} (below : Below plan above walk)
    (member : id ∈ plan.generators) (shallow : layers.idxOf id < depth)
    (later : ∀ other ∈ above, layers.idxOf id < layers.idxOf other) :
    ∃ final, collectGeneratorOrder plan depth walk id = .ok final ∧ Below plan above final ∧
      id ∈ final.order ∧ Extends plan id walk final := by
  induction depth generalizing above walk id with
  | zero => omega
  | succ depth ih =>
      have outside : id ∉ above := fun inside => Nat.lt_irrefl _ (later id inside)
      rw [collectGeneratorOrder]
      by_cases visited : walk.visited.contains id = true
      · rw [if_pos visited]
        have listed := ((below.visited id).mp (Std.TreeSet.contains_iff_mem.mp visited)).resolve_right
          outside
        exact ⟨walk, rfl, below, listed, [], by simp, by simp⟩
      · rw [if_neg visited]
        obtain ⟨generator, stored⟩ := Option.isSome_iff_exists.mp
          (Std.TreeMap.mem_iff_isSome_getElem?.mp member)
        have needs := generatorNeeds_of_stored stored
        rw [stored]
        have entered := below.enter fun inside =>
          visited (Std.TreeSet.contains_iff_mem.mpr inside)
        have folded : ∃ middle, generator.dependencies.foldlM (collectGeneratorOrder plan depth)
              { walk with visited := walk.visited.insert id } = .ok middle ∧
            Below plan (id :: above) middle ∧
              (∀ other ∈ generator.dependencies, other ∈ middle.order) ∧
                Extends plan id walk middle := by
          refine foldlM_induction (fun done state => Below plan (id :: above) state ∧
            (∀ other ∈ done, other ∈ state.order) ∧ Extends plan id walk state)
            ⟨entered, by simp, [], by simp, by simp⟩ ?_
          intro done dependency state needed ⟨inner, listed, added, extended, reached⟩
          rw [← needs] at needed
          obtain ⟨-, lower⟩ := layered.idxOf_lt (complete id member) needed
          have deeper : ∀ other ∈ id :: above, layers.idxOf dependency < layers.idxOf other := by
            intro other inside
            rcases List.mem_cons.mp inside with rfl | inside
            · exact lower
            · exact lower.trans (later other inside)
          obtain ⟨next, stepped, inner, found, more, appended, reaches⟩ :=
            ih inner (known id member dependency needed) (by omega) deeper
          refine ⟨next, stepped, inner, ?_, added ++ more, ?_, ?_⟩
          · intro other processed
            rcases List.mem_append.mp processed with processed | same
            · rw [appended]
              exact List.mem_append_left _ (listed other processed)
            · exact List.mem_singleton.mp same ▸ found
          · rw [appended, extended, List.append_assoc]
          · intro other fresh
            rcases List.mem_append.mp fresh with fresh | fresh
            · exact reached other fresh
            · exact Relation.ReflTransGen.head needed (reaches other fresh)
        obtain ⟨middle, folded, inner, listed, added, extended, reached⟩ := folded
        refine ⟨{ middle with order := middle.order ++ [id] }, ?_, ?_, ?_, added ++ [id], ?_, ?_⟩
        · exact bind_eq_ok.mpr ⟨middle, folded, rfl⟩
        · exact inner.leave outside (by rwa [needs])
        · exact List.mem_append_right _ (List.mem_singleton_self _)
        · rw [extended, List.append_assoc]
        · intro other fresh
          rcases List.mem_append.mp fresh with fresh | same
          · exact reached other fresh
          · cases List.mem_singleton.mp same
            exact Relation.ReflTransGen.refl

/-- A layered list holds all that its elements reach. -/
theorem mem_of_reaches {list : List Id} (layered : Layered (generatorNeeds plan) list) {id other : Id}
    (member : id ∈ list) (reaches : Relation.ReflTransGen (DependsOn plan) id other) :
    other ∈ list := by
  induction reaches with
  | refl => exact member
  | tail _ step ih => exact (layered.idxOf_lt ih step).1

end Walk

/-- For a generator of an accepted plan the walk lists it and what it reaches through dependencies,
once each and after what they depend on; a generator whose output is read by another one stands
before it. -/
theorem collectGeneratorOrder_exact {E : Environment} {plan : Plan}
    (accepted : validate E plan = .ok ()) {id : Id} (member : id ∈ plan.generators) :
    ∃ walk : Walk,
      (∀ depth, plan.generators.size ≤ depth →
        collectGeneratorOrder plan depth {} id = .ok walk) ∧
      id ∈ walk.order ∧ walk.order.Nodup ∧
      (∀ other, other ∈ walk.order ↔ Relation.ReflTransGen (DependsOn plan) id other) ∧
      Layered (generatorNeeds plan) walk.order ∧
      ∀ before node after, walk.order = before ++ node :: after →
        ∀ (generator : Generator), plan.generators[node]? = some generator →
        ∀ secretId ∈ generator.secretDependencies, ∀ (producerId : Id) (producer : Generator),
          plan.generators[producerId]? = some producer → secretId ∈ producer.outputs →
            producerId ∈ before := by
  have facts := acceptedPlan_of_validate accepted
  obtain ⟨layers, layered, length, complete⟩ := facts.exists_layered
  have shallow : layers.idxOf id < plan.generators.size :=
    length ▸ List.idxOf_lt_length_of_mem (complete id member)
  obtain ⟨walk, collected, below, listed, added, extended, reached⟩ :=
    exists_collected layered complete (fun _ _ _ needed => facts.generatorNeeds_mem needed)
      below_nil member shallow (by simp)
  refine ⟨walk, fun depth deep => collectGeneratorOrder_mono collected deep, listed, below.distinct,
    fun other => ⟨fun found => ?_, mem_of_reaches below.layered listed⟩, below.layered, ?_⟩
  · rw [extended, List.nil_append] at found
    exact reached other found
  · intro before node after split generator stored secretId dependency producerId producer
      producer_stored produced
    exact below.layered before node after split producerId
      (facts.producer_needed stored dependency producer_stored produced)

namespace Sample

/-- A generator with a public output that depends on others. -/
def dependent (label : String) (dependencies : List Id) : Generator where
  executable := "/nix/store/dependent/bin/generate"
  outputs := []
  publicOutputs := [label].filterMap publicOutput
  dependencies

/-- Two generators between the producer of the sample secret and a generator that reads it. -/
def diamond : Plan :=
  { Policy.Sample.plan with
    generators := Std.TreeMap.ofList
      [(Policy.Sample.admin,
          { executable := "/nix/store/base/bin/generate", outputs := [Policy.Sample.token] }),
        (Policy.Sample.fleet, dependent "a" [Policy.Sample.admin]),
        (Policy.Sample.host, dependent "b" [Policy.Sample.admin]),
        (Policy.Sample.token,
          { dependent "c" [Policy.Sample.fleet, Policy.Sample.host, Policy.Sample.admin] with
            secretDependencies := [Policy.Sample.token] })] }

end Sample

theorem collectGeneratorOrder_diamond :
    ∃ walk : Walk,
      collectGeneratorOrder Sample.diamond 4 {} Policy.Sample.token = .ok walk ∧
        walk.order.Nodup ∧ Policy.Sample.token ∈ walk.order := by
  have accepted : validate Policy.Sample.environment Sample.diamond = .ok () :=
    Policy.Sample.validate_of_identities rfl rfl rfl (by decide) (by decide +kernel)
  have member : Policy.Sample.token ∈ Sample.diamond.generators := by decide
  obtain ⟨walk, collected, listed, distinct, -⟩ := collectGeneratorOrder_exact accepted member
  exact ⟨walk, collected 4 (by decide), distinct, listed⟩

end NixSeal.Generate
