import NixSeal.Lib.DisjointUnion
import NixSeal.Policy.Projection

/-!
# Merging plans

Two authoritative sources are merged by adding the objects of the one to the other, collection by
collection.  This is a disjoint union, so neither the outcome nor its canonical hash depends on
the order in which sources are combined.
-/

namespace NixSeal.Policy

open DisjointUnion Fallible

/-- `disjoint_append!`. -/
def disjointAppend {α : Type} (kind : String) (left right : Std.TreeMap Id α) :
    Except PolicyError (Std.TreeMap Id α) :=
  insertAll (.duplicate kind) left right

/-- `merge`. -/
def merge (left right : Plan) : Except PolicyError Plan := do
  ensureSchema left
  ensureSchema right
  let identities ← disjointAppend "identities" left.identities right.identities
  let groups ← disjointAppend "groups" left.groups right.groups
  let targets ← disjointAppend "targets" left.targets right.targets
  let secrets ← disjointAppend "secrets" left.secrets right.secrets
  let generators ← disjointAppend "generators" left.generators right.generators
  let templates ← disjointAppend "templates" left.templates right.templates
  let approvalPolicies ←
    disjointAppend "approval_policies" left.approvalPolicies right.approvalPolicies
  let backends ← disjointAppend "backends" left.backends right.backends
  .ok
    { left with
      identities, groups, targets, secrets, generators, templates, approvalPolicies, backends }

/-! ## The eight collections -/

/-- The collections of a plan. -/
inductive Collection where
  | identities
  | groups
  | targets
  | secrets
  | generators
  | templates
  | approvalPolicies
  | backends
  deriving DecidableEq

/-- What a collection holds. -/
abbrev Collection.Entry : Collection → Type
  | .identities => Identity
  | .groups => Group
  | .targets => Target
  | .secrets => Secret
  | .generators => Generator
  | .templates => Template
  | .approvalPolicies => ApprovalPolicy
  | .backends => Backend

/-- The name of a collection in an error. -/
def Collection.kind : Collection → String
  | .identities => "identities"
  | .groups => "groups"
  | .targets => "targets"
  | .secrets => "secrets"
  | .generators => "generators"
  | .templates => "templates"
  | .approvalPolicies => "approval_policies"
  | .backends => "backends"

end NixSeal.Policy

namespace NixSeal

open DisjointUnion

/-- One collection of a plan. -/
def Plan.collection (plan : Plan) :
    (collection : Policy.Collection) → Std.TreeMap Id collection.Entry
  | .identities => plan.identities
  | .groups => plan.groups
  | .targets => plan.targets
  | .secrets => plan.secrets
  | .generators => plan.generators
  | .templates => plan.templates
  | .approvalPolicies => plan.approvalPolicies
  | .backends => plan.backends

/-- No collection has an identifier in both plans. -/
def Plan.Apart (left right : Plan) : Prop :=
  ∀ collection, DisjointUnion.Apart (left.collection collection) (right.collection collection)

/-- Every collection is the union of those of two plans. -/
def Plan.Joins (left right result : Plan) : Prop :=
  ∀ collection, DisjointUnion.Joins (left.collection collection) (right.collection collection)
    (result.collection collection)

/-- Plans with the same schema and the same objects. -/
structure Plan.Same (left right : Plan) : Prop where
  schema : left.schema = right.schema
  objects : ∀ (collection : Policy.Collection) (id : Id),
    (left.collection collection)[id]? = (right.collection collection)[id]?

/-- What is serialized of a plan: maps in the order of their keys. -/
structure PlanEntries where
  schema : String
  objects : (collection : Policy.Collection) → List (Id × collection.Entry)

def Plan.entries (plan : Plan) : PlanEntries where
  schema := plan.schema
  objects collection := (plan.collection collection).toList

theorem Plan.Same.entries_eq {left right : Plan} (same : left.Same right) :
    left.entries = right.entries := by
  have objects : ∀ collection, (left.collection collection).toList =
      (right.collection collection).toList := fun collection =>
    (Std.TreeMap.Equiv.of_forall_constGet?_eq (same.objects collection)).toList_eq
  simp only [Plan.entries, same.schema, PlanEntries.mk.injEq, true_and]
  exact funext objects

end NixSeal

namespace NixSeal.Policy

open DisjointUnion Fallible

theorem ensureSchema_eq_ok {plan : Plan} :
    ensureSchema plan = .ok () ↔ plan.schema = planSchema := by
  rw [ensureSchema]
  split <;> simp_all

/-- A merge merges every collection, and nothing else. -/
theorem merge_eq_ok_iff {left right result : Plan} :
    merge left right = .ok result ↔
      left.schema = planSchema ∧ right.schema = planSchema ∧ result.schema = left.schema ∧
        ∀ collection, disjointAppend collection.kind (left.collection collection)
          (right.collection collection) = .ok (result.collection collection) := by
  constructor
  · intro merged
    obtain ⟨⟨⟩, current, merged⟩ := bind_eq_ok.mp merged
    obtain ⟨⟨⟩, current', merged⟩ := bind_eq_ok.mp merged
    obtain ⟨identities, first, merged⟩ := bind_eq_ok.mp merged
    obtain ⟨groups, second, merged⟩ := bind_eq_ok.mp merged
    obtain ⟨targets, third, merged⟩ := bind_eq_ok.mp merged
    obtain ⟨secrets, fourth, merged⟩ := bind_eq_ok.mp merged
    obtain ⟨generators, fifth, merged⟩ := bind_eq_ok.mp merged
    obtain ⟨templates, sixth, merged⟩ := bind_eq_ok.mp merged
    obtain ⟨approvalPolicies, seventh, merged⟩ := bind_eq_ok.mp merged
    obtain ⟨backends, eighth, returned⟩ := bind_eq_ok.mp merged
    cases returned
    refine ⟨ensureSchema_eq_ok.mp current, ensureSchema_eq_ok.mp current', rfl, ?_⟩
    rintro (_ | _ | _ | _ | _ | _ | _ | _) <;> assumption
  · rintro ⟨current, current', schema, objects⟩
    have appended : ∀ collection,
        insertAll (PolicyError.duplicate collection.kind) (left.collection collection)
          (right.collection collection) = .ok (result.collection collection) := objects
    have identities := appended .identities
    have groups := appended .groups
    have targets := appended .targets
    have secrets := appended .secrets
    have generators := appended .generators
    have templates := appended .templates
    have approvalPolicies := appended .approvalPolicies
    have backends := appended .backends
    simp only [Plan.collection, Collection.kind] at identities groups targets secrets
    simp only [Plan.collection, Collection.kind] at generators templates approvalPolicies backends
    simp only [merge, disjointAppend, ensureSchema_eq_ok.mpr current,
      ensureSchema_eq_ok.mpr current', ok_bind, identities, groups, targets, secrets, generators,
      templates, approvalPolicies, backends, ← schema]

theorem merge_isOk_iff {left right : Plan} :
    (∃ result, merge left right = .ok result) ↔
      left.schema = planSchema ∧ right.schema = planSchema ∧ left.Apart right := by
  constructor
  · rintro ⟨result, merged⟩
    obtain ⟨current, current', -, objects⟩ := merge_eq_ok_iff.mp merged
    exact ⟨current, current', fun collection => (insertAll_eq_ok (objects collection)).1⟩
  · rintro ⟨current, current', apart⟩
    have appended : ∀ collection, ∃ joined, disjointAppend collection.kind
        (left.collection collection) (right.collection collection) = .ok joined :=
      fun collection => insertAll_isOk_iff.mpr (apart collection)
    choose joined appended using appended
    refine ⟨⟨left.schema, joined .identities, joined .groups, joined .targets, joined .secrets,
      joined .generators, joined .templates, joined .approvalPolicies, joined .backends⟩,
      merge_eq_ok_iff.mpr ⟨current, current', rfl, ?_⟩⟩
    rintro (_ | _ | _ | _ | _ | _ | _ | _) <;> exact appended _

theorem joins_of_merge {left right result : Plan} (merged : merge left right = .ok result) :
    result.schema = planSchema ∧ left.Apart right ∧ left.Joins right result := by
  obtain ⟨current, -, schema, objects⟩ := merge_eq_ok_iff.mp merged
  exact ⟨schema.trans current, fun collection => (insertAll_eq_ok (objects collection)).1,
    fun collection => (insertAll_eq_ok (objects collection)).2⟩

/-! ## Any order -/

/-- A way to combine sources two at a time. -/
inductive Combining where
  | source (plan : Plan)
  | merged (left right : Combining)

namespace Combining

/-- The sources, in the order in which they are written. -/
def sources : Combining → List Plan
  | source plan => [plan]
  | merged left right => left.sources ++ right.sources

/-- The plan that a way to combine gives. -/
def run : Combining → Except PolicyError Plan
  | source plan => .ok plan
  | merged left right => do
      let first ← left.run
      let second ← right.run
      merge first second

/-- Whether there is anything to combine. -/
def isMerge : Combining → Bool
  | source _ => false
  | merged _ _ => true

theorem length_sources (combining : Combining) :
    1 ≤ combining.sources.length ∧
      (combining.isMerge = true ↔ 2 ≤ combining.sources.length) := by
  induction combining with
  | source plan => simp [sources, isMerge]
  | merged left right first second =>
      simp only [sources, isMerge, List.length_append, true_iff]
      omega

/-- A plan holds the objects of some sources. -/
def Holds (sources : List Plan) (plan : Plan) : Prop :=
  ∀ (collection : Collection) (id : Id) (value : collection.Entry),
    (plan.collection collection)[id]? = some value ↔
      ∃ source ∈ sources, (source.collection collection)[id]? = some value

/-- A plan is apart from another when every source of it is. -/
theorem Holds.apart_iff {sources : List Plan} {plan : Plan} (holds : Holds sources plan)
    (other : Plan) : plan.Apart other ↔ ∀ source ∈ sources, source.Apart other := by
  have none_iff : ∀ (collection : Collection) (id : Id),
      (plan.collection collection)[id]? = none ↔
        ∀ source ∈ sources, (source.collection collection)[id]? = none := by
    intro collection id
    simp only [Option.eq_none_iff_forall_ne_some, ne_eq, holds collection id, not_exists, not_and]
    exact ⟨fun absent source member value => absent value source member,
      fun absent value source member => absent source member value⟩
  constructor
  · intro apart source member collection id
    rcases apart collection id with none | none
    · exact .inl ((none_iff collection id).mp none source member)
    · exact .inr none
  · intro apart collection id
    rw [none_iff]
    by_cases none : (other.collection collection)[id]? = none
    · exact .inr none
    · exact .inl fun source member => (apart source member collection id).resolve_right none

/-- What a combination that succeeds gives. -/
structure Combined (combining : Combining) (result : Plan) : Prop where
  holds : Holds combining.sources result
  apart : combining.sources.Pairwise Plan.Apart
  schema : result.schema = planSchema ↔ ∀ source ∈ combining.sources, source.schema = planSchema
  current : combining.isMerge = true → result.schema = planSchema

theorem combined_of_run {combining : Combining} {result : Plan}
    (ran : combining.run = .ok result) : Combined combining result := by
  induction combining generalizing result with
  | source plan =>
      cases ran
      exact ⟨by simp [Holds, sources], by simp [sources], by simp [sources], by simp [isMerge]⟩
  | merged left right first second =>
      obtain ⟨front, ranLeft, ran⟩ := bind_eq_ok.mp ran
      obtain ⟨back, ranRight, joined⟩ := bind_eq_ok.mp ran
      have front_combined := first ranLeft
      have back_combined := second ranRight
      obtain ⟨currentFront, currentBack, -⟩ := merge_isOk_iff.mp ⟨result, joined⟩
      obtain ⟨schema, apart, joins⟩ := joins_of_merge joined
      refine ⟨?_, ?_, ?_, fun _ => schema⟩
      · intro collection id value
        simp only [sources, List.mem_append, or_and_right, exists_or]
        rw [← front_combined.holds, ← back_combined.holds, joins collection id]
        rcases apart collection id with none | none <;> rw [none] <;> simp
      · rw [sources, List.pairwise_append]
        refine ⟨front_combined.apart, back_combined.apart, fun source member other listed => ?_⟩
        have one := (front_combined.holds.apart_iff back).mp apart source member
        have flipped : back.Apart source := fun collection => (one collection).symm
        have two := (back_combined.holds.apart_iff source).mp flipped other listed
        exact fun collection => (two collection).symm
      · simp only [schema, true_iff, sources, List.mem_append]
        rintro source (member | member)
        · exact front_combined.schema.mp currentFront source member
        · exact back_combined.schema.mp currentBack source member

/-- A combination succeeds when its sources are current and pairwise apart; a single source is no
combination and is not looked at. -/
theorem run_isOk_iff (combining : Combining) :
    (∃ result, combining.run = .ok result) ↔ combining.sources.Pairwise Plan.Apart ∧
      (combining.isMerge = true → ∀ source ∈ combining.sources, source.schema = planSchema) := by
  constructor
  · rintro ⟨result, ran⟩
    have combined := combined_of_run ran
    exact ⟨combined.apart, fun merges => combined.schema.mp (combined.current merges)⟩
  · induction combining with
    | source plan => exact fun _ => ⟨plan, rfl⟩
    | merged left right first second =>
        rintro ⟨apart, current⟩
        have currents := current rfl
        rw [sources, List.pairwise_append] at apart
        simp only [sources, List.mem_append] at currents
        obtain ⟨front, ranLeft⟩ :=
          first ⟨apart.1, fun _ source member => currents source (.inl member)⟩
        obtain ⟨back, ranRight⟩ :=
          second ⟨apart.2.1, fun _ source member => currents source (.inr member)⟩
        have front_combined := combined_of_run ranLeft
        have back_combined := combined_of_run ranRight
        have separate : front.Apart back := by
          refine (front_combined.holds.apart_iff back).mpr fun source member => ?_
          have flipped : back.Apart source :=
            (back_combined.holds.apart_iff source).mpr fun other listed collection =>
              (apart.2.2 source member other listed collection).symm
          exact fun collection => (flipped collection).symm
        obtain ⟨result, joined⟩ := merge_isOk_iff.mpr
          ⟨front_combined.schema.mpr fun source member => currents source (.inl member),
            back_combined.schema.mpr fun source member => currents source (.inr member), separate⟩
        exact ⟨result, by rw [run, ranLeft, ok_bind, ranRight, ok_bind, joined]⟩

end Combining

/-- Two outcomes agree: both are errors, or they are plans with the same objects. -/
def Agree (left right : Except PolicyError Plan) : Prop :=
  ((∃ result, left = .ok result) ↔ ∃ result, right = .ok result) ∧
    ∀ first second, left = .ok first → right = .ok second → first.Same second

/-- Combining the same sources in another order gives the same outcome. -/
theorem agree_of_perm {left right : Combining} (permuted : left.sources.Perm right.sources) :
    Agree left.run right.run := by
  have merges : left.isMerge = true ↔ right.isMerge = true := by
    rw [left.length_sources.2, right.length_sources.2, permuted.length_eq]
  have symmetric : ∀ {one other : Plan}, one.Apart other → other.Apart one :=
    fun apart collection => (apart collection).symm
  constructor
  · rw [left.run_isOk_iff, right.run_isOk_iff, permuted.pairwise_iff symmetric, merges]
    simp only [permuted.mem_iff]
  · intro first second ranLeft ranRight
    have one := Combining.combined_of_run ranLeft
    have other := Combining.combined_of_run ranRight
    refine ⟨?_, fun collection id => Option.ext fun value => ?_⟩
    · cases single : left.isMerge with
      | true => rw [one.current single, other.current (merges.mp single)]
      | false =>
          cases left with
          | merged _ _ => cases single
          | source plan =>
              cases right with
              | merged _ _ => simp [Combining.isMerge] at merges
              | source plan' =>
                  cases ranLeft
                  cases ranRight
                  rw [List.singleton_perm_singleton.mp permuted]
    · rw [one.holds, other.holds]
      simp only [permuted.mem_iff]

theorem agree_empty {plan : Plan} (current : plan.schema = planSchema) :
    Agree (merge {} plan) (.ok plan) := by
  have nothing : ∀ (collection : Collection) (id : Id),
      (({} : Plan).collection collection)[id]? = none := by
    intro collection id
    cases collection <;> exact Std.TreeMap.getElem?_emptyc
  constructor
  · refine iff_of_true (merge_isOk_iff.mpr ⟨rfl, current, fun collection id => ?_⟩) ⟨plan, rfl⟩
    exact .inl (nothing collection id)
  · intro first second ran returned
    cases returned
    obtain ⟨schema, -, joins⟩ := joins_of_merge ran
    refine ⟨schema.trans current.symm, fun collection id => ?_⟩
    rw [joins collection id, nothing collection id, Option.none_or]

/-- Plans with the same objects have the same canonical hash. -/
theorem planHash_of_same (E : Environment) (toJcs : PlanEntries → Option Bytes) {left right : Plan}
    (same : left.Same right) :
    planHash { E with planToJcs := fun plan => toJcs plan.entries } left =
      planHash { E with planToJcs := fun plan => toJcs plan.entries } right := by
  simp only [planHash, same.entries_eq]

/-- Merging is the disjoint union of the eight collections: it is commutative and associative, in
success as in value, has the empty plan as its identity, and the canonical hash of what several
sources are combined to does not depend on their order. -/
theorem merge_disjoint_union :
    (∀ left right : Plan, (∃ result, merge left right = .ok result) ↔
      left.schema = planSchema ∧ right.schema = planSchema ∧
        ∀ (collection : Collection) (id : Id),
          id ∉ left.collection collection ∨ id ∉ right.collection collection) ∧
    (∀ left right result : Plan, merge left right = .ok result →
      result.schema = planSchema ∧
        ∀ (collection : Collection) (id : Id) (value : collection.Entry),
        (result.collection collection)[id]? = some value ↔
          (left.collection collection)[id]? = some value ∨
            (right.collection collection)[id]? = some value) ∧
    (∀ left right : Plan, Agree (merge left right) (merge right left)) ∧
    (∀ first second third : Plan,
      Agree (merge first second >>= fun front => merge front third)
        (merge second third >>= fun back => merge first back)) ∧
    (∀ plan : Plan, plan.schema = planSchema →
      Agree (merge {} plan) (.ok plan) ∧ Agree (merge plan {}) (.ok plan)) ∧
    ∀ left right : Combining, left.sources.Perm right.sources →
      Agree left.run right.run ∧
        ∀ (E : Environment) (toJcs : PlanEntries → Option Bytes) (first second : Plan),
          left.run = .ok first → right.run = .ok second →
          planHash { E with planToJcs := fun plan => toJcs plan.entries } first =
            planHash { E with planToJcs := fun plan => toJcs plan.entries } second := by
  have commutes : ∀ left right : Plan, Agree (merge left right) (merge right left) := by
    intro left right
    have agree := @agree_of_perm (.merged (.source left) (.source right))
      (.merged (.source right) (.source left)) (List.Perm.swap right left [])
    simpa only [Combining.run, ok_bind] using agree
  refine ⟨?_, ?_, commutes, ?_, ?_, ?_⟩
  · intro left right
    rw [merge_isOk_iff]
    have absent : ∀ (plan : Plan) (collection : Collection) (id : Id),
        (plan.collection collection)[id]? = none ↔ id ∉ plan.collection collection := by
      intro plan collection id
      rw [Std.TreeMap.mem_iff_isSome_getElem?, Bool.not_eq_true, Option.isSome_eq_false_iff,
        Option.isNone_iff_eq_none]
    simp only [Plan.Apart, DisjointUnion.Apart, absent]
  · intro left right result merged
    obtain ⟨schema, apart, joins⟩ := joins_of_merge merged
    refine ⟨schema, fun collection id value => ?_⟩
    rw [joins collection id]
    rcases apart collection id with none | none <;> rw [none] <;> simp
  · intro first second third
    have agree := @agree_of_perm
      (.merged (.merged (.source first) (.source second)) (.source third))
      (.merged (.source first) (.merged (.source second) (.source third))) (List.Perm.refl _)
    simpa only [Combining.run, ok_bind] using agree
  · intro plan current
    refine ⟨agree_empty current, ?_⟩
    have empty := agree_empty current
    have swapped := commutes plan {}
    refine ⟨swapped.1.trans empty.1, fun first second ran returned => ?_⟩
    obtain ⟨other, ran'⟩ := swapped.1.mp ⟨first, ran⟩
    have one := swapped.2 first other ran ran'
    have two := empty.2 other second ran' returned
    exact ⟨one.schema.trans two.schema, fun collection id =>
      (one.objects collection id).trans (two.objects collection id)⟩
  · intro left right permuted
    have agree := agree_of_perm permuted
    exact ⟨agree, fun E toJcs first second ran ran' =>
      planHash_of_same E toJcs (agree.2 first second ran ran')⟩

end NixSeal.Policy
