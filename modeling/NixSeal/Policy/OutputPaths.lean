import NixSeal.Policy.Layers

/-!
# Output paths

The paths that the generators of an accepted plan write are normalized, and no two outputs share
one.
-/

namespace NixSeal
namespace Policy

open Fallible

/-! ## Sources of secrets -/

theorem secrets_scanned {E : Environment} {plan : Plan} (accepted : validate E plan = .ok ()) :
    ∃ final, plan.secrets.toList.foldlM (validateSecret E plan) {} = .ok final := by
  unfold validate at accepted
  obtain ⟨⟨⟩, -, accepted⟩ := bind_eq_ok.mp accepted
  rw [guard_eq_ok] at accepted
  obtain ⟨⟨⟩, -, accepted⟩ := bind_eq_ok.mp accepted.2
  obtain ⟨⟨⟩, -, accepted⟩ := bind_eq_ok.mp accepted
  rw [guard_eq_ok] at accepted
  obtain ⟨⟨⟩, -, accepted⟩ := bind_eq_ok.mp accepted.2
  obtain ⟨_, -, accepted⟩ := bind_eq_ok.mp accepted
  obtain ⟨⟨⟩, -, accepted⟩ := bind_eq_ok.mp accepted
  obtain ⟨⟨⟩, secrets, -⟩ := bind_eq_ok.mp accepted
  obtain ⟨final, scanned, -⟩ := bind_eq_ok.mp secrets
  exact ⟨final, scanned⟩

theorem source_of_validateSecret {E : Environment} {plan : Plan} {before after : Std.TreeSet String}
    {id : Id} {secret : Secret} (checked : validateSecret E plan before (id, secret) = .ok after) :
    validRepositoryRelativePath secret.source = true ∧ secret.source ∉ before ∧
      after = before.insert secret.source := by
  simp only [validateSecret, guard_eq_ok] at checked
  obtain ⟨valid, fresh, -, checked⟩ := checked
  obtain ⟨⟨⟩, -, checked⟩ := bind_eq_ok.mp checked
  obtain ⟨⟨⟩, -, checked⟩ := bind_eq_ok.mp checked
  obtain ⟨⟨⟩, -, checked⟩ := bind_eq_ok.mp checked
  obtain ⟨⟨⟩, -, checked⟩ := bind_eq_ok.mp checked
  obtain ⟨⟨⟩, -, checked⟩ := bind_eq_ok.mp checked
  obtain ⟨⟨⟩, -, checked⟩ := bind_eq_ok.mp checked
  obtain ⟨⟨⟩, -, checked⟩ := bind_eq_ok.mp checked
  obtain ⟨⟨⟩, -, checked⟩ := bind_eq_ok.mp checked
  obtain ⟨⟨⟩, -, returned⟩ := bind_eq_ok.mp checked
  cases returned
  exact ⟨by simpa using valid, by simpa using fresh, rfl⟩

/-- The sources of an accepted plan are normalized, one for each secret. -/
theorem sources_of_validate {E : Environment} {plan : Plan} (accepted : validate E plan = .ok ()) :
    (plan.secrets.toList.map fun entry => entry.2.source).Nodup ∧
      ∀ entry ∈ plan.secrets.toList, validRepositoryRelativePath entry.2.source = true := by
  obtain ⟨final, scanned⟩ := secrets_scanned accepted
  have facts : (plan.secrets.toList.map fun entry => entry.2.source).Nodup ∧
      ∀ entry ∈ plan.secrets.toList, entry.2.source ∈ final ∧
        validRepositoryRelativePath entry.2.source = true := by
    refine foldlM_eq_ok_induction scanned
      (fun (done : List (Id × Secret)) (sources : Std.TreeSet String) =>
        (done.map fun entry : Id × Secret => entry.2.source).Nodup ∧
          ∀ entry ∈ done, entry.2.source ∈ sources ∧
            validRepositoryRelativePath entry.2.source = true) (by simp) ?_
    rintro done ⟨id, secret⟩ before after - stepped ⟨distinct, known⟩
    obtain ⟨valid, fresh, rfl⟩ := source_of_validateSecret stepped
    constructor
    · rw [List.map_append, List.map_singleton, ← List.concat_eq_append, List.nodup_concat]
      refine ⟨fun repeated => ?_, distinct⟩
      obtain ⟨entry, member, same⟩ := List.mem_map.mp repeated
      exact fresh (same ▸ (known entry member).1)
    · intro entry member
      rw [Std.TreeSet.mem_insert]
      rcases List.mem_append.mp member with early | last
      · exact ⟨.inr (known entry early).1, (known entry early).2⟩
      · cases List.mem_singleton.mp last
        exact ⟨.inl (Std.LawfulEqCmp.compare_eq_iff_eq.mpr rfl), valid⟩
  exact ⟨facts.1, fun entry member => (facts.2 entry member).2⟩

/-! ## Outputs of generators -/

/-- The secret outputs of some generators. -/
def secretOutputs (entries : List (Id × Generator)) : List Id :=
  entries.flatMap fun entry => entry.2.outputs

/-- The public destinations of some generators. -/
def publicDestinations (entries : List (Id × Generator)) : List String :=
  entries.flatMap fun entry => entry.2.publicOutputs.map GeneratorPublicOutput.destination

/-- The outputs that generators declared so far, none of them twice. -/
structure DeclaresOnce (sources : Std.TreeSet String) (outputs : List Id)
    (destinations : List String) (declared : DeclaredOutputs) : Prop where
  secrets : outputs.Nodup
  known : ∀ output ∈ outputs, output ∈ declared.secrets
  published : destinations.Nodup
  listed : ∀ destination ∈ destinations, destination ∈ declared.destinations
  apart : ∀ destination ∈ destinations, destination ∉ sources
  valid : ∀ destination ∈ destinations, validRepositoryRelativePath destination = true

theorem DeclaresOnce.declare {plan : Plan} {sources : Std.TreeSet String} {outputs : List Id}
    {destinations : List String} {before after : DeclaredOutputs} {id : Id} {generator : Generator}
    (once : DeclaresOnce sources outputs destinations before)
    (checked : validateGeneratorOutputs plan id generator sources before = .ok after) :
    DeclaresOnce sources (outputs ++ generator.outputs)
      (destinations ++ generator.publicOutputs.map GeneratorPublicOutput.destination) after := by
  obtain ⟨middle, scanned, remaining⟩ := bind_eq_ok.mp checked
  have secrets : DeclaresOnce sources (outputs ++ generator.outputs) destinations middle := by
    refine foldlM_eq_ok_induction scanned (fun done (state : DeclaredOutputs) =>
      DeclaresOnce sources (outputs ++ done) destinations state) (by simpa using once) ?_
    intro done output state next _ stepped kept
    simp only [guard_eq_ok, Bool.or_eq_true, not_or, Std.TreeSet.contains_iff_mem] at stepped
    obtain ⟨⟨-, fresh⟩, returned⟩ := stepped
    cases returned
    rw [← List.append_assoc]
    refine ⟨?_, ?_, kept.published, kept.listed, kept.apart, kept.valid⟩
    · rw [← List.concat_eq_append, List.nodup_concat]
      exact ⟨fun repeated => fresh (kept.known output repeated), kept.secrets⟩
    · intro other member
      rw [Std.TreeSet.mem_insert]
      rcases List.mem_append.mp member with early | last
      · exact .inr (kept.known other early)
      · exact .inl (Std.LawfulEqCmp.compare_eq_iff_eq.mpr (List.mem_singleton.mp last).symm)
  refine foldlM_eq_ok_induction remaining (fun done (state : DeclaredOutputs) =>
    DeclaresOnce sources (outputs ++ generator.outputs)
      (destinations ++ done.map GeneratorPublicOutput.destination) state) (by simpa using secrets) ?_
  intro done output state next _ stepped kept
  simp only [guard_eq_ok, Bool.or_eq_true, not_or, Std.TreeSet.contains_iff_mem,
    Bool.not_eq_true', Bool.not_eq_false] at stepped
  obtain ⟨⟨⟨⟨-, valid⟩, fresh⟩, apart⟩, returned⟩ := stepped
  cases returned
  rw [List.map_append, List.map_singleton, ← List.append_assoc]
  refine ⟨kept.secrets, kept.known, ?_, ?_, ?_, ?_⟩
  · rw [← List.concat_eq_append, List.nodup_concat]
    exact ⟨fun repeated => fresh (kept.listed _ repeated), kept.published⟩
  · intro other member
    rw [Std.TreeSet.mem_insert]
    rcases List.mem_append.mp member with early | last
    · exact .inr (kept.listed other early)
    · exact .inl (Std.LawfulEqCmp.compare_eq_iff_eq.mpr (List.mem_singleton.mp last).symm)
  · intro other member
    rcases List.mem_append.mp member with early | last
    · exact kept.apart other early
    · exact List.mem_singleton.mp last ▸ apart
  · intro other member
    rcases List.mem_append.mp member with early | last
    · exact kept.valid other early
    · exact List.mem_singleton.mp last ▸ valid

theorem sources_outputs_of_validateGenerator {plan : Plan} {sources : Std.TreeSet String}
    {before after : GeneratorScan} {id : Id} {generator : Generator}
    (checked : validateGenerator plan sources before (id, generator) = .ok after) :
    validateGeneratorOutputs plan id generator sources before.outputs = .ok after.outputs := by
  simp only [validateGenerator, guard_eq_ok] at checked
  obtain ⟨-, checked⟩ := checked
  obtain ⟨⟨⟩, -, checked⟩ := bind_eq_ok.mp checked
  obtain ⟨prompts, -, checked⟩ := bind_eq_ok.mp checked
  rw [guard_eq_ok] at checked
  obtain ⟨outputs, declared, checked⟩ := bind_eq_ok.mp checked.2
  obtain ⟨⟨⟩, -, checked⟩ := bind_eq_ok.mp checked
  simp only [guard_eq_ok, not_not] at checked
  obtain ⟨-, -, checked⟩ := checked
  obtain ⟨⟨⟩, -, returned⟩ := bind_eq_ok.mp checked
  cases returned
  exact declared

/-- The paths of the outputs of a generator. -/
def outputPaths (plan : Plan) (generator : Generator) : List String :=
  generator.outputs.filterMap (fun output => plan.secrets[output]?.map Secret.source) ++
    generator.publicOutputs.map GeneratorPublicOutput.destination

theorem declaresOnce_of_validate {E : Environment} {plan : Plan}
    (accepted : validate E plan = .ok ()) :
    ∃ declared, DeclaresOnce
      (Std.TreeSet.ofList (plan.secrets.toList.map fun entry => entry.2.source))
      (secretOutputs plan.generators.toList) (publicDestinations plan.generators.toList) declared := by
  obtain ⟨scan, scanned, -⟩ := bind_eq_ok.mp (acceptedPlan_of_validate accepted).generators
  refine ⟨scan.outputs, foldlM_eq_ok_induction scanned
    (fun done (scan : GeneratorScan) => DeclaresOnce _ (secretOutputs done)
      (publicDestinations done) scan.outputs) ?_ ?_⟩
  · constructor <;> simp [secretOutputs, publicDestinations]
  · rintro done ⟨id, generator⟩ before after - stepped once
    have declared := once.declare (sources_outputs_of_validateGenerator stepped)
    simpa [secretOutputs, publicDestinations] using declared

theorem eq_of_source {E : Environment} {plan : Plan} (accepted : validate E plan = .ok ())
    {id other : Id} {secret second : Secret} (stored : plan.secrets[id]? = some secret)
    (other_stored : plan.secrets[other]? = some second) (same : secret.source = second.source) :
    id = other := by
  have both := List.inj_on_of_nodup_map (sources_of_validate accepted).1
    (Std.TreeMap.mem_toList_iff_getElem?_eq_some.mpr stored)
    (Std.TreeMap.mem_toList_iff_getElem?_eq_some.mpr other_stored) same
  exact congrArg Prod.fst both

theorem valid_of_mem_outputPaths {E : Environment} {plan : Plan}
    (accepted : validate E plan = .ok ()) {id : Id} {generator : Generator}
    (stored : plan.generators[id]? = some generator) {path : String}
    (member : path ∈ outputPaths plan generator) : validRepositoryRelativePath path = true := by
  rcases List.mem_append.mp member with secret | shown
  · obtain ⟨output, -, found⟩ := List.mem_filterMap.mp secret
    obtain ⟨declared, known, rfl⟩ := Option.map_eq_some_iff.mp found
    exact (sources_of_validate accepted).2 (output, declared)
      (Std.TreeMap.mem_toList_iff_getElem?_eq_some.mpr known)
  · obtain ⟨_, once⟩ := declaresOnce_of_validate accepted
    exact once.valid path (List.mem_flatMap.mpr
      ⟨(id, generator), Std.TreeMap.mem_toList_iff_getElem?_eq_some.mpr stored, shown⟩)

/-- A public destination is no source of a secret. -/
theorem source_ne_destination {E : Environment} {plan : Plan}
    (accepted : validate E plan = .ok ()) {id secretId : Id} {generator : Generator}
    {secret : Secret} (stored : plan.generators[id]? = some generator)
    (known : plan.secrets[secretId]? = some secret) {output : GeneratorPublicOutput}
    (member : output ∈ generator.publicOutputs) : secret.source ≠ output.destination := by
  obtain ⟨_, once⟩ := declaresOnce_of_validate accepted
  intro same
  refine once.apart output.destination (List.mem_flatMap.mpr
    ⟨(id, generator), Std.TreeMap.mem_toList_iff_getElem?_eq_some.mpr stored,
      List.mem_map_of_mem member⟩) ?_
  rw [Std.TreeSet.mem_ofList, List.contains_iff_mem, ← same]
  exact List.mem_map.mpr
    ⟨(secretId, secret), Std.TreeMap.mem_toList_iff_getElem?_eq_some.mpr known, rfl⟩

/-- The outputs of a generator have different paths. -/
theorem nodup_outputPaths {E : Environment} {plan : Plan} (accepted : validate E plan = .ok ())
    {id : Id} {generator : Generator} (stored : plan.generators[id]? = some generator) :
    (outputPaths plan generator).Nodup := by
  obtain ⟨_, once⟩ := declaresOnce_of_validate accepted
  have listed := Std.TreeMap.mem_toList_iff_getElem?_eq_some.mpr stored
  have outputs : generator.outputs.Nodup :=
    (List.nodup_flatMap.mp once.secrets).1 _ listed
  have published : (generator.publicOutputs.map GeneratorPublicOutput.destination).Nodup :=
    (List.nodup_flatMap.mp once.published).1 _ listed
  refine List.nodup_append.mpr ⟨?_, published, ?_⟩
  · refine List.Nodup.filterMap ?_ outputs
    intro output other path here there
    obtain ⟨secret, known, rfl⟩ := Option.map_eq_some_iff.mp here
    obtain ⟨second, also, same⟩ := Option.map_eq_some_iff.mp there
    exact eq_of_source accepted known also same.symm
  · rintro path secret _ shown rfl
    obtain ⟨output, -, found⟩ := List.mem_filterMap.mp secret
    obtain ⟨declared, known, rfl⟩ := Option.map_eq_some_iff.mp found
    obtain ⟨publicOutput, member, same⟩ := List.mem_map.mp shown
    exact source_ne_destination accepted stored known member same.symm

theorem disjoint_of_nodup_flatMap {α β : Type} {list : List α} {values : α → List β}
    (distinct : (list.flatMap values).Nodup) {first second : α} (member : first ∈ list)
    (other : second ∈ list) (different : first ≠ second) :
    List.Disjoint (values first) (values second) := by
  have : Std.Symm (Function.onFun List.Disjoint values) := ⟨fun _ _ disjoint => disjoint.symm⟩
  exact (List.nodup_flatMap.mp distinct).2.forall member other different

/-- Different generators write different paths. -/
theorem disjoint_outputPaths {E : Environment} {plan : Plan} (accepted : validate E plan = .ok ())
    {id other : Id} {generator second : Generator} (stored : plan.generators[id]? = some generator)
    (other_stored : plan.generators[other]? = some second) (different : id ≠ other) {path : String}
    (member : path ∈ outputPaths plan generator) : path ∉ outputPaths plan second := by
  obtain ⟨_, once⟩ := declaresOnce_of_validate accepted
  have listed := Std.TreeMap.mem_toList_iff_getElem?_eq_some.mpr stored
  have other_listed := Std.TreeMap.mem_toList_iff_getElem?_eq_some.mpr other_stored
  have unequal : (id, generator) ≠ (other, second) :=
    fun same => different (congrArg Prod.fst same)
  have secrets := disjoint_of_nodup_flatMap once.secrets listed other_listed unequal
  have published := disjoint_of_nodup_flatMap once.published listed other_listed unequal
  intro repeated
  rcases List.mem_append.mp member with here | here
  · obtain ⟨output, inside, found⟩ := List.mem_filterMap.mp here
    obtain ⟨secret, known, rfl⟩ := Option.map_eq_some_iff.mp found
    rcases List.mem_append.mp repeated with there | there
    · obtain ⟨again, also, found⟩ := List.mem_filterMap.mp there
      obtain ⟨declared, stored_again, same⟩ := Option.map_eq_some_iff.mp found
      cases eq_of_source accepted known stored_again same.symm
      exact secrets inside also
    · obtain ⟨output, also, same⟩ := List.mem_map.mp there
      exact source_ne_destination accepted other_stored known also same.symm
  · obtain ⟨output, inside, rfl⟩ := List.mem_map.mp here
    rcases List.mem_append.mp repeated with there | there
    · obtain ⟨again, -, found⟩ := List.mem_filterMap.mp there
      obtain ⟨declared, stored_again, same⟩ := Option.map_eq_some_iff.mp found
      exact source_ne_destination accepted stored stored_again inside same
    · exact published (List.mem_map_of_mem inside) there

end Policy
end NixSeal
