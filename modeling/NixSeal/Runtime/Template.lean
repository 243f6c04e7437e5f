import NixSeal.Lib.Occurrence
import NixSeal.Lib.Ordered
import NixSeal.Runtime.Prepare

/-!
# Public template sources

The runtime goes through a template once, with a cursor that skips recognized placeholders, and
hands every part to a visitor.  The pieces of a source are what it finds.
-/

namespace NixSeal.Runtime

open Occurrence

/-- `TemplateEncodingV1`. -/
inductive TemplateEncoding where
  | utf8
  | base64
  | hex
  deriving DecidableEq

/-- `TemplatePlaceholderSpecV1`. -/
structure PlaceholderSpec where
  secretId : Id
  encoding : TemplateEncoding
  deriving DecidableEq

/-- The placeholders that a template declares, by name. -/
abbrev Placeholders := Std.TreeMap String PlaceholderSpec

/-- `is_placeholder_name`, which is the function of the same name in the policy crate. -/
def isPlaceholderName (value : String) : Bool := Policy.isPlaceholderName value

/-- `TemplatePart`. -/
inductive TemplatePart where
  | literal (bytes : Bytes)
  | placeholder (spec : PlaceholderSpec)
  deriving DecidableEq

/-- Two opening braces, and two closing ones. -/
def openMarker : List Char := ['\x7b', '\x7b']

def closeMarker : List Char := ['\x7d', '\x7d']

/-- What follows the braces of a placeholder, and of a malformed one. -/
def secretLabel : List Char := "nix-seal:".toList

def secretNamespace : List Char := "nix-seal".toList

/-- The loop of `visit_template_source`.  The source from `literal_start` to `search_start` is
pending, and the text is what follows. -/
def visitFrom {σ : Type} (visitor : σ → TemplatePart → Except RuntimeError σ)
    (placeholders : Placeholders) (pending text : List Char) (used : Std.TreeSet String)
    (state : σ) : Except RuntimeError (Std.TreeSet String × σ) :=
  match _found : breakOn openMarker text with
  | none => do
      let state ← visitor state (.literal (utf8 (String.ofList (pending ++ text))))
      .ok (used, state)
  | some (before, after) =>
      if secretLabel <+: after then do
        let state ← visitor state (.literal (utf8 (String.ofList (pending ++ before))))
        match _closed : breakOn closeMarker (after.drop secretLabel.length) with
        | none => .error .templateSyntax
        | some (name, rest) =>
            if !isPlaceholderName (String.ofList name) then .error .templateSyntax
            else
              match placeholders[String.ofList name]? with
              | none => .error .templateSyntax
              | some spec => do
                  let state ← visitor state (.placeholder spec)
                  visitFrom visitor placeholders [] rest (used.insert (String.ofList name)) state
      else if secretNamespace <+: after then .error .templateSyntax
      else visitFrom visitor placeholders (pending ++ before ++ openMarker) after used state
termination_by text.length
decreasing_by
  · have shorter := length_of_breakOn (List.cons_ne_nil _ _) _found
    have closes := length_of_breakOn (List.cons_ne_nil _ _) _closed
    rw [List.length_drop] at closes
    omega
  · exact length_of_breakOn (List.cons_ne_nil _ _) _found

/-- `visit_template_source`. -/
def visitTemplateSource {σ : Type} (visitor : σ → TemplatePart → Except RuntimeError σ)
    (source : Bytes) (placeholders : Placeholders) (state : σ) : Except RuntimeError σ :=
  match fromUtf8 source with
  | none => .error .templateSyntax
  | some text => do
      let (used, state) ← visitFrom visitor placeholders [] text.toList {} state
      if used.size ≠ placeholders.size ∨
          (placeholders.keys.any fun name => !used.contains name) = true then
        .error .templateSyntax
      else .ok state

/-- `validate_template_source`. -/
def validateTemplateSource (source : Bytes) (placeholders : Placeholders) :
    Except RuntimeError Unit :=
  visitTemplateSource (fun _ _ => .ok ()) source placeholders ()

/-! ## Pieces -/

/-- A literal text, or the name of a placeholder. -/
inductive Piece where
  | literal (text : List Char)
  | name (value : String)
  deriving DecidableEq

/-- The pieces of a source, whatever is declared. -/
def pieces (pending text : List Char) : Option (List Piece) :=
  match _found : breakOn openMarker text with
  | none => some [.literal (pending ++ text)]
  | some (before, after) =>
      if secretLabel <+: after then
        match _closed : breakOn closeMarker (after.drop secretLabel.length) with
        | none => none
        | some (name, rest) =>
            if isPlaceholderName (String.ofList name) then
              (pieces [] rest).map fun found =>
                .literal (pending ++ before) :: .name (String.ofList name) :: found
            else none
      else if secretNamespace <+: after then none
      else pieces (pending ++ before ++ openMarker) after
termination_by text.length
decreasing_by
  · have shorter := length_of_breakOn (List.cons_ne_nil _ _) _found
    have closes := length_of_breakOn (List.cons_ne_nil _ _) _closed
    rw [List.length_drop] at closes
    omega
  · exact length_of_breakOn (List.cons_ne_nil _ _) _found

/-- The name of a piece that is a placeholder. -/
def Piece.name? : Piece → Option String
  | .literal _ => none
  | .name value => some value

/-- What a piece stands for. -/
def Piece.resolve (placeholders : Placeholders) : Piece → Option TemplatePart
  | .literal text => some (.literal (utf8 (String.ofList text)))
  | .name value => placeholders[value]?.map .placeholder

section Visiting

variable {σ : Type} {visitor : σ → TemplatePart → Except RuntimeError σ}
  {placeholders : Placeholders}

/-- What a visit of some pieces does: every name is declared, and the visitor sees what the pieces
stand for. -/
def Visits (visitor : σ → TemplatePart → Except RuntimeError σ) (placeholders : Placeholders)
    (found : List Piece) (used : Std.TreeSet String) (state : σ) (final : Std.TreeSet String × σ) :
    Prop :=
  final.1 = (found.filterMap Piece.name?).foldl Std.TreeSet.insert used ∧
    ∃ parts, found.mapM (Piece.resolve placeholders) = some parts ∧
      parts.foldlM visitor state = .ok final.2

theorem visits_literal {text : List Char} {found : List Piece} {used : Std.TreeSet String}
    {state : σ} {final : Std.TreeSet String × σ} :
    Visits visitor placeholders (.literal text :: found) used state final ↔
      ∃ next, visitor state (.literal (utf8 (String.ofList text))) = .ok next ∧
        Visits visitor placeholders found used next final := by
  simp only [Visits, List.filterMap_cons, Piece.name?, List.mapM_cons, Piece.resolve]
  cases resolved : found.mapM (Piece.resolve placeholders) with
  | none => simp
  | some parts =>
      cases seen : visitor state (.literal (utf8 (String.ofList text))) with
      | error failure => simp [List.foldlM_cons, seen, bind, Except.bind]
      | ok next => simp [List.foldlM_cons, seen, bind, Except.bind]

theorem visits_name {value : String} {found : List Piece} {used : Std.TreeSet String}
    {state : σ} {final : Std.TreeSet String × σ} :
    Visits visitor placeholders (.name value :: found) used state final ↔
      ∃ spec, placeholders[value]? = some spec ∧
        ∃ next, visitor state (.placeholder spec) = .ok next ∧
          Visits visitor placeholders found (used.insert value) next final := by
  simp only [Visits, List.filterMap_cons, Piece.name?, List.mapM_cons, Piece.resolve,
    List.foldl_cons]
  cases declared : placeholders[value]? with
  | none => simp
  | some spec =>
      cases resolved : found.mapM (Piece.resolve placeholders) with
      | none => simp
      | some parts =>
          cases seen : visitor state (.placeholder spec) with
          | error failure => simp [List.foldlM_cons, seen, bind, Except.bind]
          | ok next => simp [List.foldlM_cons, seen, bind, Except.bind]

theorem visits_nil {used : Std.TreeSet String} {state : σ} {final : Std.TreeSet String × σ} :
    Visits visitor placeholders [] used state final ↔ (used, state) = final := by
  obtain ⟨after, last⟩ := final
  simp [Visits, pure, Except.pure, eq_comm]

theorem visitFrom_labelled {pending text before after : List Char} {used : Std.TreeSet String}
    {state : σ} {final : Std.TreeSet String × σ}
    (found : breakOn openMarker text = some (before, after)) (labelled : secretLabel <+: after) :
    visitFrom visitor placeholders pending text used state = .ok final ↔
      ∃ next, visitor state (.literal (utf8 (String.ofList (pending ++ before)))) = .ok next ∧
        ∃ name rest spec, breakOn closeMarker (after.drop secretLabel.length) = some (name, rest) ∧
          isPlaceholderName (String.ofList name) = true ∧
          placeholders[String.ofList name]? = some spec ∧
          ∃ last, visitor next (.placeholder spec) = .ok last ∧
            visitFrom visitor placeholders [] rest (used.insert (String.ofList name)) last =
              .ok final := by
  rw [visitFrom]
  split
  · rename_i absent
    rw [found] at absent
    cases absent
  · rename_i again
    rw [found] at again
    cases again
    rw [if_pos labelled, Fallible.bind_eq_ok]
    refine exists_congr fun next => and_congr_right fun _ => ?_
    split
    · rename_i unclosed
      simp [unclosed]
    · rename_i name rest closed
      rw [closed]
      cases named : isPlaceholderName (String.ofList name) with
      | false => simp [named]
      | true =>
          cases declared : placeholders[String.ofList name]? with
          | none => simp [named, declared]
          | some spec => simp [named, declared, Fallible.bind_eq_ok]

theorem visitFrom_other {pending text before after : List Char} {used : Std.TreeSet String}
    {state : σ} (found : breakOn openMarker text = some (before, after))
    (unlabelled : ¬secretLabel <+: after) :
    visitFrom visitor placeholders pending text used state =
      if secretNamespace <+: after then .error .templateSyntax
      else visitFrom visitor placeholders (pending ++ before ++ openMarker) after used state := by
  rw [visitFrom]
  split
  · rename_i absent
    rw [found] at absent
    cases absent
  · rename_i again
    rw [found] at again
    cases again
    rw [if_neg unlabelled]

/-- The loop visits the pieces of the source. -/
theorem visitFrom_eq_ok {pending text : List Char} {used : Std.TreeSet String} {state : σ}
    {final : Std.TreeSet String × σ} :
    visitFrom visitor placeholders pending text used state = .ok final ↔
      ∃ found, pieces pending text = some found ∧
        Visits visitor placeholders found used state final := by
  fun_induction pieces pending text generalizing used state with
  | case1 pending text absent =>
      rw [visitFrom]
      split
      · simp only [Fallible.bind_eq_ok, Option.some.injEq, exists_eq_left', visits_literal,
          visits_nil, Except.ok.injEq]
      · rename_i present
        rw [absent] at present
        cases present
  | case2 pending text before after found labelled unclosed =>
      rw [visitFrom_labelled found labelled, unclosed]
      simp
  | case3 pending text before after found labelled name rest closed named ih =>
      rw [visitFrom_labelled found labelled, closed]
      simp only [Option.some.injEq, Prod.mk.injEq, Option.map_eq_some_iff]
      constructor
      · rintro ⟨next, seen, _, _, spec, ⟨rfl, rfl⟩, -, declared, last, shown, visited⟩
        obtain ⟨inner, scanned, visits⟩ := ih.mp visited
        exact ⟨_, ⟨inner, scanned, rfl⟩, visits_literal.mpr
          ⟨next, seen, visits_name.mpr ⟨spec, declared, last, shown, visits⟩⟩⟩
      · rintro ⟨_, ⟨inner, scanned, rfl⟩, visits⟩
        obtain ⟨next, seen, visits⟩ := visits_literal.mp visits
        obtain ⟨spec, declared, last, shown, visits⟩ := visits_name.mp visits
        exact ⟨next, seen, name, rest, spec, ⟨rfl, rfl⟩, named, declared, last, shown,
          ih.mpr ⟨inner, scanned, visits⟩⟩
  | case4 pending text before after found labelled name rest closed unnamed =>
      rw [visitFrom_labelled found labelled, closed]
      simp only [Option.some.injEq, Prod.mk.injEq, reduceCtorEq, false_and, exists_false,
        iff_false]
      rintro ⟨next, -, _, _, spec, ⟨rfl, rfl⟩, named, -⟩
      exact unnamed named
  | case5 pending text before after found unlabelled namespaced =>
      rw [visitFrom_other found unlabelled, if_pos namespaced]
      simp
  | case6 pending text before after found unlabelled other ih =>
      rw [visitFrom_other found unlabelled, if_neg other, ih]

/-- The names in a source are those that are declared. -/
def Covers (found : List Piece) (placeholders : Placeholders) : Prop :=
  ∀ name, Piece.name name ∈ found ↔ name ∈ placeholders

theorem mem_names_iff {found : List Piece} {name : String} :
    name ∈ found.filterMap Piece.name? ↔ Piece.name name ∈ found := by
  rw [List.mem_filterMap]
  constructor
  · rintro ⟨piece, member, named⟩
    cases piece with
    | literal text => cases named
    | name value =>
        cases named
        exact member
  · exact fun member => ⟨_, member, rfl⟩

theorem mem_foldl_insert {names : List String} {used : Std.TreeSet String} {name : String} :
    name ∈ names.foldl Std.TreeSet.insert used ↔ name ∈ used ∨ name ∈ names := by
  induction names generalizing used with
  | nil => simp
  | cons first rest ih =>
      rw [List.foldl_cons, ih, Std.TreeSet.mem_insert, Std.LawfulEqCmp.compare_eq_iff_eq,
        List.mem_cons, eq_comm]
      tauto

theorem exists_resolved_iff {found : List Piece} :
    (∃ parts, found.mapM (Piece.resolve placeholders) = some parts) ↔
      ∀ name, Piece.name name ∈ found → name ∈ placeholders := by
  induction found with
  | nil => simp
  | cons piece rest ih =>
      cases piece with
      | literal text =>
          rw [List.mapM_cons]
          simp [Piece.resolve, Option.bind_eq_some_iff, ← ih]
      | name value =>
          rw [List.mapM_cons]
          cases declared : placeholders[value]? with
          | none =>
              have absent : value ∉ placeholders := by
                rw [← Std.TreeMap.isSome_getElem?_iff_mem, declared]
                simp
              simp only [Piece.resolve, declared]
              simp only [Option.map_none, bind, Option.bind_none, reduceCtorEq, exists_false,
                false_iff, not_forall]
              exact ⟨value, by simp, absent⟩
          | some spec =>
              have present : value ∈ placeholders := by
                rw [← Std.TreeMap.isSome_getElem?_iff_mem, declared]
                rfl
              simp [Piece.resolve, Option.bind_eq_some_iff, ← ih, present]

/-- The check after the loop, for a set of declared names. -/
theorem used_iff {found : List Piece} {used : Std.TreeSet String}
    (collected : ∀ name, name ∈ used ↔ Piece.name name ∈ found)
    (declared : ∀ name, Piece.name name ∈ found → name ∈ placeholders) :
    ¬(used.size ≠ placeholders.size ∨
      (placeholders.keys.any fun name => !used.contains name) = true) ↔
        Covers found placeholders := by
  rw [not_or, not_not]
  constructor
  · rintro ⟨-, all⟩ name
    refine ⟨declared name, fun member => ?_⟩
    have listed : name ∈ placeholders.keys := Std.TreeMap.mem_keys.mpr member
    rw [← collected]
    by_contra absent
    have missing := Bool.eq_false_iff.mpr (mt Std.TreeSet.contains_iff_mem.mp absent)
    exact all (List.any_eq_true.mpr ⟨name, listed, by rw [missing, Bool.not_false]⟩)
  · intro covers
    have same : ∀ name, name ∈ used ↔ name ∈ placeholders :=
      fun name => (collected name).trans (covers name)
    refine ⟨?_, ?_⟩
    · rw [← Std.TreeSet.length_toList, Ordered.toList_eq_keys same, Std.TreeMap.length_keys]
    · intro missing
      obtain ⟨name, listed, absent⟩ := List.any_eq_true.mp missing
      have present := (same name).mpr (Std.TreeMap.mem_keys.mp listed)
      rw [Std.TreeSet.contains_iff_mem.mpr present] at absent
      cases absent

/-- A visit succeeds on a source whose names are those that are declared, unless the visitor
fails. -/
theorem visitTemplateSource_eq_ok {source : Bytes} {text : String}
    (decoded : fromUtf8 source = some text) {state final : σ} :
    visitTemplateSource visitor source placeholders state = .ok final ↔
      ∃ found parts, pieces [] text.toList = some found ∧ Covers found placeholders ∧
        found.mapM (Piece.resolve placeholders) = some parts ∧
        parts.foldlM visitor state = .ok final := by
  have collected : ∀ (found : List Piece) (name : String),
      name ∈ (found.filterMap Piece.name?).foldl Std.TreeSet.insert ({} : Std.TreeSet String) ↔
        Piece.name name ∈ found := by
    intro found name
    rw [mem_foldl_insert, mem_names_iff, or_iff_right Std.TreeSet.not_mem_emptyc]
  simp only [visitTemplateSource, decoded]
  rw [Fallible.bind_eq_ok]
  constructor
  · rintro ⟨⟨used, last⟩, visited, checked⟩
    obtain ⟨found, scanned, rfl, parts, resolved, shown⟩ := visitFrom_eq_ok.mp visited
    obtain ⟨covers, same⟩ := Fallible.guard_eq_ok.mp checked
    cases same
    exact ⟨found, parts, scanned,
      (used_iff (collected found) (exists_resolved_iff.mp ⟨parts, resolved⟩)).mp covers, resolved,
      shown⟩
  · rintro ⟨found, parts, scanned, covers, resolved, shown⟩
    exact ⟨(_, final), visitFrom_eq_ok.mpr ⟨found, scanned, rfl, parts, resolved, shown⟩,
      Fallible.guard_eq_ok.mpr ⟨(used_iff (collected found)
        (exists_resolved_iff.mp ⟨parts, resolved⟩)).mpr covers, rfl⟩⟩

/-- Exactly these sources are valid. -/
theorem validateTemplateSource_eq_ok {source : Bytes} {text : String}
    (decoded : fromUtf8 source = some text) :
    validateTemplateSource source placeholders = .ok () ↔
      ∃ found, pieces [] text.toList = some found ∧ Covers found placeholders := by
  have silent : ∀ parts : List TemplatePart,
      parts.foldlM (fun (_ : Unit) _ => Except.ok (ε := RuntimeError) ()) () = .ok () := by
    intro parts
    induction parts with
    | nil => rfl
    | cons part rest ih => exact ih
  rw [validateTemplateSource, visitTemplateSource_eq_ok decoded]
  constructor
  · rintro ⟨found, parts, scanned, covers, -⟩
    exact ⟨found, scanned, covers⟩
  · rintro ⟨found, scanned, covers⟩
    obtain ⟨parts, resolved⟩ := exists_resolved_iff.mpr fun name => (covers name).mp
    exact ⟨found, parts, scanned, covers, resolved, silent parts⟩

end Visiting

end NixSeal.Runtime
