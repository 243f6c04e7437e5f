import NixSeal.Lib.Correspondence
import NixSeal.Lib.Replace
import NixSeal.Runtime.NixTemplates
import NixSeal.Runtime.SinglePass

/-!
# Public template values

The frontend recognizes public markers by splitting at pairs of braces and replaces them by a
search at every position.  The two agree unless a marker stands behind an odd run of braces.
-/

namespace NixSeal.Runtime

open Occurrence MarkRuns Replace

/-- What follows the opening braces of a marker, and that of the marker of a name. -/
def publicPrefix : List Char := "public:".toList

def publicLabel (name : List Char) : List Char := publicPrefix ++ name ++ closeMarker

/-- `marker`. -/
def marker (name : List Char) : List Char := openMarker ++ publicLabel name

/-- `values.${name}`, where it is bound. -/
def publicValue (values : Std.TreeMap String String) (name : List Char) : List Char :=
  (values[String.ofList name]?.getD "").toList

/-- `renderedSize`. -/
def renderedSize (content : String) (values : Std.TreeMap String String)
    (publicNames : List (List Char)) : Int :=
  (utf8 content).length + publicNames.foldl (fun (size : Int) name =>
    size + (octets (publicValue values name)).length - (octets (marker name)).length) 0

/-- `rendered`. -/
def renderedText (content : String) (values : Std.TreeMap String String)
    (names : List String) : String :=
  String.ofList (replace (names.map fun name =>
    (marker name.toList, publicValue values name.toList)) content.toList)

/-- `renderPublic`. -/
def renderPublic (content : String) (values : Std.TreeMap String String) :
    Except String String := do
  let publicNames ← occurrences "public" content
  let names := unique publicNames
  let missing := names.filter fun name => !values.contains name
  let unused := values.keys.filter fun name => !names.contains name
  let rendered := renderedText content values names
  if names ≠ values.keys then
    .error ("nixSeal template publicValues: missing bindings [" ++ ", ".intercalate missing ++
      "]; unused bindings [" ++ ", ".intercalate unused ++ "]")
  else if 256 < names.length then .error "nixSeal template exceeds 256 public placeholders"
  else if (templateLimit : Int) < renderedSize content values publicNames then
    .error "nixSeal public template expansion exceeds the 2 MiB limit"
  else if (values.values.any fun value => containsText "\x7b\x7bpublic" value ||
      containsText "\x7b\x7bnix-seal" value) = true then
    .error "nixSeal publicValues cannot contain public or secret placeholder markers"
  else do
    let remaining ← occurrences "public" rendered
    if remaining ≠ [] then
      .error "nixSeal publicValues cannot create or change placeholder markers"
    else do
      let after ← occurrences "nix-seal" rendered
      let before ← occurrences "nix-seal" content
      if after ≠ before then
        .error "nixSeal publicValues cannot create or change placeholder markers"
      else .ok rendered

/-! ## The recognized markers -/

/-- A part of the split content, with the marker at its front replaced. -/
def partText (values : Std.TreeMap String String) (part : List Char) : List Char :=
  match matchMarker "public" part with
  | some name => publicValue values name ++ part.drop (publicLabel name).length
  | none => openMarker ++ part

/-- The content with the recognized occurrences replaced. -/
def substituted (values : Std.TreeMap String String) (content : List Char) : List Char :=
  let parts := splitOn '\x7b' ['\x7b'] content
  parts.head?.getD [] ++ parts.tail.flatMap (partText values)

theorem publicLabel_eq (name : List Char) :
    publicLabel name = ("public" ++ ":").toList ++ name ++ closeMarker := by
  have label : ("public" ++ ":").toList = publicPrefix := by decide
  rw [publicLabel, label]

theorem matchMarker_public {part name : List Char} (matched : matchMarker "public" part = some name) :
    matchesName name = true ∧ ∃ rest, part = publicLabel name ++ rest := by
  obtain ⟨named, rest, same, -⟩ := matchMarker_eq_some_iff.mp matched
  exact ⟨named, rest, by rw [same, publicLabel_eq]⟩

theorem brace_not_mem_publicLabel {name : List Char} (named : matchesName name = true) :
    '\x7b' ∉ publicLabel name := by
  have lower : '\x7b' ∉ name := by
    intro member
    exact absurd (all_of_matchesName named _ member) (by decide)
  simp only [publicLabel, List.mem_append, not_or]
  exact ⟨⟨by decide, lower⟩, by decide⟩

theorem publicLabel_ne_nil (name : List Char) : publicLabel name ≠ [] := by
  simp [publicLabel, closeMarker]

/-- Two labels at one position have one name. -/
theorem name_eq_of_starts {first second text : List Char} (named : matchesName first = true)
    (also : matchesName second = true) (left : publicLabel first <+: text)
    (right : publicLabel second <+: text) : first = second := by
  obtain ⟨rest, rfl⟩ := left
  obtain ⟨more, same⟩ := right
  simp only [publicLabel, List.append_assoc, List.append_cancel_left_eq] at same
  rw [← takeWhile_name named rest, ← takeWhile_name also more, same]

theorem substituted_of_none {values : Std.TreeMap String String} {text : List Char}
    (absent : breakOn openMarker text = none) : substituted values text = text := by
  rw [substituted, splitOn_of_none absent]
  exact List.append_nil text

theorem splitOn_cons {symbol : Char} {text head : List Char} {parts : List (List Char)}
    (single : ¬openMarker <+: symbol :: text) (split : splitOn '\x7b' ['\x7b'] text = head :: parts) :
    splitOn '\x7b' ['\x7b'] (symbol :: text) = (symbol :: head) :: parts := by
  have moved : breakOn ['\x7b', '\x7b'] (symbol :: text) =
      (breakOn ['\x7b', '\x7b'] text).map fun found => (symbol :: found.1, found.2) :=
    if_neg single
  cases found : breakOn ['\x7b', '\x7b'] text with
  | none =>
      rw [found, Option.map_none] at moved
      rw [splitOn_of_none found] at split
      cases split
      exact splitOn_of_none moved
  | some broken =>
      rw [found, Option.map_some] at moved
      rw [splitOn_of_some found] at split
      cases split
      exact splitOn_of_some moved

theorem substituted_cons {values : Std.TreeMap String String} {symbol : Char} {text : List Char}
    (single : ¬openMarker <+: symbol :: text) :
    substituted values (symbol :: text) = symbol :: substituted values text := by
  obtain ⟨head, parts, split, -⟩ := exists_head_splitOn '\x7b' ['\x7b'] text
  rw [substituted, substituted, splitOn_cons single split, split]
  rfl

theorem substituted_append {values : Std.TreeMap String String} {front : List Char}
    (absent : '\x7b' ∉ front) (rest : List Char) :
    substituted values (front ++ rest) = front ++ substituted values rest := by
  obtain ⟨head, parts, split, -⟩ := exists_head_splitOn '\x7b' ['\x7b'] rest
  rw [substituted, substituted, splitOn_append_of_not_mem absent split, split]
  exact List.append_assoc ..

theorem substituted_of_marker {values : Std.TreeMap String String}
    {text before name rest : List Char} (named : matchesName name = true)
    (found : breakOn openMarker text = some (before, publicLabel name ++ rest))
    {head : List Char} {parts : List (List Char)}
    (split : splitOn '\x7b' ['\x7b'] (publicLabel name ++ rest) = head :: parts)
    (matched : matchMarker "public" head = some name) :
    substituted values text = before ++ publicValue values name ++ substituted values rest := by
  obtain ⟨first, others, split_rest, -⟩ := exists_head_splitOn '\x7b' ['\x7b'] rest
  have again := splitOn_append_of_not_mem (brace_not_mem_publicLabel named) split_rest
  rw [split] at again
  cases again
  have replaced : partText values (publicLabel name ++ first) = publicValue values name ++ first := by
    simp only [partText, matched, List.drop_left]
  rw [substituted, substituted, splitOn_of_some found, split_rest]
  simp only [List.head?_cons, Option.getD_some, List.tail_cons, split, List.flatMap_cons, replaced,
    List.append_assoc]

theorem substituted_of_other {values : Std.TreeMap String String} {text before after : List Char}
    (found : breakOn openMarker text = some (before, after)) {head : List Char}
    {parts : List (List Char)} (split : splitOn '\x7b' ['\x7b'] after = head :: parts)
    (unmatched : matchMarker "public" head = none) :
    substituted values text = before ++ openMarker ++ substituted values after := by
  have kept : partText values head = openMarker ++ head := by
    simp only [partText, unmatched]
  rw [substituted, substituted, splitOn_of_some found]
  simp only [List.head?_cons, Option.getD_some, List.tail_cons, split, List.flatMap_cons, kept,
    List.append_assoc]

/-! ## The search at every position -/

/-- The table of `replaceStrings`, when the names are those that are bound. -/
def markerTable (values : Std.TreeMap String String) : List (List Char × List Char) :=
  values.keys.map fun name => (marker name.toList, publicValue values name.toList)

section Search

variable {values : Std.TreeMap String String}

/-- The names that can be bound. -/
def Named (values : Std.TreeMap String String) : Prop :=
  ∀ name, String.ofList name ∈ values → matchesName name = true

theorem mem_markerTable {entry : List Char × List Char} : entry ∈ markerTable values ↔
    ∃ name, String.ofList name ∈ values ∧ entry = (marker name, publicValue values name) := by
  simp only [markerTable, List.mem_map, Std.TreeMap.mem_keys]
  constructor
  · rintro ⟨name, member, rfl⟩
    exact ⟨name.toList, by rwa [String.ofList_toList], rfl⟩
  · rintro ⟨name, member, rfl⟩
    exact ⟨String.ofList name, member, by rw [String.toList_ofList]⟩

theorem entryAt_eq_none_iff {text : List Char} : entryAt (markerTable values) text = none ↔
    ∀ name, String.ofList name ∈ values → ¬marker name <+: text := by
  rw [entryAt_eq_none]
  constructor
  · exact fun all name bound => all _ (mem_markerTable.mpr ⟨name, bound, rfl⟩)
  · rintro all entry member
    obtain ⟨name, bound, rfl⟩ := mem_markerTable.mp member
    exact all name bound

/-- One marker stands at a position at most. -/
theorem entryAt_marker (all : Named values) {name rest : List Char}
    (bound : String.ofList name ∈ values) :
    entryAt (markerTable values) (marker name ++ rest) =
      some (marker name, publicValue values name) := by
  have starts : marker name <+: marker name ++ rest := List.prefix_append _ _
  cases found : entryAt (markerTable values) (marker name ++ rest) with
  | none => exact absurd starts (entryAt_eq_none_iff.mp found name bound)
  | some entry =>
      obtain ⟨other, also, rfl⟩ := mem_markerTable.mp (List.mem_of_find?_eq_some found)
      have inside : marker other <+: marker name ++ rest := by
        simpa using List.find?_some found
      rw [marker, marker, List.append_assoc, List.prefix_append_right_inj] at inside
      rw [name_eq_of_starts (all other also) (all name bound) inside (List.prefix_append _ _)]

theorem replace_marker (all : Named values) {name rest : List Char}
    (bound : String.ofList name ∈ values) :
    replace (markerTable values) (marker name ++ rest) =
      publicValue values name ++ replace (markerTable values) rest :=
  replace_append_of_some (by simp [marker, openMarker]) (entryAt_marker all bound)

theorem replace_of_breakOn {text before after : List Char}
    (found : breakOn openMarker text = some (before, after)) :
    replace (markerTable values) text =
      before ++ replace (markerTable values) (openMarker ++ after) := by
  have single := not_infix_of_breakOn (List.cons_ne_nil _ _) found
  rw [eq_of_breakOn found, List.append_assoc]
  refine replace_append_of_none fun tail inside present => entryAt_eq_none_iff.mpr ?_
  intro name bound starts
  have pair : openMarker <+: tail ++ (openMarker ++ after) :=
    (List.prefix_append _ _).trans starts
  have short : openMarker <+: tail ++ ['\x7b'] := by
    refine List.prefix_of_prefix_length_le pair ?_ ?_
    · exact (List.prefix_append_right_inj tail).mpr ⟨'\x7b' :: after, rfl⟩
    · have positive := List.length_pos_iff.mpr present
      rw [List.length_append]
      exact Nat.succ_le_succ positive
  obtain ⟨front, rfl⟩ := inside
  refine single (short.isInfix.trans ⟨front, [], ?_⟩)
  rw [List.append_nil, ← List.append_assoc]
  rfl

theorem replace_of_none {text : List Char} (absent : breakOn openMarker text = none) :
    replace (markerTable values) text = text := by
  have single := not_infix_of_breakOn_eq_none absent
  have whole := @replace_append_of_none _ _ (markerTable values) text [] fun tail inside present =>
    entryAt_eq_none_iff.mpr fun name bound starts => by
      rw [List.append_nil] at starts
      exact single (((List.prefix_append openMarker (publicLabel name)).trans starts).isInfix.trans
        inside.isInfix)
  rwa [List.append_nil, replace_nil, List.append_nil] at whole

/-- A pair before no marker stays. -/
theorem replace_pair {after : List Char}
    (apart : ∀ name, String.ofList name ∈ values → ¬publicLabel name <+: after)
    (clear : ∀ name, String.ofList name ∈ values → ¬ '\x7b' :: publicLabel name <+: after) :
    replace (markerTable values) (openMarker ++ after) =
      openMarker ++ replace (markerTable values) after := by
  have first : entryAt (markerTable values) ('\x7b' :: '\x7b' :: after) = none := by
    refine entryAt_eq_none_iff.mpr fun name bound starts => apart name bound ?_
    exact (List.prefix_append_right_inj openMarker).mp starts
  have second : entryAt (markerTable values) ('\x7b' :: after) = none := by
    refine entryAt_eq_none_iff.mpr fun name bound starts => clear name bound ?_
    exact (List.prefix_append_right_inj ['\x7b']).mp starts
  change replace (markerTable values) ('\x7b' :: '\x7b' :: after) = _
  rw [replace_cons_of_none first, replace_cons_of_none second]
  rfl

/-- Behind three braces, the search finds a marker that the split does not. -/
theorem replace_overlap (all : Named values) {name rest : List Char}
    (bound : String.ofList name ∈ values) :
    replace (markerTable values) (openMarker ++ '\x7b' :: (publicLabel name ++ rest)) =
      '\x7b' :: (publicValue values name ++ replace (markerTable values) rest) := by
  have first : entryAt (markerTable values)
      ('\x7b' :: (marker name ++ rest)) = none := by
    refine entryAt_eq_none_iff.mpr fun other also starts => ?_
    have inside := (List.prefix_append_right_inj openMarker).mp starts
    exact not_prefix_mark_cons (brace_not_mem_publicLabel (all other also))
      (publicLabel_ne_nil other) _ inside
  change replace (markerTable values) ('\x7b' :: (marker name ++ rest)) = _
  rw [replace_cons_of_none first, replace_marker all bound]

/-! ## Where the two agree -/

/-- Every marker at the front of a part is well formed and bound. -/
def Recognized (values : Std.TreeMap String String) (text : List Char) : Prop :=
  ∀ part ∈ (splitOn '\x7b' ['\x7b'] text).tail, "public".toList <+: part →
    ∃ name, matchMarker "public" part = some name ∧ String.ofList name ∈ values

/-- A bound marker stands behind an odd number of opening braces, three or more. -/
def Misread (values : Std.TreeMap String String) (run : Nat) (text : List Char) : Prop :=
  ∃ name, String.ofList name ∈ values ∧ Behind '\x7b' (publicLabel name) Unpaired run text

/-- The search and the split agree on a text unless it is misread; and the one result does not even
end with the other. -/
structure Agrees (values : Std.TreeMap String String) (run : Nat) (text : List Char) : Prop where
  equal : ¬Misread values run text → replace (markerTable values) text = substituted values text
  exact : ∀ front, replace (markerTable values) text = front ++ substituted values text →
    front = [] ∧ ¬Misread values run text

theorem append_eq_of_append_eq {first second front common : List Char}
    (same : common ++ first = front ++ (common ++ second)) :
    first = (front ++ common).drop common.length ++ second := by
  have dropped := congrArg (List.drop common.length) same
  rw [List.drop_left, ← List.append_assoc, List.drop_append_of_le_length] at dropped
  · exact dropped
  · rw [List.length_append]
    omega

/-- Both go on behind the same text. -/
theorem Agrees.append {run later : Nat} {text rest common : List Char}
    (agrees : Agrees values later rest)
    (searched : replace (markerTable values) text = common ++ replace (markerTable values) rest)
    (split : substituted values text = common ++ substituted values rest)
    (same : Misread values run text ↔ Misread values later rest) : Agrees values run text where
  equal correct := by
    rw [searched, split, agrees.equal (mt same.mpr correct)]
  exact front equal := by
    rw [searched, split] at equal
    obtain ⟨empty, correct⟩ := agrees.exact _ (append_eq_of_append_eq equal)
    have length := congrArg List.length empty
    rw [List.length_drop, List.length_append, List.length_nil] at length
    exact ⟨List.length_eq_zero_iff.mp (by omega), mt same.mp correct⟩

/-- The search has replaced a marker that the split has not. -/
theorem Agrees.overlap {run later : Nat} {text rest common value label : List Char}
    (agrees : Agrees values later rest)
    (searched : replace (markerTable values) text =
      common ++ (value ++ replace (markerTable values) rest))
    (split : substituted values text = common ++ (label ++ substituted values rest))
    (foreign : ¬label <:+: value) (misread : Misread values run text) :
    Agrees values run text where
  equal correct := absurd misread correct
  exact front equal := by
    exfalso
    rw [searched, split] at equal
    have shifted := append_eq_of_append_eq equal
    generalize (front ++ common).drop common.length = moved at shifted
    rw [← List.append_assoc] at shifted
    rcases Nat.lt_or_ge value.length (moved ++ label).length with shorter | longer
    · have dropped := congrArg (List.drop value.length) shifted
      rw [List.drop_left, List.drop_append_of_le_length shorter.le] at dropped
      have empty := congrArg List.length (agrees.exact _ dropped).1
      rw [List.length_drop, List.length_nil] at empty
      omega
    · have inside : moved ++ label <+: value :=
        List.prefix_of_prefix_length_le ⟨_, rfl⟩ ⟨_, shifted⟩ longer
      exact foreign ((List.suffix_append moved label).isInfix.trans inside.isInfix)

theorem public_prefix_publicLabel_append (name rest : List Char) :
    "public".toList <+: publicLabel name ++ rest := by
  have label : "public".toList <+: publicPrefix := by decide
  rw [publicLabel, List.append_assoc, List.append_assoc]
  exact label.trans (List.prefix_append _ _)

/-- What stands behind the braces, from the front of its part. -/
theorem marker_of_part {after head name : List Char} (starts : head <+: after)
    (matched : matchMarker "public" head = some name) :
    matchesName name = true ∧ ∃ rest, after = publicLabel name ++ rest := by
  obtain ⟨named, rest, rfl⟩ := matchMarker_public matched
  obtain ⟨more, rfl⟩ := starts
  exact ⟨named, rest ++ more, List.append_assoc ..⟩

theorem agrees (all : Named values)
    (foreign : ∀ name, String.ofList name ∈ values →
      ¬marker name <:+: publicValue values name) {run : Nat} {text : List Char}
    (even : run % 2 = 0) (recognized : Recognized values text)
    (clear : 2 ≤ run → ∀ name, String.ofList name ∈ values →
      ¬ '\x7b' :: publicLabel name <+: text) : Agrees values run text := by
  induction size : text.length using Nat.strong_induction_on generalizing run text with
  | _ length ih =>
      cases found : breakOn openMarker text with
      | none =>
          have single := not_infix_of_breakOn_eq_none found
          have correct : ¬Misread values run text := by
            rintro ⟨name, bound, behind⟩
            exact not_behind_unpaired (publicLabel_ne_nil name) even single
              (fun long => clear long name bound) behind
          refine ⟨fun _ => ?_, fun front same => ⟨?_, correct⟩⟩
          · rw [replace_of_none found, substituted_of_none found]
          · rw [replace_of_none found, substituted_of_none found] at same
            exact List.self_eq_append_left.mp same
      | some broken =>
          obtain ⟨before, after⟩ := broken
          obtain ⟨head, parts, split, starts⟩ := exists_head_splitOn '\x7b' ['\x7b'] after
          have tail : (splitOn '\x7b' ['\x7b'] text).tail = head :: parts := by
            rw [splitOn_of_some found, List.tail_cons, split]
          have even_before : runBehind '\x7b' run before % 2 = 0 := even_runBehind even found
          have shorter := length_of_breakOn (List.cons_ne_nil _ _) found
          have misread : Misread values run text ↔ Misread values
              (runBehind '\x7b' run before) (openMarker ++ after) :=
            exists_congr fun name => and_congr_right fun bound =>
              behind_unpaired_iff (brace_not_mem_publicLabel (all name bound))
                (publicLabel_ne_nil name) even (fun long => clear long name bound) found
          cases matched : matchMarker "public" head with
          | some name =>
              obtain ⟨named, rest, whole⟩ := marker_of_part starts matched
              subst whole
              obtain ⟨first, others, split_rest, -⟩ := exists_head_splitOn '\x7b' ['\x7b'] rest
              have bare := brace_not_mem_publicLabel named
              have again := splitOn_append_of_not_mem bare split_rest
              rw [split] at again
              cases again
              have bound : String.ofList name ∈ values := by
                obtain ⟨other, again, bound⟩ := recognized _ (tail ▸ List.mem_cons_self ..)
                  (public_prefix_publicLabel_append name first)
                rw [matched] at again
                cases again
                exact bound
              have fewer : rest.length < length := by
                rw [List.length_append] at shorter
                omega
              have later : Agrees values 0 rest := by
                refine ih _ fewer rfl (fun part member => ?_) (fun long => absurd long (by decide))
                  rfl
                rw [split_rest, List.tail_cons] at member
                exact recognized part (tail ▸ List.mem_cons_of_mem _ member)
              refine @Agrees.append values run 0 text rest (before ++ publicValue values name) later
                ?_ ?_ ?_
              · rw [replace_of_breakOn found, List.append_assoc, ← replace_marker all bound]
                simp only [marker, List.append_assoc]
              · exact substituted_of_marker named found split matched
              · rw [misread]
                refine exists_congr fun other => and_congr_right fun also => ?_
                rw [← List.append_assoc]
                exact behind_pair_append (brace_not_mem_publicLabel (all other also))
                  (publicLabel_ne_nil other) even_before bare (publicLabel_ne_nil name) rest
          | none =>
              by_cases overlap : ∃ name rest, String.ofList name ∈ values ∧
                  after = '\x7b' :: (publicLabel name ++ rest)
              · obtain ⟨name, rest, bound, rfl⟩ := overlap
                have bare := brace_not_mem_publicLabel (all name bound)
                obtain ⟨first, others, split_rest, -⟩ := exists_head_splitOn '\x7b' ['\x7b'] rest
                have single : ¬openMarker <+: '\x7b' :: (publicLabel name ++ rest) := by
                  intro pair
                  obtain ⟨more, same⟩ := (List.cons_prefix_cons.mp pair).2
                  have fronts : some '\x7b' = some 'p' := congrArg List.head? same
                  exact absurd fronts (by decide)
                have fewer : rest.length < length := by
                  rw [List.length_cons, List.length_append] at shorter
                  omega
                have later : Agrees values 0 rest := by
                  refine ih _ fewer rfl (fun part member => ?_)
                    (fun long => absurd long (by decide)) rfl
                  have again := splitOn_cons single (splitOn_append_of_not_mem bare split_rest)
                  rw [split] at again
                  cases again
                  rw [split_rest, List.tail_cons] at member
                  exact recognized part (tail ▸ List.mem_cons_of_mem _ member)
                refine @Agrees.overlap values run 0 text rest (before ++ ['\x7b'])
                  (publicValue values name) (marker name) later ?_ ?_ (foreign name bound) ?_
                · rw [replace_of_breakOn found, replace_overlap all bound]
                  simp only [List.append_assoc, List.cons_append, List.nil_append]
                · rw [substituted_of_other found split matched, substituted_cons single,
                    substituted_append bare]
                  simp only [marker, openMarker, List.append_assoc, List.cons_append,
                    List.nil_append]
                · refine misread.mpr ⟨name, bound, openMarker ++ ['\x7b'], rest, ?_, ?_⟩
                  · simp only [openMarker, List.cons_append, List.nil_append]
                  · generalize runBehind '\x7b' run before = pairs at even_before
                    have odd : 2 ≤ pairs + 3 ∧ (pairs + 3) % 2 = 1 := by omega
                    exact odd
              · have apart : ∀ name, String.ofList name ∈ values →
                    ¬publicLabel name <+: after := by
                  rintro name bound ⟨rest, rfl⟩
                  have namespaced : "public".toList <+: head :=
                    (prefix_head_iff (by decide) split).mpr
                      (public_prefix_publicLabel_append name rest)
                  obtain ⟨other, again, -⟩ := recognized head (tail ▸ List.mem_cons_self ..)
                    namespaced
                  rw [matched] at again
                  cases again
                have clear_after : ∀ name, String.ofList name ∈ values →
                    ¬ '\x7b' :: publicLabel name <+: after := by
                  rintro name bound ⟨rest, rfl⟩
                  exact overlap ⟨name, rest, bound, rfl⟩
                have later : Agrees values (runBehind '\x7b' run before + 2) after := by
                  refine ih _ (size ▸ shorter) (by omega) (fun part member => ?_)
                    (fun _ => clear_after) rfl
                  rw [split, List.tail_cons] at member
                  exact recognized part (tail ▸ List.mem_cons_of_mem _ member)
                refine later.append ?_ (substituted_of_other found split matched) ?_
                · rw [replace_of_breakOn found, replace_pair apart clear_after, List.append_assoc]
                · rw [misread]
                  exact exists_congr fun name => and_congr_right fun bound =>
                    behind_pair (brace_not_mem_publicLabel (all name bound))
                      (publicLabel_ne_nil name)

end Search

/-! ## Sizes -/

section Sizes

variable {values : Std.TreeMap String String}

theorem foldl_sizes (sizes : List Char → Int) (names : List (List Char)) (start : Int) :
    names.foldl (fun size name => size + sizes name) start = start + (names.map sizes).sum := by
  induction names generalizing start with
  | nil => simp
  | cons name rest ih => rw [List.foldl_cons, ih, List.map_cons, List.sum_cons, Int.add_assoc]

theorem lists_of_occurrences {label content : String} {names : List (List Char)}
    (listed : occurrences label content = .ok names) :
    ∃ lists, (splitOn '\x7b' ['\x7b'] content.toList).tail.mapM (partNames label) = .ok lists ∧
      names = lists.flatten := by
  obtain ⟨-, listed⟩ := Fallible.guard_eq_ok.mp listed
  obtain ⟨lists, mapped, same⟩ := Fallible.bind_eq_ok.mp listed
  cases same
  exact ⟨lists, mapped, rfl⟩

theorem length_partText {part : List Char} {names : List (List Char)}
    (listed : partNames "public" part = .ok names) :
    ((octets (partText values part)).length : Int) = (octets (openMarker ++ part)).length +
      (names.map fun name => ((octets (publicValue values name)).length : Int) -
        (octets (marker name)).length).sum := by
  unfold partNames at listed
  split at listed
  · split at listed
    · cases listed
    · rename_i name matched
      cases listed
      obtain ⟨-, rest, rfl⟩ := matchMarker_public matched
      simp only [partText, matched, List.drop_left, marker, octets_append, List.length_append,
        List.map_cons, List.map_nil, List.sum_cons, List.sum_nil]
      push_cast
      omega
  · rename_i foreign
    cases listed
    have unmatched : matchMarker "public" part = none := by
      rw [Option.eq_none_iff_forall_ne_some]
      intro name matched
      obtain ⟨-, rest, rfl⟩ := matchMarker_public matched
      exact foreign (public_prefix_publicLabel_append name rest)
    simp [partText, unmatched]

theorem length_substituted {content : List Char} {lists : List (List (List Char))}
    (listed : (splitOn '\x7b' ['\x7b'] content).tail.mapM (partNames "public") = .ok lists) :
    ((octets (substituted values content)).length : Int) = (octets content).length +
      (lists.flatten.map fun name => ((octets (publicValue values name)).length : Int) -
        (octets (marker name)).length).sum := by
  obtain ⟨head, parts, split, -⟩ := exists_head_splitOn '\x7b' ['\x7b'] content
  rw [split, List.tail_cons] at listed
  have whole := join_splitOn split
  rw [substituted, split]
  have sizes : ∀ (parts : List (List Char)) (lists : List (List (List Char))),
      parts.mapM (partNames "public") = .ok lists →
        ((octets (parts.flatMap (partText values))).length : Int) =
          (octets (parts.flatMap (['\x7b', '\x7b'] ++ ·))).length +
            (lists.flatten.map fun name => ((octets (publicValue values name)).length : Int) -
              (octets (marker name)).length).sum := by
    intro parts
    induction parts with
    | nil =>
        intro lists listed
        cases listed
        rfl
    | cons part rest ih =>
        intro lists listed
        rw [List.mapM_cons] at listed
        obtain ⟨names, named, listed⟩ := Fallible.bind_eq_ok.mp listed
        obtain ⟨others, later, same⟩ := Fallible.bind_eq_ok.mp listed
        cases same
        have first := @length_partText values part names named
        have remaining := ih others later
        simp only [List.flatMap_cons, octets_append, List.length_append, List.flatten_cons,
          List.map_append, List.sum_append, openMarker] at first remaining ⊢
        push_cast at first ⊢
        omega
  have added := sizes parts lists listed
  simp only [List.head?_cons, Option.getD_some, List.tail_cons, octets_append,
    List.length_append, ← whole]
  push_cast
  omega

/-- The precomputed size. -/
theorem length_substituted_eq {content : String} {publicNames : List (List Char)}
    (listed : occurrences "public" content = .ok publicNames) :
    ((octets (substituted values content.toList)).length : Int) =
      renderedSize content values publicNames := by
  obtain ⟨lists, mapped, rfl⟩ := lists_of_occurrences listed
  have differences : ∀ size : Int, ∀ name : List Char,
      size + (octets (publicValue values name)).length - (octets (marker name)).length =
        size + (((octets (publicValue values name)).length : Int) -
          (octets (marker name)).length) := fun _ _ => Int.add_sub_assoc ..
  rw [length_substituted mapped, renderedSize, octets, String.ofList_toList]
  simp only [differences]
  rw [foldl_sizes, Int.zero_add]

end Sizes

/-! ## The result -/

section Result

variable {content result : String} {values : Std.TreeMap String String}

/-- What a result should be. -/
def Exact (content : String) (values : Std.TreeMap String String) (result : String) : Prop :=
  ∃ publicNames, occurrences "public" content = .ok publicNames ∧
    result.toList = substituted values content.toList ∧
    ((utf8 result).length : Int) = renderedSize content values publicNames ∧
    (utf8 result).length ≤ templateLimit ∧
    occurrences "public" result = .ok [] ∧
    occurrences "nix-seal" result = occurrences "nix-seal" content

theorem checks_of_renderPublic (rendered : renderPublic content values = .ok result) :
    ∃ publicNames, occurrences "public" content = .ok publicNames ∧
      unique publicNames = values.keys ∧ result = renderedText content values values.keys ∧
      (∀ value ∈ values.values, ¬"\x7b\x7bpublic".toList <:+: value.toList) ∧
      occurrences "public" result = .ok [] ∧
      occurrences "nix-seal" result = occurrences "nix-seal" content := by
  obtain ⟨publicNames, listed, rendered⟩ := Fallible.bind_eq_ok.mp rendered
  obtain ⟨same, rendered⟩ := Fallible.guard_eq_ok.mp rendered
  obtain ⟨-, rendered⟩ := Fallible.guard_eq_ok.mp rendered
  obtain ⟨-, rendered⟩ := Fallible.guard_eq_ok.mp rendered
  obtain ⟨foreign, rendered⟩ := Fallible.guard_eq_ok.mp rendered
  obtain ⟨remaining, again, rendered⟩ := Fallible.bind_eq_ok.mp rendered
  obtain ⟨nothing, rendered⟩ := Fallible.guard_eq_ok.mp rendered
  obtain ⟨after, secrets, rendered⟩ := Fallible.bind_eq_ok.mp rendered
  obtain ⟨before, original, rendered⟩ := Fallible.bind_eq_ok.mp rendered
  obtain ⟨unchanged, rendered⟩ := Fallible.guard_eq_ok.mp rendered
  cases rendered
  have names := not_not.mp same
  rw [names] at again secrets ⊢
  refine ⟨publicNames, listed, names, rfl, fun value member inside => ?_, ?_, ?_⟩
  · refine foreign (List.any_eq_true.mpr ⟨value, member, ?_⟩)
    rw [Bool.or_eq_true]
    exact .inl (decide_eq_true inside)
  · rw [again, not_not.mp nothing]
  · rw [secrets, original, not_not.mp unchanged]

theorem mem_of_unique {publicNames : List (List Char)} (same : unique publicNames = values.keys)
    {name : List Char} : String.ofList name ∈ values ↔ name ∈ publicNames := by
  rw [← Std.TreeMap.mem_keys, ← same, unique, Std.TreeSet.mem_toList, Std.TreeSet.mem_ofList,
    List.contains_iff_mem, List.mem_map]
  constructor
  · rintro ⟨other, member, equal⟩
    rwa [← String.ofList_injective equal]
  · exact fun member => ⟨name, member, rfl⟩

/-- Every part with a label has given a name. -/
theorem recognized_of_mapM {publicNames : List (List Char)} {text : List Char}
    (same : unique publicNames = values.keys) {lists : List (List (List Char))}
    (mapped : (splitOn '\x7b' ['\x7b'] text).tail.mapM (partNames "public") = .ok lists)
    (names : publicNames = lists.flatten) : Recognized values text ∧ Named values := by
  have parts := Fallible.mapM_eq_ok.mp mapped
  constructor
  · intro part member namespaced
    obtain ⟨listed, inside, named⟩ := Correspondence.exists_partner parts member
    rw [partNames, if_pos namespaced] at named
    cases matched : matchMarker "public" part with
    | none =>
        rw [matched] at named
        cases named
    | some name =>
        rw [matched] at named
        cases named
        refine ⟨name, rfl, (mem_of_unique same).mpr ?_⟩
        rw [names]
        exact List.mem_flatten.mpr ⟨[name], inside, List.mem_singleton_self name⟩
  · intro name bound
    have member := (mem_of_unique same).mp bound
    rw [names] at member
    obtain ⟨listed, inside, member⟩ := List.mem_flatten.mp member
    obtain ⟨part, -, named⟩ := Correspondence.exists_item parts inside
    unfold partNames at named
    split at named
    · split at named
      · cases named
      · rename_i other matched
        cases named
        rw [List.mem_singleton.mp member]
        exact (matchMarker_public matched).1
    · cases named
      cases member

/-- A result is the content with its recognized markers replaced, unless a bound marker stands behind
an odd run of braces. -/
theorem renderPublic_exact_iff (rendered : renderPublic content values = .ok result) :
    Exact content values result ↔ ¬Misread values 0 content.toList := by
  obtain ⟨publicNames, listed, same, text, foreign, remaining, secrets⟩ :=
    checks_of_renderPublic rendered
  obtain ⟨lists, mapped, names⟩ := lists_of_occurrences listed
  obtain ⟨recognized, all⟩ := recognized_of_mapM same mapped names
  have free : ∀ name, String.ofList name ∈ values →
      ¬marker name <:+: publicValue values name := by
    intro name bound inside
    obtain ⟨value, given⟩ := Option.isSome_iff_exists.mp
      (Std.TreeMap.mem_iff_isSome_getElem?.mp bound)
    have member : value ∈ values.values := by
      rw [Ordered.values_eq_map_toList]
      exact List.mem_map.mpr ⟨(String.ofList name, value),
        Std.TreeMap.mem_toList_iff_getElem?_eq_some.mpr given, rfl⟩
    rw [publicValue, given, Option.getD_some] at inside
    refine foreign value member (.trans ?_ inside)
    have label : "\x7b\x7bpublic".toList <+: openMarker ++ publicPrefix := by decide
    rw [marker, publicLabel, List.append_assoc, ← List.append_assoc]
    exact (label.trans (List.prefix_append _ _)).isInfix
  have both : Agrees values 0 content.toList :=
    agrees all free rfl recognized fun long => absurd long (by decide)
  have searched : result.toList = replace (markerTable values) content.toList := by
    rw [text, renderedText, String.toList_ofList]
    rfl
  constructor
  · rintro ⟨-, -, equal, -⟩
    exact (both.exact [] (searched ▸ equal)).2
  · intro correct
    have equal : result.toList = substituted values content.toList :=
      searched.trans (both.equal correct)
    have size := @length_substituted_eq values content publicNames listed
    rw [← equal, octets, String.ofList_toList] at size
    have short := (Fallible.guard_eq_ok.mp remaining).1
    exact ⟨publicNames, listed, equal, size, Nat.not_lt.mp short, remaining, secrets⟩

end Result

namespace Sample

/-- One bound name. -/
def keyValues : Std.TreeMap String String := ({} : Std.TreeMap String String).insert "key" "v"

theorem renderPublic_key {content result : String}
    (listed : occurrences "public" content = .ok ["key".toList])
    (text : renderedText content keyValues ["key"] = result)
    (size : renderedSize content keyValues ["key".toList] ≤ templateLimit)
    (remaining : occurrences "public" result = .ok [])
    (original : occurrences "nix-seal" content = .ok [])
    (secrets : occurrences "nix-seal" result = .ok []) :
    renderPublic content keyValues = .ok result := by
  have names : unique ["key".toList] = ["key"] := by decide
  have bound : keyValues.keys = ["key"] := by decide
  have clean : (keyValues.values.any fun value => containsText "\x7b\x7bpublic" value ||
      containsText "\x7b\x7bnix-seal" value) = false := by decide
  rw [renderPublic, listed, Fallible.ok_bind]
  simp only [names, bound, clean, text, remaining, original, secrets, Fallible.ok_bind]
  simpa using size

def keyContent : String := "k=\x7b\x7bpublic:key\x7d\x7d"

theorem renderPublic_keyContent : renderPublic keyContent keyValues = .ok "k=v" := by
  have first : splitOn '\x7b' ['\x7b'] keyContent.toList =
      "k=".toList :: splitOn '\x7b' ['\x7b'] "public:key\x7d\x7d".toList :=
    splitOn_of_some rfl
  have second : splitOn '\x7b' ['\x7b'] "public:key\x7d\x7d".toList =
      ["public:key\x7d\x7d".toList] :=
    splitOn_of_none rfl
  have plain : splitOn '\x7b' ['\x7b'] "k=v".toList = ["k=v".toList] := splitOn_of_none rfl
  refine renderPublic_key ?_ (by decide) (by decide) ?_ ?_ ?_
  · rw [occurrences, first, second]
    decide
  · rw [occurrences, plain]
    decide
  · rw [occurrences, first, second]
    decide
  · rw [occurrences, plain]
    decide

/-- The first marker stands behind three braces. -/
def overlapContent : String := "\x7b\x7b\x7bpublic:key\x7d\x7d \x7b\x7bpublic:key\x7d\x7d"

theorem splitOn_overlapContent : splitOn '\x7b' ['\x7b'] overlapContent.toList =
    ["".toList, "\x7bpublic:key\x7d\x7d ".toList, "public:key\x7d\x7d".toList] := by
  have first : splitOn '\x7b' ['\x7b'] overlapContent.toList = "".toList ::
      splitOn '\x7b' ['\x7b'] "\x7bpublic:key\x7d\x7d \x7b\x7bpublic:key\x7d\x7d".toList :=
    splitOn_of_some rfl
  have second : splitOn '\x7b' ['\x7b']
      "\x7bpublic:key\x7d\x7d \x7b\x7bpublic:key\x7d\x7d".toList =
        "\x7bpublic:key\x7d\x7d ".toList ::
          splitOn '\x7b' ['\x7b'] "public:key\x7d\x7d".toList :=
    splitOn_of_some rfl
  rw [first, second, splitOn_of_none (by decide)]

theorem renderPublic_overlapContent : renderPublic overlapContent keyValues = .ok "\x7bv v" := by
  have plain : splitOn '\x7b' ['\x7b'] "\x7bv v".toList = ["\x7bv v".toList] :=
    splitOn_of_none rfl
  refine renderPublic_key ?_ (by decide) (by decide) ?_ ?_ ?_
  · rw [occurrences, splitOn_overlapContent]
    decide
  · rw [occurrences, plain]
    decide
  · rw [occurrences, splitOn_overlapContent]
    decide
  · rw [occurrences, plain]
    decide

end Sample

theorem renderPublic_exact_key : Exact Sample.keyContent Sample.keyValues "k=v" ↔
    ¬Misread Sample.keyValues 0 Sample.keyContent.toList :=
  renderPublic_exact_iff Sample.renderPublic_keyContent

/-- The search replaces both markers, of which the split recognizes one. -/
theorem renderPublic_not_exact : ∃ content values result,
    renderPublic content values = .ok result ∧ ¬Exact content values result := by
  refine ⟨Sample.overlapContent, Sample.keyValues, _, Sample.renderPublic_overlapContent, ?_⟩
  rintro ⟨-, -, equal, -⟩
  rw [substituted, Sample.splitOn_overlapContent] at equal
  exact absurd equal (by decide)

end NixSeal.Runtime
