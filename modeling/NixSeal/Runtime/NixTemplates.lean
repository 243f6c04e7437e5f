import NixSeal.Manifest.Soundness
import NixSeal.Runtime.Template

/-!
# Template names in the Nix frontend

The frontend splits a source at every pair of opening braces and matches each part against a
regular expression.  It finds the names that the runtime finds, and throws where the runtime
rejects.
-/

namespace NixSeal.Runtime

open Occurrence

/-- `limit`. -/
def templateLimit : Nat := 2 * 1024 * 1024

/-- The bracket expressions of a name. -/
def isFirstNameChar (char : Char) : Bool := isAsciiLowercase char || isAsciiDigit char

def isNameChar (char : Char) : Bool :=
  isAsciiLowercase char || isAsciiDigit char || char == '_' || char == '.' || char == '-'

/-- What `[a-z0-9][a-z0-9_.-]{0,127}` matches. -/
def matchesName : List Char → Bool
  | [] => false
  | first :: rest => isFirstNameChar first && rest.length ≤ 127 && rest.all isNameChar

/-- The group of `builtins.match "${label}:([a-z0-9][a-z0-9_.-]{0,127})}}(.*)" part`.  A dot
matches every character but NUL. -/
def matchMarker (label : String) (part : List Char) : Option (List Char) :=
  let front := (label ++ ":").toList
  let body := part.drop front.length
  let name := body.takeWhile isNameChar
  let rest := body.drop name.length
  if front <+: part ∧ matchesName name = true ∧ closeMarker <+: rest ∧ '\x00' ∉ rest then some name
  else none

/-- What one part of the source contributes to the names. -/
def partNames (label : String) (part : List Char) : Except String (List (List Char)) :=
  if label.toList <+: part then
    match matchMarker label part with
    | none =>
        .error ("nixSeal template contains a malformed \x7b\x7b" ++ label ++
          ":name\x7d\x7d placeholder")
    | some name => .ok [name]
  else .ok []

/-- `occurrences`. -/
def occurrences (label content : String) : Except String (List (List Char)) :=
  let parts := (splitOn '\x7b' ['\x7b'] content.toList).tail
  if templateLimit < (utf8 content).length then
    .error "nixSeal public template exceeds the 2 MiB limit"
  else do
    let names ← parts.mapM (partNames label)
    .ok names.flatten

/-- `unique`: the names of an attribute set are sorted. -/
def unique (names : List (List Char)) : List String :=
  (Std.TreeSet.ofList (names.map String.ofList)).toList

/-- `placeholderNames`. -/
def placeholderNames (content : String) : Except String (List String) := do
  let names ← occurrences "nix-seal" content
  .ok (unique names)

/-! ## Names -/

theorem isNameChar_of_first {char : Char} (first : isFirstNameChar char = true) :
    isNameChar char = true := by
  simp [isNameChar, isFirstNameChar] at first ⊢
  tauto

theorem matchesName_iff {name : List Char} : matchesName name = true ↔
    name.head?.any isFirstNameChar = true ∧ name.length ≤ 128 ∧ name.all isNameChar = true := by
  cases name with
  | nil => simp [matchesName]
  | cons first rest =>
      simp only [matchesName, Bool.and_eq_true, decide_eq_true_eq, List.head?_cons, Option.any_some,
        List.length_cons, List.all_cons]
      constructor
      · rintro ⟨⟨start, short⟩, all⟩
        exact ⟨start, by omega, isNameChar_of_first start, all⟩
      · rintro ⟨start, short, -, all⟩
        exact ⟨⟨start, by omega⟩, all⟩

theorem utf8ByteSize_of_name {name : List Char} (all : name.all isNameChar = true) :
    (String.ofList name).utf8ByteSize = name.length := by
  have single : ∀ char, isNameChar char = true → char.utf8Size = 1 := by
    intro char named
    have small : char.toNat ≤ 0x7f := by
      simp only [isNameChar, isAsciiLowercase, isAsciiDigit, Bool.or_eq_true, Bool.and_eq_true,
        decide_eq_true_eq, beq_iff_eq] at named
      rcases named with (((letter | digit) | rfl) | rfl) | rfl
      · omega
      · omega
      · decide
      · decide
      · decide
    have bounded : char.val ≤ 0x7f := small
    exact if_pos bounded
  induction name with
  | nil => rfl
  | cons first rest ih =>
      rw [List.all_cons, Bool.and_eq_true] at all
      have sizes : (String.ofList (first :: rest)).utf8ByteSize =
          first.utf8Size + (String.ofList rest).utf8ByteSize := by
        simp [String.ofList_cons]
      rw [sizes, single first all.1, ih all.2, List.length_cons, Nat.add_comm]

/-- A name of the regular expression is a name of the runtime. -/
theorem matchesName_eq (name : List Char) :
    matchesName name = isPlaceholderName (String.ofList name) := by
  have same : name.all isNameChar = name.all fun char => isAsciiLowercase char ||
      isAsciiDigit char || char == '_' || char == '-' || char == '.' := by
    congr 1
    funext char
    simp only [isNameChar, Bool.or_assoc]
    rw [Bool.or_comm (char == '.')]
  rw [Bool.eq_iff_iff, matchesName_iff]
  simp only [isPlaceholderName, Policy.isPlaceholderName, String.toList_ofList, Bool.and_eq_true,
    decide_eq_true_eq, ← same]
  constructor
  · rintro ⟨start, short, all⟩
    refine ⟨⟨⟨?_, ?_⟩, start⟩, all⟩
    · cases name with
      | nil => cases start
      | cons first rest => rfl
    · rw [utf8ByteSize_of_name all]
      exact short
  · rintro ⟨⟨⟨-, short⟩, start⟩, all⟩
    rw [utf8ByteSize_of_name all] at short
    exact ⟨start, short, all⟩

/-! ## Agreement -/

theorem all_of_matchesName {name : List Char} (matched : matchesName name = true) :
    ∀ char ∈ name, isNameChar char = true :=
  List.all_eq_true.mp (matchesName_iff.mp matched).2.2

theorem takeWhile_name {name : List Char} (matched : matchesName name = true) (rest : List Char) :
    (name ++ (closeMarker ++ rest)).takeWhile isNameChar = name := by
  have stops : (closeMarker ++ rest).takeWhile isNameChar = [] := rfl
  rw [List.takeWhile_append_of_pos (all_of_matchesName matched), stops, List.append_nil]

/-- The regular expression finds the name that stands between the label and the closing braces. -/
theorem matchMarker_eq_some_iff {label : String} {part name : List Char} :
    matchMarker label part = some name ↔ matchesName name = true ∧ ∃ rest,
      part = (label ++ ":").toList ++ name ++ closeMarker ++ rest ∧ '\x00' ∉ rest := by
  unfold matchMarker
  generalize (label ++ ":").toList = front
  constructor
  · intro found
    dsimp only at found
    split at found
    · rename_i facts
      obtain ⟨⟨body, rfl⟩, matched, ⟨rest, closes⟩, plain⟩ := facts
      rw [List.drop_left] at matched closes plain found
      cases found
      refine ⟨matched, rest, ?_, ?_⟩
      · rw [List.append_assoc, List.append_assoc, closes,
          ← List.prefix_append_drop (List.takeWhile_prefix isNameChar)]
      · exact fun member => plain (closes ▸ List.mem_append_right _ member)
    · cases found
  · rintro ⟨matched, rest, rfl, nulFree⟩
    have body : (front ++ name ++ closeMarker ++ rest).drop front.length =
        name ++ (closeMarker ++ rest) := by
      rw [List.append_assoc, List.append_assoc, List.drop_left]
    have plain : '\x00' ∉ closeMarker ++ rest := by
      intro member
      rcases List.mem_append.mp member with close | later
      · exact absurd close (by decide)
      · exact nulFree later
    have fronts : front <+: front ++ name ++ closeMarker ++ rest := by
      rw [List.append_assoc, List.append_assoc]
      exact List.prefix_append front _
    simp only [body, takeWhile_name matched, List.drop_left]
    exact if_pos ⟨fronts, matched, List.prefix_append closeMarker rest, plain⟩

/-- A text without braces starts the first part just when it starts the source. -/
theorem prefix_head_iff {front text head : List Char} {rest : List (List Char)}
    (plain : '\x7b' ∉ front) (split : splitOn '\x7b' ['\x7b'] text = head :: rest) :
    front <+: head ↔ front <+: text := by
  constructor
  · intro starts
    obtain ⟨first, others, again, inside⟩ := exists_head_splitOn '\x7b' ['\x7b'] text
    rw [split] at again
    cases again
    exact starts.trans inside
  · rintro ⟨tail, rfl⟩
    obtain ⟨first, others, again, -⟩ := exists_head_splitOn '\x7b' ['\x7b'] tail
    rw [splitOn_append_of_not_mem plain again] at split
    cases split
    exact List.prefix_append front first

/-- The names that the frontend finds in some parts. -/
def foundNames (parts : List (List Char)) : Option (List String) :=
  (parts.mapM (partNames "nix-seal")).toOption.map fun names => names.flatten.map String.ofList

theorem foundNames_skip {part : List Char} {parts : List (List Char)}
    (other : ¬secretNamespace <+: part) : foundNames (part :: parts) = foundNames parts := by
  have nothing : partNames "nix-seal" part = .ok [] := if_neg other
  rw [foundNames, List.mapM_cons, nothing, Fallible.ok_bind, foundNames]
  cases parts.mapM (partNames "nix-seal") with
  | error failure => rfl
  | ok names => rfl

theorem foundNames_throw {part : List Char} {parts : List (List Char)}
    (namespaced : secretNamespace <+: part) (unmatched : matchMarker "nix-seal" part = none) :
    foundNames (part :: parts) = none := by
  have thrown : ∃ failure, partNames "nix-seal" part = .error failure := by
    rw [partNames, if_pos (show "nix-seal".toList <+: part from namespaced), unmatched]
    exact ⟨_, rfl⟩
  obtain ⟨failure, thrown⟩ := thrown
  rw [foundNames, List.mapM_cons, thrown]
  rfl

theorem foundNames_name {part name : List Char} {parts : List (List Char)}
    (namespaced : secretNamespace <+: part) (matched : matchMarker "nix-seal" part = some name) :
    foundNames (part :: parts) = (foundNames parts).map (String.ofList name :: ·) := by
  have named : partNames "nix-seal" part = .ok [name] := by
    rw [partNames, if_pos (show "nix-seal".toList <+: part from namespaced), matched]
  rw [foundNames, List.mapM_cons, named, Fallible.ok_bind, foundNames]
  cases parts.mapM (partNames "nix-seal") with
  | error failure => rfl
  | ok names => rfl

/-- A part that matches has a placeholder at its start. -/
theorem closed_of_matchMarker {after part name : List Char} (starts : part <+: after)
    (matched : matchMarker "nix-seal" part = some name) :
    secretLabel <+: after ∧ isPlaceholderName (String.ofList name) = true ∧ ∃ rest,
      breakOn closeMarker (after.drop secretLabel.length) = some (name, rest) := by
  obtain ⟨named, rest, rfl, -⟩ := matchMarker_eq_some_iff.mp matched
  obtain ⟨more, rfl⟩ := starts
  have whole : ("nix-seal" ++ ":").toList ++ name ++ closeMarker ++ rest ++ more =
      secretLabel ++ (name ++ closeMarker ++ (rest ++ more)) := by
    have label : ("nix-seal" ++ ":").toList = secretLabel := by decide
    rw [label]
    simp only [List.append_assoc]
  have plain : '\x7d' ∉ name := by
    intro member
    exact absurd (all_of_matchesName named _ member) (by decide)
  refine ⟨whole ▸ List.prefix_append _ _, (matchesName_eq name) ▸ named, rest ++ more, ?_⟩
  rw [whole, List.drop_left]
  exact breakOn_of_not_mem plain _

/-- The names that the frontend finds in a text are those of the pieces of the text. -/
theorem foundNames_eq {pending text : List Char} (nulFree : '\x00' ∉ text) :
    foundNames (splitOn '\x7b' ['\x7b'] text).tail =
      (pieces pending text).map fun found => found.filterMap Piece.name? := by
  fun_induction pieces pending text with
  | case1 pending text absent =>
      rw [splitOn_of_none absent]
      rfl
  | case2 pending text before after found labelled unclosed =>
      obtain ⟨part, parts, split, starts⟩ := exists_head_splitOn '\x7b' ['\x7b'] after
      have namespaced : secretNamespace <+: part :=
        (prefix_head_iff (by decide) split).mpr (.trans (by decide) labelled)
      have unmatched : matchMarker "nix-seal" part = none := by
        rw [Option.eq_none_iff_forall_ne_some]
        intro name matched
        obtain ⟨-, -, rest, closed⟩ := closed_of_matchMarker starts matched
        rw [unclosed] at closed
        cases closed
      rw [splitOn_of_some found, List.tail_cons, split, foundNames_throw namespaced unmatched,
        Option.map_none]
  | case3 pending text before after found labelled name rest closed named ih =>
      obtain ⟨head, parts, split, starts⟩ := exists_head_splitOn '\x7b' ['\x7b'] rest
      have valid : matchesName name = true := (matchesName_eq name).trans named
      have whole : after = secretLabel ++ name ++ closeMarker ++ rest := by
        have body := eq_of_breakOn closed
        rw [List.prefix_append_drop labelled, body]
        simp only [List.append_assoc]
      have plain : '\x7b' ∉ secretLabel ++ name ++ closeMarker := by
        intro member
        rcases List.mem_append.mp member with front | close
        · rcases List.mem_append.mp front with label | inName
          · exact absurd label (by decide)
          · exact absurd (all_of_matchesName valid _ inName) (by decide)
        · exact absurd close (by decide)
      have nulFree : '\x00' ∉ rest := by
        rw [eq_of_breakOn found, whole] at nulFree
        exact fun member => nulFree (List.mem_append_right _ (List.mem_append_right _ member))
      have matched : matchMarker "nix-seal" (secretLabel ++ name ++ closeMarker ++ head) =
          some name := by
        refine matchMarker_eq_some_iff.mpr ⟨valid, head, ?_, fun member =>
          nulFree (starts.subset member)⟩
        have label : ("nix-seal" ++ ":").toList = secretLabel := by decide
        rw [label]
      have namespaced : secretNamespace <+: secretLabel ++ name ++ closeMarker ++ head := by
        rw [List.append_assoc, List.append_assoc]
        exact .trans (by decide) (List.prefix_append secretLabel _)
      have later := ih nulFree
      rw [split, List.tail_cons] at later
      rw [splitOn_of_some found, List.tail_cons, whole, splitOn_append_of_not_mem plain split,
        foundNames_name namespaced matched, later, Option.map_map, Option.map_map]
      rfl
  | case4 pending text before after found labelled name rest closed unnamed =>
      obtain ⟨part, parts, split, starts⟩ := exists_head_splitOn '\x7b' ['\x7b'] after
      have namespaced : secretNamespace <+: part :=
        (prefix_head_iff (by decide) split).mpr (.trans (by decide) labelled)
      have unmatched : matchMarker "nix-seal" part = none := by
        rw [Option.eq_none_iff_forall_ne_some]
        intro other matched
        obtain ⟨-, valid, rest, again⟩ := closed_of_matchMarker starts matched
        rw [closed] at again
        cases again
        exact unnamed valid
      rw [splitOn_of_some found, List.tail_cons, split, foundNames_throw namespaced unmatched,
        Option.map_none]
  | case5 pending text before after found unlabelled namespaced =>
      obtain ⟨part, parts, split, starts⟩ := exists_head_splitOn '\x7b' ['\x7b'] after
      have unmatched : matchMarker "nix-seal" part = none := by
        rw [Option.eq_none_iff_forall_ne_some]
        intro name matched
        exact unlabelled (closed_of_matchMarker starts matched).1
      rw [splitOn_of_some found, List.tail_cons, split,
        foundNames_throw ((prefix_head_iff (by decide) split).mpr namespaced) unmatched,
        Option.map_none]
  | case6 pending text before after found unlabelled other ih =>
      obtain ⟨part, parts, split, -⟩ := exists_head_splitOn '\x7b' ['\x7b'] after
      have nulFree : '\x00' ∉ after := by
        rw [eq_of_breakOn found] at nulFree
        exact fun member => nulFree (List.mem_append_right _ member)
      rw [splitOn_of_some found, List.tail_cons, split,
        foundNames_skip (mt (prefix_head_iff (by decide) split).mp other), ← ih nulFree, split,
        List.tail_cons]

/-- The frontend lists the names of the pieces of a source. -/
theorem placeholderNames_eq_ok {content : String} (nulFree : '\x00' ∉ content.toList)
    (small : (utf8 content).length ≤ templateLimit) {names : List String} :
    placeholderNames content = .ok names ↔ ∃ found, pieces [] content.toList = some found ∧
      (Std.TreeSet.ofList (found.filterMap Piece.name?)).toList = names := by
  have agree := @foundNames_eq [] content.toList nulFree
  rw [placeholderNames, occurrences, if_neg (Nat.not_lt.mpr small)]
  rw [foundNames] at agree
  cases listed : (splitOn '\x7b' ['\x7b'] content.toList).tail.mapM (partNames "nix-seal") with
  | error failure =>
      rw [listed] at agree
      cases scanned : pieces [] content.toList with
      | none => simp [bind, Except.bind]
      | some found => simp [scanned, Except.toOption] at agree
  | ok lists =>
      rw [listed] at agree
      cases scanned : pieces [] content.toList with
      | none => simp [scanned, Except.toOption] at agree
      | some found =>
          have same : lists.flatten.map String.ofList = found.filterMap Piece.name? := by
            rw [scanned] at agree
            exact Option.some.inj agree
          simp [bind, Except.bind, unique, same]

/-- The frontend and the runtime accept the same sources for the same declared names. -/
theorem grammars_agree {content : String} (nulFree : '\x00' ∉ content.toList)
    (small : (utf8 content).length ≤ templateLimit) :
    (∀ placeholders : Placeholders, validateTemplateSource (utf8 content) placeholders = .ok () ↔
      placeholderNames content = .ok placeholders.keys) ∧
    ∀ thrown, placeholderNames content = .error thrown → ∀ placeholders : Placeholders,
      ∃ error, validateTemplateSource (utf8 content) placeholders = .error error := by
  have agree : ∀ placeholders : Placeholders,
      validateTemplateSource (utf8 content) placeholders = .ok () ↔
        placeholderNames content = .ok placeholders.keys := by
    intro placeholders
    rw [validateTemplateSource_eq_ok (fromUtf8_utf8 content), placeholderNames_eq_ok nulFree small]
    refine exists_congr fun found => and_congr_right fun _ => ?_
    have members : ∀ name, name ∈ Std.TreeSet.ofList (found.filterMap Piece.name?) ↔
        Piece.name name ∈ found := by
      intro name
      rw [Std.TreeSet.mem_ofList, List.contains_iff_mem, mem_names_iff]
    constructor
    · exact fun covers => Ordered.toList_eq_keys fun name => (members name).trans (covers name)
    · intro same name
      rw [← members, ← Std.TreeSet.mem_toList, same, Std.TreeMap.mem_keys]
  refine ⟨agree, fun thrown failed placeholders => ?_⟩
  cases validated : validateTemplateSource (utf8 content) placeholders with
  | error error => exact ⟨error, rfl⟩
  | ok nothing =>
      have listed := (agree placeholders).mp validated
      rw [failed] at listed
      cases listed

theorem grammars_agree_single_name :
    validateTemplateSource (utf8 "user=\x7b\x7bnix-seal:token\x7d\x7d\n")
      (({} : Placeholders).insert "token" ⟨Manifest.Sample.token, .utf8⟩) = .ok () := by
  have first : splitOn '\x7b' ['\x7b'] "user=\x7b\x7bnix-seal:token\x7d\x7d\n".toList =
      "user=".toList :: splitOn '\x7b' ['\x7b'] "nix-seal:token\x7d\x7d\n".toList :=
    splitOn_of_some rfl
  have second : splitOn '\x7b' ['\x7b'] "nix-seal:token\x7d\x7d\n".toList =
      ["nix-seal:token\x7d\x7d\n".toList] :=
    splitOn_of_none rfl
  have listed : placeholderNames "user=\x7b\x7bnix-seal:token\x7d\x7d\n" = .ok ["token"] := by
    rw [placeholderNames, occurrences, first, second]
    decide
  exact ((grammars_agree (by decide) (by decide)).1 _).mpr listed

end NixSeal.Runtime
