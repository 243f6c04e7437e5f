import NixSeal.Lib.MarkRuns
import NixSeal.Runtime.Cursor

/-!
# One pass over a template

The pieces of a source spell it out, and the output is what they stand for, in their order.  The
visitor takes braces in pairs, so a literal piece is free of the reserved marker unless it stands
behind an odd run of braces.
-/

namespace NixSeal.Runtime

open Occurrence MarkRuns

/-! ## Spelling -/

/-- A piece as it stands in the source. -/
def Piece.spelling : Piece → List Char
  | .literal text => text
  | .name value => openMarker ++ secretLabel ++ value.toList ++ closeMarker

theorem spelling_of_pieces {pending text : List Char} {found : List Piece}
    (scanned : pieces pending text = some found) :
    found.flatMap Piece.spelling = pending ++ text := by
  fun_induction pieces pending text generalizing found with
  | case1 pending text absent =>
      cases scanned
      simp [Piece.spelling]
  | case2 pending text before after broken labelled unclosed => cases scanned
  | case3 pending text before after broken labelled name rest closed named ih =>
      obtain ⟨inner, later, rfl⟩ := Option.map_eq_some_iff.mp scanned
      have body := eq_of_breakOn closed
      have whole : after = secretLabel ++ (name ++ closeMarker ++ rest) := by
        rw [← body]
        exact List.prefix_append_drop labelled
      rw [List.flatMap_cons, List.flatMap_cons, ih later, eq_of_breakOn broken, whole]
      simp only [Piece.spelling, String.toList_ofList, List.append_assoc, List.nil_append]
  | case4 pending text before after broken labelled name rest closed unnamed => cases scanned
  | case5 pending text before after broken unlabelled namespaced => cases scanned
  | case6 pending text before after broken unlabelled other ih =>
      rw [ih scanned, eq_of_breakOn broken]
      simp only [List.append_assoc]

theorem pieces_of_none {pending text : List Char} (absent : breakOn openMarker text = none) :
    pieces pending text = some [.literal (pending ++ text)] := by
  rw [pieces]
  split
  · rfl
  · rename_i found
    rw [absent] at found
    cases found

theorem pieces_of_label {pending text before body name rest : List Char}
    (found : breakOn openMarker text = some (before, secretLabel ++ body))
    (closed : breakOn closeMarker body = some (name, rest))
    (named : isPlaceholderName (String.ofList name) = true) :
    pieces pending text = (pieces [] rest).map fun later =>
      .literal (pending ++ before) :: .name (String.ofList name) :: later := by
  rw [pieces]
  split
  · rename_i absent
    rw [found] at absent
    cases absent
  · rename_i again
    rw [found] at again
    cases again
    rw [if_pos (List.prefix_append _ _)]
    split
    · rename_i unclosed
      rw [List.drop_left, closed] at unclosed
      cases unclosed
    · rename_i closes
      rw [List.drop_left, closed] at closes
      cases closes
      rw [if_pos named]

theorem pieces_of_other {pending text before after : List Char}
    (found : breakOn openMarker text = some (before, after)) (unlabelled : ¬secretLabel <+: after)
    (other : ¬secretNamespace <+: after) :
    pieces pending text = pieces (pending ++ before ++ openMarker) after := by
  rw [pieces]
  split
  · rename_i absent
    rw [found] at absent
    cases absent
  · rename_i again
    rw [found] at again
    cases again
    rw [if_neg unlabelled, if_neg other]

/-! ## Reserved markers -/

/-- The text by which a placeholder is known. -/
def reservedMarker : List Char := openMarker ++ secretNamespace

/-- The namespace stands behind an odd number of opening braces, three or more. -/
def Overlapped (text : List Char) : Prop := Behind '\x7b' secretNamespace Unpaired 0 text

theorem brace_not_mem_secretNamespace : '\x7b' ∉ secretNamespace := by decide

theorem secretNamespace_ne_nil : secretNamespace ≠ [] := by decide

/-- A literal piece holds the marker. -/
def Remains (found : List Piece) : Prop :=
  ∃ text, .literal text ∈ found ∧ reservedMarker <:+: text

theorem remains_cons_literal {text : List Char} {found : List Piece} :
    Remains (.literal text :: found) ↔ reservedMarker <:+: text ∨ Remains found := by
  simp only [Remains, List.mem_cons, Piece.literal.injEq]
  constructor
  · rintro ⟨_, rfl | member, inside⟩
    · exact .inl inside
    · exact .inr ⟨_, member, inside⟩
  · rintro (inside | ⟨other, member, inside⟩)
    · exact ⟨text, .inl rfl, inside⟩
    · exact ⟨other, .inr member, inside⟩

theorem remains_cons_name {value : String} {found : List Piece} :
    Remains (.name value :: found) ↔ Remains found := by
  simp [Remains]

theorem brace_not_mem_of_isPlaceholderName {name : List Char}
    (named : isPlaceholderName (String.ofList name) = true) : '\x7b' ∉ name := by
  intro member
  simp only [isPlaceholderName, Policy.isPlaceholderName, Bool.and_eq_true] at named
  have allowed := List.all_eq_true.mp named.2 '\x7b' (by rwa [String.toList_ofList])
  exact absurd allowed (by decide)

/-- The visitor passes over the marker behind odd runs, and only there. -/
theorem remains_iff {pending text : List Char} {found : List Piece}
    (aligned : Aligned '\x7b' secretNamespace pending text)
    (scanned : pieces pending text = some found) :
    Remains found ↔ Overlapped (pending ++ text) := by
  have plain := brace_not_mem_secretNamespace
  have nonempty := secretNamespace_ne_nil
  have marked : ∀ {literal : List Char},
      ¬Behind '\x7b' secretNamespace Paired 0 literal →
        (reservedMarker <:+: literal ↔ Overlapped literal) :=
    fun passed => infix_iff_paired_or_unpaired.trans (or_iff_right passed)
  fun_induction pieces pending text generalizing found with
  | case1 pending text absent =>
      cases scanned
      have nothing : ¬Remains [] := by simp [Remains]
      rw [remains_cons_literal, or_iff_left nothing, marked]
      exact aligned.not_behind_append plain nonempty List.prefix_rfl
        (not_infix_of_breakOn_eq_none absent)
  | case2 pending text before after broken labelled unclosed => cases scanned
  | case3 pending text before after broken labelled name rest closed named ih =>
      obtain ⟨inner, later, rfl⟩ := Option.map_eq_some_iff.mp scanned
      have body := eq_of_breakOn closed
      have whole : pending ++ text = pending ++ before ++
          (['\x7b', '\x7b'] ++ (secretLabel ++ name ++ closeMarker) ++ rest) := by
        rw [eq_of_breakOn broken, List.prefix_append_drop labelled, body]
        simp only [openMarker, List.append_assoc]
      have bare : '\x7b' ∉ secretLabel ++ name ++ closeMarker := by
        simp only [List.mem_append, not_or]
        exact ⟨⟨by decide, brace_not_mem_of_isPlaceholderName named⟩, by decide⟩
      have border : pending ++ before = [] ∨ (pending ++ before).getLast? = some '\x7b' ∨
          (['\x7b', '\x7b'] ++ (secretLabel ++ name ++ closeMarker) ++ rest).head? =
            some '\x7b' :=
        .inr (.inr rfl)
      have inside : Remains inner ↔ Overlapped rest := ih .nil later
      rw [remains_cons_literal, remains_cons_name, inside,
        marked (aligned.not_behind_of_breakOn plain nonempty broken), whole]
      unfold Overlapped
      rw [behind_append_of_border plain nonempty border,
        behind_pair_append plain nonempty (aligned.even_of_breakOn broken) bare
          (by simp [closeMarker])]
  | case4 pending text before after broken labelled name rest closed unnamed => cases scanned
  | case5 pending text before after broken unlabelled namespaced => cases scanned
  | case6 pending text before after broken unlabelled other ih =>
      have whole : pending ++ text = pending ++ before ++ openMarker ++ after := by
        rw [eq_of_breakOn broken]
        simp only [List.append_assoc]
      rw [whole]
      exact ih (aligned.skip plain nonempty broken other) scanned

section Visited

variable {source : Bytes} {placeholders : Placeholders}

/-- The parts that a visitor is handed. -/
def visitedParts (source : Bytes) (placeholders : Placeholders) :
    Except RuntimeError (List TemplatePart) :=
  visitTemplateSource (fun parts part => .ok (parts ++ [part])) source placeholders []

theorem foldlM_append (parts earlier : List TemplatePart) :
    parts.foldlM (fun earlier part => Except.ok (ε := RuntimeError) (earlier ++ [part])) earlier =
      .ok (earlier ++ parts) := by
  induction parts generalizing earlier with
  | nil => simp [pure, Except.pure]
  | cons part rest ih => rw [List.foldlM_cons, Fallible.ok_bind, ih, List.append_assoc,
      List.singleton_append]

/-- The parts of a visit are those of the pieces. -/
theorem visitedParts_eq_ok {text : String} (decoded : fromUtf8 source = some text)
    {parts : List TemplatePart} : visitedParts source placeholders = .ok parts ↔
      ∃ found, pieces [] text.toList = some found ∧ Covers found placeholders ∧
        found.mapM (Piece.resolve placeholders) = some parts := by
  rw [visitedParts, visitTemplateSource_eq_ok decoded]
  constructor
  · rintro ⟨found, resolved, scanned, covers, same, shown⟩
    rw [foldlM_append, List.nil_append] at shown
    cases shown
    exact ⟨found, scanned, covers, same⟩
  · rintro ⟨found, scanned, covers, same⟩
    exact ⟨found, parts, scanned, covers, same, foldlM_append parts []⟩

theorem mem_literals_iff {found : List Piece} {parts : List TemplatePart}
    (resolved : found.mapM (Piece.resolve placeholders) = some parts) {literal : String} :
    TemplatePart.literal (utf8 literal) ∈ parts ↔ Piece.literal literal.toList ∈ found := by
  rw [mem_resolved_iff resolved]
  constructor
  · rintro ⟨piece, member, stands⟩
    cases piece with
    | literal text =>
        have same := TemplatePart.literal.inj (Option.some.inj stands)
        have decoded := congrArg fromUtf8 same
        rw [fromUtf8_utf8, fromUtf8_utf8] at decoded
        rwa [← Option.some.inj decoded, String.toList_ofList]
    | name value =>
        obtain ⟨spec, -, same⟩ := Option.map_eq_some_iff.mp stands
        cases same
  · intro member
    exact ⟨_, member, by rw [Piece.resolve, String.ofList_toList]⟩

/-- No literal part of an accepted source holds the reserved marker, unless the namespace stands
behind an odd run of braces. -/
theorem literals_unreserved_iff (valid : validateTemplateSource source placeholders = .ok ()) :
    ∃ text parts, fromUtf8 source = some text ∧ visitedParts source placeholders = .ok parts ∧
      ((∀ literal : String, .literal (utf8 literal) ∈ parts →
        ¬reservedMarker <:+: literal.toList) ↔ ¬Overlapped text.toList) := by
  cases decoded : fromUtf8 source with
  | none =>
      rw [validateTemplateSource, visitTemplateSource, decoded] at valid
      cases valid
  | some text =>
      obtain ⟨found, scanned, covers⟩ := (validateTemplateSource_eq_ok decoded).mp valid
      obtain ⟨parts, resolved⟩ := exists_resolved_iff.mpr fun name => (covers name).mp
      refine ⟨text, parts, rfl, (visitedParts_eq_ok decoded).mpr ⟨found, scanned, covers, resolved⟩,
        ?_⟩
      have remains : Remains found ↔ Overlapped text.toList := remains_iff .nil scanned
      rw [← remains]
      simp only [mem_literals_iff resolved]
      constructor
      · rintro free ⟨literal, member, inside⟩
        refine free (String.ofList literal) ?_ ?_
        · rwa [String.toList_ofList]
        · rwa [String.toList_ofList]
      · exact fun none literal member inside => none ⟨_, member, inside⟩

namespace Sample

/-- A placeholder behind four braces. -/
def bracedSource : String := "token=\x7b\x7b\x7b\x7bnix-seal:token\x7d\x7d"

/-- The placeholders of that source. -/
def bracedPlaceholders : Placeholders :=
  Std.TreeMap.ofList [("token", PlaceholderSpec.mk ⟨"api-token", by decide⟩ .utf8)]

theorem scanned_braced : pieces [] bracedSource.toList =
    some [.literal "token=\x7b\x7b".toList, .name "token", .literal []] := by
  have first : breakOn openMarker bracedSource.toList =
      some ("token=".toList, "\x7b\x7bnix-seal:token\x7d\x7d".toList) := by decide
  have second : breakOn openMarker "\x7b\x7bnix-seal:token\x7d\x7d".toList =
      some ([], secretLabel ++ "token\x7d\x7d".toList) := by decide
  have closed : breakOn closeMarker "token\x7d\x7d".toList = some ("token".toList, []) := by decide
  rw [pieces_of_other first (by decide) (by decide), pieces_of_label second closed (by decide),
    pieces_of_none (by decide)]
  rfl

end Sample

theorem literals_unreserved_even_braces : ∃ text parts,
    fromUtf8 (utf8 Sample.bracedSource) = some text ∧
      visitedParts (utf8 Sample.bracedSource) Sample.bracedPlaceholders = .ok parts ∧
      ((∀ literal : String, .literal (utf8 literal) ∈ parts →
        ¬reservedMarker <:+: literal.toList) ↔ ¬Overlapped text.toList) := by
  refine literals_unreserved_iff ((validateTemplateSource_eq_ok (fromUtf8_utf8 _)).mpr
    ⟨_, Sample.scanned_braced, fun name => ?_⟩)
  rw [Sample.bracedPlaceholders, Std.TreeMap.mem_ofList]
  simp [eq_comm]

/-- Behind three braces, an undeclared placeholder is a literal. -/
theorem literals_reserved_braces : ∃ source placeholders,
    validateTemplateSource source placeholders = .ok () ∧
      ∃ parts, visitedParts source placeholders = .ok parts ∧ ∃ literal : String,
        .literal (utf8 literal) ∈ parts ∧ reservedMarker <:+: literal.toList := by
  have scanned : pieces [] "\x7b\x7b\x7bnix-seal:token\x7d\x7d".toList =
      some [.literal "\x7b\x7b\x7bnix-seal:token\x7d\x7d".toList] := by
    have first : breakOn openMarker "\x7b\x7b\x7bnix-seal:token\x7d\x7d".toList =
        some ([], "\x7bnix-seal:token\x7d\x7d".toList) := by decide
    rw [pieces_of_other first (by decide) (by decide), pieces_of_none (by decide)]
    rfl
  have covers : Covers [.literal "\x7b\x7b\x7bnix-seal:token\x7d\x7d".toList] {} := by
    intro name
    simp
  have resolved : [Piece.literal "\x7b\x7b\x7bnix-seal:token\x7d\x7d".toList].mapM
      (Piece.resolve {}) = some [.literal (utf8 "\x7b\x7b\x7bnix-seal:token\x7d\x7d")] := rfl
  refine ⟨utf8 "\x7b\x7b\x7bnix-seal:token\x7d\x7d", {},
    (validateTemplateSource_eq_ok (fromUtf8_utf8 _)).mpr ⟨_, scanned, covers⟩, _,
    (visitedParts_eq_ok (fromUtf8_utf8 _)).mpr ⟨_, scanned, covers, resolved⟩,
    "\x7b\x7b\x7bnix-seal:token\x7d\x7d", by simp, by decide⟩

end Visited

/-! ## Exact substitution -/

section Substitution

variable {source : Bytes} {placeholders : Placeholders} {σ : Type}
  {visitor : σ → TemplatePart → Except RuntimeError σ}

theorem resolved_cons {piece : Piece} {rest : List Piece} {parts : List TemplatePart} :
    (piece :: rest).mapM (Piece.resolve placeholders) = some parts ↔
      ∃ part others, piece.resolve placeholders = some part ∧
        rest.mapM (Piece.resolve placeholders) = some others ∧ parts = part :: others := by
  rw [List.mapM_cons]
  constructor
  · intro whole
    obtain ⟨part, first, whole⟩ := Option.bind_eq_some_iff.mp whole
    obtain ⟨others, later, same⟩ := Option.bind_eq_some_iff.mp whole
    cases same
    exact ⟨part, others, first, later, rfl⟩
  · rintro ⟨part, others, first, later, rfl⟩
    simp [first, later]

theorem visitFrom_eq {pending text : List Char} {found : List Piece} {parts : List TemplatePart}
    {used : Std.TreeSet String} {state : σ} (scanned : pieces pending text = some found)
    (resolved : found.mapM (Piece.resolve placeholders) = some parts) :
    visitFrom visitor placeholders pending text used state =
      parts.foldlM visitor state >>= fun last =>
        .ok ((found.filterMap Piece.name?).foldl Std.TreeSet.insert used, last) := by
  fun_induction pieces pending text generalizing found parts used state with
  | case1 pending text absent =>
      cases scanned
      obtain ⟨part, others, stands, nothing, rfl⟩ := resolved_cons.mp resolved
      cases stands
      cases nothing
      rw [visitFrom_of_none absent, List.foldlM_cons, bind_assoc]
      rfl
  | case2 pending text before after broken labelled unclosed => cases scanned
  | case3 pending text before after broken labelled name rest closed named ih =>
      obtain ⟨inner, later, rfl⟩ := Option.map_eq_some_iff.mp scanned
      obtain ⟨literal, tail, stands, resolvedTail, rfl⟩ := resolved_cons.mp resolved
      obtain ⟨part, others, named_stands, resolvedRest, rfl⟩ := resolved_cons.mp resolvedTail
      cases stands
      obtain ⟨spec, declared, rfl⟩ := Option.map_eq_some_iff.mp named_stands
      obtain ⟨body, rfl⟩ := labelled
      rw [List.drop_left] at closed
      rw [visitFrom_of_label broken, List.foldlM_cons, bind_assoc]
      refine bind_congr fun next => ?_
      simp only [closed, named, Bool.not_true, Bool.false_eq_true, if_false]
      rw [declared, List.foldlM_cons, bind_assoc]
      refine bind_congr fun last => ?_
      rw [ih later resolvedRest]
      rfl
  | case4 pending text before after broken labelled name rest closed unnamed => cases scanned
  | case5 pending text before after broken unlabelled namespaced => cases scanned
  | case6 pending text before after broken unlabelled other ih =>
      rw [visitFrom_other broken unlabelled, if_neg other, ih scanned resolved]

/-- A visit of a valid source is a loop over its parts. -/
theorem visitTemplateSource_eq {text : String} (decoded : fromUtf8 source = some text)
    {found : List Piece} {parts : List TemplatePart} (scanned : pieces [] text.toList = some found)
    (covers : Covers found placeholders)
    (resolved : found.mapM (Piece.resolve placeholders) = some parts) (state : σ) :
    visitTemplateSource visitor source placeholders state = parts.foldlM visitor state := by
  have collected : ∀ name,
      name ∈ (found.filterMap Piece.name?).foldl Std.TreeSet.insert ({} : Std.TreeSet String) ↔
        Piece.name name ∈ found := by
    intro name
    rw [mem_foldl_insert, mem_names_iff, or_iff_right Std.TreeSet.not_mem_emptyc]
  have checked := (used_iff collected fun name => (covers name).mp).mpr covers
  rw [visitTemplateSource, decoded]
  dsimp only
  rw [visitFrom_eq scanned resolved, bind_assoc]
  simp only [Fallible.ok_bind, if_neg checked]
  cases parts.foldlM visitor state <;> rfl

/-- The output is the source with its placeholders replaced: its pieces spell it out, their names
are those that are declared, and what they stand for is the output. -/
def Substituted (source : Bytes) (placeholders : Placeholders) (text : PlaceholderSpec → Bytes)
    (output : Bytes) : Prop :=
  ∃ (found : List Piece) (parts : List TemplatePart),
    utf8 (String.ofList (found.flatMap Piece.spelling)) = source ∧
      visitedParts source placeholders = .ok parts ∧
      found.mapM (Piece.resolve placeholders) = some parts ∧
      (∀ name, Piece.name name ∈ found ↔ name ∈ placeholders) ∧
      output = parts.flatMap (TemplatePart.text text)

/-- A callback that writes nothing but the octets of its placeholder, in whatever chunks. -/
def OnlyWrites {limit : Nat} (takes : Takes)
    (callback : PlaceholderSpec → LimitedWriter limit →
      Except RuntimeError (LimitedWriter limit)) (text : PlaceholderSpec → Bytes) : Prop :=
  ∀ spec writer, ∃ chunks : List Bytes, chunks.flatten = text spec ∧
    callback spec writer = chunks.foldlM (templateWriteAll takes) writer

theorem writeAll_append {limit : Nat} (writer : LimitedWriter limit) (front back : Bytes) :
    (writer.writeAll front >>= fun next => next.writeAll back) = writer.writeAll (front ++ back) := by
  have within := writer.within
  by_cases fits : front.length ≤ limit - writer.written.length
  · have first : writer.writeAll front = .ok ⟨writer.written ++ front, by
        rw [List.length_append]
        omega⟩ := dif_pos fits
    rw [first, Fallible.ok_bind]
    unfold LimitedWriter.writeAll
    simp only [List.length_append, List.append_assoc]
    split
    · rw [dif_pos (by omega)]
    · rw [dif_neg (by omega)]
  · have first : writer.writeAll front = .error .limit := dif_neg fits
    have whole : writer.writeAll (front ++ back) = .error .limit := by
      refine dif_neg ?_
      rw [List.length_append]
      omega
    rw [first, whole]
    rfl

theorem writeAll_nil {limit : Nat} (writer : LimitedWriter limit) : writer.writeAll [] = .ok writer := by
  obtain ⟨written, within⟩ := writer
  simp [LimitedWriter.writeAll]

theorem foldlM_writeAll {limit : Nat} {β : Type} {text : β → Bytes}
    {body : LimitedWriter limit → β → Except RuntimeError (LimitedWriter limit)}
    (writes : ∀ writer item, body writer item = writer.writeAll (text item)) (items : List β)
    (writer : LimitedWriter limit) :
    items.foldlM body writer = writer.writeAll (items.flatMap text) := by
  induction items generalizing writer with
  | nil => exact (writeAll_nil writer).symm
  | cons item rest ih =>
      rw [List.foldlM_cons, writes, List.flatMap_cons, ← writeAll_append]
      exact bind_congr fun next => ih next

theorem OnlyWrites.eq_writeAll {limit : Nat} {takes : Takes}
    {callback : PlaceholderSpec → LimitedWriter limit → Except RuntimeError (LimitedWriter limit)}
    {text : PlaceholderSpec → Bytes} (writes : OnlyWrites takes callback text)
    (spec : PlaceholderSpec) (writer : LimitedWriter limit) :
    callback spec writer = writer.writeAll (text spec) := by
  obtain ⟨chunks, same, called⟩ := writes spec writer
  rw [called, ← same, ← List.flatMap_id', foldlM_writeAll fun writer chunk =>
    templateWriteAll_eq takes writer chunk]

/-- The source of a visit that succeeds. -/
theorem exists_substituted {source : Bytes} {placeholders : Placeholders} {text : String}
    (decoded : fromUtf8 source = some text) {found : List Piece} {parts : List TemplatePart}
    (scanned : pieces [] text.toList = some found) (covers : Covers found placeholders)
    (resolved : found.mapM (Piece.resolve placeholders) = some parts)
    (value : PlaceholderSpec → Bytes) :
    Substituted source placeholders value (parts.flatMap (TemplatePart.text value)) := by
  refine ⟨found, parts, ?_, (visitedParts_eq_ok decoded).mpr ⟨found, scanned, covers, resolved⟩,
    resolved, covers, rfl⟩
  rw [spelling_of_pieces scanned, List.nil_append, String.ofList_toList]
  exact utf8_of_fromUtf8 decoded

/-- What a rendering inserts; and it fails only when the whole is too long. -/
theorem renderTemplateThrough_exact (takes : Takes) (source : Bytes) (placeholders : Placeholders)
    (callback : PlaceholderSpec → LimitedWriter maxTemplateOutputBytes →
      Except RuntimeError (LimitedWriter maxTemplateOutputBytes))
    (text : PlaceholderSpec → Bytes) :
    ((∀ spec start final, callback spec start = .ok final →
        final.written = start.written ++ text spec) →
      ∀ output, renderTemplateThrough takes source placeholders callback = .ok output →
        Substituted source placeholders text output ∧
          output.length ≤ maxTemplateOutputBytes) ∧
    (OnlyWrites takes callback text → validateTemplateSource source placeholders = .ok () →
      ∃ output, Substituted source placeholders text output ∧
        ((∃ stop, renderTemplateThrough takes source placeholders callback = .error stop) ↔
          maxTemplateOutputBytes < output.length) ∧
        ∀ stop, renderTemplateThrough takes source placeholders callback = .error stop →
          stop = .error .limit) ∧
    renderTemplateThrough takes source placeholders callback ≠ .error .panic := by
  simp only [renderTemplateThrough_eq, renderTemplateInto]
  refine ⟨fun writes output rendered => ?_, fun writes valid => ?_, fun panicked => ?_⟩
  · rw [Fallible.mapError_eq_ok] at rendered
    cases visited : visitTemplateSource (renderPart callback) source placeholders
        (LimitedWriter.new maxTemplateOutputBytes) with
    | error failure =>
        rw [visited] at rendered
        cases rendered
    | ok final =>
        rw [visited] at rendered
        cases rendered
        cases decoded : fromUtf8 source with
        | none =>
            rw [visitTemplateSource, decoded] at visited
            cases visited
        | some content =>
            obtain ⟨found, parts, scanned, covers, resolved, shown⟩ :=
              (visitTemplateSource_eq_ok decoded).mp visited
            have written : final.written = parts.flatMap (TemplatePart.text text) := by
              refine Fallible.foldlM_eq_ok_induction shown
                (fun (done : List TemplatePart) (writer : LimitedWriter maxTemplateOutputBytes) =>
                  writer.written = done.flatMap (TemplatePart.text text)) rfl ?_
              intro done part writer next _ stepped before
              rw [List.flatMap_append, List.flatMap_singleton, ← before]
              cases part with
              | literal bytes =>
                  exact ((LimitedWriter.writeAll_appends bytes writer next).mp stepped).2
              | placeholder spec => exact writes spec writer next stepped
            refine ⟨?_, final.within⟩
            rw [written]
            exact exists_substituted decoded scanned covers resolved text
  · cases decoded : fromUtf8 source with
    | none =>
        rw [validateTemplateSource, visitTemplateSource, decoded] at valid
        cases valid
    | some content =>
        obtain ⟨found, scanned, covers⟩ := (validateTemplateSource_eq_ok decoded).mp valid
        obtain ⟨parts, resolved⟩ := exists_resolved_iff.mpr fun name => (covers name).mp
        have each : ∀ writer part, renderPart callback writer part =
            writer.writeAll (TemplatePart.text text part) := by
          intro writer part
          cases part with
          | literal bytes => rfl
          | placeholder spec => exact writes.eq_writeAll spec writer
        refine ⟨_, exists_substituted decoded scanned covers resolved text, ?_⟩
        rw [visitTemplateSource_eq decoded scanned covers resolved, foldlM_writeAll each]
        unfold LimitedWriter.writeAll LimitedWriter.new
        split
        · rename_i fits
          rw [List.length_nil, Nat.sub_zero] at fits
          refine ⟨⟨fun failed => ?_, fun long => absurd fits (Nat.not_le.mpr long)⟩, ?_⟩
          · obtain ⟨stop, failed⟩ := failed
            cases failed
          · rintro stop failed
            cases failed
        · rename_i long
          rw [List.length_nil, Nat.sub_zero] at long
          refine ⟨⟨fun _ => Nat.not_le.mp long, fun _ => ⟨_, rfl⟩⟩, ?_⟩
          rintro stop failed
          cases failed
          rfl
  · cases visited : visitTemplateSource (renderPart callback) source placeholders
        (LimitedWriter.new maxTemplateOutputBytes) with
    | error failure =>
        rw [visited] at panicked
        cases panicked
    | ok final =>
        rw [visited] at panicked
        cases panicked

end Substitution

namespace Sample

/-- A template with one placeholder, which a callback replaces octet by octet. -/
def placeholders : Placeholders := ({} : Placeholders).insert "token" ⟨Policy.Sample.token, .utf8⟩

def callback (_ : PlaceholderSpec) (writer : LimitedWriter maxTemplateOutputBytes) :
    Except RuntimeError (LimitedWriter maxTemplateOutputBytes) :=
  [[0x78], [0x79]].foldlM (templateWriteAll Takes.single) writer

theorem callback_onlyWrites : OnlyWrites Takes.single callback fun _ => [0x78, 0x79] :=
  fun _ _ => ⟨[[0x78], [0x79]], rfl, rfl⟩

end Sample

theorem renderTemplateThrough_exact_token :
    (∀ output, renderTemplateThrough Takes.single (utf8 "key=\x7b\x7bnix-seal:token\x7d\x7d")
        Sample.placeholders Sample.callback = .ok output →
      Substituted (utf8 "key=\x7b\x7bnix-seal:token\x7d\x7d") Sample.placeholders
        (fun _ => [0x78, 0x79]) output ∧ output.length ≤ maxTemplateOutputBytes) ∧
    ∃ output, Substituted (utf8 "key=\x7b\x7bnix-seal:token\x7d\x7d") Sample.placeholders
        (fun _ => [0x78, 0x79]) output ∧
      ((∃ stop, renderTemplateThrough Takes.single
        (utf8 "key=\x7b\x7bnix-seal:token\x7d\x7d") Sample.placeholders Sample.callback =
          .error stop) ↔ maxTemplateOutputBytes < output.length) ∧
      ∀ stop, renderTemplateThrough Takes.single (utf8 "key=\x7b\x7bnix-seal:token\x7d\x7d")
        Sample.placeholders Sample.callback = .error stop → stop = .error .limit := by
  have exact := @renderTemplateThrough_exact Takes.single
    (utf8 "key=\x7b\x7bnix-seal:token\x7d\x7d") Sample.placeholders Sample.callback
    fun _ => [0x78, 0x79]
  refine ⟨exact.1 fun spec start final called => ?_, exact.2.1 Sample.callback_onlyWrites ?_⟩
  · rw [Sample.callback_onlyWrites.eq_writeAll] at called
    exact ((LimitedWriter.writeAll_appends _ start final).mp called).2
  · have scanned : pieces [] "key=\x7b\x7bnix-seal:token\x7d\x7d".toList =
        some [.literal "key=".toList, .name "token", .literal []] := by
      have found : breakOn openMarker "key=\x7b\x7bnix-seal:token\x7d\x7d".toList =
          some ("key=".toList, secretLabel ++ "token\x7d\x7d".toList) := by decide
      have closed : breakOn closeMarker "token\x7d\x7d".toList = some ("token".toList, []) := by
        decide
      rw [pieces_of_label found closed (by decide), pieces_of_none (by decide)]
      rfl
    refine (validateTemplateSource_eq_ok (fromUtf8_utf8 _)).mpr ⟨_, scanned, fun name => ?_⟩
    rw [Sample.placeholders, Std.TreeMap.mem_insert, Std.LawfulEqCmp.compare_eq_iff_eq]
    simp [eq_comm]

end NixSeal.Runtime
