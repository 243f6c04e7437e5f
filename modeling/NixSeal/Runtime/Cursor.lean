import NixSeal.Runtime.Rendering

/-!
# The cursor behind the visitor

The loop over a template source keeps two offsets into its octets.  Slicing a text at an offset
inside a character would panic, and the writer behind the renderer may take less than it is given.
Neither shows in the result.
-/

namespace NixSeal.Runtime

open Occurrence

/-! ## Slices -/

/-- The octets of some characters. -/
def octets (text : List Char) : Bytes := utf8 (String.ofList text)

/-- `&text[offset..]`, which panics at an offset inside a character or behind the end. -/
def sliceFrom : Nat → List Char → Option (List Char)
  | 0, text => some text
  | _ + 1, [] => none
  | offset + 1, first :: rest =>
      if first.utf8Size ≤ offset + 1 then sliceFrom (offset + 1 - first.utf8Size) rest else none

/-- `&text[..length]`. -/
def sliceTo : Nat → List Char → Option (List Char)
  | 0, _ => some []
  | _ + 1, [] => none
  | length + 1, first :: rest =>
      if first.utf8Size ≤ length + 1 then
        (sliceTo (length + 1 - first.utf8Size) rest).map (first :: ·)
      else none

/-- `&text[start..end]`. -/
def slice (start stop : Nat) (text : List Char) : Option (List Char) :=
  if start ≤ stop then (sliceFrom start text).bind (sliceTo (stop - start)) else none

/-- `&bytes[start..end]`. -/
def byteSlice (start stop : Nat) (bytes : Bytes) : Option Bytes :=
  if start ≤ stop ∧ stop ≤ bytes.length then some ((bytes.drop start).take (stop - start)) else none

/-- `str::find`: the offset of the leftmost occurrence. -/
def find (pattern text : List Char) : Option Nat :=
  (breakOn pattern text).map fun found => (octets found.1).length

theorem octets_append (front back : List Char) :
    octets (front ++ back) = octets front ++ octets back := by
  simp only [octets, String.ofList_append, utf8_append]

theorem octets_nil : octets [] = [] := rfl

theorem length_octets_singleton (char : Char) : (octets [char]).length = char.utf8Size := by
  simp [octets, utf8, List.utf8Encode_singleton]

theorem length_octets_cons (char : Char) (text : List Char) :
    (octets (char :: text)).length = char.utf8Size + (octets text).length := by
  rw [← List.singleton_append, octets_append, List.length_append, length_octets_singleton]

theorem sliceFrom_append (front back : List Char) :
    sliceFrom (octets front).length (front ++ back) = some back := by
  induction front with
  | nil =>
      rw [octets_nil, List.length_nil, List.nil_append]
      cases back <;> rfl
  | cons first front ih =>
      have positive := first.utf8Size_pos
      rw [length_octets_cons, List.cons_append]
      obtain ⟨offset, same⟩ : ∃ offset, first.utf8Size + (octets front).length = offset + 1 :=
        ⟨_, (Nat.succ_pred_eq_of_pos (by omega)).symm⟩
      rw [same, sliceFrom, if_pos (by omega), ← ih]
      congr 1
      omega

theorem sliceTo_append (front back : List Char) :
    sliceTo (octets front).length (front ++ back) = some front := by
  induction front with
  | nil =>
      rw [octets_nil, List.length_nil, List.nil_append]
      cases back <;> rfl
  | cons first front ih =>
      have positive := first.utf8Size_pos
      rw [length_octets_cons, List.cons_append]
      obtain ⟨length, same⟩ : ∃ length, first.utf8Size + (octets front).length = length + 1 :=
        ⟨_, (Nat.succ_pred_eq_of_pos (by omega)).symm⟩
      have left : length + 1 - first.utf8Size = (octets front).length := by omega
      rw [same, sliceTo, if_pos (by omega), left, ih, Option.map_some]

theorem slice_append (front middle back : List Char) :
    slice (octets front).length ((octets front).length + (octets middle).length)
      (front ++ middle ++ back) = some middle := by
  rw [slice, if_pos (by omega), List.append_assoc, sliceFrom_append, Option.bind_some,
    Nat.add_sub_cancel_left, sliceTo_append]

theorem byteSlice_append (front middle back : Bytes) :
    byteSlice front.length (front.length + middle.length) (front ++ middle ++ back) =
      some middle := by
  rw [byteSlice, if_pos, Nat.add_sub_cancel_left, List.append_assoc, List.drop_left, List.take_left]
  rw [List.length_append, List.length_append]
  omega

theorem length_of_sliceFrom {offset : Nat} {text back : List Char}
    (sliced : sliceFrom offset text = some back) :
    (octets text).length = offset + (octets back).length := by
  fun_induction sliceFrom offset text with
  | case1 text =>
      cases sliced
      exact (Nat.zero_add _).symm
  | case2 offset => cases sliced
  | case3 offset first rest fits ih =>
      rw [length_octets_cons, ih sliced]
      omega
  | case4 offset first rest long => cases sliced

theorem length_of_find {pattern text : List Char} {offset : Nat}
    (found : find pattern text = some offset) :
    offset + (octets pattern).length ≤ (octets text).length := by
  obtain ⟨⟨before, after⟩, broken, rfl⟩ := Option.map_eq_some_iff.mp found
  rw [eq_of_breakOn broken, octets_append, octets_append, List.length_append, List.length_append]
  exact Nat.le_add_right _ _

/-! ## The loop -/

/-- What ends a visit early: a slice that does not exist, or an error. -/
inductive Stop where
  | panic
  | error (failure : RuntimeError)
  deriving DecidableEq

/-- A slice that the program takes for granted. -/
def orPanic {α : Type} : Option α → Except Stop α
  | none => .error .panic
  | some value => .ok value

/-- The loop of `visit_template_source`, with its two offsets.  They stay within the length of the
source, so that no addition overflows. -/
def visitCursor {σ : Type} (visitor : σ → TemplatePart → Except RuntimeError σ)
    (placeholders : Placeholders) (text : List Char) (literalStart searchStart : Nat)
    (used : Std.TreeSet String) (state : σ) : Except Stop (Std.TreeSet String × σ) :=
  match _unread : sliceFrom searchStart text with
  | none => .error .panic
  | some unread =>
      match _found : find openMarker unread with
      | none => do
          let literal ← orPanic (byteSlice literalStart (octets text).length (octets text))
          let state ← (visitor state (.literal literal)).mapError Stop.error
          .ok (used, state)
      | some relativeStart => do
          let start := searchStart + relativeStart
          let remainder ← orPanic (sliceFrom start text)
          if openMarker ++ secretLabel <+: remainder then do
            let literal ← orPanic (byteSlice literalStart start (octets text))
            let state ← (visitor state (.literal literal)).mapError Stop.error
            let nameStart := start + (octets (openMarker ++ secretLabel)).length
            match _named : sliceFrom nameStart text with
            | none => .error .panic
            | some tail =>
                match _closed : find closeMarker tail with
                | none => .error (.error .templateSyntax)
                | some relativeEnd => do
                    let stop := nameStart + relativeEnd
                    let name ← orPanic (slice nameStart stop text)
                    if !isPlaceholderName (String.ofList name) then
                      .error (.error .templateSyntax)
                    else
                      match placeholders[String.ofList name]? with
                      | none => .error (.error .templateSyntax)
                      | some spec => do
                          let state ← (visitor state (.placeholder spec)).mapError Stop.error
                          visitCursor visitor placeholders text (stop + 2) (stop + 2)
                            (used.insert (String.ofList name)) state
          else if openMarker ++ secretNamespace <+: remainder then .error (.error .templateSyntax)
          else visitCursor visitor placeholders text literalStart (start + 2) used state
termination_by (octets text).length - searchStart
decreasing_by
  · have named := length_of_sliceFrom _named
    have closed := length_of_find _closed
    have two : (octets closeMarker).length = 2 := rfl
    omega
  · have unread := length_of_sliceFrom _unread
    have found := length_of_find _found
    have two : (octets openMarker).length = 2 := rfl
    omega

/-- `visit_template_source`, with the offsets. -/
def visitTemplateCursor {σ : Type} (visitor : σ → TemplatePart → Except RuntimeError σ)
    (source : Bytes) (placeholders : Placeholders) (state : σ) : Except Stop σ :=
  match fromUtf8 source with
  | none => .error (.error .templateSyntax)
  | some text => do
      let (used, state) ← visitCursor visitor placeholders text.toList 0 0 {} state
      if used.size ≠ placeholders.size ∨
          (placeholders.keys.any fun name => !used.contains name) = true then
        .error (.error .templateSyntax)
      else .ok state

/-! ## The offsets do not matter -/

section Refinement

variable {σ : Type} {visitor : σ → TemplatePart → Except RuntimeError σ}
  {placeholders : Placeholders} {used : Std.TreeSet String} {state : σ}

theorem visitFrom_of_none {pending text : List Char} (absent : breakOn openMarker text = none) :
    visitFrom visitor placeholders pending text used state =
      visitor state (.literal (octets (pending ++ text))) >>= fun state => .ok (used, state) := by
  rw [visitFrom]
  split
  · rfl
  · rename_i found
    rw [absent] at found
    cases found

theorem visitFrom_of_label {pending text before body : List Char}
    (found : breakOn openMarker text = some (before, secretLabel ++ body)) :
    visitFrom visitor placeholders pending text used state =
      visitor state (.literal (octets (pending ++ before))) >>= fun state =>
        match breakOn closeMarker body with
        | none => .error .templateSyntax
        | some (name, rest) =>
            if !isPlaceholderName (String.ofList name) then .error .templateSyntax
            else
              match placeholders[String.ofList name]? with
              | none => .error .templateSyntax
              | some spec => visitor state (.placeholder spec) >>= fun state =>
                  visitFrom visitor placeholders [] rest (used.insert (String.ofList name))
                    state := by
  have dropped : (secretLabel ++ body).drop secretLabel.length = body := List.drop_left ..
  rw [visitFrom]
  split
  · rename_i absent
    rw [found] at absent
    cases absent
  · rename_i again
    rw [found] at again
    cases again
    rw [if_pos (List.prefix_append _ _)]
    refine bind_congr fun next => ?_
    split
    · rename_i unclosed
      rw [dropped] at unclosed
      rw [unclosed]
    · rename_i name rest closed
      rw [dropped] at closed
      generalize breakOn closeMarker body = broken at closed ⊢
      subst closed
      rfl

theorem mapError_bind {α β ε φ : Type} {rename : ε → φ} (result : Except ε α)
    (next : α → Except ε β) :
    (result >>= next).mapError rename =
      result.mapError rename >>= fun value => (next value).mapError rename := by
  cases result <;> rfl

/-- The loop over the offsets does what the loop over the texts does. -/
theorem visitCursor_eq (front pending rest : List Char) :
    visitCursor visitor placeholders (front ++ pending ++ rest) (octets front).length
        (octets (front ++ pending)).length used state =
      (visitFrom visitor placeholders pending rest used state).mapError Stop.error := by
  induction size : rest.length using Nat.strong_induction_on
    generalizing front pending rest used state with
  | _ length ih =>
      have here := sliceFrom_append (front ++ pending) rest
      rw [visitCursor]
      split
      · rename_i absent
        rw [here] at absent
        cases absent
      · rename_i unread read
        rw [here] at read
        cases read
        split
        · rename_i absent
          have all : byteSlice (octets front).length (octets (front ++ pending ++ rest)).length
              (octets (front ++ pending ++ rest)) = some (octets (pending ++ rest)) := by
            have whole := byteSlice_append (octets front) (octets (pending ++ rest)) []
            rwa [List.append_nil, ← octets_append, ← List.length_append, ← octets_append,
              ← List.append_assoc] at whole
          rw [visitFrom_of_none (Option.map_eq_none_iff.mp absent), all, mapError_bind]
          rfl
        · rename_i offset found
          obtain ⟨⟨before, after⟩, broken, rfl⟩ := Option.map_eq_some_iff.mp found
          have text := eq_of_breakOn broken
          subst text
          have start : (octets (front ++ pending)).length + (octets before).length =
              (octets (front ++ pending ++ before)).length := by
            rw [octets_append (front ++ pending) before, List.length_append]
          have whole : front ++ pending ++ (before ++ openMarker ++ after) =
              front ++ pending ++ before ++ (openMarker ++ after) := by
            simp only [List.append_assoc]
          have literal : byteSlice (octets front).length
              (octets (front ++ pending ++ before)).length
              (octets (front ++ pending ++ before ++ (openMarker ++ after))) =
                some (octets (pending ++ before)) := by
            have slice := byteSlice_append (octets front) (octets (pending ++ before))
              (octets (openMarker ++ after))
            rwa [← octets_append, ← List.length_append, ← octets_append, ← octets_append,
              ← List.append_assoc] at slice
          simp only [start, whole, sliceFrom_append, orPanic, Fallible.ok_bind,
            List.prefix_append_right_inj, literal]
          by_cases labelled : secretLabel <+: after
          · obtain ⟨body, rfl⟩ := labelled
            have named : (octets (front ++ pending ++ before)).length +
                (octets (openMarker ++ secretLabel)).length =
                  (octets (front ++ pending ++ before ++ openMarker ++ secretLabel)).length := by
              rw [← List.length_append, ← octets_append, List.append_assoc _ openMarker]
            have text : front ++ pending ++ before ++ (openMarker ++ (secretLabel ++ body)) =
                front ++ pending ++ before ++ openMarker ++ secretLabel ++ body := by
              simp only [List.append_assoc]
            rw [if_pos (List.prefix_append _ _), visitFrom_of_label broken, mapError_bind]
            refine bind_congr fun next => ?_
            have tail := sliceFrom_append
              (front ++ pending ++ before ++ openMarker ++ secretLabel) body
            rw [← named, ← start, ← text, ← whole] at tail
            split
            · rename_i absent
              rw [tail] at absent
              cases absent
            · rename_i again read
              rw [tail] at read
              cases read
              split
              · rename_i unclosed
                rw [Option.map_eq_none_iff.mp unclosed]
                rfl
              · rename_i relativeEnd closed
                obtain ⟨⟨name, after⟩, broken, rfl⟩ := Option.map_eq_some_iff.mp closed
                have same := eq_of_breakOn broken
                subst same
                have stop : (octets (front ++ pending ++ before ++ openMarker ++
                    secretLabel)).length + (octets name).length + 2 =
                      (octets (front ++ pending ++ before ++ openMarker ++ secretLabel ++ name ++
                        closeMarker)).length := by
                  rw [octets_append _ closeMarker, octets_append _ name, List.length_append,
                    List.length_append]
                  rfl
                have sliced : slice (octets (front ++ pending ++ before ++ openMarker ++
                    secretLabel)).length ((octets (front ++ pending ++ before ++ openMarker ++
                      secretLabel)).length + (octets name).length) (front ++ pending ++ before ++
                        openMarker ++ secretLabel ++ (name ++ closeMarker ++ after)) =
                          some name := by
                  rw [List.append_assoc name, ← List.append_assoc _ name]
                  exact slice_append _ name (closeMarker ++ after)
                have shorter : after.length < length := by
                  have closes : closeMarker.length = 2 := rfl
                  simp only [List.length_append, closes] at size
                  omega
                have later := fun used state => @ih _ shorter used state
                  (front ++ pending ++ before ++ openMarker ++ secretLabel ++ name ++ closeMarker)
                  [] after rfl
                have again : front ++ pending ++ before ++ openMarker ++ secretLabel ++ name ++
                    closeMarker ++ [] ++ after = front ++ pending ++ before ++
                      (openMarker ++ (secretLabel ++ (name ++ closeMarker ++ after))) := by
                  simp only [List.append_assoc, List.nil_append]
                rw [again, List.append_nil, ← stop, ← named] at later
                rw [← named, ← text] at sliced
                simp only [sliced, broken, Fallible.ok_bind]
                split
                · rfl
                · cases placeholders[String.ofList name]? with
                  | none => rfl
                  | some spec =>
                      dsimp only
                      rw [mapError_bind]
                      exact bind_congr fun last => later _ last
          · rw [if_neg labelled, visitFrom_other broken labelled]
            split
            · rfl
            · have later : (octets (front ++ pending ++ before)).length + 2 =
                  (octets (front ++ (pending ++ before ++ openMarker))).length := by
                rw [← List.append_assoc, ← List.append_assoc, octets_append _ openMarker,
                  List.length_append]
                rfl
              have shorter : after.length < length := by
                rw [← size, List.length_append, List.length_append]
                exact Nat.lt_add_of_pos_left (by simp [openMarker])
              rw [later, ← ih _ shorter front (pending ++ before ++ openMarker) after rfl]
              simp only [List.append_assoc]

/-- No slice is taken inside a character, whatever the source. -/
theorem visitTemplateCursor_eq (visitor : σ → TemplatePart → Except RuntimeError σ)
    (source : Bytes) (placeholders : Placeholders) (state : σ) :
    visitTemplateCursor visitor source placeholders state =
      (visitTemplateSource visitor source placeholders state).mapError Stop.error := by
  rw [visitTemplateCursor, visitTemplateSource]
  cases fromUtf8 source with
  | none => rfl
  | some text =>
      have loop := @visitCursor_eq _ visitor placeholders {} state [] [] text.toList
      rw [List.append_nil, List.nil_append, octets_nil, List.length_nil] at loop
      dsimp only
      rw [loop, mapError_bind]
      refine bind_congr fun result => ?_
      obtain ⟨used, last⟩ := result
      split <;> rfl

end Refinement

/-! ## Short writes -/

/-- How much an inner writer takes of what it is given.  An interrupted write takes nothing and is
repeated. -/
structure Takes where
  count : Bytes → Bytes → Nat
  count_le : ∀ written buffer, count written buffer ≤ buffer.length
  count_pos : ∀ written buffer, buffer ≠ [] → 0 < count written buffer

/-- One octet at a time. -/
def Takes.single : Takes where
  count _ buffer := min 1 buffer.length
  count_le _ _ := Nat.min_le_right _ _
  count_pos _ buffer nonempty := by
    have length := List.length_pos_iff.mpr nonempty
    omega

namespace LimitedWriter

variable {limit : Nat}

/-- `LimitedWriter::write`, with what the inner writer took. -/
def write (takes : Takes) (writer : LimitedWriter limit) (bytes : Bytes) :
    Except RuntimeError (Nat × LimitedWriter limit) :=
  let taken := takes.count writer.written bytes
  if fits : bytes.length ≤ limit - writer.written.length then
    .ok (taken, ⟨writer.written ++ bytes.take taken, by
      have within := writer.within
      rw [List.length_append, List.length_take]
      omega⟩)
  else .error .limit

theorem write_eq_ok {takes : Takes} {writer : LimitedWriter limit} {bytes : Bytes} {taken : Nat}
    {next : LimitedWriter limit} (written : writer.write takes bytes = .ok (taken, next)) :
    bytes.length ≤ limit - writer.written.length ∧ taken = takes.count writer.written bytes ∧
      next.written = writer.written ++ bytes.take taken := by
  simp only [write] at written
  split at written
  · rename_i fits
    cases written
    exact ⟨fits, rfl, rfl⟩
  · cases written

end LimitedWriter

/-- `template_write_all`, by `Write::write_all` on the limited writer. -/
def templateWriteAll {limit : Nat} (takes : Takes) (writer : LimitedWriter limit)
    (bytes : Bytes) : Except RuntimeError (LimitedWriter limit) :=
  if _nonempty : bytes = [] then .ok writer
  else
    match _written : writer.write takes bytes with
    | .error failure => .error failure
    | .ok (taken, next) => templateWriteAll takes next (bytes.drop taken)
termination_by bytes.length
decreasing_by
  have positive := takes.count_pos writer.written bytes _nonempty
  have length := List.length_pos_iff.mpr _nonempty
  rw [List.length_drop, (LimitedWriter.write_eq_ok _written).2.1]
  omega

/-- However little the inner writer takes, all is written or nothing fits. -/
theorem templateWriteAll_eq {limit : Nat} (takes : Takes) (writer : LimitedWriter limit)
    (bytes : Bytes) : templateWriteAll takes writer bytes = writer.writeAll bytes := by
  induction size : bytes.length using Nat.strong_induction_on generalizing writer bytes with
  | _ length ih =>
      rw [templateWriteAll]
      split
      · rename_i empty
        subst empty
        obtain ⟨written, within⟩ := writer
        simp [LimitedWriter.writeAll]
      · rename_i nonempty
        have positive := takes.count_pos writer.written bytes nonempty
        have bound := takes.count_le writer.written bytes
        split
        · rename_i failure refused
          simp only [LimitedWriter.write] at refused
          split at refused
          · cases refused
          · rename_i long
            cases refused
            rw [LimitedWriter.writeAll, dif_neg long]
        · rename_i taken next written
          obtain ⟨fits, rfl, next_written⟩ := LimitedWriter.write_eq_ok written
          have left : (bytes.drop (takes.count writer.written bytes)).length < length := by
            rw [List.length_drop]
            omega
          have room : (bytes.drop (takes.count writer.written bytes)).length ≤
              limit - next.written.length := by
            rw [next_written, List.length_drop, List.length_append, List.length_take]
            omega
          rw [ih _ left _ _ rfl, LimitedWriter.writeAll, LimitedWriter.writeAll, dif_pos fits,
            dif_pos room]
          simp only [next_written, List.append_assoc, List.take_append_drop]

/-! ## The whole rendering -/

/-- The visitor of `render_template_into`, over an inner writer that takes what it likes. -/
def renderPartThrough {limit : Nat} (takes : Takes)
    (renderPlaceholder : PlaceholderSpec → LimitedWriter limit →
      Except RuntimeError (LimitedWriter limit)) (writer : LimitedWriter limit) :
    TemplatePart → Except RuntimeError (LimitedWriter limit)
  | .literal bytes => templateWriteAll takes writer bytes
  | .placeholder spec => renderPlaceholder spec writer

/-- `render_template_into`, with its offsets and its writer. -/
def renderTemplateThrough (takes : Takes) (source : Bytes) (placeholders : Placeholders)
    (renderPlaceholder : PlaceholderSpec → LimitedWriter maxTemplateOutputBytes →
      Except RuntimeError (LimitedWriter maxTemplateOutputBytes)) : Except Stop Bytes :=
  (visitTemplateCursor (renderPartThrough takes renderPlaceholder) source placeholders
    (LimitedWriter.new maxTemplateOutputBytes)).map LimitedWriter.written

/-- It is the rendering over the texts. -/
theorem renderTemplateThrough_eq (takes : Takes) (source : Bytes) (placeholders : Placeholders)
    (renderPlaceholder : PlaceholderSpec → LimitedWriter maxTemplateOutputBytes →
      Except RuntimeError (LimitedWriter maxTemplateOutputBytes)) :
    renderTemplateThrough takes source placeholders renderPlaceholder =
      (renderTemplateInto source placeholders renderPlaceholder).mapError Stop.error := by
  have same : renderPartThrough takes renderPlaceholder = renderPart renderPlaceholder := by
    funext writer part
    cases part with
    | literal bytes => exact templateWriteAll_eq takes writer bytes
    | placeholder spec => rfl
  rw [renderTemplateThrough, renderTemplateInto, same, visitTemplateCursor_eq]
  cases visitTemplateSource (renderPart renderPlaceholder) source placeholders
    (LimitedWriter.new maxTemplateOutputBytes) <;> rfl

end NixSeal.Runtime
