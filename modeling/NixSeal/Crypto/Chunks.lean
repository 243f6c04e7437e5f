import NixSeal.Crypto.Header

/-!
# Reading a header from a buffered stream

A buffered reader shows its next octets in chunks of any size.  The header is collected over them,
within a limit, up to the end of its last line.  It does not depend on the chunks, and what is read
behind it is the rest of the stream.
-/

namespace NixSeal.Crypto

open Fallible

/-- How `read_age_header` ends without a header: with an error, or with an index that is none. -/
inductive ReadFailure where
  | returned (error : CryptoError)
  | outOfBounds
  deriving DecidableEq

/-- How many octets of the chunk are taken: to the end of the line, or all that may be read. -/
def consumed (available : Bytes) (readable : Nat) : Nat :=
  match (available.take readable).findIdx? (· = newline) with
  | none => readable
  | some index => index + 1

/-- `read_age_header`: `fill` tells how many octets, less one, every `fill_buf` shows if there are
so many, or that it fails; `header` is what was collected, and `lineStart` where its last line
starts. -/
def readAgeHeaderChunks (fill : Nat → Option Nat) (call : Nat) (header : Bytes) (lineStart : Nat)
    (input : Bytes) : Except ReadFailure (Bytes × Bytes) :=
  match fill call with
  | none => .error (.returned .io)
  | some count =>
      if _ : input = [] ∨ header.length = maxAgeHeaderBytes then .error (.returned .decrypt)
      else if maxAgeHeaderBytes < header.length then .error (.returned .inputTooLarge)
      else
        let available := input.take (count + 1)
        let readable := min available.length (maxAgeHeaderBytes - header.length)
        let taken := consumed available readable
        if _ : taken = 0 then .error .outOfBounds
        else
          match available[taken - 1]? with
          | none => .error .outOfBounds
          | some last =>
              let collected := header ++ available.take taken
              if last = newline then
                if hasPrefix macMarker (collected.drop lineStart) then
                  .ok (collected, input.drop taken)
                else readAgeHeaderChunks fill (call + 1) collected collected.length (input.drop taken)
              else readAgeHeaderChunks fill (call + 1) collected lineStart (input.drop taken)
  termination_by input.length
  decreasing_by
    all_goals
      have nonempty : 0 < input.length :=
        List.length_pos_iff.mpr fun none => ‹¬(input = [] ∨ _)› (.inl none)
      rw [List.length_drop]
      exact Nat.sub_lt nonempty (Nat.pos_of_ne_zero ‹_›)

/-- `Chain`, of a header in memory and the reader behind it. -/
structure Chain where
  first : Bytes
  doneFirst : Bool
  second : Bytes

/-- What reads into buffers of any sizes deliver up to the end of a chain. -/
inductive Chain.Delivers : Chain → Bytes → Prop where
  | first {piece rest second bytes : Bytes} (nonempty : piece ≠ []) :
      Delivers ⟨rest, false, second⟩ bytes →
        Delivers ⟨piece ++ rest, false, second⟩ (piece ++ bytes)
  | switch {second bytes : Bytes} :
      Delivers ⟨[], true, second⟩ bytes → Delivers ⟨[], false, second⟩ bytes
  | second {first piece rest bytes : Bytes} (nonempty : piece ≠ []) :
      Delivers ⟨first, true, rest⟩ bytes →
        Delivers ⟨first, true, piece ++ rest⟩ (piece ++ bytes)
  | ended {first : Bytes} : Delivers ⟨first, true, []⟩ []

/-- `prepare_ciphertext`. -/
def prepareCiphertextChunks (fill : Nat → Option Nat) (input : Bytes)
    (allowLegacySshRsaStanzas : Bool) : Except ReadFailure Chain := do
  let (header, rest) ← readAgeHeaderChunks fill 0 [] 0 input
  (validateAgeHeaderStructure header).mapError .returned
  if !allowLegacySshRsaStanzas &&
      (Lines.cut newline header).any fun line => hasPrefix sshRsaMarker line then
    .error (.returned .decrypt)
  else .ok ⟨header, false, rest⟩

/-! ## Whole headers -/

/-- The octets end with a whole line that starts with the mark of the authentication code. -/
def Closing (header : Bytes) : Prop :=
  ∃ before line, Lines.Boundary newline before ∧ newline ∉ line ∧
    header = before ++ (macMarker ++ line ++ [newline])

theorem closing_getLast {bytes : Bytes} (closing : Closing bytes) :
    bytes.getLast? = some newline := by
  obtain ⟨before, line, -, -, rfl⟩ := closing
  simp

theorem closing_append_iff {header line : Bytes} (boundary : Lines.Boundary newline header)
    (inside : newline ∉ line) :
    Closing (header ++ line ++ [newline]) ↔ hasPrefix macMarker (line ++ [newline]) = true := by
  constructor
  · rintro ⟨before, other, boundary', inside', same⟩
    rw [← List.append_assoc, List.append_cancel_right_eq] at same
    have outside : newline ∉ macMarker ++ other := by
      rw [List.mem_append, not_or]
      exact ⟨by decide, inside'⟩
    obtain ⟨-, lines⟩ := Lines.append_inj_of_boundary boundary boundary' inside outside same
    simp [hasPrefix, lines]
  · intro marked
    obtain ⟨other, same⟩ := of_decide_eq_true marked
    rcases List.eq_nil_or_concat' other with rfl | ⟨start, last, rfl⟩
    · rw [List.append_nil] at same
      have ends := congrArg List.getLast? same
      rw [List.getLast?_append, List.getLast?_singleton, Option.some_or] at ends
      exact absurd ends (by decide)
    · rw [← List.append_assoc] at same
      obtain ⟨rfl, lasts⟩ := List.append_inj' same rfl
      rw [List.mem_append, not_or] at inside
      refine ⟨header, start, boundary, inside.2, ?_⟩
      simp

/-- What is read behind `front`: a header that closes when nothing shorter does, or nothing because
nothing within the limit closes. -/
def ReadsHeader (front rest : Bytes) : Except CryptoError (Bytes × Bytes) → Prop
  | .ok (read, after) =>
      read ++ after = front ++ rest ∧ Closing read ∧ read.length ≤ maxAgeHeaderBytes ∧
        ∀ shorter, shorter <+: front ++ rest → front.length < shorter.length →
          Closing shorter → read.length ≤ shorter.length
  | .error error =>
      error = .decrypt ∧
        ∀ shorter, shorter <+: front ++ rest → front.length < shorter.length →
          Closing shorter → maxAgeHeaderBytes < shorter.length

theorem ReadsHeader.step {front rest : Bytes} {byte : UInt8}
    {result : Except CryptoError (Bytes × Bytes)} (inner : ¬Closing (front ++ [byte]))
    (reads : ReadsHeader (front ++ [byte]) rest result) :
    ReadsHeader front (byte :: rest) result := by
  have longer : ∀ shorter, shorter <+: front ++ byte :: rest → front.length < shorter.length →
      Closing shorter → (front ++ [byte]).length < shorter.length := by
    intro shorter start long closing
    rw [List.length_append, List.length_singleton]
    rcases Nat.lt_or_eq_of_le (Nat.succ_le_of_lt long) with longer | same
    · exact longer
    · have here : front ++ [byte] <+: front ++ byte :: rest :=
        ⟨rest, by simp⟩
      have equal := List.IsPrefix.eq_of_length (List.prefix_of_prefix_length_le here start
        (by simp [← same])) (by simp [← same])
      exact absurd (equal ▸ closing) inner
  have whole : front ++ [byte] ++ rest = front ++ byte :: rest := by simp
  cases result with
  | error error =>
      obtain ⟨kind, none⟩ := reads
      rw [whole] at none
      exact ⟨kind, fun shorter start long closing =>
        none shorter start (longer shorter start long closing) closing⟩
  | ok result =>
      obtain ⟨read, after⟩ := result
      obtain ⟨split, closes, bound, first⟩ := reads
      rw [whole] at split first
      exact ⟨split, closes, bound, fun shorter start long closing =>
        first shorter start (longer shorter start long closing) closing⟩

theorem readAgeHeader_reads {header line : Bytes} (boundary : Lines.Boundary newline header)
    (inside : newline ∉ line) (room : (header ++ line).length ≤ maxAgeHeaderBytes) (rest : Bytes) :
    ReadsHeader (header ++ line) rest (readAgeHeader header line rest) := by
  induction rest generalizing header line with
  | nil =>
      rw [readAgeHeader]
      refine ⟨rfl, fun shorter start long _ => ?_⟩
      have bound := start.length_le
      rw [List.append_nil] at bound
      omega
  | cons byte rest ih =>
      rw [readAgeHeader]
      by_cases full : (header ++ line).length = maxAgeHeaderBytes
      · rw [if_pos full]
        exact ⟨rfl, fun shorter _ long _ => full ▸ long⟩
      · rw [if_neg full]
        have more : (header ++ line ++ [byte]).length ≤ maxAgeHeaderBytes := by
          rw [List.length_append, List.length_singleton]
          omega
        by_cases ends : byte = newline
        · subst ends
          have closes := closing_append_iff boundary inside
          rw [if_pos rfl]
          split
          · rename_i marked
            refine ⟨by simp, by rw [← List.append_assoc]; exact closes.mpr marked,
              by rw [← List.append_assoc]; exact more, fun shorter _ long _ => ?_⟩
            rw [← List.append_assoc, List.length_append, List.length_singleton]
            exact long
          · rename_i unmarked
            refine ReadsHeader.step (fun closing => unmarked (closes.mp closing)) ?_
            have reads := @ih (header ++ (line ++ [newline])) []
              (by rw [← List.append_assoc]; exact Lines.boundary_append newline _) (by simp)
              (by rw [List.append_nil, ← List.append_assoc]; exact more)
            simpa only [List.append_nil, List.append_assoc] using reads
        · rw [if_neg ends]
          refine ReadsHeader.step (fun closing => ?_) ?_
          · have last := closing_getLast closing
            rw [List.getLast?_append, List.getLast?_singleton, Option.some_or,
              Option.some.injEq] at last
            exact ends last
          · have reads := @ih header (line ++ [byte]) boundary
              (by
                rw [List.mem_append, List.mem_singleton, not_or]
                exact ⟨inside, Ne.symm ends⟩)
              (by rw [← List.append_assoc]; exact more)
            rwa [← List.append_assoc] at reads

/-! ## Chunks -/

theorem readAgeHeader_inside {content rest header line : Bytes} (inside : newline ∉ content)
    (room : (header ++ line ++ content).length ≤ maxAgeHeaderBytes) :
    readAgeHeader header line (content ++ rest) = readAgeHeader header (line ++ content) rest := by
  induction content generalizing line with
  | nil => simp
  | cons byte content ih =>
      rw [List.mem_cons, not_or] at inside
      have short : (header ++ line).length ≠ maxAgeHeaderBytes := by
        simp only [List.length_append, List.length_cons] at room ⊢
        omega
      rw [List.cons_append, readAgeHeader, if_neg short, if_neg (Ne.symm inside.1),
        ih inside.2 (by simpa [Nat.add_assoc, Nat.add_comm] using room), List.append_assoc,
        List.singleton_append]

/-- What is taken from a chunk: the rest of the line within it, or all that may be read. -/
theorem consumed_cases (available : Bytes) {readable : Nat} (bound : readable ≤ available.length) :
    (consumed available readable = readable ∧ newline ∉ available.take readable) ∨
      ∃ content, content.length < readable ∧ newline ∉ content ∧
        consumed available readable = content.length + 1 ∧
        available.take (content.length + 1) = content ++ [newline] := by
  unfold consumed
  cases found : (available.take readable).findIdx? (· = newline) with
  | none =>
      refine .inl ⟨rfl, fun member => ?_⟩
      have other := List.findIdx?_eq_none_iff.mp found newline member
      simp at other
  | some index =>
      obtain ⟨within, here, before⟩ := List.findIdx?_eq_some_iff_getElem.mp found
      rw [List.length_take, Nat.min_eq_left bound] at within
      have short : (available.take index).length = index := by
        rw [List.length_take]
        omega
      refine .inr ⟨available.take index, by omega, fun member => ?_, by rw [short], ?_⟩
      · obtain ⟨position, smaller, same⟩ := List.getElem_of_mem member
        rw [short] at smaller
        have other := before position smaller
        rw [List.getElem_take] at same other
        simp [same] at other
      · rw [List.getElem_take, decide_eq_true_eq] at here
        rw [short, List.take_succ_eq_append_getElem (by omega), here]

/-- Whatever the chunks are, the header is the one read octet by octet, unless the reader fails. -/
theorem readAgeHeaderChunks_eq (fill : Nat → Option Nat) (call : Nat) {header line : Bytes}
    (inside : newline ∉ line) (room : (header ++ line).length ≤ maxAgeHeaderBytes)
    (input : Bytes) :
    readAgeHeaderChunks fill call (header ++ line) header.length input =
        (readAgeHeader header line input).mapError .returned ∨
      (readAgeHeaderChunks fill call (header ++ line) header.length input =
        .error (.returned .io) ∧ ∃ later, fill later = none) := by
  induction size : input.length using Nat.strong_induction_on
    generalizing call header line input with
  | _ length ih =>
  rw [readAgeHeaderChunks]
  cases shown : fill call with
  | none => exact .inr ⟨rfl, call, shown⟩
  | some count =>
      by_cases ended : input = [] ∨ (header ++ line).length = maxAgeHeaderBytes
      · left
        simp only [dif_pos ended]
        rcases ended with rfl | full
        · rfl
        · cases input with
          | nil => rfl
          | cons byte rest => rw [readAgeHeader, if_pos full]; rfl
      · rw [not_or] at ended
        have below : (header ++ line).length < maxAgeHeaderBytes :=
          lt_of_le_of_ne room ended.2
        simp only [dif_neg (not_or.mpr ended), if_neg (Nat.not_lt.mpr room)]
        set available := input.take (count + 1) with available_eq
        set readable := min available.length (maxAgeHeaderBytes - (header ++ line).length)
          with readable_eq
        have nonempty : 0 < available.length := by
          have some_input := List.length_pos_iff.mpr ended.1
          rw [available_eq, List.length_take]
          omega
        have positive : 0 < readable := by
          rw [readable_eq]
          omega
        have within : readable ≤ available.length := Nat.min_le_left _ _
        have taken_of_le : ∀ amount ≤ available.length, available.take amount ++ input.drop amount =
            input := by
          intro amount bound
          rw [available_eq, List.length_take] at bound
          rw [available_eq, List.take_take, Nat.min_eq_left (by omega), List.take_append_drop]
        rcases consumed_cases available within with ⟨all, outside⟩ |
          ⟨content, short, outside, ends, front⟩
        · -- the chunk stays within the line
          obtain ⟨last, at_last⟩ : ∃ last, available[readable - 1]? = some last :=
            ⟨_, List.getElem?_eq_getElem (by omega)⟩
          have inner : last ≠ newline := by
            rintro rfl
            refine outside (List.mem_of_getElem? (i := readable - 1) ?_)
            rw [List.getElem?_take_of_lt (by omega), at_last]
          simp only [all, dif_neg positive.ne', at_last, if_neg inner]
          have bound : (header ++ (line ++ available.take readable)).length ≤
              maxAgeHeaderBytes := by
            rw [← List.append_assoc, List.length_append, List.length_take, readable_eq]
            omega
          have step := @ih (input.drop readable).length
            (by rw [List.length_drop, ← size]; have := List.length_pos_iff.mpr ended.1; omega)
            (call + 1) header (line ++ available.take readable)
            (by rw [List.mem_append, not_or]; exact ⟨inside, outside⟩) bound (input.drop readable) rfl
          rw [← List.append_assoc] at step bound
          rwa [← readAgeHeader_inside outside bound, taken_of_le readable within] at step
        · -- the chunk ends the line
          have at_last : available[content.length + 1 - 1]? = some newline := by
            have here := congrArg (fun octets => octets[content.length]?) front
            simpa [List.getElem?_take_of_lt] using here
          simp only [ends, dif_neg (Nat.succ_ne_zero content.length), at_last, if_true, front]
          have split := taken_of_le (content.length + 1) (by omega)
          rw [front, List.append_assoc, List.singleton_append] at split
          have bound : (header ++ line ++ content).length ≤ maxAgeHeaderBytes := by
            rw [List.length_append]
            omega
          have full : (header ++ (line ++ content)).length ≠ maxAgeHeaderBytes := by
            rw [← List.append_assoc, List.length_append]
            omega
          have reads : readAgeHeader header line input =
              readAgeHeader header (line ++ content) (newline :: input.drop (content.length + 1)) := by
            rw [← readAgeHeader_inside outside bound, split]
          have collected : header ++ line ++ (content ++ [newline]) =
              header ++ (line ++ content ++ [newline]) := by
            simp
          rw [reads, readAgeHeader, if_neg full, if_pos rfl, collected, List.drop_left]
          split
          · exact .inl rfl
          · have step := @ih (input.drop (content.length + 1)).length
              (by rw [List.length_drop, ← size]; have := List.length_pos_iff.mpr ended.1; omega)
              (call + 1) (header ++ (line ++ content ++ [newline])) [] (by simp)
              (by simp only [List.append_nil, List.length_append] at bound full ⊢; simp; omega)
              (input.drop (content.length + 1)) rfl
            rwa [List.append_nil] at step

theorem readAgeHeaderChunks_start (fill : Nat → Option Nat) (input : Bytes) :
    readAgeHeaderChunks fill 0 [] 0 input = (readAgeHeader [] [] input).mapError .returned ∨
      (readAgeHeaderChunks fill 0 [] 0 input = .error (.returned .io) ∧
        ∃ later, fill later = none) :=
  readAgeHeaderChunks_eq fill 0 (by simp : newline ∉ ([] : Bytes))
    (by simp : ([] ++ [] : Bytes).length ≤ maxAgeHeaderBytes) input

/-! ## What is read from the chain -/

namespace Chain

theorem Delivers.bytes_eq {chain : Chain} {bytes : Bytes} (delivers : chain.Delivers bytes) :
    bytes = (if chain.doneFirst then [] else chain.first) ++ chain.second := by
  induction delivers with
  | first _ _ ih => simp_all
  | switch _ ih => simp_all
  | second _ _ ih => simp_all
  | ended => rfl

/-- Reading a chain to its end gives both parts, one behind the other. -/
theorem delivers_iff {first second bytes : Bytes} :
    Delivers ⟨first, false, second⟩ bytes ↔ bytes = first ++ second := by
  constructor
  · intro delivers
    simpa using delivers.bytes_eq
  · rintro rfl
    have later : Delivers ⟨[], true, second⟩ second := by
      cases second with
      | nil => exact .ended
      | cons byte rest => simpa using Delivers.second (List.cons_ne_nil byte rest) .ended
    cases first with
    | nil => exact .switch later
    | cons byte rest => simpa using Delivers.first (List.cons_ne_nil byte rest) (.switch later)

end Chain

/-- The shortest beginning of the input that closes. -/
structure HeaderOf (input header : Bytes) : Prop where
  starts : header <+: input
  closing : Closing header
  shortest : ∀ shorter, shorter <+: input → Closing shorter → header.length ≤ shorter.length

theorem closing_ne_nil {header : Bytes} (closing : Closing header) : 0 < header.length := by
  obtain ⟨before, line, -, -, rfl⟩ := closing
  simp

/-- What `read_age_header` finds in an input. -/
theorem headerOf_of_readAgeHeader {input read after : Bytes}
    (found : readAgeHeader [] [] input = .ok (read, after)) :
    HeaderOf input read ∧ read.length ≤ maxAgeHeaderBytes ∧ read ++ after = input := by
  have reads := @readAgeHeader_reads [] [] (.inl rfl) (by simp) (by simp) input
  rw [found] at reads
  obtain ⟨split, closing, bound, first⟩ := reads
  exact ⟨⟨⟨after, split⟩, closing, fun shorter starts closes =>
    first shorter starts (closing_ne_nil closes) closes⟩, bound, split⟩

theorem prepareCiphertextChunks_eq_ok {fill : Nat → Option Nat} {input : Bytes}
    {allowLegacySshRsaStanzas : Bool} {chain : Chain}
    (prepared : prepareCiphertextChunks fill input allowLegacySshRsaStanzas = .ok chain) :
    ∃ read after, readAgeHeader [] [] input = .ok (read, after) ∧
      chain = ⟨read, false, after⟩ := by
  obtain ⟨⟨read, after⟩, found, checked⟩ := bind_eq_ok.mp prepared
  obtain ⟨⟨⟩, -, checked⟩ := bind_eq_ok.mp checked
  rw [guard_eq_ok, Except.ok.injEq] at checked
  rcases readAgeHeaderChunks_start fill input with same | ⟨failed, -⟩
  · rw [same] at found
    exact ⟨read, after, mapError_eq_ok.mp found, checked.2.symm⟩
  · rw [failed] at found
    cases found

theorem prepareCiphertextChunks_ne_outOfBounds (fill : Nat → Option Nat) (input : Bytes)
    (allowLegacySshRsaStanzas : Bool) :
    prepareCiphertextChunks fill input allowLegacySshRsaStanzas ≠ .error .outOfBounds := by
  intro failed
  unfold prepareCiphertextChunks at failed
  cases found : readAgeHeaderChunks fill 0 [] 0 input with
  | error failure =>
      rw [found] at failed
      cases failed
      rcases readAgeHeaderChunks_start fill input with same | ⟨io, -⟩
      · rw [found] at same
        cases read : readAgeHeader [] [] input <;> rw [read] at same <;> cases same
      · rw [found] at io
        cases io
  | ok result =>
      simp only [found, ok_bind] at failed
      cases valid : validateAgeHeaderStructure result.1 with
      | error error =>
          rw [valid] at failed
          cases failed
      | ok =>
          simp only [valid, Except.mapError, ok_bind] at failed
          split at failed <;> cases failed

/-- Where nothing closes within the limit, there is no header. -/
theorem readAgeHeader_eq_error {input : Bytes}
    (late : ∀ header, HeaderOf input header → maxAgeHeaderBytes < header.length) :
    ∃ error, readAgeHeader [] [] input = .error error := by
  cases found : readAgeHeader [] [] input with
  | error error => exact ⟨error, rfl⟩
  | ok result =>
      obtain ⟨read, after⟩ := result
      obtain ⟨header, bound, -⟩ := headerOf_of_readAgeHeader found
      exact absurd (late read header) (Nat.not_lt.mpr bound)

/-- The preflight does not alter the stream: it ends with an error of the code or with a chain whose
first part is the shortest closing beginning of the input, within the limit, and that delivers the
input; it fails when nothing closes within the limit; and it depends on the chunks only as far as
the reader fails. -/
theorem preflight_preserves_stream (input : Bytes) (allowLegacySshRsaStanzas : Bool)
    (fill : Nat → Option Nat) :
    prepareCiphertextChunks fill input allowLegacySshRsaStanzas ≠ .error .outOfBounds ∧
    (∀ chain, prepareCiphertextChunks fill input allowLegacySshRsaStanzas = .ok chain →
      HeaderOf input chain.first ∧ chain.first.length ≤ maxAgeHeaderBytes ∧
        ∀ bytes, chain.Delivers bytes ↔ bytes = input) ∧
    ((∀ header, HeaderOf input header → maxAgeHeaderBytes < header.length) →
      ∃ error, readAgeHeaderChunks fill 0 [] 0 input = .error (.returned error) ∧
        prepareCiphertextChunks fill input allowLegacySshRsaStanzas =
          .error (.returned error)) ∧
    ((∀ call, fill call ≠ none) → ∀ other : Nat → Option Nat, (∀ call, other call ≠ none) →
      readAgeHeaderChunks fill 0 [] 0 input = readAgeHeaderChunks other 0 [] 0 input ∧
        prepareCiphertextChunks fill input allowLegacySshRsaStanzas =
          prepareCiphertextChunks other input allowLegacySshRsaStanzas) := by
  refine ⟨prepareCiphertextChunks_ne_outOfBounds fill input allowLegacySshRsaStanzas, ?_, ?_, ?_⟩
  · intro chain prepared
    obtain ⟨read, after, found, rfl⟩ := prepareCiphertextChunks_eq_ok prepared
    obtain ⟨header, bound, split⟩ := headerOf_of_readAgeHeader found
    refine ⟨header, bound, fun bytes => ?_⟩
    rw [Chain.delivers_iff, split]
  · intro late
    have fails : ∃ error, readAgeHeaderChunks fill 0 [] 0 input = .error (.returned error) := by
      rcases readAgeHeaderChunks_start fill input with same | ⟨io, -⟩
      · obtain ⟨error, found⟩ := readAgeHeader_eq_error late
        exact ⟨error, by rw [same, found]; rfl⟩
      · exact ⟨.io, io⟩
    obtain ⟨error, failed⟩ := fails
    refine ⟨error, failed, ?_⟩
    rw [prepareCiphertextChunks, failed]
    rfl
  · intro reads other reads'
    have whole : ∀ fill : Nat → Option Nat, (∀ call, fill call ≠ none) →
        readAgeHeaderChunks fill 0 [] 0 input =
          (readAgeHeader [] [] input).mapError .returned := by
      intro fill reads
      rcases readAgeHeaderChunks_start fill input with same | ⟨-, later, fails⟩
      · exact same
      · exact absurd fails (reads later)
    have same := (whole fill reads).trans (whole other reads').symm
    refine ⟨same, ?_⟩
    rw [prepareCiphertextChunks, prepareCiphertextChunks, same]

end NixSeal.Crypto
