import Mathlib.Data.List.Basic
import Mathlib.Tactic

/-!
# Reading UTF-8 in pieces

A machine that reads one octet at a time and knows how many continuation octets the character it
is in still owes.  A text read in pieces is cut after its last complete character, and what is
left of it, at most three octets, is carried into the next piece.
-/

namespace NixSeal
namespace Utf8

/-- Between octets: how many are owed, and the range of the next one. -/
structure State where
  owed : Nat
  low : Nat
  high : Nat
  deriving DecidableEq

/-- A state in which any continuation octet may follow. -/
def State.tail (owed : Nat) : State := ⟨owed, 0x80, 0xBF⟩

/-- Between two characters. -/
def State.boundary : State := State.tail 0

/-- The first octet of a character.  The narrow ranges leave out overlong forms, surrogates and
what lies above the last code point. -/
def lead (octet : UInt8) : Option State :=
  if octet.toNat < 0x80 then some .boundary
  else if octet.toNat < 0xC2 then none
  else if octet.toNat < 0xE0 then some (.tail 1)
  else if octet.toNat = 0xE0 then some ⟨2, 0xA0, 0xBF⟩
  else if octet.toNat = 0xED then some ⟨2, 0x80, 0x9F⟩
  else if octet.toNat < 0xF0 then some (.tail 2)
  else if octet.toNat = 0xF0 then some ⟨3, 0x90, 0xBF⟩
  else if octet.toNat < 0xF4 then some (.tail 3)
  else if octet.toNat = 0xF4 then some ⟨3, 0x80, 0x8F⟩
  else none

/-- One octet. -/
def step (state : State) (octet : UInt8) : Option State :=
  if state.owed = 0 then lead octet
  else if state.low ≤ octet.toNat ∧ octet.toNat ≤ state.high then some (.tail (state.owed - 1))
  else none

/-- The state after some octets, none when one of them cannot stand there. -/
def run (state : State) (octets : List UInt8) : Option State := octets.foldlM step state

/-- Octets that are a text. -/
def Valid (octets : List UInt8) : Prop := run .boundary octets = some .boundary

instance (octets : List UInt8) : Decidable (Valid octets) :=
  inferInstanceAs (Decidable (run .boundary octets = some .boundary))

/-- The complete characters of some octets and what remains after them, none when no text begins
in this way.  The octets in `pending` have been read since the last boundary. -/
def cutFrom (state : State) (pending : List UInt8) :
    List UInt8 → Option (List UInt8 × List UInt8)
  | [] => some ([], pending)
  | octet :: rest =>
      match step state octet with
      | none => none
      | some next =>
          if next.owed = 0 then
            (cutFrom next [] rest).map fun found => (pending ++ octet :: found.1, found.2)
          else cutFrom next (pending ++ [octet]) rest

/-- The complete characters of some octets and what remains after them. -/
def cut (octets : List UInt8) : Option (List UInt8 × List UInt8) := cutFrom .boundary [] octets

@[simp]
theorem run_nil (state : State) : run state [] = some state := rfl

theorem run_append (state : State) (left right : List UInt8) :
    run state (left ++ right) = (run state left).bind fun next => run next right :=
  List.foldlM_append

theorem run_cons (state : State) (octet : UInt8) (rest : List UInt8) :
    run state (octet :: rest) = (step state octet).bind fun next => run next rest :=
  List.foldlM_cons

@[simp]
theorem valid_nil : Valid [] := rfl

theorem valid_append_iff {left right : List UInt8} (valid : Valid left) :
    Valid (left ++ right) ↔ Valid right := by
  rw [Valid, run_append, show run .boundary left = some .boundary from valid, Option.bind_some]
  rfl

/-! ## Cutting -/

theorem lead_eq_some {octet : UInt8} {next : State} (found : lead octet = some next) :
    next.owed ≤ 3 ∧ (next.owed = 0 → next = .boundary) := by
  unfold lead at found
  repeat' split at found
  all_goals cases found
  all_goals exact ⟨by decide, by decide⟩

/-- What has been read of a character and what it owes make four octets at most. -/
structure Pending (state : State) (pending : List UInt8) : Prop where
  reached : run .boundary pending = some state
  bounded : pending.length + state.owed ≤ 4
  boundary : state.owed = 0 → state = .boundary ∧ pending = []

theorem pending_boundary : Pending .boundary [] := ⟨rfl, by decide, fun _ => ⟨rfl, rfl⟩⟩

/-- An octet that leaves a character open. -/
theorem Pending.step {state next : State} {pending : List UInt8} {octet : UInt8}
    (unfinished : Pending state pending) (stepped : Utf8.step state octet = some next)
    (owes : next.owed ≠ 0) : Pending next (pending ++ [octet]) := by
  refine ⟨?_, ?_, fun closed => absurd closed owes⟩
  · rw [run_append, unfinished.reached, Option.bind_some, run_cons, stepped]
    rfl
  · rw [List.length_append, List.length_singleton]
    unfold Utf8.step at stepped
    by_cases between : state.owed = 0
    · rw [if_pos between] at stepped
      rw [(unfinished.boundary between).2, List.length_nil]
      have few := (lead_eq_some stepped).1
      omega
    · rw [if_neg between] at stepped
      split at stepped
      · cases stepped
        have bounded := unfinished.bounded
        simp only [State.tail]
        omega
      · cases stepped

theorem eq_boundary_of_step {state next : State} {octet : UInt8}
    (stepped : step state octet = some next) (closed : next.owed = 0) : next = .boundary := by
  unfold step at stepped
  split at stepped
  · exact (lead_eq_some stepped).2 closed
  · split at stepped
    · cases stepped
      simp only [State.tail] at closed
      rw [State.tail, closed]
      rfl
    · cases stepped

/-- What a cut gives: complete characters, and less than one. -/
structure Cut (octets complete rest : List UInt8) : Prop where
  split : octets = complete ++ rest
  valid : Valid complete
  short : rest.length ≤ 3
  closed : Valid rest → rest = []

theorem cutFrom_eq_some {state : State} {pending octets complete rest : List UInt8}
    (unfinished : Pending state pending)
    (found : cutFrom state pending octets = some (complete, rest)) :
    Cut (pending ++ octets) complete rest := by
  induction octets generalizing state pending complete with
  | nil =>
      cases found
      refine ⟨by simp, valid_nil, ?_, fun valid => ?_⟩
      · by_cases between : state.owed = 0
        · simp [(unfinished.boundary between).2]
        · have bounded := unfinished.bounded
          omega
      · have same := unfinished.reached.symm.trans valid
        cases same
        exact (unfinished.boundary rfl).2
  | cons octet tail ih =>
      rw [cutFrom] at found
      split at found
      · cases found
      · rename_i next stepped
        split at found
        · rename_i closed
          obtain ⟨⟨inner, last⟩, later, same⟩ := Option.map_eq_some_iff.mp found
          cases same
          cases eq_boundary_of_step stepped closed
          have later := ih pending_boundary later
          have complete : Valid (pending ++ [octet]) := by
            rw [Valid, run_append, unfinished.reached, Option.bind_some, run_cons, stepped]
            rfl
          refine ⟨?_, ?_, later.short, later.closed⟩
          · have split := later.split
            rw [List.nil_append] at split
            simp [split]
          · have whole := (valid_append_iff complete).mpr later.valid
            simpa using whole
        · rename_i owes
          have later := ih (unfinished.step stepped owes) found
          rw [List.append_assoc] at later
          exact later

theorem run_of_cutFrom_eq_none {state : State} {pending octets : List UInt8}
    (refused : cutFrom state pending octets = none) : run state octets = none := by
  induction octets generalizing state pending with
  | nil => cases refused
  | cons octet tail ih =>
      rw [cutFrom] at refused
      rw [run_cons]
      split at refused
      · rename_i stepped
        rw [stepped]
        rfl
      · rename_i next stepped
        rw [stepped, Option.bind_some]
        split at refused
        · exact ih (Option.map_eq_none_iff.mp refused)
        · exact ih refused

theorem cut_eq_some {octets complete rest : List UInt8}
    (found : cut octets = some (complete, rest)) : Cut octets complete rest :=
  cutFrom_eq_some pending_boundary found

/-- No text begins with what cannot be cut. -/
theorem not_valid_of_cut_eq_none {octets : List UInt8} (refused : cut octets = none)
    (more : List UInt8) : ¬Valid (octets ++ more) := by
  rw [Valid, run_append, run_of_cutFrom_eq_none refused]
  simp

/-! ## Characters -/

section Characters

variable {octet : UInt8} {octets : List UInt8} {next : State}

theorem lead_ascii (small : octet.toNat < 0x80) : lead octet = some .boundary :=
  if_pos small

theorem lead_two (range : 0xC2 ≤ octet.toNat ∧ octet.toNat < 0xE0) :
    lead octet = some (.tail 1) := by
  unfold lead
  split_ifs <;> first | rfl | omega

theorem lead_three (range : 0xE1 ≤ octet.toNat ∧ octet.toNat < 0xF0)
    (other : octet.toNat ≠ 0xED) : lead octet = some (.tail 2) := by
  unfold lead
  split_ifs <;> first | rfl | omega

theorem lead_four (range : 0xF1 ≤ octet.toNat ∧ octet.toNat < 0xF4) :
    lead octet = some (.tail 3) := by
  unfold lead
  split_ifs <;> first | rfl | omega

theorem lead_e0 (same : octet.toNat = 0xE0) : lead octet = some ⟨2, 0xA0, 0xBF⟩ := by
  unfold lead
  split_ifs <;> first | rfl | omega

theorem lead_ed (same : octet.toNat = 0xED) : lead octet = some ⟨2, 0x80, 0x9F⟩ := by
  unfold lead
  split_ifs <;> first | rfl | omega

theorem lead_f0 (same : octet.toNat = 0xF0) : lead octet = some ⟨3, 0x90, 0xBF⟩ := by
  unfold lead
  split_ifs <;> first | rfl | omega

theorem lead_f4 (same : octet.toNat = 0xF4) : lead octet = some ⟨3, 0x80, 0x8F⟩ := by
  unfold lead
  split_ifs <;> first | rfl | omega

theorem valid_cons_iff :
    Valid (octet :: octets) ↔ ∃ next, lead octet = some next ∧ run next octets = some .boundary := by
  rw [Valid, run_cons, Option.bind_eq_some_iff]
  rfl

theorem valid_of_ascii (ascii : ∀ octet ∈ octets, octet.toNat < 0x80) : Valid octets := by
  induction octets with
  | nil => exact valid_nil
  | cons octet rest ih =>
      rw [valid_cons_iff]
      exact ⟨_, lead_ascii (ascii octet List.mem_cons_self),
        ih fun other member => ascii other (List.mem_cons_of_mem _ member)⟩

theorem run_owed_iff {owed low high : Nat} :
    run ⟨owed + 1, low, high⟩ octets = some .boundary ↔
      ∃ octet rest, octets = octet :: rest ∧ (low ≤ octet.toNat ∧ octet.toNat ≤ high) ∧
        run (.tail owed) rest = some .boundary := by
  cases octets with
  | nil => simp [run, State.boundary, State.tail]
  | cons octet rest =>
      rw [run_cons]
      by_cases inside : low ≤ octet.toNat ∧ octet.toNat ≤ high
      · simp [step, inside]
      · simp [step, inside]

theorem run_owed {owed low high : Nat} {rest : List UInt8}
    (inside : low ≤ octet.toNat ∧ octet.toNat ≤ high)
    (closes : run (.tail owed) rest = some .boundary) :
    run ⟨owed + 1, low, high⟩ (octet :: rest) = some .boundary :=
  run_owed_iff.mpr ⟨octet, rest, rfl, inside, closes⟩

theorem run_tail {owed : Nat} {rest : List UInt8}
    (inside : 0x80 ≤ octet.toNat ∧ octet.toNat ≤ 0xBF)
    (closes : run (.tail owed) rest = some .boundary) :
    run (.tail (owed + 1)) (octet :: rest) = some .boundary :=
  run_owed inside closes

theorem run_tail_iff {owed : Nat} :
    run (.tail (owed + 1)) octets = some .boundary ↔
      ∃ octet rest, octets = octet :: rest ∧ (0x80 ≤ octet.toNat ∧ octet.toNat ≤ 0xBF) ∧
        run (.tail owed) rest = some .boundary :=
  run_owed_iff

theorem toNat_ofNat {value : Nat} (small : value < 256) : (UInt8.ofNat value).toNat = value :=
  UInt8.toNat_ofNat_of_lt' small

theorem valid_encodeChar (char : Char) : Valid (String.utf8EncodeChar char) := by
  have scalar : char.val.toNat < 0xD800 ∨ 0xDFFF < char.val.toNat ∧ char.val.toNat < 0x110000 :=
    char.valid
  unfold String.utf8EncodeChar
  generalize char.val.toNat = value at scalar
  simp only
  split_ifs with one two three
  · refine valid_cons_iff.mpr ⟨_, lead_ascii ?_, rfl⟩
    rw [toNat_ofNat (by omega)]
    omega
  · refine valid_cons_iff.mpr ⟨_, lead_two ?_, run_tail ?_ rfl⟩
    · rw [toNat_ofNat (by omega)]
      omega
    · rw [toNat_ofNat (by omega)]
      omega
  · have last : 0x80 ≤ (UInt8.ofNat (value % 64 + 128)).toNat ∧
        (UInt8.ofNat (value % 64 + 128)).toNat ≤ 0xBF := by
      rw [toNat_ofNat (by omega)]
      omega
    have closes := run_tail last (run_nil .boundary)
    rcases Nat.lt_trichotomy (value / 4096) 13 with below | surrogate | above
    · rcases Nat.eq_zero_or_pos (value / 4096) with zero | positive
      · refine valid_cons_iff.mpr ⟨_, lead_e0 ?_, run_owed ?_ closes⟩
        · rw [toNat_ofNat (by omega)]
          omega
        · rw [toNat_ofNat (by omega)]
          omega
      · refine valid_cons_iff.mpr ⟨_, lead_three ?_ ?_, run_tail ?_ closes⟩
        all_goals
          rw [toNat_ofNat (by omega)]
          omega
    · refine valid_cons_iff.mpr ⟨_, lead_ed ?_, run_owed ?_ closes⟩
      all_goals
        rw [toNat_ofNat (by omega)]
        omega
    · refine valid_cons_iff.mpr ⟨_, lead_three ?_ ?_, run_tail ?_ closes⟩
      all_goals
        rw [toNat_ofNat (by omega)]
        omega
  · have third : 0x80 ≤ (UInt8.ofNat (value / 64 % 64 + 128)).toNat ∧
        (UInt8.ofNat (value / 64 % 64 + 128)).toNat ≤ 0xBF := by
      rw [toNat_ofNat (by omega)]
      omega
    have last : 0x80 ≤ (UInt8.ofNat (value % 64 + 128)).toNat ∧
        (UInt8.ofNat (value % 64 + 128)).toNat ≤ 0xBF := by
      rw [toNat_ofNat (by omega)]
      omega
    have closes := run_tail third (run_tail last (run_nil .boundary))
    rcases Nat.eq_zero_or_pos (value / 262144) with zero | positive
    · refine valid_cons_iff.mpr ⟨_, lead_f0 ?_, run_owed ?_ closes⟩
      all_goals
        rw [toNat_ofNat (by omega)]
        omega
    · rcases Nat.lt_or_ge (value / 262144) 4 with below | above
      · refine valid_cons_iff.mpr ⟨_, lead_four ?_, run_tail ?_ closes⟩
        all_goals
          rw [toNat_ofNat (by omega)]
          omega
      · refine valid_cons_iff.mpr ⟨_, lead_f4 ?_, run_owed ?_ closes⟩
        all_goals
          rw [toNat_ofNat (by omega)]
          omega

theorem exists_char (value : Nat)
    (scalar : value < 0xD800 ∨ 0xDFFF < value ∧ value < 0x110000) :
    ∃ char : Char, char.val.toNat = value :=
  ⟨Char.ofNatAux value scalar, rfl⟩

theorem eq_ofNat {value : Nat} (same : value = octet.toNat) : octet = UInt8.ofNat value := by
  rw [same, UInt8.ofNat_toNat]

theorem encodeChar_of_two {char : Char} {value : Nat} (same : char.val.toNat = value)
    (range : 0x7F < value ∧ value ≤ 0x7FF) :
    String.utf8EncodeChar char =
      [UInt8.ofNat (value / 64 % 32 + 192), UInt8.ofNat (value % 64 + 128)] := by
  rw [String.utf8EncodeChar, same, if_neg (by omega), if_pos (by omega)]

theorem encodeChar_of_three {char : Char} {value : Nat} (same : char.val.toNat = value)
    (range : 0x7FF < value ∧ value ≤ 0xFFFF) :
    String.utf8EncodeChar char =
      [UInt8.ofNat (value / 4096 % 16 + 224), UInt8.ofNat (value / 64 % 64 + 128),
        UInt8.ofNat (value % 64 + 128)] := by
  rw [String.utf8EncodeChar, same, if_neg (by omega), if_neg (by omega), if_pos (by omega)]

theorem encodeChar_of_four {char : Char} {value : Nat} (same : char.val.toNat = value)
    (range : 0xFFFF < value) :
    String.utf8EncodeChar char =
      [UInt8.ofNat (value / 262144 % 8 + 240), UInt8.ofNat (value / 4096 % 64 + 128),
        UInt8.ofNat (value / 64 % 64 + 128), UInt8.ofNat (value % 64 + 128)] := by
  rw [String.utf8EncodeChar, same, if_neg (by omega), if_neg (by omega), if_neg (by omega)]

/-- Three octets of a character, by the range of the second. -/
theorem exists_encodeChar_of_three {low high : Nat}
    (range : 0xE0 ≤ octet.toNat ∧ octet.toNat < 0xF0) (inner : 0x80 ≤ low ∧ high ≤ 0xBF)
    (long : octet.toNat = 0xE0 → 0xA0 ≤ low) (scalar : octet.toNat = 0xED → high ≤ 0x9F)
    (closes : run ⟨2, low, high⟩ octets = some .boundary) :
    ∃ char rest, octet :: octets = String.utf8EncodeChar char ++ rest ∧ Valid rest := by
  obtain ⟨second, _, rfl, window, closes⟩ := run_owed_iff.mp closes
  obtain ⟨third, rest, rfl, last, closes⟩ := run_tail_iff.mp closes
  obtain ⟨char, value⟩ := exists_char ((octet.toNat - 0xE0) * 4096 +
    (second.toNat - 0x80) * 64 + (third.toNat - 0x80)) (by omega)
  refine ⟨char, rest, ?_, closes⟩
  rw [encodeChar_of_three value (by omega)]
  simp only [List.cons_append, List.nil_append, List.cons.injEq]
  exact ⟨eq_ofNat (by omega), eq_ofNat (by omega), eq_ofNat (by omega), trivial⟩

/-- Four octets of a character, by the range of the second. -/
theorem exists_encodeChar_of_four {low high : Nat}
    (range : 0xF0 ≤ octet.toNat ∧ octet.toNat ≤ 0xF4) (inner : 0x80 ≤ low ∧ high ≤ 0xBF)
    (long : octet.toNat = 0xF0 → 0x90 ≤ low) (scalar : octet.toNat = 0xF4 → high ≤ 0x8F)
    (closes : run ⟨3, low, high⟩ octets = some .boundary) :
    ∃ char rest, octet :: octets = String.utf8EncodeChar char ++ rest ∧ Valid rest := by
  obtain ⟨second, _, rfl, window, closes⟩ := run_owed_iff.mp closes
  obtain ⟨third, _, rfl, middle, closes⟩ := run_tail_iff.mp closes
  obtain ⟨fourth, rest, rfl, last, closes⟩ := run_tail_iff.mp closes
  obtain ⟨char, value⟩ := exists_char ((octet.toNat - 0xF0) * 262144 +
    (second.toNat - 0x80) * 4096 + (third.toNat - 0x80) * 64 + (fourth.toNat - 0x80)) (by omega)
  refine ⟨char, rest, ?_, closes⟩
  rw [encodeChar_of_four value (by omega)]
  simp only [List.cons_append, List.nil_append, List.cons.injEq]
  exact ⟨eq_ofNat (by omega), eq_ofNat (by omega), eq_ofNat (by omega), eq_ofNat (by omega), trivial⟩

/-- A text that is not empty begins with a character. -/
theorem exists_encodeChar_of_valid_cons (valid : Valid (octet :: octets)) :
    ∃ char rest, octet :: octets = String.utf8EncodeChar char ++ rest ∧ Valid rest := by
  obtain ⟨next, begins, closes⟩ := valid_cons_iff.mp valid
  have bound := octet.toNat_lt
  unfold lead at begins
  split_ifs at begins with ascii overlong two e0 ed three f0 four f4
  all_goals cases begins
  · obtain ⟨char, value⟩ := exists_char octet.toNat (by omega)
    refine ⟨char, octets, ?_, closes⟩
    rw [String.utf8EncodeChar, value, if_pos (by omega), UInt8.ofNat_toNat]
    rfl
  · obtain ⟨second, rest, rfl, range, closes⟩ := run_tail_iff.mp closes
    obtain ⟨char, value⟩ := exists_char
      ((octet.toNat - 0xC0) * 64 + (second.toNat - 0x80)) (by omega)
    refine ⟨char, rest, ?_, closes⟩
    rw [encodeChar_of_two value (by omega)]
    simp only [List.cons_append, List.nil_append, List.cons.injEq]
    exact ⟨eq_ofNat (by omega), eq_ofNat (by omega), trivial⟩
  · exact exists_encodeChar_of_three (by omega) (by omega) (by omega) (by omega) closes
  · exact exists_encodeChar_of_three (by omega) (by omega) (by omega) (by omega) closes
  · exact exists_encodeChar_of_three (by omega) (by omega) (by omega) (by omega) closes
  · exact exists_encodeChar_of_four (by omega) (by omega) (by omega) (by omega) closes
  · exact exists_encodeChar_of_four (by omega) (by omega) (by omega) (by omega) closes
  · exact exists_encodeChar_of_four (by omega) (by omega) (by omega) (by omega) closes

end Characters

/-- The texts of the machine are the encodings of characters. -/
theorem valid_iff_exists_chars {octets : List UInt8} :
    Valid octets ↔ ∃ chars : List Char, octets = chars.flatMap String.utf8EncodeChar := by
  constructor
  · intro valid
    induction size : octets.length using Nat.strong_induction_on generalizing octets with
    | _ length ih =>
        cases octets with
        | nil => exact ⟨[], rfl⟩
        | cons octet rest =>
            obtain ⟨char, later, split, valid⟩ := exists_encodeChar_of_valid_cons valid
            have encoded : String.utf8EncodeChar char ≠ [] := String.utf8EncodeChar_ne_nil
            have shorter := congrArg List.length split
            have positive := List.length_pos_iff.mpr encoded
            rw [List.length_append] at shorter
            obtain ⟨chars, same⟩ := ih later.length (by omega) valid rfl
            exact ⟨char :: chars, by rw [List.flatMap_cons, ← same, split]⟩
  · rintro ⟨chars, rfl⟩
    induction chars with
    | nil => exact valid_nil
    | cons char rest ih =>
        rw [List.flatMap_cons]
        exact (valid_append_iff (valid_encodeChar char)).mpr ih

/-- The machine accepts what the standard decoder accepts. -/
theorem valid_iff_isSome {octets : List UInt8} :
    Valid octets ↔ (String.fromUTF8? ⟨octets.toArray⟩).isSome = true := by
  have decodes : (String.fromUTF8? octets.toByteArray).isSome = true ↔
      octets.toByteArray.IsValidUTF8 := by
    unfold String.fromUTF8?
    split <;> simp_all
  have array : octets.toByteArray = ⟨octets.toArray⟩ := ByteArray.ext List.data_toByteArray
  rw [← array, decodes, valid_iff_exists_chars]
  constructor
  · rintro ⟨chars, same⟩
    exact ⟨chars, congrArg List.toByteArray same⟩
  · rintro ⟨chars, same⟩
    exact ⟨chars, List.toByteArray_inj.mp same⟩

end Utf8
end NixSeal
