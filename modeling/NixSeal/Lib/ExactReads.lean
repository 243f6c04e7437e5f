import Mathlib.Tactic

/-!
# Readers that ask for exact lengths

A reader asks its source for so many symbols at a time and gets all of them or fails.  What it asked
for on a source is recorded, so that it can be told how far it read, and why.
-/

namespace ExactReads

/-- A reader ends with a result or asks for symbols. -/
inductive Reader (δ ε α : Type) where
  | done (result : Except ε α)
  | exact (length : Nat) (next : List δ → Reader δ ε α)

namespace Reader

variable {δ ε α β : Type}

/-- One reader behind the other. -/
def bind : Reader δ ε α → (α → Reader δ ε β) → Reader δ ε β
  | .done (.ok value), next => next value
  | .done (.error error), _ => .done (.error error)
  | .exact length later, next => .exact length fun symbols => (later symbols).bind next

instance : Monad (Reader δ ε) where
  pure value := .done (.ok value)
  bind := bind

/-- A reader that ends with an error. -/
def fail (error : ε) : Reader δ ε α := .done (.error error)

/-- A reader of so many symbols. -/
def take (length : Nat) : Reader δ ε (List δ) := .exact length fun symbols => .done (.ok symbols)

/-- What a reader finds in a source, with the rest of it; `short` is the error at the end of the
source. -/
def run (short : ε) : Reader δ ε α → List δ → Except ε (α × List δ)
  | .done (.ok value), input => .ok (value, input)
  | .done (.error error), _ => .error error
  | .exact length next, input =>
      if input.length < length then .error short
      else (next (input.take length)).run short (input.drop length)

/-- The lengths that a reader asks for, up to its end or the end of the source. -/
def asked : Reader δ ε α → List δ → List Nat
  | .done _, _ => []
  | .exact length next, input =>
      if input.length < length then [length]
      else length :: (next (input.take length)).asked (input.drop length)

variable {short : ε} {reader : Reader δ ε α} {next : α → Reader δ ε β}

@[simp]
theorem run_pure (value : α) (input : List δ) :
    (pure value : Reader δ ε α).run short input = .ok (value, input) := rfl

@[simp]
theorem run_fail (error : ε) (input : List δ) :
    (fail error : Reader δ ε α).run short input = .error error := rfl

@[simp]
theorem asked_pure (value : α) (input : List δ) : (pure value : Reader δ ε α).asked input = [] := rfl

@[simp]
theorem asked_fail (error : ε) (input : List δ) : (fail error : Reader δ ε α).asked input = [] := rfl

theorem bind_exact (length : Nat) (later : List δ → Reader δ ε α) :
    (Reader.exact length later).bind next =
      .exact length fun symbols => (later symbols).bind next := rfl

theorem run_exact (length : Nat) (later : List δ → Reader δ ε α) (input : List δ) :
    (Reader.exact length later).run short input =
      if input.length < length then .error short
      else (later (input.take length)).run short (input.drop length) := rfl

theorem asked_exact (length : Nat) (later : List δ → Reader δ ε α) (input : List δ) :
    (Reader.exact length later).asked input =
      if input.length < length then [length]
      else length :: (later (input.take length)).asked (input.drop length) := rfl

theorem run_take (length : Nat) (input : List δ) :
    (take length : Reader δ ε (List δ)).run short input =
      if input.length < length then .error short else .ok (input.take length, input.drop length) :=
  rfl

@[simp]
theorem asked_take (length : Nat) (input : List δ) :
    (take length : Reader δ ε (List δ)).asked input = [length] := by
  rw [take, asked_exact]
  exact ite_self _

theorem run_bind (input : List δ) :
    (reader >>= next).run short input =
      reader.run short input >>= fun found => (next found.1).run short found.2 := by
  change (reader.bind next).run short input = _
  induction reader generalizing input with
  | done result => cases result <;> rfl
  | exact length later ih =>
      rw [bind_exact, run_exact, run_exact]
      split
      · rfl
      · exact ih _ _

/-- The second reader asks where the first one ended. -/
theorem asked_bind_ok {input rest : List δ} {value : α}
    (found : reader.run short input = .ok (value, rest)) :
    (reader >>= next).asked input = reader.asked input ++ (next value).asked rest := by
  change (reader.bind next).asked input = _
  induction reader generalizing input with
  | done result =>
      cases result <;> cases found
      rfl
  | exact length later ih =>
      rw [run_exact] at found
      split at found
      · cases found
      · rename_i enough
        rw [bind_exact, asked_exact, asked_exact, if_neg enough, if_neg enough, ih _ found, List.cons_append]

theorem asked_bind_error {input : List δ} {error : ε}
    (failed : reader.run short input = .error error) :
    (reader >>= next).asked input = reader.asked input := by
  change (reader.bind next).asked input = _
  induction reader generalizing input with
  | done result =>
      cases result <;> cases failed
      rfl
  | exact length later ih =>
      rw [bind_exact, asked_exact, asked_exact]
      rw [run_exact] at failed
      split
      · rfl
      · rename_i enough
        rw [if_neg enough] at failed
        rw [ih _ failed]

theorem asked_take_bind {length : Nat} {next : List δ → Reader δ ε α} {input : List δ}
    (last : ∀ symbols rest, (next symbols).asked rest = []) :
    (take length >>= next).asked input = [length] := by
  change ((take length).bind next).asked input = _
  rw [take, bind_exact, asked_exact]
  exact (if_congr Iff.rfl rfl (congrArg (List.cons length) (last _ _))).trans (ite_self _)

/-- What is left of a source is what was not asked for. -/
theorem run_eq_ok {input rest : List δ} {value : α}
    (found : reader.run short input = .ok (value, rest)) :
    (reader.asked input).sum ≤ input.length ∧ rest = input.drop (reader.asked input).sum := by
  induction reader generalizing input with
  | done result =>
      cases result <;> cases found
      exact ⟨Nat.zero_le _, rfl⟩
  | exact length later ih =>
      rw [run_exact] at found
      split at found
      · cases found
      · rename_i enough
        obtain ⟨inside, left⟩ := ih _ found
        rw [asked_exact, if_neg enough, List.sum_cons]
        rw [List.length_drop] at inside
        rw [List.drop_drop] at left
        exact ⟨by omega, left⟩

end Reader

section Declared

variable {δ : Type} {width limit : Nat} {number : List δ → Nat}

/-- Words of one width, each followed by nothing or by the text whose length it declares. -/
inductive Declared (width limit : Nat) (number : List δ → Nat) : List δ → List Nat → Prop where
  | nil {input : List δ} : Declared width limit number input []
  | word {input : List δ} {asks : List Nat} :
      Declared width limit number (input.drop width) asks →
        Declared width limit number input (width :: asks)
  | text {input : List δ} {asks : List Nat} :
      number (input.take width) ≤ limit →
      Declared width limit number (input.drop (width + number (input.take width))) asks →
        Declared width limit number input (width :: number (input.take width) :: asks)

theorem Declared.append {input : List δ} {asks more : List Nat}
    (first : Declared width limit number input asks)
    (second : Declared width limit number (input.drop asks.sum) more) :
    Declared width limit number input (asks ++ more) := by
  induction first with
  | nil => simpa using second
  | word _ ih =>
      rw [List.sum_cons, ← List.drop_drop] at second
      exact .word (ih second)
  | text bound _ ih =>
      rw [List.sum_cons, List.sum_cons, ← Nat.add_assoc, ← List.drop_drop] at second
      exact .text bound (ih second)

end Declared

end ExactReads
