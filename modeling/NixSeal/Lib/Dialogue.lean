import Mathlib.Logic.Function.Basic
import Mathlib.Logic.Relation

/-!
# Dialogues with a shared store

A dialogue reaches a store only by asking it, one question after another, and goes on with the
answers.  Many dialogues share a store: between two questions of one the others ask theirs, a
process is killed while it asks, or the store changes for reasons of its own.  What a dialogue
guarantees at a store that only grows between its questions, it guarantees in every pool of such
dialogues.
-/

namespace NixSeal

/-- A program that ends, or asks a question and goes on with the answer. -/
inductive Dialogue (κ : Type) (ρ : κ → Type) (ε α : Type) where
  | ended (result : Except ε α)
  | ask (question : κ) (next : ρ question → Dialogue κ ρ ε α)

namespace Dialogue

variable {κ : Type} {ρ : κ → Type} {ε α β σ ι : Type}

/-- What comes after a dialogue that returns. -/
protected def bind : Dialogue κ ρ ε α → (α → Dialogue κ ρ ε β) → Dialogue κ ρ ε β
  | ended (.error error), _ => ended (.error error)
  | ended (.ok value), after => after value
  | ask question next, after => ask question fun answer => (next answer).bind after

instance : Monad (Dialogue κ ρ ε) where
  pure value := ended (.ok value)
  bind := Dialogue.bind

/-- A computation that asks nothing. -/
def lift (result : Except ε α) : Dialogue κ ρ ε α := ended result

/-- One question. -/
def query (question : κ) : Dialogue κ ρ ε (ρ question) := ask question pure

@[simp]
theorem lift_ok_bind (value : α) (after : α → Dialogue κ ρ ε β) :
    (lift (.ok value) >>= after) = after value :=
  rfl

/-! ## Alone with a store -/

/-- A dialogue that has the store to itself. -/
def run (answer : (question : κ) → σ → ρ question × σ) :
    Dialogue κ ρ ε α → σ → Except ε α × σ
  | ended result, state => (result, state)
  | ask question next, state =>
      (next (answer question state).1).run answer (answer question state).2

section Alone

variable {answer : (question : κ) → σ → ρ question × σ} {state : σ}

theorem run_bind (dialogue : Dialogue κ ρ ε α) (after : α → Dialogue κ ρ ε β) (state : σ) :
    (dialogue >>= after).run answer state =
      match dialogue.run answer state with
      | (.ok value, middle) => (after value).run answer middle
      | (.error error, middle) => (.error error, middle) := by
  induction dialogue generalizing state with
  | ended result =>
      cases result with
      | error error => rfl
      | ok value => rfl
  | ask question next ih => exact ih _ _

theorem run_bind_ok {dialogue : Dialogue κ ρ ε α} {value : α} {middle : σ}
    (returned : dialogue.run answer state = (.ok value, middle)) (after : α → Dialogue κ ρ ε β) :
    (dialogue >>= after).run answer state = (after value).run answer middle := by
  rw [run_bind, returned]

@[simp]
theorem run_lift (result : Except ε α) :
    (lift result : Dialogue κ ρ ε α).run answer state = (result, state) :=
  rfl

theorem run_lift_bind {value : α} {result : Except ε α} (returned : result = .ok value)
    (after : α → Dialogue κ ρ ε β) :
    (lift result >>= after).run answer state = (after value).run answer state :=
  run_bind_ok (by rw [run_lift, returned]) after

end Alone

/-! ## In a pool -/

/-- How a shared store behaves. -/
structure Store (κ : Type) (ρ : κ → Type) (σ : Type) where
  /-- An answer to a question, with the store after it. -/
  answers : (question : κ) → σ → ρ question → σ → Prop
  /-- What a process leaves that is killed while it asks. -/
  leaves : κ → σ → σ → Prop
  /-- What others change. -/
  drifts : σ → σ → Prop

/-- Dialogues that share a store; the one of a killed process is gone. -/
structure Pool (κ : Type) (ρ : κ → Type) (ε α σ ι : Type) where
  talks : ι → Option (Dialogue κ ρ ε α)
  state : σ

/-- The steps of a pool. -/
inductive Step [DecidableEq ι] (S : Store κ ρ σ) : Pool κ ρ ε α σ ι → Pool κ ρ ε α σ ι → Prop where
  | asked {talks : ι → Option (Dialogue κ ρ ε α)} {state after : σ} {process : ι} {question : κ}
      {next : ρ question → Dialogue κ ρ ε α} {answer : ρ question}
      (asks : talks process = some (ask question next))
      (answered : S.answers question state answer after) :
      Step S ⟨talks, state⟩ ⟨Function.update talks process (some (next answer)), after⟩
  | killed {talks : ι → Option (Dialogue κ ρ ε α)} {state after : σ} {process : ι} {question : κ}
      {next : ρ question → Dialogue κ ρ ε α} (asks : talks process = some (ask question next))
      (left : S.leaves question state after) :
      Step S ⟨talks, state⟩ ⟨Function.update talks process none, after⟩
  | drifted {talks : ι → Option (Dialogue κ ρ ε α)} {state after : σ}
      (drifts : S.drifts state after) : Step S ⟨talks, state⟩ ⟨talks, after⟩

/-- However the store has grown when a question is asked, the question grows it further, and in the
end a condition holds. -/
def Guarantees (S : Store κ ρ σ) (grows : σ → σ → Prop) (post : Except ε α → σ → Prop) :
    Dialogue κ ρ ε α → σ → Prop
  | ended result, state => post result state
  | ask question next, state => ∀ later, grows state later →
      (∀ after, S.leaves question later after → grows later after) ∧
      ∀ answer after, S.answers question later answer after →
        grows later after ∧ (next answer).Guarantees S grows post after

section Guarantees

variable {S : Store κ ρ σ} {grows : σ → σ → Prop} {state later : σ}
  {post : Except ε α → σ → Prop}

theorem Guarantees.grow {dialogue : Dialogue κ ρ ε α}
    (trans : ∀ first second third, grows first second → grows second third → grows first third)
    (stable : ∀ result first second, post result first → grows first second → post result second)
    (guarantees : dialogue.Guarantees S grows post state) (grown : grows state later) :
    dialogue.Guarantees S grows post later := by
  cases dialogue with
  | ended result => exact stable _ _ _ guarantees grown
  | ask question next => exact fun after more => guarantees after (trans _ _ _ grown more)

theorem Guarantees.mono {dialogue : Dialogue κ ρ ε α} {weaker : Except ε α → σ → Prop}
    (guarantees : dialogue.Guarantees S grows post state)
    (implies : ∀ result state, post result state → weaker result state) :
    dialogue.Guarantees S grows weaker state := by
  induction dialogue generalizing state with
  | ended result => exact implies result state guarantees
  | ask question next ih =>
      intro later grown
      obtain ⟨left, answered⟩ := guarantees later grown
      refine ⟨left, fun answer after replies => ?_⟩
      obtain ⟨more, onward⟩ := answered answer after replies
      exact ⟨more, ih answer onward⟩

theorem Guarantees.bind {dialogue : Dialogue κ ρ ε β} {after : β → Dialogue κ ρ ε α}
    {mid : Except ε β → σ → Prop} (guarantees : dialogue.Guarantees S grows mid state)
    (returns : ∀ value state, mid (.ok value) state → (after value).Guarantees S grows post state)
    (fails : ∀ error state, mid (.error error) state → post (.error error) state) :
    (dialogue >>= after).Guarantees S grows post state := by
  induction dialogue generalizing state with
  | ended result =>
      cases result with
      | error error => exact fails _ _ guarantees
      | ok value => exact returns _ _ guarantees
  | ask question next ih =>
      intro later grown
      obtain ⟨left, answered⟩ := guarantees later grown
      refine ⟨left, fun answer after replies => ?_⟩
      obtain ⟨more, onward⟩ := answered answer after replies
      exact ⟨more, ih answer onward⟩

theorem Guarantees.lift_bind {result : Except ε β} {after : β → Dialogue κ ρ ε α}
    (returns : ∀ value, result = .ok value → (after value).Guarantees S grows post state)
    (fails : ∀ error, result = .error error → post (.error error) state) :
    (lift result >>= after).Guarantees S grows post state := by
  cases result with
  | error error => exact fails error rfl
  | ok value => exact returns value rfl

/-- A question, and what follows it. -/
theorem Guarantees.query_bind {question : κ} {after : ρ question → Dialogue κ ρ ε α}
    (asks : ∀ later, grows state later →
      (∀ left, S.leaves question later left → grows later left) ∧
      ∀ answer next, S.answers question later answer next →
        grows later next ∧ (after answer).Guarantees S grows post next) :
    (query question >>= after).Guarantees S grows post state :=
  asks

end Guarantees

section Pools

variable [DecidableEq ι] {S : Store κ ρ σ} {grows : σ → σ → Prop}
  {post : ι → Except ε α → σ → Prop} {before after : Pool κ ρ ε α σ ι}

/-- The store of a pool has grown since some state, and every dialogue guarantees its condition. -/
structure Pool.Guaranteed (S : Store κ ρ σ) (grows : σ → σ → Prop)
    (post : ι → Except ε α → σ → Prop) (start : σ) (pool : Pool κ ρ ε α σ ι) : Prop where
  grown : grows start pool.state
  talks : ∀ process dialogue, pool.talks process = some dialogue →
    dialogue.Guarantees S grows (post process) pool.state

/-- One dialogue goes on or is gone, while the store grows for the others. -/
theorem Pool.Guaranteed.move {start state later : σ} {talks : ι → Option (Dialogue κ ρ ε α)}
    {process : ι} {left : Option (Dialogue κ ρ ε α)}
    (trans : ∀ first second third, grows first second → grows second third → grows first third)
    (stable : ∀ process result first second, post process result first → grows first second →
      post process result second)
    (guaranteed : Pool.Guaranteed S grows post start ⟨talks, state⟩) (more : grows state later)
    (own : ∀ dialogue, left = some dialogue →
      dialogue.Guarantees S grows (post process) later) :
    Pool.Guaranteed S grows post start ⟨Function.update talks process left, later⟩ where
  grown := trans _ _ _ guaranteed.grown more
  talks := by
    intro other dialogue talking
    dsimp only at talking ⊢
    by_cases same : other = process
    · subst same
      rw [Function.update_self] at talking
      exact own dialogue talking
    · rw [Function.update_of_ne same] at talking
      exact (guaranteed.talks other dialogue talking).grow trans (stable other) more

/-- A step of one dialogue grows the store, which the others tolerate. -/
theorem Step.guaranteed {start : σ}
    (trans : ∀ first second third, grows first second → grows second third → grows first third)
    (refl : ∀ state, grows state state)
    (stable : ∀ process result first second, post process result first → grows first second →
      post process result second)
    (drifts : ∀ first second, S.drifts first second → grows first second)
    (moves : Step S before after) (guaranteed : before.Guaranteed S grows post start) :
    after.Guaranteed S grows post start := by
  cases moves with
  | @asked talks state after process question next answer asks answered =>
      obtain ⟨more, onward⟩ :=
        (guaranteed.talks process _ asks state (refl state)).2 answer after answered
      exact guaranteed.move trans stable more fun dialogue same => Option.some.inj same ▸ onward
  | @killed talks state after process question next asks left =>
      have more := (guaranteed.talks process _ asks state (refl state)).1 after left
      exact guaranteed.move trans stable more (by simp)
  | @drifted talks state after drift =>
      have more := drifts state after drift
      exact ⟨trans _ _ _ guaranteed.grown more, fun other dialogue talking =>
        (guaranteed.talks other dialogue talking).grow trans (stable other) more⟩

/-- In every run of a pool, the dialogues guarantee their conditions. -/
theorem Pool.guaranteed {start : σ}
    (trans : ∀ first second third, grows first second → grows second third → grows first third)
    (refl : ∀ state, grows state state)
    (stable : ∀ process result first second, post process result first → grows first second →
      post process result second)
    (drifts : ∀ first second, S.drifts first second → grows first second)
    (run : Relation.ReflTransGen (Step S) before after)
    (guaranteed : before.Guaranteed S grows post start) : after.Guaranteed S grows post start := by
  induction run with
  | refl => exact guaranteed
  | tail _ moves ih => exact moves.guaranteed trans refl stable drifts ih

/-- A dialogue that has the store to itself is one course of a pool. -/
theorem Pool.alone {answer : (question : κ) → σ → ρ question × σ}
    (answers : ∀ question state, S.answers question state (answer question state).1
      (answer question state).2) {talks : ι → Option (Dialogue κ ρ ε α)} {process : ι}
    {dialogue : Dialogue κ ρ ε α} (talking : talks process = some dialogue) (state : σ) :
    Relation.ReflTransGen (Step S) ⟨talks, state⟩
      ⟨Function.update talks process (some (ended (dialogue.run answer state).1)),
        (dialogue.run answer state).2⟩ := by
  induction dialogue generalizing talks state with
  | ended result =>
      have same : Function.update talks process (some (ended result)) = talks := by
        rw [← talking, Function.update_eq_self]
      rw [run, same]
  | ask question next ih =>
      have asked := Step.asked talking (answers question state)
      have onward := ih (answer question state).1
        (Function.update_self process (some (next (answer question state).1)) talks)
        (answer question state).2
      rw [Function.update_idem] at onward
      exact .head asked onward

end Pools

end Dialogue

end NixSeal
