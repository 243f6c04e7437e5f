import Mathlib.Data.List.Basic
import Mathlib.Data.List.Induction

/-!
# Runs of a labelled step relation

A run is listed by its moments: each state that was left, with the label of the step that left it.
Invariants are carried along runs, a run is cut at any of its moments, and a fact that holds since
a marked moment is carried from that moment on.
-/

namespace NixSeal
namespace Runs

variable {σ ε : Type} {step : σ → ε → σ → Prop} {start : σ}

/-- A state that a run left, and the label of the step. -/
structure Moment (σ ε : Type) where
  before : σ
  event : ε

/-- A run from a start to a state, with its moments in order. -/
inductive Run (step : σ → ε → σ → Prop) (start : σ) : List (Moment σ ε) → σ → Prop where
  | refl : Run step start [] start
  | snoc {trace : List (Moment σ ε)} {state next : σ} {event : ε} (run : Run step start trace state)
      (moves : step state event next) : Run step start (trace ++ [⟨state, event⟩]) next

/-- The steps that meet a condition. -/
abbrev Restricted (step : σ → ε → σ → Prop) (Good : Moment σ ε → Prop) (before : σ) (event : ε)
    (after : σ) : Prop :=
  step before event after ∧ Good ⟨before, event⟩

/-- The last marked moment of a trace stands before moments that all keep a condition. -/
def Since (mark stays : Moment σ ε → Prop) (trace : List (Moment σ ε)) : Prop :=
  ∃ earlier marked later, trace = earlier ++ marked :: later ∧ mark marked ∧
    ∀ moment ∈ later, stays moment

theorem since_marked {mark stays : Moment σ ε → Prop} (trace : List (Moment σ ε))
    {moment : Moment σ ε} (marked : mark moment) : Since mark stays (trace ++ [moment]) :=
  ⟨trace, moment, [], rfl, marked, by simp⟩

theorem Since.stay {mark stays : Moment σ ε → Prop} {trace : List (Moment σ ε)}
    (since : Since mark stays trace) {moment : Moment σ ε} (stay : stays moment) :
    Since mark stays (trace ++ [moment]) := by
  obtain ⟨earlier, marked, later, rfl, hmark, hlater⟩ := since
  refine ⟨earlier, marked, later ++ [moment], by simp, hmark, ?_⟩
  intro other member
  rcases List.mem_append.mp member with member | member
  · exact hlater other member
  · rw [List.mem_singleton.mp member]
    exact stay

namespace Run

/-- What the start has and every step keeps holds where a run ends. -/
theorem invariant {Holds : σ → Prop}
    (keeps : ∀ state event next, Holds state → step state event next → Holds next)
    (begins : Holds start) {trace : List (Moment σ ε)} {state : σ}
    (run : Run step start trace state) : Holds state := by
  induction run with
  | refl => exact begins
  | snoc _ moves ih => exact keeps _ _ _ ih moves

/-- An invariant of the runs whose moments all meet a condition. -/
theorem invariant_where {Holds : σ → Prop} {Good : Moment σ ε → Prop}
    (keeps : ∀ state event next, Good ⟨state, event⟩ → Holds state → step state event next →
      Holds next)
    (begins : Holds start) {trace : List (Moment σ ε)} {state : σ}
    (run : Run step start trace state) (good : ∀ moment ∈ trace, Good moment) : Holds state := by
  induction run with
  | refl => exact begins
  | snoc _ moves ih =>
      have earlier := ih fun moment member => good moment (List.mem_append_left _ member)
      exact keeps _ _ _ (good _ (by simp)) earlier moves

/-- An invariant of where a run is and of what was recorded of its moments. -/
theorem invariant_fold {ρ : Type} {record : ρ → Moment σ ε → ρ} {empty : ρ}
    {Good : Moment σ ε → Prop} (Holds : σ → ρ → Prop)
    (keeps : ∀ state event next past, Good ⟨state, event⟩ → Holds state past →
      step state event next → Holds next (record past ⟨state, event⟩))
    (begins : Holds start empty) {trace : List (Moment σ ε)} {state : σ}
    (run : Run step start trace state) (good : ∀ moment ∈ trace, Good moment) :
    Holds state (trace.foldl record empty) := by
  induction run with
  | refl => exact begins
  | snoc _ moves ih =>
      have earlier := ih fun moment member => good moment (List.mem_append_left _ member)
      rw [List.foldl_concat]
      exact keeps _ _ _ _ (good _ (by simp)) earlier moves

/-- A run of steps that all meet a condition. -/
theorem of_restricted {Good : Moment σ ε → Prop} {trace : List (Moment σ ε)} {state : σ}
    (run : Run (Restricted step Good) start trace state) :
    Run step start trace state ∧ ∀ moment ∈ trace, Good moment := by
  induction run with
  | refl => exact ⟨.refl, by simp⟩
  | snoc _ moves ih =>
      refine ⟨.snoc ih.1 moves.1, ?_⟩
      intro moment member
      rcases List.mem_append.mp member with member | member
      · exact ih.2 moment member
      · rw [List.mem_singleton.mp member]
        exact moves.2

theorem split {trace : List (Moment σ ε)} {state : σ} (run : Run step start trace state) :
    ∀ earlier later, trace = earlier ++ later →
      ∃ middle, Run step start earlier middle ∧ Run step middle later state := by
  induction run with
  | refl =>
      intro earlier later same
      obtain ⟨rfl, rfl⟩ := List.append_eq_nil_iff.mp same.symm
      exact ⟨start, .refl, .refl⟩
  | @snoc trace state next event run moves ih =>
      intro earlier later same
      rcases List.eq_nil_or_concat' later with rfl | ⟨front, last, rfl⟩
      · rw [List.append_nil] at same
        exact ⟨next, same ▸ .snoc run moves, .refl⟩
      · rw [← List.append_assoc] at same
        obtain ⟨rfl, hlast⟩ := List.append_inj' same rfl
        cases hlast
        obtain ⟨middle, first, second⟩ := ih earlier front rfl
        exact ⟨middle, first, .snoc second moves⟩

theorem of_nil {trace : List (Moment σ ε)} {state : σ} (run : Run step start trace state)
    (empty : trace = []) : state = start := by
  cases run with
  | refl => rfl
  | snoc => simp at empty

/-- The first moment of a run is its start. -/
theorem head {moment : Moment σ ε} {later : List (Moment σ ε)} {state : σ}
    (run : Run step start (moment :: later) state) :
    moment.before = start ∧ ∃ next, step start moment.event next ∧ Run step next later state := by
  obtain ⟨middle, first, second⟩ := run.split [moment] later rfl
  generalize single : [moment] = front at first
  cases first with
  | refl => simp at single
  | @snoc trace last next event front moves =>
      obtain ⟨empty, same⟩ := List.append_inj' ((List.nil_append [moment]).trans single) rfl
      cases same
      cases front.of_nil empty.symm
      exact ⟨rfl, middle, moves, second⟩

/-- A run passes through each of its moments and goes on from there. -/
theorem through {earlier later : List (Moment σ ε)} {moment : Moment σ ε} {state : σ}
    (run : Run step start (earlier ++ moment :: later) state) :
    Run step start earlier moment.before ∧
      ∃ next, step moment.before moment.event next ∧ Run step next later state := by
  obtain ⟨middle, first, second⟩ := run.split earlier (moment :: later) rfl
  obtain ⟨rfl, rest⟩ := second.head
  exact ⟨first, rest⟩

/-- What every step keeps holds at each moment of a run. -/
theorem moments {Holds : σ → Prop}
    (keeps : ∀ state event next, Holds state → step state event next → Holds next)
    (begins : Holds start) {trace : List (Moment σ ε)} {state : σ}
    (run : Run step start trace state) : ∀ moment ∈ trace, Holds moment.before := by
  intro moment member
  obtain ⟨earlier, later, rfl⟩ := List.append_of_mem member
  exact run.through.1.invariant keeps begins

/-- A fact that holds where it is marked, and is left only by steps that end what depends on it,
is known since a mark. -/
theorem since {Depends : σ → Prop} {mark stays : Moment σ ε → Prop} (begins : ¬ Depends start)
    (keeps : ∀ state event next, step state event next → Depends next →
      mark ⟨state, event⟩ ∨ Depends state ∧ stays ⟨state, event⟩)
    {trace : List (Moment σ ε)} {state : σ} (run : Run step start trace state)
    (depends : Depends state) : Since mark stays trace := by
  induction run with
  | refl => exact absurd depends begins
  | @snoc trace state next event _ moves ih =>
      rcases keeps state event next moves depends with marked | ⟨earlier, stay⟩
      · exact since_marked trace marked
      · exact (ih earlier).stay stay

end Run

end Runs
end NixSeal
