import NixSeal.Lib.Fallible
import Mathlib.Data.List.Flatten

/-!
# Appending to a bounded output

An output is known by what has been written to it.  A program that only appends is described by
the text it appends and by the condition under which it accepts its input; whether the text still
fits is not its affair, since an output that is too long does not exist.
-/

namespace NixSeal

open Fallible

/-- Outputs that are determined by what they hold, and that hold every part of what they can hold. -/
class Sink (σ : Type) (α : outParam Type) where
  written : σ → List α
  written_injective : Function.Injective written
  exists_prefix : ∀ (final : σ) (front back : List α), written final = front ++ back →
    ∃ middle : σ, written middle = front

/-- An output without a bound. -/
instance {α : Type} : Sink (List α) α where
  written := id
  written_injective := Function.injective_id
  exists_prefix _ front _ _ := ⟨front, rfl⟩

namespace Sink

variable {σ α β ε : Type} [Sink σ α]

/-- A program appends a text when it accepts its input and the text fits. -/
def Appends (program : σ → Except ε σ) (accepted : Prop) (text : List α) : Prop :=
  ∀ start final, program start = .ok final ↔
    accepted ∧ written final = written start ++ text

variable {program next : σ → Except ε σ} {accepted also : Prop} {text more : List α}

theorem Appends.congr {same : Prop} {result : List α} (appends : Appends program accepted text)
    (conditions : accepted ↔ same) (texts : same → text = result) :
    Appends program same result := by
  intro start final
  rw [appends start final, conditions]
  exact and_congr_right fun holds => by rw [texts holds]

theorem Appends.nothing : Appends (Except.ok : σ → Except ε σ) True [] := by
  intro start final
  rw [List.append_nil, true_and, written_injective.eq_iff, Except.ok.injEq, eq_comm]

theorem Appends.refused {failures : σ → ε} (never : ¬accepted) :
    Appends (fun start => .error (failures start)) accepted text := by
  intro start final
  simp [never]

theorem Appends.bind (first : Appends program accepted text) (second : Appends next also more) :
    Appends (fun start => program start >>= next) (accepted ∧ also) (text ++ more) := by
  intro start final
  rw [bind_eq_ok, ← List.append_assoc]
  constructor
  · rintro ⟨middle, began, ended⟩
    obtain ⟨holds, middle_written⟩ := (first start middle).mp began
    obtain ⟨holds', final_written⟩ := (second middle final).mp ended
    exact ⟨⟨holds, holds'⟩, by rw [final_written, middle_written]⟩
  · rintro ⟨⟨holds, holds'⟩, final_written⟩
    obtain ⟨middle, middle_written⟩ := exists_prefix final _ _ final_written
    exact ⟨middle, (first start middle).mpr ⟨holds, middle_written⟩,
      (second middle final).mpr ⟨holds', by rw [final_written, middle_written]⟩⟩

theorem Appends.mapError {φ : Type} {rename : ε → φ} (appends : Appends program accepted text) :
    Appends (fun start => (program start).mapError rename) accepted text := by
  intro start final
  rw [mapError_eq_ok]
  exact appends start final

theorem Appends.guard {refused : Prop} [Decidable refused] {failure : ε}
    (appends : Appends program accepted text) :
    Appends (fun start => if refused then .error failure else program start)
      (¬refused ∧ accepted) text := by
  intro start final
  rw [guard_eq_ok, appends start final, and_assoc]

/-- A loop over parts that each append. -/
theorem Appends.foldlM {body : σ → β → Except ε σ} {parts : List β} {accepts : β → Prop}
    {render : β → List α}
    (each : ∀ part ∈ parts, Appends (fun start => body start part) (accepts part) (render part)) :
    Appends (fun start => parts.foldlM body start) (∀ part ∈ parts, accepts part)
      (parts.flatMap render) := by
  induction parts with
  | nil => exact Appends.nothing.congr (by simp) fun _ => rfl
  | cons part rest ih =>
      have later := ih fun other member => each other (by simp [member])
      simp only [List.foldlM_cons]
      exact ((each part (by simp)).bind later).congr (by simp) fun _ => (List.flatMap_cons ..).symm

end Sink

end NixSeal
