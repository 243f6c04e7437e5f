import NixSeal.Lib.Faulty

/-!
# Programs on a part of the state

A program that works on a part of a larger state.  However it ends, the part that it leaves is put
back.
-/

namespace Faulty
namespace Program

variable {L σ τ ε α γ : Type}

/-- Run a program on a part of the state. -/
def focus (part : σ → τ) (replace : τ → σ → σ) (program : Program L τ ε α) :
    Program L σ ε α where
  run verdict state :=
    match program verdict (part state) with
    | .ok value inner => .ok value (replace inner state)
    | .err error inner => .err error (replace inner state)
    | .killed inner => .killed (replace inner state)
  honest verdict state := by
    rcases program.honest verdict (part state) with
      ⟨label, progress, inner, killed, ended⟩ | ⟨same, lives⟩
    · exact .inl ⟨label, progress, replace inner state, killed, by simp only [ended]⟩
    · rw [← same]
      cases ended : program verdict (part state) with
      | ok value inner => exact .inr ⟨rfl, by simp⟩
      | err error inner => exact .inr ⟨rfl, by simp⟩
      | killed inner => exact absurd ended (lives inner)

variable {part : σ → τ} {replace : τ → σ → σ} {program : Program L τ ε α}

theorem Meets.focus {verdict : L → Verdict} {state : σ} {returns : α → σ → Prop}
    {raises : ε → σ → Prop} {stops : σ → Prop}
    (holds : program.Meets verdict (part state) (fun value inner => returns value (replace inner state))
      (fun error inner => raises error (replace inner state))
      fun inner => stops (replace inner state)) :
    (focus part replace program).Meets verdict state returns raises stops := by
  unfold Meets at holds ⊢
  unfold Program.focus
  cases ended : program verdict (part state) with
  | ok value inner => simpa [ended] using holds
  | err error inner => simpa [ended] using holds
  | killed inner => simpa [ended] using holds

theorem Keeps.focus {view : σ → γ}
    (kept : ∀ inner state, view (replace inner state) = view state) :
    (focus part replace program).Keeps view := by
  intro verdict state
  simp only [Program.focus]
  cases program verdict (part state) with
  | ok value inner => exact kept inner state
  | err error inner => exact kept inner state
  | killed inner => exact kept inner state

end Program
end Faulty
