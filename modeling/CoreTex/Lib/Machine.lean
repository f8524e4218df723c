import Mathlib.Init

/-!
# CoreTex.Lib.Machine

Deterministic machines that answer every input: what a run answers, and bisimulations.
`outputs_eq` reduces the equality of two runs to one step.
-/

namespace CoreTex.Lib

variable {σ τ ι ο : Type}

/-- What a machine answers to a list of inputs. -/
def outputs (step : σ → ι → σ × ο) : σ → List ι → List ο
  | _, [] => []
  | s, i :: inputs => (step s i).2 :: outputs step (step s i).1 inputs

/-- Related states give the same answer to every input and stay related. -/
def Bisimulation (step : σ → ι → σ × ο) (step' : τ → ι → τ × ο) (R : σ → τ → Prop) : Prop :=
  ∀ s t, R s t → ∀ i, (step s i).2 = (step' t i).2 ∧ R (step s i).1 (step' t i).1

/-- Bisimilar states answer every run alike. -/
theorem Bisimulation.outputs_eq {step : σ → ι → σ × ο} {step' : τ → ι → τ × ο}
    {R : σ → τ → Prop} (h : Bisimulation step step' R) {s : σ} {t : τ} (hst : R s t)
    (inputs : List ι) : outputs step s inputs = outputs step' t inputs := by
  induction inputs generalizing s t with
  | nil => rfl
  | cons i inputs ih =>
      obtain ⟨hanswer, hnext⟩ := h s t hst i
      rw [outputs, outputs, hanswer, ih hnext]

end CoreTex.Lib
