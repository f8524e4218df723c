import Mathlib.Init

/-!
# CoreTex.Lib.Runs

Properties of the states and of the steps of a run of a deterministic machine.

`Always.of_step` is the induction of an invariant over a run, `EachStep.of_always` reads a
condition on the steps off a property of the states they lead to.
-/

namespace CoreTex.Lib

variable {σ ε : Type} (step : σ → ε → σ)

/-- The property holds at the start and after every event. -/
def Always (P : σ → Prop) : σ → List ε → Prop
  | s, [] => P s
  | s, e :: events => P s ∧ Always P (step s e) events

/-- The condition holds of every state and the event taken in it. -/
def EachStep (C : σ → ε → Prop) : σ → List ε → Prop
  | _, [] => True
  | s, e :: events => C s e ∧ EachStep C (step s e) events

instance EachStep.decidable (C : σ → ε → Prop) [∀ s e, Decidable (C s e)] :
    (s : σ) → (events : List ε) → Decidable (EachStep step C s events)
  | _, [] => inferInstanceAs (Decidable True)
  | s, e :: events =>
    have := EachStep.decidable C (step s e) events
    inferInstanceAs (Decidable (C s e ∧ EachStep step C (step s e) events))

variable {step} {P Q : σ → Prop} {C D : σ → ε → Prop}

theorem Always.start {s : σ} {events : List ε} (h : Always step P s events) : P s := by
  cases events with
  | nil => exact h
  | cons e events => exact h.1

theorem Always.mono (hPQ : ∀ s, P s → Q s) {s : σ} {events : List ε}
    (h : Always step P s events) : Always step Q s events := by
  induction events generalizing s with
  | nil => exact hPQ s h
  | cons e events ih => exact ⟨hPQ s h.1, ih h.2⟩

theorem Always.and {s : σ} {events : List ε} (h : Always step P s events)
    (h' : Always step Q s events) : Always step (fun s => P s ∧ Q s) s events := by
  induction events generalizing s with
  | nil => exact ⟨h, h'⟩
  | cons e events ih => exact ⟨⟨h.1, h'.1⟩, ih h.2 h'.2⟩

theorem EachStep.and {s : σ} {events : List ε} (h : EachStep step C s events)
    (h' : EachStep step D s events) : EachStep step (fun s e => C s e ∧ D s e) s events := by
  induction events generalizing s with
  | nil => trivial
  | cons e events ih => exact ⟨⟨h.1, h'.1⟩, ih h.2 h'.2⟩

/-- **The invariant rule.** What a step under its condition preserves, a run preserves. -/
theorem Always.of_step (hstep : ∀ s e, P s → C s e → P (step s e)) {s : σ} {events : List ε}
    (hs : P s) (h : EachStep step C s events) : Always step P s events := by
  induction events generalizing s with
  | nil => exact hs
  | cons e events ih => exact ⟨hs, ih (hstep s e hs h.1) h.2⟩

/-- A condition that a step meets when it starts and ends well is met in a run that is always
well. -/
theorem EachStep.of_always (hstep : ∀ s e, P s → P (step s e) → C s e) {s : σ} {events : List ε}
    (h : Always step P s events) : EachStep step C s events := by
  induction events generalizing s with
  | nil => trivial
  | cons e events ih => exact ⟨hstep s e h.1 h.2.start, ih h.2⟩

end CoreTex.Lib
