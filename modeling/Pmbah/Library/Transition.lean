import Mathlib.Logic.Basic

/-!
# Runs of a partial step function

A system is a partial function from a state and an action to the next state.  Its
runs may be restricted to steps that meet a condition on the state they start from.
-/

namespace Pmbah.Library

variable {σ α τ β : Type} {step : σ → α → Option σ} {condition : σ → α → Prop}
  {first state last : σ}

/-- The states that a run leads to. -/
inductive Run (step : σ → α → Option σ) (condition : σ → α → Prop) : σ → σ → Prop where
  | refl (state : σ) : Run step condition state state
  | step {first state next : σ} {action : α} (run : Run step condition first state)
      (holds : condition state action) (taken : step state action = some next) :
      Run step condition first next

/-- Takes a list of steps, each meeting the condition. -/
def runAll (step : σ → α → Option σ) (condition : σ → α → Prop)
    [∀ state action, Decidable (condition state action)] : σ → List α → Option σ
  | state, [] => some state
  | state, action :: actions =>
      if condition state action then
        (step state action).bind fun next => runAll step condition next actions
      else none

namespace Run

theorem trans (h : Run step condition first state) (h' : Run step condition state last) :
    Run step condition first last := by
  induction h' with
  | refl => exact h
  | step _ holds taken ih => exact ih.step holds taken

theorem single {action : α} (holds : condition first action)
    (taken : step first action = some last) : Run step condition first last :=
  (Run.refl first).step holds taken

/-- What holds at first and is kept by every step holds at the end of a run. -/
theorem invariant {I : σ → Prop}
    (hstep : ∀ state action next, I state → condition state action →
      step state action = some next → I next)
    (run : Run step condition first last) (hfirst : I first) : I last := by
  induction run with
  | refl => exact hfirst
  | step _ holds taken ih => exact hstep _ _ _ ih holds taken

theorem mono {weaker : σ → α → Prop} (h : ∀ state action, condition state action →
    weaker state action) (run : Run step condition first last) : Run step weaker first last := by
  induction run with
  | refl => exact .refl _
  | step _ holds taken ih => exact ih.step (h _ _ holds) taken

/-- Runs of a system are runs of another one that follows each of its steps. -/
theorem simulate {follows : τ → β → Option τ} {allowed : τ → β → Prop} (view : σ → τ)
    (hstep : ∀ state action next, condition state action → step state action = some next →
      Run follows allowed (view state) (view next))
    (run : Run step condition first last) : Run follows allowed (view first) (view last) := by
  induction run with
  | refl => exact .refl _
  | step _ holds taken ih => exact ih.trans (hstep _ _ _ holds taken)

theorem of_runAll [∀ state action, Decidable (condition state action)] {actions : List α}
    (h : runAll step condition first actions = some last) : Run step condition first last := by
  induction actions generalizing first with
  | nil =>
      cases h
      exact .refl _
  | cons action actions ih =>
      rw [runAll] at h
      split at h
      · obtain ⟨next, hnext, hrest⟩ := Option.bind_eq_some_iff.1 h
        exact (single ‹_› hnext).trans (ih hrest)
      · cases h

end Run

end Pmbah.Library
