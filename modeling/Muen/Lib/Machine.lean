import Mathlib.Data.List.Basic

/-!
# Machines and their runs

A machine has states and labelled steps; a step that is not enabled has no result. A run may be
restricted to steps that satisfy a side condition on the state they start from.
-/

namespace Muen.Lib

variable {σ α : Type}

/-- The states reached from an initial state by steps that meet the side condition. -/
inductive Reaches (step : σ → α → Option σ) (allowed : σ → α → Prop) (init : σ → Prop) : σ → Prop
  | start {s : σ} : init s → Reaches step allowed init s
  | next {s s' : σ} {a : α} : Reaches step allowed init s → allowed s a → step s a = some s' →
      Reaches step allowed init s'

/-- What holds initially and is kept by every step holds in every reached state. -/
lemma Reaches.invariant {step : σ → α → Option σ} {allowed : σ → α → Prop} {init : σ → Prop} {s : σ}
    (h : Reaches step allowed init s) (inv : σ → Prop) (hinit : ∀ s, init s → inv s)
    (hstep : ∀ s a s', inv s → allowed s a → step s a = some s' → inv s') : inv s := by
  induction h with
  | start hs => exact hinit _ hs
  | next _ ha hs ih => exact hstep _ _ _ ih ha hs

/-- The state after a sequence of steps. -/
def run (step : σ → α → Option σ) : σ → List α → Option σ
  | s, [] => some s
  | s, a :: as => (step s a).bind (fun s' => run step s' as)

/-- Every step of the sequence meets the side condition where it is made. -/
def allowedRun (step : σ → α → Option σ) (allowed : σ → α → Prop) [∀ s a, Decidable (allowed s a)] :
    σ → List α → Bool
  | _, [] => true
  | s, a :: as => allowed s a && ((step s a).all (fun s' => allowedRun step allowed s' as))

lemma Reaches.run {step : σ → α → Option σ} {allowed : σ → α → Prop} [∀ s a, Decidable (allowed s a)]
    {init : σ → Prop} {s s' : σ} {as : List α} (h : Reaches step allowed init s)
    (hall : allowedRun step allowed s as) (hrun : run step s as = some s') : Reaches step allowed init s' := by
  induction as generalizing s with
  | nil =>
    obtain rfl := Option.some.inj hrun
    exact h
  | cons a as ih =>
    cases hstep : step s a with
    | none => simp [Lib.run, hstep] at hrun
    | some s₁ =>
      simp only [allowedRun, hstep, Option.all_some, Bool.and_eq_true, decide_eq_true_eq] at hall
      simp only [Lib.run, hstep, Option.bind_some] at hrun
      exact ih (h.next hall.1 hstep) hall.2 hrun

end Muen.Lib
