import Mathlib.Tactic.Common

/-!
# Traces of a step relation

`R s os t` says that a system goes from `s` to `t` and puts out `os`. A trace
is a list of such steps with the outputs of all of them. What every step
preserves holds at the end of a trace (`Trace.inv`); what relates the outputs
so far to the state is preserved in the same way (`Trace.inv_outputs`).
-/

namespace Tss

variable {σ ο : Type}

/-- The steps of `R` from one state to another, with all they put out. -/
inductive Trace (R : σ → List ο → σ → Prop) : σ → List ο → σ → Prop
  | refl (s : σ) : Trace R s [] s
  | step {s t u : σ} {os os' : List ο} (first : R s os t) (rest : Trace R t os' u) :
      Trace R s (os ++ os') u

namespace Trace

variable {R : σ → List ο → σ → Prop} {s t u : σ} {os os' : List ο}

theorem single (h : R s os t) : Trace R s os t := by
  have h := Trace.step h (.refl t)
  rwa [List.append_nil] at h

theorem trans (h : Trace R s os t) (h' : Trace R t os' u) : Trace R s (os ++ os') u := by
  induction h with
  | refl => exact h'
  | step first _ ih =>
    rw [List.append_assoc]
    exact .step first (ih h')

/-- A trace after a step that puts nothing out. -/
theorem after (h : R s [] t) (h' : Trace R t os u) : Trace R s os u := Trace.step h h'

theorem inv {P : σ → Prop} (hstep : ∀ s os t, P s → R s os t → P t) (h : Trace R s os t)
    (hs : P s) : P t := by
  induction h with
  | refl => exact hs
  | step first _ ih => exact ih (hstep _ _ _ hs first)

/-- `P sent s` is about the outputs up to the state `s`. -/
theorem inv_outputs {P : List ο → σ → Prop}
    (hstep : ∀ sent s os t, P sent s → R s os t → P (sent ++ os) t) (h : Trace R s os t)
    {sent : List ο} (hs : P sent s) : P (sent ++ os) t := by
  induction h generalizing sent with
  | refl => rwa [List.append_nil]
  | step first _ ih =>
    rw [← List.append_assoc]
    exact ih (hstep _ _ _ _ hs first)

end Trace

end Tss
