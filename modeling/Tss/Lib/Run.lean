import Mathlib.Tactic.Common

/-!
# Runs of a machine

A machine takes an input and gives an output and a new state. `final` is
the state a list of inputs leads to and `outputs` what the machine said
on the way. The rules are the inductions over a run: an invariant of
every step holds at the end (`final_inv`), a preorder every step respects
relates the two ends (`final_rel`) and also their outputs (`outputs_rel`), an invariant of the
state and of the outputs so far is kept (`outputs_inv`), and an output that spends what it
needs is given at most once (`countP_outputs_le_one`).
-/

namespace Tss.Run

variable {σ ι ο : Type} (step : σ → ι → ο × σ)

/-- The state after the inputs, first to last. -/
def final (s : σ) (inputs : List ι) : σ := inputs.foldl (fun s i => (step s i).2) s

/-- The outputs, first to last. -/
def outputs : σ → List ι → List ο
  | _, [] => []
  | s, i :: inputs => (step s i).1 :: outputs (step s i).2 inputs

@[simp] theorem final_nil (s : σ) : final step s [] = s := rfl

@[simp] theorem final_cons (s : σ) (i : ι) (inputs : List ι) :
    final step s (i :: inputs) = final step (step s i).2 inputs := rfl

theorem final_append (s : σ) (before after : List ι) :
    final step s (before ++ after) = final step (final step s before) after :=
  List.foldl_append

variable {step}

theorem final_inv (P : σ → Prop) (hstep : ∀ s i, P s → P (step s i).2) {s : σ} (h : P s)
    (inputs : List ι) : P (final step s inputs) := by
  induction inputs generalizing s with
  | nil => exact h
  | cons i inputs ih => exact ih (hstep s i h)

theorem final_rel (P : σ → Prop) (R : σ → σ → Prop)
    (hstep : ∀ s i, P s → P (step s i).2) (hrefl : ∀ s, R s s)
    (htrans : ∀ s t u, R s t → R t u → R s u)
    (hrel : ∀ s i, P s → R s (step s i).2) {s : σ} (h : P s) (inputs : List ι) :
    R s (final step s inputs) := by
  induction inputs generalizing s with
  | nil => exact hrefl s
  | cons i inputs ih => exact htrans _ _ _ (hrel s i h) (ih (hstep s i h))

/-- What holds between the ends of a run and its outputs: `R s os t` is built from the last step
to the first. -/
theorem outputs_rel (P : σ → Prop) (R : σ → List ο → σ → Prop)
    (hstep : ∀ s i, P s → P (step s i).2) (hnil : ∀ s, P s → R s [] s)
    (hcons : ∀ s i os t, P s → R (step s i).2 os t → R s ((step s i).1 :: os) t)
    {s : σ} (h : P s) (inputs : List ι) : R s (outputs step s inputs) (final step s inputs) := by
  induction inputs generalizing s with
  | nil => exact hnil s h
  | cons i inputs ih => exact hcons s i _ _ h (ih (hstep s i h))

section Along

variable (step) in
/-- Every step of the run meets `C` in the state it is taken in. -/
def Along (C : σ → ι → Prop) (s : σ) (inputs : List ι) : Prop :=
  ∀ before i after, inputs = before ++ i :: after → C (final step s before) i

variable {C : σ → ι → Prop}

theorem Along.head {s : σ} {i : ι} {inputs : List ι} (h : Along step C s (i :: inputs)) :
    C s i :=
  h [] i inputs rfl

theorem Along.tail {s : σ} {i : ι} {inputs : List ι} (h : Along step C s (i :: inputs)) :
    Along step C (step s i).2 inputs := by
  intro before j after hsplit
  exact h (i :: before) j after (by rw [hsplit]; rfl)

theorem along_nil (s : σ) : Along step C s [] := by
  intro before i after hsplit
  cases before <;> cases hsplit

theorem along_cons {s : σ} {i : ι} {inputs : List ι} :
    Along step C s (i :: inputs) ↔ C s i ∧ Along step C (step s i).2 inputs := by
  constructor
  · exact fun h => ⟨h.head, h.tail⟩
  · rintro ⟨hhead, htail⟩ before j after hsplit
    cases before with
    | nil =>
      cases hsplit
      exact hhead
    | cons k before =>
      cases hsplit
      exact htail before j after rfl

instance decidableAlong [∀ s i, Decidable (C s i)] :
    (s : σ) → (inputs : List ι) → Decidable (Along step C s inputs)
  | s, [] => .isTrue (along_nil s)
  | s, i :: inputs =>
    have := decidableAlong (step s i).2 inputs
    decidable_of_iff' _ along_cons

/-- An invariant of the state and of what the machine has said so far, kept by every step that
meets `C`. -/
theorem outputs_inv (P : List ο → σ → Prop)
    (hstep : ∀ os s i, P os s → C s i → P (os ++ [(step s i).1]) (step s i).2)
    {os : List ο} {s : σ} (h : P os s) {inputs : List ι} (hC : Along step C s inputs) :
    P (os ++ outputs step s inputs) (final step s inputs) := by
  induction inputs generalizing os s with
  | nil => simpa [outputs] using h
  | cons i inputs ih =>
    have hnext := ih (hstep os s i h hC.head) hC.tail
    simpa [outputs] using hnext

end Along

section OneShot

variable (P spent : σ → Prop) (hit : ο → Bool)
  (hstep : ∀ s i, P s → P (step s i).2)
  (hkeep : ∀ s i, P s → spent s → spent (step s i).2)
  (hhit : ∀ s i, P s → hit (step s i).1 = true → ¬ spent s ∧ spent (step s i).2)

include hstep hkeep hhit

theorem countP_outputs_of_spent {s : σ} (h : P s) (hs : spent s) (inputs : List ι) :
    (outputs step s inputs).countP hit = 0 := by
  induction inputs generalizing s with
  | nil => rfl
  | cons i inputs ih =>
    have hmiss : hit (step s i).1 = false := by
      by_contra hit'
      exact (hhit s i h (by simpa using hit')).1 hs
    simp [outputs, hmiss, ih (hstep s i h) (hkeep s i h hs)]

/-- A step that gives the output starts unspent and leaves the state spent, and a
spent state stays spent: the run gives the output at most once. -/
theorem countP_outputs_le_one {s : σ} (h : P s) (inputs : List ι) :
    (outputs step s inputs).countP hit ≤ 1 := by
  induction inputs generalizing s with
  | nil => simp [outputs]
  | cons i inputs ih =>
    by_cases hi : hit (step s i).1 = true
    · have hrest := countP_outputs_of_spent P spent hit hstep hkeep hhit (hstep s i h)
        (hhit s i h hi).2 inputs
      simp [outputs, hi, hrest]
    · simpa [outputs, hi] using ih (hstep s i h)

end OneShot

end Tss.Run
