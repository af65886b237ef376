import Mathlib.Algebra.Group.Hom.Defs

/-!
# Walks that add up what their steps add

A step takes a place and a label to a next place, with a weight and the
label it settles on. A walk along a list of labels adds the weights and
collects the labels; walks along two lists are the walks along their
concatenation.
-/

namespace Tss

variable {W K I T : Type} [AddMonoid T]

/-- `Walk step k labels k' t used`: from `k` along the labels to `k'`, with the weights adding up
to `t` and the labels `used` in place of those asked for. -/
inductive Walk (step : K → I → K → T → I → Prop) : K → List I → K → T → List I → Prop
  | nil (k : K) : Walk step k [] k 0 []
  | cons {k₁ k₂ k₃ : K} {i j : I} {labels used : List I} {t t' : T} (first : step k₁ i k₂ t j)
      (rest : Walk step k₂ labels k₃ t' used) : Walk step k₁ (i :: labels) k₃ (t + t') (j :: used)

namespace Walk

variable {step : K → I → K → T → I → Prop} {k k' k'' : K} {p q used : List I} {t : T}

theorem append {t₁ t₂ : T} {used₁ used₂ : List I} (hp : Walk step k p k' t₁ used₁)
    (hq : Walk step k' q k'' t₂ used₂) : Walk step k (p ++ q) k'' (t₁ + t₂) (used₁ ++ used₂) := by
  induction hp with
  | nil =>
    rw [zero_add]
    exact hq
  | cons first rest ih =>
    rw [add_assoc]
    exact .cons first (ih hq)

/-- A walk along a concatenation goes through the end of a walk along the first part. -/
theorem split (h : Walk step k (p ++ q) k'' t used) :
    ∃ k' t₁ t₂ used₁ used₂, Walk step k p k' t₁ used₁ ∧ Walk step k' q k'' t₂ used₂ ∧
      t = t₁ + t₂ ∧ used = used₁ ++ used₂ := by
  induction p generalizing k t used with
  | nil => exact ⟨k, 0, t, [], used, .nil k, h, (zero_add t).symm, rfl⟩
  | cons i p ih =>
    cases h with
    | cons first rest =>
      obtain ⟨k', t₁, t₂, used₁, used₂, hp, hq, rfl, rfl⟩ := ih rest
      exact ⟨k', _, t₂, _, used₂, .cons first hp, hq, (add_assoc _ _ _).symm, rfl⟩

/-- The end of a walk is its start moved by the weight, when every step is. -/
theorem displacement {M : Type} [AddMonoid M] (val : K → M) (φ : T →+ M)
    (hstep : ∀ k i k' t j, step k i k' t j → val k' = val k + φ t)
    (h : Walk step k p k' t used) : val k' = val k + φ t := by
  induction h with
  | nil => rw [map_zero, add_zero]
  | cons first rest ih => rw [ih, hstep _ _ _ _ _ first, map_add, add_assoc]

/-- A property of places that every step keeps holds at the end. -/
theorem inv {P : K → Prop} (hstep : ∀ k i k' t j, P k → step k i k' t j → P k')
    (h : Walk step k p k' t used) (hk : P k) : P k' := by
  induction h with
  | nil => exact hk
  | cons first rest ih => exact ih (hstep _ _ _ _ _ hk first)

end Walk

/-! ## Loops that walk -/

/-- A loop over a list that may fail; the step is told the position of its label. -/
def loop {W ε : Type} (step : W → Nat → I → Except ε W) : W → Nat → List I → Except ε W
  | w, _, [] => .ok w
  | w, i, label :: labels =>
    match step w i label with
    | .error err => .error err
    | .ok w => loop step w (i + 1) labels

/-- The variables of a loop: the place, the sum of the weights and the labels so far. -/
structure Accumulator (W K I T : Type) where
  place : W → K
  sum : W → T
  used : W → List I

/-- `w'` is `w` moved to `k`, with the weight and the labels added. -/
structure Accumulator.Moves (a : Accumulator W K I T) (w : W) (k : K) (t : T) (labels : List I)
    (w' : W) : Prop where
  place : a.place w' = k
  sum : a.sum w' = a.sum w + t
  used : a.used w' = a.used w ++ labels

section Loop

variable {W ε : Type} {step : W → Nat → I → Except ε W} {R : K → I → K → T → I → Prop}
  (a : Accumulator W K I T)

/-- A loop that succeeds has walked. -/
theorem walk_of_loop
    (hstep : ∀ w i label w', step w i label = .ok w' →
      ∃ t j, R (a.place w) label (a.place w') t j ∧ a.Moves w (a.place w') t [j] w')
    {w w' : W} {i : Nat} {labels : List I} (h : loop step w i labels = .ok w') :
    ∃ t used, Walk R (a.place w) labels (a.place w') t used ∧
      a.Moves w (a.place w') t used w' := by
  induction labels generalizing w i with
  | nil =>
    cases h
    exact ⟨0, [], .nil _, rfl, (add_zero _).symm, (List.append_nil _).symm⟩
  | cons label labels ih =>
    rw [loop] at h
    split at h
    · cases h
    · next w₁ hfirst =>
      obtain ⟨t, j, hR, hmove⟩ := hstep w i label w₁ hfirst
      obtain ⟨t', used, hwalk, hrest⟩ := ih h
      refine ⟨t + t', j :: used, .cons hR hwalk, rfl, ?_, ?_⟩
      · rw [hrest.sum, hmove.sum, add_assoc]
      · rw [hrest.used, hmove.used, List.append_assoc]
        rfl

/-- Where there is a walk, the loop succeeds along it. -/
theorem loop_of_walk
    (hstep : ∀ w i label k t j, R (a.place w) label k t j →
      ∃ w', step w i label = .ok w' ∧ a.Moves w k t [j] w')
    {w : W} {i : Nat} {labels used : List I} {k : K} {t : T}
    (h : Walk R (a.place w) labels k t used) :
    ∃ w', loop step w i labels = .ok w' ∧ a.Moves w k t used w' := by
  induction labels generalizing w i t used with
  | nil =>
    cases h
    exact ⟨w, rfl, rfl, (add_zero _).symm, (List.append_nil _).symm⟩
  | cons label labels ih =>
    cases h with
    | cons first rest =>
      obtain ⟨w₁, hfirst, hmove⟩ := hstep w i label _ _ _ first
      rw [← hmove.place] at rest
      obtain ⟨w', hloop, hrest⟩ := ih rest
      refine ⟨w', ?_, hrest.place, ?_, ?_⟩
      · rw [loop, hfirst]
        exact hloop
      · rw [hrest.sum, hmove.sum, add_assoc]
      · rw [hrest.used, hmove.used, List.append_assoc]
        rfl

end Loop

end Tss
