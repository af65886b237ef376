import Mathlib.Tactic.Common

/-!
# Fallible code

A Go function that returns `(T, error)` is a computation in `Except`. A
guard `if bad { return err }` is `rejectIf`, and a loop that returns at the
first failure is `List.forM`. The lemmas say when such code succeeds.
-/

namespace Tss

variable {ε α β : Type}

/-- `if bad { return err }`. -/
def rejectIf (bad : Prop) [Decidable bad] (err : ε) : Except ε Unit :=
  if bad then .error err else .ok ()

namespace Fallible

@[simp] theorem rejectIf_eq_ok {bad : Prop} [Decidable bad] {err : ε} {u : Unit} :
    rejectIf bad err = .ok u ↔ ¬ bad := by
  unfold rejectIf
  split <;> simp [*]

theorem rejectIf_eq_error {bad : Prop} [Decidable bad] {err e : ε} :
    rejectIf bad err = .error e ↔ bad ∧ err = e := by
  unfold rejectIf
  split <;> simp [*]

theorem error_ne_ok {e : ε} {a : α} : Except.error e ≠ .ok a := by simp

variable {f : α → Except ε β}

/-- A computation succeeds when its steps do. -/
theorem bind_eq_ok {x : Except ε α} {b : β} :
    (x >>= f) = .ok b ↔ ∃ a, x = .ok a ∧ f a = .ok b := by
  cases x with
  | error e => simp [bind, Except.bind]
  | ok a => simp [bind, Except.bind]

/-- A result that is only wrapped. -/
theorem bind_pure_eq_ok {g : α → β} (hg : ∀ {a b}, g a = g b → a = b) {x : Except ε α} {a : α} :
    (x >>= fun a => pure (g a)) = .ok (g a) ↔ x = .ok a := by
  rw [bind_eq_ok]
  constructor
  · rintro ⟨b, hb, h⟩
    rw [hb, hg (Except.ok.inj h)]
  · intro h
    exact ⟨a, h, rfl⟩

theorem seq_eq_ok {x : Except ε Unit} {y : Except ε β} {b : β} :
    (x >>= fun _ => y) = .ok b ↔ x = .ok () ∧ y = .ok b := by
  rw [bind_eq_ok]
  constructor
  · rintro ⟨_, hx, hy⟩
    exact ⟨hx, hy⟩
  · rintro ⟨hx, hy⟩
    exact ⟨(), hx, hy⟩

/-- A computation fails when one of its steps does. -/
theorem bind_eq_error {x : Except ε α} {e : ε} :
    (x >>= f) = .error e ↔ x = .error e ∨ ∃ a, x = .ok a ∧ f a = .error e := by
  cases x with
  | error e' => simp [bind, Except.bind]
  | ok a => simp [bind, Except.bind]

@[simp] theorem ok_bind {a : α} : (.ok a >>= f : Except ε β) = f a := rfl

@[simp] theorem error_bind {e : ε} :
    (.error e >>= f : Except ε β) = .error e := rfl

variable {l : List α}

/-- A loop that stops at the first failure succeeds when every iteration does. -/
theorem forM_eq_ok {f : α → Except ε Unit} :
    l.forM f = .ok () ↔ ∀ a ∈ l, f a = .ok () := by
  induction l with
  | nil => simp [pure, Except.pure]
  | cons a l ih =>
    show (f a >>= fun _ => l.forM f) = _ ↔ _
    rw [seq_eq_ok, List.forall_mem_cons, ih]

/-- A loop that collects results succeeds when every iteration does; `g` names the
results. -/
theorem mapM_eq_ok {out : List β} (g : α → β) (hg : ∀ a b, f a = .ok b → b = g a) :
    l.mapM f = .ok out ↔ (∀ a ∈ l, f a = .ok (g a)) ∧ out = l.map g := by
  induction l generalizing out with
  | nil => simp [pure, Except.pure, eq_comm]
  | cons a l ih =>
    rw [List.mapM_cons, bind_eq_ok, List.forall_mem_cons]
    constructor
    · rintro ⟨b, hb, hrest⟩
      obtain ⟨bs, hbs, hout⟩ := bind_eq_ok.mp hrest
      obtain ⟨hall, rfl⟩ := ih.mp hbs
      obtain rfl := hg a b hb
      exact ⟨⟨hb, hall⟩, (Except.ok.inj hout).symm⟩
    · rintro ⟨⟨ha, hall⟩, rfl⟩
      exact ⟨g a, ha, bind_eq_ok.mpr ⟨l.map g, ih.mpr ⟨hall, rfl⟩, rfl⟩⟩

/-- A loop that succeeds has succeeded on every element. -/
theorem mapM_ok_mem {out : List β} (h : l.mapM f = .ok out) :
    ∀ a ∈ l, ∃ b ∈ out, f a = .ok b := by
  induction l generalizing out with
  | nil => simp
  | cons x l ih =>
    rw [List.mapM_cons] at h
    obtain ⟨b, hb, h⟩ := bind_eq_ok.mp h
    obtain ⟨rest, hrest, h⟩ := bind_eq_ok.mp h
    cases h
    intro a ha
    rcases List.mem_cons.mp ha with rfl | ha
    · exact ⟨b, List.mem_cons_self, hb⟩
    · obtain ⟨b', hmem, hb'⟩ := ih hrest a ha
      exact ⟨b', List.mem_cons_of_mem _ hmem, hb'⟩

/-- Every result of a loop that succeeds is the result of one of its elements. -/
theorem mapM_mem_ok {out : List β} (h : l.mapM f = .ok out) :
    ∀ b ∈ out, ∃ a ∈ l, f a = .ok b := by
  induction l generalizing out with
  | nil =>
    cases h
    simp
  | cons x l ih =>
    rw [List.mapM_cons] at h
    obtain ⟨y, hy, h⟩ := bind_eq_ok.mp h
    obtain ⟨rest, hrest, h⟩ := bind_eq_ok.mp h
    cases h
    intro b hb
    rcases List.mem_cons.mp hb with rfl | hb
    · exact ⟨x, List.mem_cons_self, hy⟩
    · obtain ⟨a, ha, hfa⟩ := ih hrest b hb
      exact ⟨a, List.mem_cons_of_mem _ ha, hfa⟩

/-- The results of a loop that succeeds, mapped back to the elements they are for. -/
theorem mapM_map_eq {out : List β} {g : β → α} (hg : ∀ a b, f a = .ok b → g b = a)
    (h : l.mapM f = .ok out) : out.map g = l := by
  induction l generalizing out with
  | nil =>
    cases h
    rfl
  | cons a l ih =>
    rw [List.mapM_cons] at h
    obtain ⟨b, hb, h⟩ := bind_eq_ok.mp h
    obtain ⟨rest, hrest, h⟩ := bind_eq_ok.mp h
    cases h
    rw [List.map_cons, hg a b hb, ih hrest]

/-- A loop whose iterations all succeed. -/
theorem mapM_of_ok {g : α → β} (h : ∀ a ∈ l, f a = .ok (g a)) : l.mapM f = .ok (l.map g) := by
  induction l with
  | nil => rfl
  | cons a l ih =>
    obtain ⟨ha, hl⟩ := List.forall_mem_cons.mp h
    rw [List.mapM_cons, ha, ih hl]
    rfl

/-- A loop over lookups that all succeed. -/
theorem mapM_eq_some {f : α → Option β} {g : α → β} (h : ∀ a ∈ l, f a = some (g a)) :
    l.mapM f = some (l.map g) := by
  induction l with
  | nil => rfl
  | cons a l ih =>
    obtain ⟨ha, hl⟩ := List.forall_mem_cons.mp h
    rw [List.mapM_cons, ha, ih hl]
    rfl

/-- A loop that collects results fails with the error of one of its iterations. -/
theorem mapM_eq_error {e : ε} (h : l.mapM f = .error e) :
    ∃ a ∈ l, f a = .error e := by
  induction l with
  | nil => cases h
  | cons a l ih =>
    rw [List.mapM_cons, bind_eq_error] at h
    obtain ha | ⟨b, -, h⟩ := h
    · exact ⟨a, List.mem_cons_self, ha⟩
    · obtain h | ⟨bs, -, h⟩ := bind_eq_error.mp h
      · obtain ⟨a', ha', hfail⟩ := ih h
        exact ⟨a', List.mem_cons_of_mem _ ha', hfail⟩
      · cases h

/-- A loop with an accumulator fails with the error of one of its iterations. -/
theorem foldlM_eq_error {f : β → α → Except ε β} {b : β} {e : ε} (h : l.foldlM f b = .error e) :
    ∃ a ∈ l, ∃ b', f b' a = .error e := by
  induction l generalizing b with
  | nil => cases h
  | cons a l ih =>
    rw [List.foldlM_cons, bind_eq_error] at h
    obtain ha | ⟨b', -, h⟩ := h
    · exact ⟨a, List.mem_cons_self, b, ha⟩
    · obtain ⟨a', ha', hfail⟩ := ih h
      exact ⟨a', List.mem_cons_of_mem _ ha', hfail⟩

@[simp] theorem mapError_ok {a : α} {g : ε → β} :
    (.ok a : Except ε α).mapError g = .ok a := rfl

theorem mapError_eq_error {x : Except ε α} {g : ε → β} {e : β} :
    x.mapError g = .error e ↔ ∃ e', x = .error e' ∧ g e' = e := by
  cases x <;> simp [Except.mapError]

theorem map_eq_ok {x : Except ε α} {g : α → β} {b : β} :
    x.map g = .ok b ↔ ∃ a, x = .ok a ∧ g a = b := by
  cases x <;> simp [Except.map]

/-- Wrapping the error of a computation changes nothing when it succeeds. -/
@[simp] theorem mapError_eq_ok {x : Except ε α} {g : ε → β} {a : α} :
    x.mapError g = .ok a ↔ x = .ok a := by
  cases x <;> simp [Except.mapError]

/-! ## Which errors a computation returns -/

/-- Every error the computation returns satisfies `P`. -/
def ErrorsIn (P : ε → Prop) (x : Except ε α) : Prop := ∀ e, x = .error e → P e

namespace ErrorsIn

variable {P : ε → Prop}

theorem ok (a : α) : ErrorsIn P (.ok a : Except ε α) := by
  intro e h
  cases h

theorem error {e : ε} (h : P e) : ErrorsIn P (.error e : Except ε α) := by
  intro e' he
  cases he
  exact h

theorem rejectIf {bad : Prop} [Decidable bad] {e : ε} (h : P e) :
    ErrorsIn P (rejectIf bad e) := by
  intro e' he
  obtain ⟨-, rfl⟩ := rejectIf_eq_error.mp he
  exact h

theorem rejectIf_of {bad : Prop} [Decidable bad] {e : ε} (h : bad → P e) :
    ErrorsIn P (Tss.rejectIf bad e) := by
  intro err herr
  obtain ⟨hbad, rfl⟩ := rejectIf_eq_error.mp herr
  exact h hbad

theorem bind {x : Except ε α} {f : α → Except ε β} (hx : ErrorsIn P x)
    (hf : ∀ a, x = .ok a → ErrorsIn P (f a)) : ErrorsIn P (x >>= f) := by
  intro e h
  obtain h | ⟨a, ha, h⟩ := bind_eq_error.mp h
  · exact hx e h
  · exact hf a ha e h

theorem guard {bad : Prop} [Decidable bad] {e : ε} {f : Unit → Except ε α} (h : P e)
    (hf : ErrorsIn P (f ())) : ErrorsIn P (Tss.rejectIf bad e >>= f) :=
  bind (rejectIf h) fun _ _ => hf

theorem mapError {ε' : Type} {x : Except ε' α} {g : ε' → ε} (h : ∀ e, x = .error e → P (g e)) :
    ErrorsIn P (x.mapError g) := by
  intro e he
  obtain ⟨e', hx, rfl⟩ := mapError_eq_error.mp he
  exact h e' hx

theorem mapM {l : List α} {f : α → Except ε β} (h : ∀ a ∈ l, ErrorsIn P (f a)) :
    ErrorsIn P (l.mapM f) := by
  intro e he
  obtain ⟨a, ha, hfail⟩ := mapM_eq_error he
  exact h a ha e hfail

theorem foldlM {l : List α} {f : β → α → Except ε β} {b : β}
    (h : ∀ a ∈ l, ∀ b, ErrorsIn P (f b a)) : ErrorsIn P (l.foldlM f b) := by
  intro e he
  obtain ⟨a, ha, b', hfail⟩ := foldlM_eq_error he
  exact h a ha b' e hfail

theorem forM {l : List α} {f : α → Except ε Unit} (h : ∀ a ∈ l, ErrorsIn P (f a)) :
    ErrorsIn P (l.forM f) := by
  induction l with
  | nil => exact ok ()
  | cons a l ih =>
    obtain ⟨ha, hl⟩ := List.forall_mem_cons.mp h
    exact bind ha fun _ _ => ih hl

theorem imp {Q : ε → Prop} {x : Except ε α} (hx : ErrorsIn P x) (h : ∀ e, P e → Q e) :
    ErrorsIn Q x :=
  fun e he => h e (hx e he)

end ErrorsIn

end Fallible

end Tss
