import Mathlib.Tactic.Common

/-!
# Procedures over a mutable receiver

A method of an imperative program reads and writes its receiver and
returns a result or an error. A write made BEFORE an error return stays:
nothing rolls it back. `Proc σ ε α` is that reading, with the receiver's
state on both outcomes, so that whether a failing call left the receiver
alone is a theorem about the body and not a consequence of the type.

`exec` runs a procedure. The `_ok` lemmas invert a successful run into
the guards it passed; they are the simp set the callers use. Failure
atomicity (`CleanAt`) is read off a body guard by guard: what only reads
(`ReadOnly`) cannot break it. `FailsAt` says which errors a body returns.
-/

namespace Tss

/-- A method body with receiver state `σ`, errors `ε` and result `α`. -/
abbrev Proc (σ ε α : Type) := ExceptT ε (StateM σ) α

namespace Proc

variable {σ ε α β : Type}

/-- Run a procedure from `s`: the outcome and the receiver left behind. -/
def exec (x : Proc σ ε α) (s : σ) : Except ε α × σ := StateT.run (ExceptT.run x) s

/-- `if cond { return err }`. -/
def throwIf (c : Prop) [Decidable c] (e : ε) : Proc σ ε Unit :=
  if c then throw e else pure ()

/-- `if err := f(); err != nil { return err }`. -/
def check : Option ε → Proc σ ε Unit
  | some e => throw e
  | none => pure ()

@[simp] theorem exec_pure (a : α) (s : σ) : exec (pure a : Proc σ ε α) s = (.ok a, s) := rfl

@[simp] theorem exec_throw (e : ε) (s : σ) :
    exec (throw e : Proc σ ε α) s = (.error e, s) := rfl

@[simp] theorem exec_get (s : σ) : exec (get : Proc σ ε σ) s = (.ok s, s) := rfl

@[simp] theorem exec_set (t s : σ) : exec (set t : Proc σ ε PUnit) s = (.ok ⟨⟩, t) := rfl

@[simp] theorem exec_modify (f : σ → σ) (s : σ) :
    exec (modify f : Proc σ ε PUnit) s = (.ok ⟨⟩, f s) := rfl

theorem exec_bind (x : Proc σ ε α) (f : α → Proc σ ε β) (s : σ) :
    exec (x >>= f) s = match exec x s with
      | (.ok a, t) => exec (f a) t
      | (.error e, t) => (.error e, t) := by
  simp only [exec, ExceptT.run_bind, StateT.run_bind]
  rcases StateT.run (ExceptT.run x) s with ⟨r, t⟩
  cases r <;> rfl

theorem exec_map (f : α → β) (x : Proc σ ε α) (s : σ) :
    exec (f <$> x) s = ((exec x s).1.map f, (exec x s).2) := by
  simp only [exec, ExceptT.run_map, StateT.run_map]
  rcases StateT.run (ExceptT.run x) s with ⟨r, t⟩
  cases r <;> rfl

theorem exec_throwIf (c : Prop) [Decidable c] (e : ε) (s : σ) :
    exec (throwIf c e : Proc σ ε Unit) s = (if c then .error e else .ok (), s) := by
  unfold throwIf
  split <;> rfl

theorem exec_check (err : Option ε) (s : σ) :
    exec (check err : Proc σ ε Unit) s =
      (match err with | some e => .error e | none => .ok (), s) := by
  cases err <;> rfl

/-- The same body with its error rewritten on the way out. -/
def mapError {ε' : Type} (f : ε → ε') (x : Proc σ ε α) : Proc σ ε' α := ExceptT.adapt f x

theorem exec_mapError {ε' : Type} (f : ε → ε') (x : Proc σ ε α) (s : σ) :
    exec (mapError f x) s = ((exec x s).1.mapError f, (exec x s).2) := rfl

/-- A body that works through a pointer into the receiver: it runs on the part `view`
shows, and what it leaves there, on either outcome, is written back by `put`. -/
def zoom {τ : Type} (view : σ → τ) (put : τ → σ → σ) (x : Proc τ ε α) : Proc σ ε α :=
  fun s => let (r, u) := exec x (view s); (r, put u s)

theorem exec_zoom {τ : Type} (view : σ → τ) (put : τ → σ → σ) (x : Proc τ ε α) (s : σ) :
    exec (zoom view put x) s = ((exec x (view s)).1, put (exec x (view s)).2 s) := rfl

/-- The outcome of a computation that does not touch the receiver. -/
def outcome : Except ε α → Proc σ ε α
  | .ok a => pure a
  | .error e => throw e

@[simp] theorem exec_outcome (x : Except ε α) (s : σ) :
    exec (outcome x : Proc σ ε α) s = (x, s) := by
  cases x <;> rfl

/-- Run a body and hand its error, if it fails, to the caller; its writes stay. -/
def attempt (x : Proc σ ε Unit) : Proc σ ε (Option ε) :=
  fun s => match exec x s with
    | (.ok _, t) => (.ok none, t)
    | (.error e, t) => (.ok (some e), t)

theorem exec_attempt (x : Proc σ ε Unit) (s : σ) :
    exec (attempt x) s = match exec x s with
      | (.ok _, t) => (.ok none, t)
      | (.error e, t) => (.ok (some e), t) := rfl

/-! ## Inverting a run that succeeded -/

variable {x : Proc σ ε α} {f : α → Proc σ ε β} {s : σ}

@[simp] theorem exec_bind_ok {u : σ} {b : β} :
    exec (x >>= f) s = (.ok b, u) ↔
      ∃ a t, exec x s = (.ok a, t) ∧ exec (f a) t = (.ok b, u) := by
  rw [exec_bind]
  rcases exec x s with ⟨_ | a, t⟩ <;> simp

@[simp] theorem exec_throwIf_ok {c : Prop} [Decidable c] {e : ε} {t : σ} {u : Unit} :
    exec (throwIf c e : Proc σ ε Unit) s = (.ok u, t) ↔ ¬ c ∧ s = t := by
  rw [exec_throwIf]
  split <;> simp [*]

@[simp] theorem exec_check_ok {err : Option ε} {t : σ} {u : Unit} :
    exec (check err : Proc σ ε Unit) s = (.ok u, t) ↔ err = none ∧ s = t := by
  cases err <;> simp [check]

@[simp] theorem exec_map_ok {f : α → β} {t : σ} {b : β} :
    exec (f <$> x) s = (.ok b, t) ↔ ∃ a, exec x s = (.ok a, t) ∧ f a = b := by
  rw [exec_map]
  rcases exec x s with ⟨_ | a, u⟩ <;> simp [Except.map]
  exact and_comm

@[simp] theorem exec_mapError_ok {ε' : Type} {f : ε → ε'} {t : σ} {a : α} :
    exec (mapError f x) s = (.ok a, t) ↔ exec x s = (.ok a, t) := by
  rw [exec_mapError]
  rcases exec x s with ⟨_ | a, u⟩ <;> simp [Except.mapError]

@[simp] theorem exec_ite_ok {c : Prop} [Decidable c] {y : Proc σ ε α} {t : σ} {a : α} :
    exec (if c then x else y) s = (.ok a, t) ↔
      (c ∧ exec x s = (.ok a, t)) ∨ (¬ c ∧ exec y s = (.ok a, t)) := by
  split <;> simp [*]

theorem exec_get_bind (f : σ → Proc σ ε β) (s : σ) : exec (get >>= f) s = exec (f s) s := by
  rw [exec_bind, exec_get]

theorem exec_modify_bind (g : σ → σ) (f : PUnit → Proc σ ε β) (s : σ) :
    exec (modify g >>= f) s = exec (f ⟨⟩) (g s) := by
  rw [exec_bind, exec_modify]

theorem exec_outcome_bind_ok {x : Except ε α} {u : σ} {b : β} :
    exec (outcome x >>= f) s = (.ok b, u) ↔ ∃ a, x = .ok a ∧ exec (f a) s = (.ok b, u) := by
  rw [exec_bind, exec_outcome]
  cases x <;> simp

theorem exec_throwIf_bind_ok {c : Prop} [Decidable c] {e : ε} {f : Unit → Proc σ ε β} {u : σ}
    {b : β} : exec (throwIf c e >>= f) s = (.ok b, u) ↔ ¬ c ∧ exec (f ()) s = (.ok b, u) := by
  rw [exec_bind, exec_throwIf]
  by_cases h : c <;> simp [h]

/-! ## Inverting a run that failed -/

@[simp] theorem exec_bind_error {u : σ} {e : ε} :
    exec (x >>= f) s = (.error e, u) ↔
      exec x s = (.error e, u) ∨
        ∃ a t, exec x s = (.ok a, t) ∧ exec (f a) t = (.error e, u) := by
  rw [exec_bind]
  rcases exec x s with ⟨_ | a, t⟩ <;> simp

@[simp] theorem exec_map_error {f : α → β} {t : σ} {e : ε} :
    exec (f <$> x) s = (.error e, t) ↔ exec x s = (.error e, t) := by
  rw [exec_map]
  rcases exec x s with ⟨_ | a, u⟩ <;> simp [Except.map]

@[simp] theorem exec_throwIf_error {c : Prop} [Decidable c] {e e' : ε} {t : σ} :
    exec (throwIf c e : Proc σ ε Unit) s = (.error e', t) ↔ c ∧ e = e' ∧ s = t := by
  rw [exec_throwIf]
  split <;> simp [*]

/-! ## Failure atomicity -/

/-- A failing run from `s` leaves the receiver as it was. -/
def CleanAt (x : Proc σ ε α) (s : σ) : Prop := ∀ e t, exec x s = (.error e, t) → t = s

/-- The body only reads its receiver. -/
def ReadOnly (x : Proc σ ε α) : Prop := ∀ s, (exec x s).2 = s

theorem ReadOnly.of_pure (a : α) : ReadOnly (pure a : Proc σ ε α) := fun _ => rfl

theorem ReadOnly.of_throw (e : ε) : ReadOnly (throw e : Proc σ ε α) := fun _ => rfl

theorem ReadOnly.of_get : ReadOnly (get : Proc σ ε σ) := fun _ => rfl

theorem ReadOnly.of_throwIf (c : Prop) [Decidable c] (e : ε) :
    ReadOnly (throwIf c e : Proc σ ε Unit) := fun s => by rw [exec_throwIf]

theorem ReadOnly.of_check (err : Option ε) : ReadOnly (check err : Proc σ ε Unit) :=
  fun s => by rw [exec_check]

theorem ReadOnly.bind (hx : ReadOnly x) (hf : ∀ a, ReadOnly (f a)) : ReadOnly (x >>= f) := by
  intro s
  have h := hx s
  rw [exec_bind]
  rcases hr : exec x s with ⟨_ | a, t⟩ <;> rw [hr] at h
  · exact h
  · exact (hf a t).trans h

@[simp] theorem cleanAt_pure (a : α) (s : σ) : CleanAt (pure a : Proc σ ε α) s := by
  simp [CleanAt]

@[simp] theorem cleanAt_throw (e : ε) (s : σ) : CleanAt (throw e : Proc σ ε α) s := by
  simp [CleanAt]

@[simp] theorem cleanAt_modify (f : σ → σ) (s : σ) :
    CleanAt (modify f : Proc σ ε PUnit) s := by
  simp [CleanAt]

/-- After a body that only reads, a bind is clean when the rest is. -/
theorem cleanAt_bind (hx : ReadOnly x) :
    CleanAt (x >>= f) s ↔ ∀ a, exec x s = (.ok a, s) → CleanAt (f a) s := by
  have h := hx s
  constructor
  · intro hc a ha e t ht
    exact hc e t (exec_bind_error.mpr (.inr ⟨a, s, ha, ht⟩))
  · intro hf e t ht
    rcases exec_bind_error.mp ht with hr | ⟨a, u, ha, hr⟩
    · rw [hr] at h
      exact h
    · rw [ha] at h
      obtain rfl : u = s := h
      exact hf a ha e t hr

@[simp] theorem cleanAt_get_bind (f : σ → Proc σ ε β) (s : σ) :
    CleanAt (get >>= f) s ↔ CleanAt (f s) s := by
  simp [cleanAt_bind .of_get]

@[simp] theorem cleanAt_check_bind (err : Option ε) (f : Unit → Proc σ ε β) (s : σ) :
    CleanAt (check err >>= f) s ↔ (err = none → CleanAt (f ()) s) := by
  simp only [cleanAt_bind (.of_check err), exec_check_ok, and_true]
  exact ⟨fun h => h (), fun h _ => h⟩

@[simp] theorem cleanAt_throwIf_bind (c : Prop) [Decidable c] (e : ε) (f : Unit → Proc σ ε β)
    (s : σ) : CleanAt (throwIf c e >>= f) s ↔ (¬ c → CleanAt (f ()) s) := by
  simp only [cleanAt_bind (.of_throwIf c e), exec_throwIf_ok, and_true]
  exact ⟨fun h => h (), fun h _ => h⟩

/-- After a write, the rest must not fail. -/
@[simp] theorem cleanAt_modify_bind (g : σ → σ) (f : PUnit → Proc σ ε β) (s : σ) :
    CleanAt (modify g >>= f) s ↔ ∀ e t, exec (f ⟨⟩) (g s) = (.error e, t) → t = s := by
  simp [CleanAt, exec_bind]

@[simp] theorem cleanAt_map (f : α → β) (x : Proc σ ε α) (s : σ) :
    CleanAt (f <$> x) s ↔ CleanAt x s := by
  simp [CleanAt, exec_map_error]

@[simp] theorem cleanAt_ite (c : Prop) [Decidable c] (x y : Proc σ ε α) (s : σ) :
    CleanAt (if c then x else y) s ↔ (c → CleanAt x s) ∧ (¬ c → CleanAt y s) := by
  split <;> simp [*]

theorem ReadOnly.clean (h : ReadOnly x) (s : σ) : CleanAt x s := by
  intro e t ht
  have := h s
  rw [ht] at this
  exact this

@[simp] theorem cleanAt_throwIf (c : Prop) [Decidable c] (e : ε) (s : σ) :
    CleanAt (throwIf c e : Proc σ ε Unit) s := (ReadOnly.of_throwIf c e).clean s

/-! ## What a run leaves, on either outcome -/

/-- Whether it fails or not, the run from `s` leaves a receiver that satisfies `Q`. -/
def Leaves (Q : σ → Prop) (x : Proc σ ε α) (s : σ) : Prop := Q (exec x s).2

section Leaves

variable {Q : σ → Prop}

@[simp] theorem leaves_pure (a : α) (s : σ) : Leaves Q (pure a : Proc σ ε α) s ↔ Q s := .rfl

@[simp] theorem leaves_throw (e : ε) (s : σ) : Leaves Q (throw e : Proc σ ε α) s ↔ Q s := .rfl

@[simp] theorem leaves_modify (g : σ → σ) (s : σ) :
    Leaves Q (modify g : Proc σ ε PUnit) s ↔ Q (g s) := .rfl

@[simp] theorem leaves_throwIf (c : Prop) [Decidable c] (e : ε) (s : σ) :
    Leaves Q (throwIf c e : Proc σ ε Unit) s ↔ Q s := by
  rw [Leaves, exec_throwIf]

@[simp] theorem leaves_get_bind (f : σ → Proc σ ε β) (s : σ) :
    Leaves Q (get >>= f) s ↔ Leaves Q (f s) s := by
  simp [Leaves, exec_bind]

@[simp] theorem leaves_modify_bind (g : σ → σ) (f : PUnit → Proc σ ε β) (s : σ) :
    Leaves Q (modify g >>= f) s ↔ Leaves Q (f ⟨⟩) (g s) := by
  simp [Leaves, exec_bind]

@[simp] theorem leaves_throwIf_bind (c : Prop) [Decidable c] (e : ε) (f : Unit → Proc σ ε β)
    (s : σ) :
    Leaves Q (throwIf c e >>= f) s ↔ (c → Q s) ∧ (¬ c → Leaves Q (f ()) s) := by
  unfold Leaves throwIf
  split <;> simp [*]

@[simp] theorem leaves_check_bind (err : Option ε) (f : Unit → Proc σ ε β) (s : σ) :
    Leaves Q (check err >>= f) s ↔ (err ≠ none → Q s) ∧ (err = none → Leaves Q (f ()) s) := by
  cases err <;> simp [Leaves, check]

end Leaves

/-! ## Which errors a run returns -/

/-- The run from `s` returns an error of the kind `P`. -/
def FailsAt (P : ε → Prop) (x : Proc σ ε α) (s : σ) : Prop :=
  ∃ e, (exec x s).1 = .error e ∧ P e

variable {P : ε → Prop}

@[simp] theorem failsAt_pure (a : α) (s : σ) : ¬ FailsAt P (pure a : Proc σ ε α) s := by
  simp [FailsAt]

@[simp] theorem failsAt_throw (e : ε) (s : σ) : FailsAt P (throw e : Proc σ ε α) s ↔ P e := by
  simp [FailsAt]

@[simp] theorem failsAt_modify (f : σ → σ) (s : σ) :
    ¬ FailsAt P (modify f : Proc σ ε PUnit) s := by
  simp [FailsAt]

@[simp] theorem failsAt_throwIf (c : Prop) [Decidable c] (e : ε) (s : σ) :
    FailsAt P (throwIf c e : Proc σ ε Unit) s ↔ c ∧ P e := by
  unfold throwIf
  split <;> simp [*]

theorem failsAt_bind (x : Proc σ ε α) (f : α → Proc σ ε β) (s : σ) :
    FailsAt P (x >>= f) s ↔
      FailsAt P x s ∨ ∃ a t, exec x s = (.ok a, t) ∧ FailsAt P (f a) t := by
  unfold FailsAt
  rw [exec_bind]
  rcases exec x s with ⟨_ | a, t⟩ <;> simp

@[simp] theorem failsAt_get_bind (f : σ → Proc σ ε β) (s : σ) :
    FailsAt P (get >>= f) s ↔ FailsAt P (f s) s := by
  simp [FailsAt, exec_bind]

@[simp] theorem failsAt_check_bind (err : Option ε) (f : Unit → Proc σ ε β) (s : σ) :
    FailsAt P (check err >>= f) s ↔
      (∃ e, err = some e ∧ P e) ∨ (err = none ∧ FailsAt P (f ()) s) := by
  cases err <;> simp [check]

@[simp] theorem failsAt_throwIf_bind (c : Prop) [Decidable c] (e : ε) (f : Unit → Proc σ ε β)
    (s : σ) :
    FailsAt P (throwIf c e >>= f) s ↔ (c ∧ P e) ∨ (¬ c ∧ FailsAt P (f ()) s) := by
  unfold throwIf
  split <;> simp [*]

@[simp] theorem failsAt_modify_bind (g : σ → σ) (f : PUnit → Proc σ ε β) (s : σ) :
    FailsAt P (modify g >>= f) s ↔ FailsAt P (f ⟨⟩) (g s) := by
  simp [FailsAt, exec_bind]

@[simp] theorem failsAt_map (f : α → β) (x : Proc σ ε α) (s : σ) :
    FailsAt P (f <$> x) s ↔ FailsAt P x s := by
  unfold FailsAt
  rw [exec_map]
  rcases exec x s with ⟨_ | a, t⟩ <;> simp [Except.map]

@[simp] theorem failsAt_ite (c : Prop) [Decidable c] (x y : Proc σ ε α) (s : σ) :
    FailsAt P (if c then x else y) s ↔ (c ∧ FailsAt P x s) ∨ (¬ c ∧ FailsAt P y s) := by
  split <;> simp [*]

/-! ## Pre- and postconditions -/

/-- The run from `s` fails as `E` says or succeeds as `Q` says. -/
def Spec (E : ε → σ → Prop) (Q : α → σ → Prop) (x : Proc σ ε α) (s : σ) : Prop :=
  match exec x s with
  | (.error e, t) => E e t
  | (.ok a, t) => Q a t

namespace Spec

variable {E : ε → σ → Prop} {Q : α → σ → Prop} {R : β → σ → Prop}

variable {s : σ}

theorem error {x : Proc σ ε α} {t : σ} {e : ε} (h : Spec E Q x s) (hexec : exec x s = (.error e, t)) :
    E e t := by
  rw [Spec, hexec] at h
  exact h

theorem ok {x : Proc σ ε α} {t : σ} {a : α} (h : Spec E Q x s) (hexec : exec x s = (.ok a, t)) :
    Q a t := by
  rw [Spec, hexec] at h
  exact h

theorem of_pure {a : α} (h : Q a s) : Spec E Q (pure a : Proc σ ε α) s := h

theorem of_throw {e : ε} (h : E e s) : Spec E Q (throw e : Proc σ ε α) s := h

theorem of_modify {Q : PUnit → σ → Prop} {f : σ → σ} (h : Q ⟨⟩ (f s)) :
    Spec E Q (modify f : Proc σ ε PUnit) s := h

theorem bind {x : Proc σ ε α} {f : α → Proc σ ε β} (hx : Spec E Q x s)
    (hf : ∀ a t, Q a t → Spec E R (f a) t) : Spec E R (x >>= f) s := by
  rw [Spec, exec_bind]
  rcases hr : exec x s with ⟨e | a, t⟩
  · exact hx.error hr
  · exact hf a t (hx.ok hr)

theorem get_bind {f : σ → Proc σ ε β} (hf : Spec E R (f s) s) :
    Spec E R (get >>= f) s := by
  rw [Spec, exec_bind, exec_get]
  exact hf

theorem modify_bind {g : σ → σ} {f : PUnit → Proc σ ε β} (hf : Spec E R (f ⟨⟩) (g s)) :
    Spec E R (modify g >>= f) s := by
  rw [Spec, exec_bind, exec_modify]
  exact hf

theorem outcome_bind {x : Except ε α} {f : α → Proc σ ε β} (hx : ∀ e, x = .error e → E e s)
    (hf : ∀ a, x = .ok a → Spec E R (f a) s) :
    Spec E R (outcome x >>= f) s := by
  rw [Spec, exec_bind, exec_outcome]
  cases x with
  | error e => exact hx e rfl
  | ok a => exact hf a rfl

theorem throwIf_bind {c : Prop} [Decidable c] {e : ε} {f : Unit → Proc σ ε β} (hc : c → E e s)
    (hf : ¬ c → Spec E R (f ()) s) : Spec E R (throwIf c e >>= f) s := by
  rw [Spec, exec_bind, exec_throwIf]
  by_cases h : c
  · rw [if_pos h]
    exact hc h
  · rw [if_neg h]
    exact hf h

theorem ite {c : Prop} [Decidable c] {x y : Proc σ ε α} (hx : c → Spec E Q x s)
    (hy : ¬ c → Spec E Q y s) : Spec E Q (if c then x else y) s := by
  split
  · exact hx ‹_›
  · exact hy ‹_›

theorem mapError {ε' : Type} {g : ε' → ε} {x : Proc σ ε' α} (h : Spec (fun e t => E (g e) t) Q x s) :
    Spec E Q (mapError g x) s := by
  rw [Spec, exec_mapError]
  rcases hr : exec x s with ⟨e | a, t⟩
  · exact h.error hr
  · exact h.ok hr

theorem imp {E' : ε → σ → Prop} {Q' : α → σ → Prop} {x : Proc σ ε α} (hx : Spec E Q x s)
    (he : ∀ e t, E e t → E' e t) (ha : ∀ a t, Q a t → Q' a t) :
    Spec E' Q' x s := by
  rw [Spec]
  rcases hr : exec x s with ⟨e | a, t⟩
  · exact he e t (hx.error hr)
  · exact ha a t (hx.ok hr)

end Spec

/-- The errors the run from `s` returns, and the state each leaves, are as `E` says. -/
abbrev ErrorsAt (E : ε → σ → Prop) (x : Proc σ ε α) (s : σ) : Prop :=
  Spec E (fun _ _ => True) x s

theorem ErrorsAt.imp {E E' : ε → σ → Prop} (hx : ErrorsAt E x s) (h : ∀ e t, E e t → E' e t) :
    ErrorsAt E' x s :=
  Spec.imp hx h fun _ _ => id

end Proc

end Tss
