import Tss.Lib.FMap

/-!
# Validations over unordered maps

A validator that ranges over a map and returns at the first bad entry
returns an error that depends on the iteration order. `Verdict` keeps
all the errors some order may return; the validator accepts when there
is none, which no longer depends on the order.
-/

namespace Tss

/-- The errors a validation may return; empty when it accepts. -/
abbrev Verdict (ε : Type) := Multiset ε

namespace Verdict

variable {ε α β : Type}

/-- `if cond { return err }`. -/
def failIf (c : Prop) [Decidable c] (e : ε) : Verdict ε := if c then {e} else 0

/-- `if err := v; err != nil { return err }; w`. -/
def andThen [DecidableEq ε] (v w : Verdict ε) : Verdict ε := if v = 0 then w else v

/-- A loop over a map that returns at the first entry `check` rejects. -/
def range (m : FMap α β) (check : α → β → Verdict ε) : Verdict ε :=
  m.entries.bind fun entry => check entry.1 entry.2

@[simp] theorem failIf_eq_zero {c : Prop} [Decidable c] {e : ε} : failIf c e = 0 ↔ ¬ c := by
  unfold failIf
  split <;> simp [*]

@[simp] theorem andThen_eq_zero [DecidableEq ε] {v w : Verdict ε} :
    v.andThen w = 0 ↔ v = 0 ∧ w = 0 := by
  unfold andThen
  split <;> simp [*]

@[simp] theorem range_eq_zero [DecidableEq α] {m : FMap α β} {check : α → β → Verdict ε} :
    range m check = 0 ↔ ∀ a b, m.lookup a = some b → check a b = 0 := by
  simp only [range, Multiset.eq_zero_iff_forall_notMem, Multiset.mem_bind, not_exists, not_and]
  constructor
  · intro h a b hab e he
    exact h e ⟨a, b⟩ (Finmap.lookup_eq_some_iff.mp hab) he
  · rintro h e ⟨a, b⟩ hmem he
    exact h a b (Finmap.lookup_eq_some_iff.mpr hmem) e he

end Verdict

end Tss
