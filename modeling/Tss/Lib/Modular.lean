import Mathlib.Data.Int.GCD
import Mathlib.Data.ZMod.Basic

/-!
# Modular arithmetic on numbers

Powers and inverses modulo a number, as a program computes them on big
integers, and what they are in the ring of residues.
-/

namespace Tss

/-- `b ^ e` modulo `m` by squaring; `fuel` is the number of bits of the exponent. -/
def expModAux (m : ℕ) : ℕ → ℕ → ℕ → ℕ
  | 0, _, _ => 1 % m
  | fuel + 1, b, e =>
    let half := expModAux m fuel (b * b % m) (e / 2)
    if e % 2 = 1 then b * half % m else half

/-- `b ^ e` modulo `m`. -/
def expMod (b e m : ℕ) : ℕ := expModAux m (e.log2 + 1) b e

/-- The number of bits of `n`. -/
def bitLen (n : ℕ) : ℕ := if n = 0 then 0 else n.log2 + 1

/-- The inverse of `a` modulo `m`, if there is one. -/
def modInverse (a m : ℕ) : Option ℕ :=
  if a.gcd m = 1 then some (a.gcdA m % m).toNat else none

theorem expModAux_eq (m : ℕ) {fuel b e : ℕ} (h : e < 2 ^ fuel) :
    expModAux m fuel b e = b ^ e % m := by
  induction fuel generalizing b e with
  | zero =>
    obtain rfl : e = 0 := by omega
    rfl
  | succ fuel ih =>
    have hhalf : e / 2 < 2 ^ fuel := by
      rw [pow_succ] at h
      omega
    have hsquare : (b * b % m) ^ (e / 2) % m = b ^ (2 * (e / 2)) % m := by
      rw [← Nat.pow_mod, ← pow_two, ← pow_mul]
    rw [expModAux, ih hhalf, hsquare]
    by_cases hodd : e % 2 = 1
    · have he : e = 2 * (e / 2) + 1 := by omega
      rw [if_pos hodd, Nat.mul_mod, Nat.mod_mod, ← Nat.mul_mod, ← pow_succ', ← he]
    · have he : e = 2 * (e / 2) := by omega
      rw [if_neg hodd, ← he]

theorem expMod_eq (b e m : ℕ) : expMod b e m = b ^ e % m := expModAux_eq m Nat.lt_log2_self

theorem expMod_lt {m : ℕ} (hm : 0 < m) (b e : ℕ) : expMod b e m < m := by
  rw [expMod_eq]
  exact Nat.mod_lt _ hm

@[simp] theorem natCast_expMod (b e m : ℕ) : ((expMod b e m : ℕ) : ZMod m) = (b : ZMod m) ^ e := by
  rw [expMod_eq, ZMod.natCast_mod, Nat.cast_pow]

theorem lt_bitLen {n k : ℕ} : k < bitLen n ↔ 2 ^ k ≤ n := by
  rw [bitLen]
  by_cases hn : n = 0
  · simp [hn]
  · rw [if_neg hn, Nat.lt_succ_iff, Nat.le_log2 hn]

theorem bitLen_mono {m n : ℕ} (h : m ≤ n) : bitLen m ≤ bitLen n := by
  by_contra hlt
  have hpow := lt_bitLen.mp (Nat.lt_of_not_le hlt)
  exact absurd (lt_bitLen.mpr (hpow.trans h)) (lt_irrefl _)

theorem modInverse_eq_none {a m : ℕ} : modInverse a m = none ↔ ¬ a.Coprime m := by
  rw [modInverse]
  by_cases h : a.gcd m = 1 <;> simp [h, Nat.Coprime]

/-- The inverse is reduced and is the inverse of the residue. -/
theorem modInverse_spec {a m : ℕ} (hm : 0 < m) (h : a.Coprime m) :
    ∃ b, modInverse a m = some b ∧ b < m ∧ (a : ZMod m) * b = 1 := by
  have hpos : (0 : ℤ) < m := by exact_mod_cast hm
  have hnonneg : 0 ≤ a.gcdA m % m := Int.emod_nonneg _ hpos.ne'
  have hlt : a.gcdA m % m < m := Int.emod_lt_of_pos _ hpos
  refine ⟨(a.gcdA m % m).toNat, if_pos h, by omega, ?_⟩
  have hbezout : ((a.gcd m : ℤ) : ZMod m) = ((a * a.gcdA m + m * a.gcdB m : ℤ) : ZMod m) :=
    congrArg _ (Nat.gcd_eq_gcd_ab a m)
  have hcast : (((a.gcdA m % m).toNat : ℕ) : ZMod m) = ((a.gcdA m : ℤ) : ZMod m) := by
    rw [← Int.cast_natCast, Int.toNat_of_nonneg hnonneg, ZMod.intCast_mod]
  rw [hcast]
  rw [h] at hbezout
  push_cast at hbezout
  rw [ZMod.natCast_self, zero_mul, add_zero] at hbezout
  exact hbezout.symm

end Tss
