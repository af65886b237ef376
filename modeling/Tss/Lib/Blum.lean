import Mathlib.FieldTheory.Finite.Basic
import Mathlib.NumberTheory.LegendreSymbol.JacobiSymbol
import Mathlib.Tactic.LinearCombination

/-!
# Products of two primes that are three modulo four

Modulo such a product `-1` is a square modulo neither prime. Together with a
unit `w` of Jacobi symbol `-1` it moves every unit into the squares in exactly
one way, and the squares have their fourth roots as a fixed power.
-/

namespace Tss.Blum

/-- `(-1)^a * w^b * y`. -/
def adjusted (w y : ℤ) (a b : Bool) : ℤ :=
  (if a then -1 else 1) * ((if b then w else 1) * y)

/-- The adjusted value is a square modulo both primes. -/
def IsAdjustment (p q : ℕ) (w y : ℤ) (a b : Bool) : Prop :=
  IsSquare (adjusted w y a b : ZMod p) ∧ IsSquare (adjusted w y a b : ZMod q)

theorem jacobiSym_emod_of_dvd {p n : ℕ} (h : p ∣ n) (a : ℤ) :
    jacobiSym (a % n) p = jacobiSym a p := by
  rw [jacobiSym.mod_left, Int.emod_emod_of_dvd a (by exact_mod_cast h), ← jacobiSym.mod_left]

/-- The symbol of an adjusted value. -/
theorem jacobiSym_adjusted {p : ℕ} (hp : p % 4 = 3) (w y : ℤ) (a b : Bool) :
    jacobiSym (adjusted w y a b) p =
      (if a then -1 else 1) * ((if b then jacobiSym w p else 1) * jacobiSym y p) := by
  have hneg : jacobiSym (-1) p = -1 := by
    rw [jacobiSym.at_neg_one (Nat.odd_iff.mpr (by omega)), ZMod.χ₄_nat_three_mod_four hp]
  rw [adjusted, jacobiSym.mul_left, jacobiSym.mul_left]
  cases a <;> cases b <;> simp [hneg, jacobiSym.one_left]

/-- Of a unit, the symbol tells whether it is a square. -/
theorem isSquare_iff_jacobiSym {p : ℕ} (hp : p.Prime) {x : ℤ} (hx : x.gcd p = 1) :
    IsSquare (x : ZMod p) ↔ jacobiSym x p = 1 := by
  have : Fact p.Prime := ⟨hp⟩
  have hne : (x : ZMod p) ≠ 0 := by
    intro hzero
    have hdvd := (ZMod.intCast_zmod_eq_zero_iff_dvd x p).mp hzero
    have hself : x.gcd p = p := by
      rw [Int.gcd_comm, Int.gcd_eq_natAbs_left hdvd, Int.natAbs_natCast]
    exact hp.one_lt.ne' (hself.symm.trans hx)
  rw [← jacobiSym.legendreSym.to_jacobiSym, legendreSym.eq_one_iff p hne]

theorem gcd_adjusted {n : ℕ} {w y : ℤ} (hw : w.gcd n = 1) (hy : y.gcd n = 1) (a b : Bool) :
    (adjusted w y a b).gcd n = 1 := by
  rw [← Int.isCoprime_iff_gcd_eq_one] at *
  have hwy := hw.mul_left hy
  cases a <;> cases b <;> simp [adjusted, hwy, hy, hwy.neg_left, hy.neg_left]

/-! ## Powers -/

/-- A unit to the power of the inverse of an exponent. -/
theorem pow_mul_modEq {n y e k : ℕ} (hy : y.Coprime n) (hk : e * k ≡ 1 [MOD n.totient]) :
    (y ^ e) ^ k ≡ y [MOD n] := by
  have horder : e * k ≡ 1 [MOD orderOf (ZMod.unitOfCoprime y hy)] :=
    hk.of_dvd (orderOf_dvd_of_pow_eq_one (ZMod.pow_totient _))
  have hunit := congrArg Units.val (pow_eq_pow_iff_modEq.mpr horder)
  rw [Units.val_pow_eq_pow_val, ZMod.coe_unitOfCoprime, pow_one, ZMod.coe_unitOfCoprime] at hunit
  rw [← pow_mul, ← ZMod.natCast_eq_natCast_iff, Nat.cast_pow]
  exact hunit

/-- The exponent of the square root of a square. -/
def rootExponent (p q : ℕ) : ℕ := ((p - 1) * (q - 1) + 4) / 8

theorem two_mul_rootExponent {p q : ℕ} (hp : p % 4 = 3) (hq : q % 4 = 3) :
    2 * rootExponent p q = p / 2 * (q / 2) + 1 := by
  obtain ⟨i, rfl⟩ : ∃ i, p = 4 * i + 3 := ⟨p / 4, by omega⟩
  obtain ⟨j, rfl⟩ : ∃ j, q = 4 * j + 3 := ⟨q / 4, by omega⟩
  have hsum : (4 * i + 3 - 1) * (4 * j + 3 - 1) + 4 = 8 * (2 * i * j + i + j + 1) := by
    rw [show 4 * i + 3 - 1 = 4 * i + 2 by omega, show 4 * j + 3 - 1 = 4 * j + 2 by omega]
    ring
  rw [rootExponent, hsum, Nat.mul_div_cancel_left _ (by norm_num),
    show (4 * i + 3) / 2 = 2 * i + 1 by omega, show (4 * j + 3) / 2 = 2 * j + 1 by omega]
  ring

/-- Modulo one of the primes, the exponent gives a square root. -/
theorem pow_rootExponent_modEq {p q : ℕ} (hprime : p.Prime) (hp : p % 4 = 3) (hq : q % 4 = 3)
    {t : ℕ} (ht : jacobiSym t p = 1) : t ^ (2 * rootExponent p q) ≡ t [MOD p] := by
  have : Fact p.Prime := ⟨hprime⟩
  have hhalf : (t : ZMod p) ^ (p / 2) = 1 := by
    have heq := legendreSym.eq_pow p t
    rw [jacobiSym.legendreSym.to_jacobiSym, ht] at heq
    push_cast at heq
    exact heq.symm
  rw [← ZMod.natCast_eq_natCast_iff, Nat.cast_pow, two_mul_rootExponent hp hq, pow_succ, pow_mul,
    hhalf, one_pow, one_mul]

section Primes

variable {p q : ℕ} (hp : p.Prime) (hq : q.Prime) (hp4 : p % 4 = 3) (hq4 : q % 4 = 3)
include hp hq hp4 hq4

/-- A square to the power of the square of the exponent is its fourth root. -/
theorem fourthRoot_modEq (hpq : p ≠ q) {t : ℕ} (htp : jacobiSym t p = 1)
    (htq : jacobiSym t q = 1) : (t ^ (rootExponent p q * rootExponent p q)) ^ 4 ≡ t [MOD p * q] := by
  have hroot : t ^ (2 * rootExponent p q) ≡ t [MOD p * q] := by
    rw [← Nat.modEq_and_modEq_iff_modEq_mul ((Nat.coprime_primes hp hq).mpr hpq)]
    have hcomm : rootExponent p q = rootExponent q p := by rw [rootExponent, mul_comm, rootExponent]
    exact ⟨pow_rootExponent_modEq hp hp4 hq4 htp, hcomm ▸ pow_rootExponent_modEq hq hq4 hp4 htq⟩
  calc (t ^ (rootExponent p q * rootExponent p q)) ^ 4
      = (t ^ (2 * rootExponent p q)) ^ (2 * rootExponent p q) := by
        rw [← pow_mul, ← pow_mul]
        congr 1
        ring
    _ ≡ t ^ (2 * rootExponent p q) [MOD p * q] := hroot.pow _
    _ ≡ t [MOD p * q] := hroot

/-- Of the four adjustments of a unit, exactly one is a square modulo both primes. -/
theorem exists_adjustment {w y : ℤ} (hw : jacobiSym w (p * q) = -1) (hwp : w.gcd p = 1)
    (hwq : w.gcd q = 1) (hyp : y.gcd p = 1) (hyq : y.gcd q = 1) :
    ∃ a b, IsAdjustment p q w y a b ∧
      ∀ a' b', IsAdjustment p q w y a' b' → a' = a ∧ b' = b := by
  have hsymbols : ∀ a b, IsAdjustment p q w y a b ↔
      (if a then -1 else 1) * ((if b then jacobiSym w p else 1) * jacobiSym y p) = 1 ∧
        (if a then -1 else 1) * ((if b then jacobiSym w q else 1) * jacobiSym y q) = 1 := by
    intro a b
    rw [IsAdjustment, isSquare_iff_jacobiSym hp (gcd_adjusted hwp hyp a b),
      isSquare_iff_jacobiSym hq (gcd_adjusted hwq hyq a b), jacobiSym_adjusted hp4,
      jacobiSym_adjusted hq4]
  rw [jacobiSym.mul_right' w hp.ne_zero hq.ne_zero] at hw
  simp only [hsymbols]
  -- sixteen sign patterns, of which the symbol of `w` excludes half
  rcases jacobiSym.eq_one_or_neg_one hwp with h1 | h1 <;>
    rcases jacobiSym.eq_one_or_neg_one hwq with h2 | h2 <;>
    rcases jacobiSym.eq_one_or_neg_one hyp with h3 | h3 <;>
    rcases jacobiSym.eq_one_or_neg_one hyq with h4 | h4 <;>
    rw [h1, h2] at hw <;> rw [h1, h2, h3, h4] <;> first | (exfalso; omega) | decide

end Primes

end Tss.Blum
