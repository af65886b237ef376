import Mathlib.FieldTheory.Finite.Basic
import Mathlib.NumberTheory.Basic
import Mathlib.Tactic.LinearCombination
import Mathlib.Tactic.Ring

/-!
# The units modulo `N²`

A unit modulo `N²` is written `(1 + N)^m * r^N`: the plaintext `m` matters
modulo `N`, and so does the randomness `r`. Multiplying units adds
plaintexts. When an exponent that is coprime to `N` kills the units modulo
`N`, every unit has such a form, and its plaintext is unique.
-/

namespace Tss.PaillierGroup

variable {N : ℕ}

/-- The residue of `N` squares to zero. -/
theorem natCast_sq (N : ℕ) : (N : ZMod (N ^ 2)) * N = 0 := by
  rw [← pow_two, ← Nat.cast_pow, ZMod.natCast_self]

/-- The unit `1 + N`. -/
def base (N : ℕ) : (ZMod (N ^ 2))ˣ where
  val := 1 + N
  inv := 1 - N
  val_inv := by linear_combination -natCast_sq N
  inv_val := by linear_combination -natCast_sq N

/-- `(1 + N)^m * r^N`. -/
def encrypt (m : ℤ) (r : (ZMod (N ^ 2))ˣ) : (ZMod (N ^ 2))ˣ := base N ^ m * r ^ N

/-- The plaintext of a unit is determined modulo `N`. -/
def PlaintextUnique (N : ℕ) : Prop :=
  ∀ (m m' : ℤ) (r r' : (ZMod (N ^ 2))ˣ), encrypt m r = encrypt m' r' → (N : ℤ) ∣ m - m'

/-! ## Powers of the base -/

theorem base_pow (m : ℕ) : ((base N ^ m : (ZMod (N ^ 2))ˣ) : ZMod (N ^ 2)) = 1 + m * N := by
  induction m with
  | zero => simp
  | succ m ih =>
    have hsucc : base N ^ (m + 1) = base N ^ m * base N := pow_succ (base N) m
    rw [hsucc, Units.val_mul, ih]
    show (1 + m * N : ZMod (N ^ 2)) * (1 + N) = _
    push_cast
    linear_combination (m : ZMod (N ^ 2)) * natCast_sq N

theorem base_zpow (m : ℤ) : ((base N ^ m : (ZMod (N ^ 2))ˣ) : ZMod (N ^ 2)) = 1 + m * N := by
  obtain ⟨n, rfl | rfl⟩ := m.eq_nat_or_neg
  · rw [zpow_natCast, base_pow, Int.cast_natCast]
  · have hinv : (base N ^ n)⁻¹ = base N ^ (-(n : ℤ)) := by rw [zpow_neg, zpow_natCast]
    have hmul : (1 + n * N : ZMod (N ^ 2)) * (1 + ((-(n : ℤ) : ℤ) : ZMod (N ^ 2)) * N) = 1 := by
      push_cast
      linear_combination (-(n : ZMod (N ^ 2)) ^ 2) * natCast_sq N
    rw [← hinv]
    exact Units.inv_eq_of_mul_eq_one_right (by rw [base_pow]; exact hmul)

theorem base_zpow_eq_one_iff (hN : 0 < N) {m : ℤ} : base N ^ m = 1 ↔ (N : ℤ) ∣ m := by
  have hcast : ((m * N : ℤ) : ZMod (N ^ 2)) = 0 ↔ (N : ℤ) ∣ m := by
    rw [ZMod.intCast_zmod_eq_zero_iff_dvd]
    push_cast
    rw [pow_two]
    exact mul_dvd_mul_iff_right (by exact_mod_cast hN.ne')
  rw [← hcast, ← Units.val_inj, base_zpow, Units.val_one]
  push_cast
  exact add_eq_left

theorem base_zpow_eq_iff (hN : 0 < N) {m m' : ℤ} : base N ^ m = base N ^ m' ↔ (N : ℤ) ∣ m - m' := by
  rw [← base_zpow_eq_one_iff hN, zpow_sub, mul_inv_eq_one]

/-- A unit that is one modulo `N` is a power of the base. -/
theorem exists_base_zpow {c : (ZMod (N ^ 2))ˣ} (h : (N : ZMod (N ^ 2)) ∣ c.val - 1) :
    ∃ u : ℕ, c = base N ^ u := by
  obtain ⟨t, ht⟩ := h
  by_cases hN : N = 0
  · subst hN
    refine ⟨0, Units.val_inj.mp ?_⟩
    rw [pow_zero, Units.val_one]
    rw [Nat.cast_zero, zero_mul] at ht
    exact sub_eq_zero.mp ht
  · have : NeZero (N ^ 2) := ⟨pow_ne_zero 2 hN⟩
    refine ⟨t.val, Units.val_inj.mp ?_⟩
    rw [base_pow, ZMod.natCast_zmod_val]
    linear_combination ht

/-! ## Encryption -/

theorem encrypt_mul (m m' : ℤ) (r r' : (ZMod (N ^ 2))ˣ) :
    encrypt m r * encrypt m' r' = encrypt (m + m') (r * r') := by
  rw [encrypt, encrypt, encrypt, zpow_add, mul_pow, mul_mul_mul_comm]

theorem encrypt_pow (m : ℤ) (r : (ZMod (N ^ 2))ˣ) (x : ℕ) :
    encrypt m r ^ x = encrypt (x * m) (r ^ x) := by
  rw [encrypt, encrypt, mul_pow, mul_comm (x : ℤ), zpow_mul, zpow_natCast, pow_right_comm]

theorem encrypt_zpow (m : ℤ) (r : (ZMod (N ^ 2))ˣ) (k : ℤ) :
    encrypt m r ^ k = encrypt (k * m) (r ^ k) := by
  rw [encrypt, encrypt, mul_zpow, mul_comm k, zpow_mul, ← zpow_natCast, ← zpow_natCast,
    zpow_comm r]

/-- Equal plaintexts modulo `N` encrypt alike. -/
theorem encrypt_congr (hN : 0 < N) {m m' : ℤ} (h : (N : ℤ) ∣ m - m') (r : (ZMod (N ^ 2))ˣ) :
    encrypt m r = encrypt m' r := by
  rw [encrypt, encrypt, (base_zpow_eq_iff hN).mpr h]

/-- The `N`-th power of a unit depends on its residue modulo `N` only. -/
theorem pow_eq_pow_of_dvd {r r' : (ZMod (N ^ 2))ˣ}
    (h : (N : ZMod (N ^ 2)) ∣ r.val - r'.val) : r ^ N = r' ^ N := by
  have hdvd := dvd_sub_pow_of_dvd_sub h 1
  rw [pow_one, ← Nat.cast_pow, ZMod.natCast_self, zero_dvd_iff, sub_eq_zero] at hdvd
  exact Units.val_inj.mp (by push_cast; exact hdvd)

/-! ## Exponents that kill the units modulo `N` -/

/-- Every unit to the power `k` is one modulo `N`. -/
def Kills (N k : ℕ) : Prop :=
  ∀ c : (ZMod (N ^ 2))ˣ, (N : ZMod (N ^ 2)) ∣ (c ^ k).val - 1

variable {k : ℕ}

theorem Kills.pow_mul_eq_one (h : Kills N k) (r : (ZMod (N ^ 2))ˣ) : (r ^ N) ^ k = 1 := by
  have hpow : (r ^ k) ^ N = (1 : (ZMod (N ^ 2))ˣ) ^ N := by
    apply pow_eq_pow_of_dvd
    rw [Units.val_one]
    exact h r
  rw [pow_right_comm, hpow, one_pow]

theorem Kills.encrypt_pow_eq (h : Kills N k) (m : ℤ) (r : (ZMod (N ^ 2))ˣ) :
    encrypt m r ^ k = base N ^ (m * k) := by
  rw [encrypt, mul_pow, h.pow_mul_eq_one, mul_one, zpow_mul, zpow_natCast]

/-- Plaintexts are unique when the exponent is invertible modulo `N`. -/
theorem Kills.plaintextUnique (h : Kills N k) (hN : 0 < N) (hcop : k.Coprime N) :
    PlaintextUnique N := by
  intro m m' r r' heq
  have hpow : base N ^ (m * k) = base N ^ (m' * k) := by
    rw [← h.encrypt_pow_eq m r, ← h.encrypt_pow_eq m' r', heq]
  rw [base_zpow_eq_iff hN, ← sub_mul] at hpow
  exact (Nat.isCoprime_iff_coprime.mpr hcop.symm).dvd_of_dvd_mul_right hpow

/-- The randomness is determined modulo `N` too. -/
theorem Kills.dvd_sub_of_pow_eq (h : Kills N k) (hcop : k.Coprime N) {r r' : (ZMod (N ^ 2))ˣ}
    (heq : r ^ N = r' ^ N) : (N : ZMod (N ^ 2)) ∣ r.val - r'.val := by
  have hN : (r * r'⁻¹) ^ N = 1 := by rw [mul_pow, heq, inv_pow, mul_inv_cancel]
  obtain ⟨u, hu⟩ := exists_base_zpow (h (r * r'⁻¹))
  -- the quotient is a power of its power `k`, as `k` and `N` are coprime
  have hbezout : (k : ℤ) * k.gcdA N + N * k.gcdB N = 1 := by
    rw [← Nat.gcd_eq_gcd_ab, hcop.gcd_eq_one, Nat.cast_one]
  have hquotient : r * r'⁻¹ = base N ^ (u * k.gcdA N : ℤ) := by
    calc r * r'⁻¹ = (r * r'⁻¹) ^ ((k : ℤ) * k.gcdA N + N * k.gcdB N) := by rw [hbezout, zpow_one]
      _ = ((r * r'⁻¹) ^ k) ^ k.gcdA N * ((r * r'⁻¹) ^ N) ^ k.gcdB N := by
        rw [zpow_add, zpow_mul, zpow_mul, zpow_natCast, zpow_natCast]
      _ = base N ^ (u * k.gcdA N : ℤ) := by
        rw [hN, one_zpow, mul_one, hu, ← zpow_natCast, ← zpow_mul]
  refine ⟨((u * k.gcdA N : ℤ) : ZMod (N ^ 2)) * r'.val, ?_⟩
  have hval : r.val = (1 + ((u * k.gcdA N : ℤ) : ZMod (N ^ 2)) * N) * r'.val := by
    rw [← base_zpow, ← hquotient, ← Units.val_mul, inv_mul_cancel_right]
  rw [hval]
  ring

/-- Residues below `N` are told apart modulo `N²`, up to multiples of `N`. -/
theorem natCast_injOn_lt {r r' : ℕ} (hr : r < N) (hr' : r' < N)
    (h : (N : ZMod (N ^ 2)) ∣ (r : ZMod (N ^ 2)) - r') : r = r' := by
  have hcast := map_dvd (ZMod.castHom (dvd_pow_self N two_ne_zero) (ZMod N)) h
  rw [map_natCast, ZMod.natCast_self, zero_dvd_iff, map_sub, map_natCast, map_natCast,
    sub_eq_zero, ZMod.natCast_eq_natCast_iff'] at hcast
  rwa [Nat.mod_eq_of_lt hr, Nat.mod_eq_of_lt hr'] at hcast

/-- A unit of which a power `k` is one, is the `N`-th power of any power `e` with
`e * N = 1` modulo `k`. -/
theorem pow_pow_eq_self {z : (ZMod (N ^ 2))ˣ} (hz : z ^ k = 1) {e : ℕ}
    (he : e * N ≡ 1 [MOD k]) : (z ^ e) ^ N = z := by
  rw [← pow_mul]
  have horder : e * N ≡ 1 [MOD orderOf z] := he.of_dvd (orderOf_dvd_of_pow_eq_one hz)
  rw [pow_eq_pow_iff_modEq.mpr horder, pow_one]

/-- What is left of a unit without its plaintext `u * mu` is killed by `k`, when `mu` is the
inverse of `k`. -/
theorem residual_pow_eq_one {c : (ZMod (N ^ 2))ˣ} {u mu : ℕ} (hN : 0 < N)
    (hu : c ^ k = base N ^ u) (hmu : k * mu ≡ 1 [MOD N]) :
    (c * (base N ^ (u * mu))⁻¹) ^ k = 1 := by
  have hdvd : (N : ℤ) ∣ (u : ℤ) - ((u * mu * k : ℕ) : ℤ) := by
    have h1 : (N : ℤ) ∣ 1 - ((k * mu : ℕ) : ℤ) := (Nat.modEq_iff_dvd.mp hmu)
    have h2 := h1.mul_left (u : ℤ)
    have heq : (u : ℤ) - ((u * mu * k : ℕ) : ℤ) = u * (1 - ((k * mu : ℕ) : ℤ)) := by
      push_cast
      ring
    rw [heq]
    exact h2
  have hbase : base N ^ (u : ℤ) = base N ^ ((u * mu * k : ℕ) : ℤ) := (base_zpow_eq_iff hN).mpr hdvd
  rw [zpow_natCast, zpow_natCast] at hbase
  rw [mul_pow, hu, inv_pow, ← pow_mul, hbase, mul_inv_cancel]

/-- The units modulo a product of two primes are killed by a common multiple of the
predecessors. -/
theorem kills_of_primes {p q : ℕ} (hp : p.Prime) (hq : q.Prime) (hne : p ≠ q)
    (hpk : p - 1 ∣ k) (hqk : q - 1 ∣ k) : Kills (p * q) k := by
  have hpos : 0 < p * q := Nat.mul_pos hp.pos hq.pos
  have : NeZero ((p * q) ^ 2) := ⟨(pow_pos hpos 2).ne'⟩
  intro c
  have hcop : (c : ZMod ((p * q) ^ 2)).val.Coprime (p * q) :=
    (ZMod.val_coe_unit_coprime c).coprime_dvd_right (dvd_pow_self _ two_ne_zero)
  -- Fermat modulo each of the primes
  have hfermat : ∀ {t : ℕ}, t.Prime → t - 1 ∣ k → (c : ZMod ((p * q) ^ 2)).val.Coprime t →
      (c : ZMod ((p * q) ^ 2)).val ^ k ≡ 1 [MOD t] := by
    intro t ht htk hct
    obtain ⟨j, rfl⟩ := htk
    have hone := Nat.ModEq.pow_totient hct
    rw [Nat.totient_prime ht] at hone
    rw [pow_mul]
    simpa using hone.pow j
  have hboth : (c : ZMod ((p * q) ^ 2)).val ^ k ≡ 1 [MOD p * q] := by
    rw [← Nat.modEq_and_modEq_iff_modEq_mul ((Nat.coprime_primes hp hq).mpr hne)]
    exact ⟨hfermat hp hpk hcop.coprime_mul_right_right, hfermat hq hqk hcop.coprime_mul_left_right⟩
  obtain ⟨t, ht⟩ := Nat.modEq_iff_dvd.mp hboth.symm
  have hval : ((c ^ k : (ZMod ((p * q) ^ 2))ˣ) : ZMod ((p * q) ^ 2)) =
      (((c : ZMod ((p * q) ^ 2)).val ^ k : ℕ) : ℤ) := by
    push_cast
    rw [ZMod.natCast_zmod_val]
  refine ⟨(t : ZMod ((p * q) ^ 2)), ?_⟩
  rw [hval, ← Int.cast_one, ← Int.cast_sub]
  rw [Nat.cast_one] at ht
  rw [ht]
  push_cast
  rfl

end Tss.PaillierGroup
