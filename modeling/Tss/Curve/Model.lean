import Mathlib.Data.ZMod.ValMinAbs
import Mathlib.Tactic.NormNum.Prime
import Mathlib.Tactic.ReduceModChar
import Tss.Curve.Secp256k1
import Tss.Lib.Lucas

/-!
# A model of the curve assumptions

Counting the points of secp256k1 is beyond this development, so the
assumptions collected in `Curve` are shown to be consistent on a curve with
the same equation and the same sizes, where the points can be written down:
over a field with two modulo three elements every `y` belongs to exactly one
`x`. The group is that of the scalars, and the scalar `k` is the point whose
`y` is the least absolute representative of `k`.
-/

namespace Tss.Secp256k1.Model

/-- `2 * 5^71 * 7^32 + 1`. -/
abbrev p : ℕ := 93548662794404043391079009350845769113491634527690621325746178627014160156251

/-- `351 * 2^247 + 1`. -/
abbrev n : ℕ := 79380904926363251159518390113377843079097196518827808550487523411674821296129

theorem prime_p : p.Prime := by
  apply prime_of_factors (2 : ZMod p) [(2, 1), (5, 71), (7, 32)]
  · norm_num
  · norm_num
  · norm_num
    reduce_mod_char
  · norm_num
    reduce_mod_char
    decide +kernel

theorem prime_n : n.Prime := by
  apply prime_of_factors (7 : ZMod n) [(2, 247), (3, 3), (13, 1)]
  · norm_num
  · norm_num
  · norm_num
    reduce_mod_char
  · norm_num
    reduce_mod_char
    decide +kernel

instance : Fact (Nat.Prime p) := ⟨prime_p⟩
instance : Fact (Nat.Prime n) := ⟨prime_n⟩

/-- The cube root, in a field of two modulo three elements. -/
def cubeRoot (a : ZMod p) : ZMod p := a ^ ((2 * p - 1) / 3)

theorem cubeRoot_pow (a : ZMod p) : cubeRoot a ^ 3 = a := by
  have hexp : (2 * p - 1) / 3 * 3 = p + (p - 1) := by norm_num
  have hsucc : p - 1 + 1 = p := by norm_num
  rw [cubeRoot, ← pow_mul, hexp, pow_add, ZMod.pow_card, ← pow_succ', hsucc, ZMod.pow_card]

/-- The `y`-coordinate of a scalar. -/
def yCoordinate (k : ZMod n) : ZMod p := (k.valMinAbs : ZMod p)

theorem natAbs_valMinAbs_lt (k : ZMod n) : 2 * k.valMinAbs.natAbs < p := by
  have hle := ZMod.natAbs_valMinAbs_le k
  have hlt : n < p := by norm_num
  omega

theorem yCoordinate_neg (k : ZMod n) : yCoordinate (-k) = -yCoordinate k := by
  have hodd : n % 2 = 1 := by norm_num
  have hhalf : 2 * k.val ≠ n := by omega
  rw [yCoordinate, ZMod.valMinAbs_neg_of_ne_half hhalf, Int.cast_neg, yCoordinate]

/-- The scalar with the given `y`-coordinate. -/
def scalarOfY (y : ZMod p) : ZMod n := (y.valMinAbs : ZMod n)

theorem scalarOfY_yCoordinate (k : ZMod n) : scalarOfY (yCoordinate k) = k := by
  have hmin : (yCoordinate k).valMinAbs = k.valMinAbs := by
    have hlt := natAbs_valMinAbs_lt k
    rw [yCoordinate, ZMod.valMinAbs_spec]
    refine ⟨rfl, ?_⟩
    constructor <;> omega
  rw [scalarOfY, hmin, ZMod.coe_valMinAbs]

/-- The coordinates of the point that stands for `k`. -/
def coordinatesOf (k : ZMod n) : Option (ZMod p × ZMod p) :=
  if k = 0 then none else some (cubeRoot (yCoordinate k ^ 2 - (7 : ℕ)), yCoordinate k)

theorem coordinatesOf_eq_none (k : ZMod n) : coordinatesOf k = none ↔ k = 0 := by
  rw [coordinatesOf]
  by_cases hk : k = 0 <;> simp [hk]

theorem coordinatesOf_eq_some {k : ZMod n} {x y : ZMod p} :
    coordinatesOf k = some (x, y) ↔
      k ≠ 0 ∧ x = cubeRoot (yCoordinate k ^ 2 - 7) ∧ y = yCoordinate k := by
  rw [coordinatesOf]
  by_cases hk : k = 0
  · simp [hk]
  · simp [hk, eq_comm]

theorem coordinatesOf_onCurve (k : ZMod n) (x y : ZMod p) (h : coordinatesOf k = some (x, y)) :
    y ^ 2 = x ^ 3 + 7 := by
  obtain ⟨-, hx, hy⟩ := coordinatesOf_eq_some.mp h
  rw [hx, hy, cubeRoot_pow, sub_add_cancel]

theorem coordinatesOf_neg (k : ZMod n) (x y : ZMod p) (h : coordinatesOf k = some (x, y)) :
    coordinatesOf (-k) = some (x, -y) := by
  obtain ⟨hk, hx, hy⟩ := coordinatesOf_eq_some.mp h
  rw [coordinatesOf_eq_some, yCoordinate_neg, neg_sq, hy]
  exact ⟨neg_ne_zero.mpr hk, hx, rfl⟩

/-- The point with the given coordinates. -/
def pointOf (x y : ZMod p) : Option (ZMod n) :=
  if coordinatesOf (scalarOfY y) = some (x, y) then some (scalarOfY y) else none

theorem pointOf_eq_some (x y : ZMod p) (k : ZMod n) :
    pointOf x y = some k ↔ coordinatesOf k = some (x, y) := by
  rw [pointOf]
  constructor
  · intro h
    split at h
    · cases h
      assumption
    · cases h
  · intro h
    obtain ⟨-, -, rfl⟩ := coordinatesOf_eq_some.mp h
    rw [scalarOfY_yCoordinate, if_pos h]

/-- The assumptions on the curve are consistent. -/
@[reducible] def curve : Curve where
  fieldModulus := p
  order := n
  prime_fieldModulus := prime_p
  prime_order := prime_n
  fieldModulus_mod_four := by norm_num
  order_lt := by norm_num
  fieldModulus_lt := by norm_num
  lt_two_mul_order := by norm_num
  Point := ZMod n
  generator := 1
  generator_ne_zero := one_ne_zero
  coordinates := coordinatesOf
  coordinates_eq_none := coordinatesOf_eq_none
  coordinates_onCurve := coordinatesOf_onCurve
  coordinates_neg := coordinatesOf_neg
  ofCoordinates := pointOf
  ofCoordinates_eq_some := pointOf_eq_some

theorem yCoordinate_one : yCoordinate 1 = 1 := by
  have hmin : (1 : ZMod n).valMinAbs = 1 := by
    rw [ZMod.valMinAbs_spec]
    refine ⟨Int.cast_one.symm, ?_⟩
    constructor <;> norm_num
  rw [yCoordinate, hmin, Int.cast_one]

/-- The generator of the model can be a nonce point: its `x` is not zero modulo the order. -/
theorem generator_x_ne_zero {x y : ZMod p} (h : coordinatesOf 1 = some (x, y)) :
    (x.val : ZMod n) ≠ 0 := by
  have hcurve := coordinatesOf_onCurve 1 x y h
  obtain ⟨-, -, rfl⟩ := coordinatesOf_eq_some.mp h
  rw [yCoordinate_one, one_pow] at hcurve
  intro hzero
  have hval : x.val = 0 ∨ x.val = n := by
    obtain ⟨c, hc⟩ := (ZMod.natCast_eq_zero_iff x.val n).mp hzero
    have hlt := ZMod.val_lt x
    have hp : p < n * 2 := by norm_num
    have hc2 : c < 2 := by
      by_contra hge
      have := Nat.mul_le_mul_left n (not_lt.mp hge)
      omega
    obtain rfl | rfl : c = 0 ∨ c = 1 := by omega
    · exact .inl (by rw [hc, mul_zero])
    · exact .inr (by rw [hc, mul_one])
  have hcube : ((x.val ^ 3 + 6 : ℕ) : ZMod p) = 0 := by
    rw [Nat.cast_add, Nat.cast_pow, ZMod.natCast_zmod_val]
    linear_combination -hcurve
  rw [ZMod.natCast_eq_zero_iff] at hcube
  obtain hval | hval := hval
  · rw [hval] at hcube
    revert hcube
    norm_num
  · rw [hval] at hcube
    revert hcube
    norm_num

end Tss.Secp256k1.Model
