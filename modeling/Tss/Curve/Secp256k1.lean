import Mathlib.FieldTheory.Finite.Basic
import Mathlib.Algebra.Module.Torsion.Field
import Mathlib.Algebra.BigOperators.Group.List.Basic
import Mathlib.Data.ZMod.Basic
import Tss.Lib.Bytes
import Tss.Lib.Fallible

/-!
# The secp256k1 group (`internal/curve/secp256k1`)

The prime-order group the CGGMP21 protocol computes in, with the parsing
and encoding of its scalars and points. `Curve` collects what is used of
the field and group arithmetic (generated code and complete formulas); the
encodings are translated from the source.

A `nil` point and the point at infinity are one value: every function
modelled here treats them alike.
-/

namespace Tss.Secp256k1

open Fallible

/-- The curve `y² = x³ + 7` over the field with `fieldModulus` elements, a group of
prime order `order`. -/
class Curve where
  fieldModulus : ℕ
  order : ℕ
  prime_fieldModulus : fieldModulus.Prime
  prime_order : order.Prime
  fieldModulus_mod_four : fieldModulus % 4 = 3
  order_lt : order < fieldModulus
  fieldModulus_lt : fieldModulus < 2 ^ 256
  /-- A 32-byte number exceeds the order by less than the order. -/
  lt_two_mul_order : 2 ^ 256 < 2 * order
  Point : Type
  [decidableEqPoint : DecidableEq Point]
  [addCommGroup : AddCommGroup Point]
  [module : Module (ZMod order) Point]
  generator : Point
  generator_ne_zero : generator ≠ 0
  /-- The affine coordinates of a finite point. -/
  coordinates : Point → Option (ZMod fieldModulus × ZMod fieldModulus)
  coordinates_eq_none : ∀ P, coordinates P = none ↔ P = 0
  coordinates_onCurve : ∀ P x y, coordinates P = some (x, y) → y ^ 2 = x ^ 3 + 7
  coordinates_neg : ∀ P x y, coordinates P = some (x, y) → coordinates (-P) = some (x, -y)
  /-- The point with the given coordinates, if there is one (`IsOnCurve`). -/
  ofCoordinates : ZMod fieldModulus → ZMod fieldModulus → Option Point
  ofCoordinates_eq_some : ∀ x y P, ofCoordinates x y = some P ↔ coordinates P = some (x, y)

export Curve (Point fieldModulus order generator coordinates ofCoordinates)

attribute [reducible, instance] Curve.decidableEqPoint Curve.addCommGroup Curve.module

def scalarSize : Nat := 32

def pubkeyLength : Nat := 33

theorem pow_scalarSize : 256 ^ scalarSize = 2 ^ 256 := by
  rw [scalarSize]
  norm_num

variable [Curve]

/-- `Scalar`: an integer modulo the subgroup order. -/
abbrev Scalar := ZMod order

abbrev FieldElement := ZMod fieldModulus

instance : Fact (Nat.Prime order) := ⟨Curve.prime_order⟩
instance : Fact (Nat.Prime fieldModulus) := ⟨Curve.prime_fieldModulus⟩

/-! ## Scalars -/

/-- `Scalar.Bytes`. -/
def scalarBytes (s : Scalar) : Bytes := beBytes scalarSize s.val

def scalarFromBytesAllowZero (b : Bytes) : Except String Scalar := do
  rejectIf (b.length ≠ scalarSize) "secp256k1 scalar must be 32 bytes"
  rejectIf (order ≤ beNat b) "secp256k1 scalar out of range"
  pure (beNat b : Scalar)

def scalarFromBytes (b : Bytes) : Except String Scalar := do
  rejectIf (b.length ≠ scalarSize) "secp256k1 scalar must be 32 bytes"
  rejectIf (beNat b = 0) "secp256k1 scalar is zero"
  rejectIf (order ≤ beNat b) "secp256k1 scalar out of range"
  pure (beNat b : Scalar)

/-- `mustScalarFromBytes`, of the big-endian bytes of a number below `2^256`. -/
def mustScalarFromBytes (n : Nat) : Scalar :=
  match scalarFromBytes (beBytes scalarSize n) with
  | .ok s => s
  | .error _ => 0

def scalarFromBigInt (x : ℤ) : Scalar := mustScalarFromBytes (x % order).toNat

/-- `ScalarFromBytesModOrder`: one subtraction reduces any 32-byte number. -/
def scalarFromBytesModOrder (b : Bytes) : Except String Scalar := do
  rejectIf (b.length ≠ scalarSize) "secp256k1 scalar input must be 32 bytes"
  pure (mustScalarFromBytes (if beNat b < order then beNat b else beNat b - order))

def scalarFromFieldElement (x : FieldElement) : Scalar :=
  mustScalarFromBytes (if x.val < order then x.val else x.val - order)

def scalarInvert (a : Scalar) : Except String Scalar := do
  rejectIf (a = 0) "zero scalar is not invertible"
  pure a⁻¹

/-- `IsLowS`: the lower half of the scalars. -/
def isLowS (s : Scalar) : Bool := s.val ≤ order / 2

/-- `NormalizeLowS`: the low representative, and whether it is the negation. -/
def normalizeLowS (s : Scalar) : Scalar × Bool := if isLowS s then (s, false) else (-s, true)

/-! ## Points -/

def scalarBaseMult (k : Scalar) : Point := k • generator

def addPoints (points : List Point) : Point := points.foldl (· + ·) 0

/-- The low bit of a field element. -/
def isOdd (y : FieldElement) : Bool := y.val % 2 = 1

/-- `FieldElement.Bytes`. -/
def fieldBytes (x : FieldElement) : Bytes := beBytes scalarSize x.val

def fieldElementFromBytes (b : Bytes) : Except String FieldElement := do
  rejectIf (b.length ≠ scalarSize) "secp256k1 field element must be 32 bytes"
  rejectIf (fieldModulus ≤ beNat b) "secp256k1 field element out of range"
  pure (beNat b : FieldElement)

/-- `fieldSqrtAddchain`: the candidate root of the field of `3` modulo `4` elements. -/
def fieldSqrt (a : FieldElement) : FieldElement := a ^ ((fieldModulus + 1) / 4)

/-- The root of the parity that the tag asks for. -/
def selectRoot (wantOdd : Bool) (y : FieldElement) : FieldElement :=
  if isOdd y ≠ wantOdd then -y else y

/-- `PointBytes`: canonical compressed form. -/
def pointBytes (P : Point) : Except String Bytes :=
  match coordinates P with
  | none => .error "invalid secp256k1 point"
  | some (x, y) => .ok ((if isOdd y then 0x03 else 0x02) :: fieldBytes x)

def pointFromBytes (b : Bytes) : Except String Point :=
  match b with
  | [] => .error "secp256k1 point must be compressed"
  | tag :: rest => do
    rejectIf (rest.length + 1 ≠ pubkeyLength ∨ (tag ≠ 0x02 ∧ tag ≠ 0x03))
      "secp256k1 point must be compressed"
    let x ← fieldElementFromBytes rest
    let y2 := x ^ 2 * x + 7
    let y := fieldSqrt y2
    rejectIf (y ^ 2 ≠ y2) "point is not on curve"
    match ofCoordinates x (selectRoot (tag == 0x03) y) with
    | none => .error "point is not on curve"
    | some P => .ok P

/-! ## Lemmas on scalars -/

theorem order_pos : 0 < (order : ℕ) := Curve.prime_order.pos

theorem order_lt_pow : order < 256 ^ scalarSize := by
  rw [pow_scalarSize]
  exact Curve.order_lt.trans Curve.fieldModulus_lt

theorem two_lt_order : 2 < order := by
  have h := Curve.lt_two_mul_order
  have hpow : 4 < 2 ^ 256 := by norm_num
  omega

theorem order_odd : order % 2 = 1 := by
  have hne : (order : ℕ) ≠ 2 := two_lt_order.ne'
  exact Nat.odd_iff.mp (Curve.prime_order.odd_of_ne_two hne)

theorem val_lt_pow (s : Scalar) : s.val < 256 ^ scalarSize := (ZMod.val_lt s).trans order_lt_pow

@[simp] theorem length_scalarBytes (s : Scalar) : (scalarBytes s).length = scalarSize :=
  length_beBytes _ _

theorem beNat_scalarBytes (s : Scalar) : beNat (scalarBytes s) = s.val :=
  beNat_beBytes (val_lt_pow s)

theorem scalarFromBytes_eq_ok {b : Bytes} {s : Scalar} :
    scalarFromBytes b = .ok s ↔ b = scalarBytes s ∧ s ≠ 0 := by
  simp only [scalarFromBytes, seq_eq_ok, rejectIf_eq_ok, not_not, not_le, pure, Except.pure,
    Except.ok.injEq]
  constructor
  · rintro ⟨hlength, hzero, hlt, rfl⟩
    have hval : ((beNat b : ℕ) : Scalar).val = beNat b := ZMod.val_natCast_of_lt hlt
    refine ⟨?_, fun h => hzero ?_⟩
    · rw [scalarBytes, hval, beBytes_beNat hlength]
    · rw [← hval, h, ZMod.val_zero]
  · rintro ⟨rfl, hne⟩
    rw [beNat_scalarBytes]
    exact ⟨length_scalarBytes s, fun h => hne ((ZMod.val_eq_zero s).mp h), ZMod.val_lt s,
      ZMod.natCast_zmod_val s⟩

/-- The canonical encodings are the 32-byte numbers below the order. -/
theorem scalarFromBytes_of_lt {b : Bytes} (hlength : b.length = scalarSize) (hpos : 0 < beNat b)
    (hlt : beNat b < order) : scalarFromBytes b = .ok (beNat b : Scalar) := by
  simp [scalarFromBytes, rejectIf, hlength, hpos.ne', not_le.mpr hlt, pure, Except.pure]

theorem scalarFromBytesAllowZero_eq_ok {b : Bytes} {s : Scalar} :
    scalarFromBytesAllowZero b = .ok s ↔ b = scalarBytes s := by
  simp only [scalarFromBytesAllowZero, seq_eq_ok, rejectIf_eq_ok, not_not, not_le, pure,
    Except.pure, Except.ok.injEq]
  constructor
  · rintro ⟨hlength, hlt, rfl⟩
    rw [scalarBytes, ZMod.val_natCast_of_lt hlt, beBytes_beNat hlength]
  · rintro rfl
    rw [beNat_scalarBytes]
    exact ⟨length_scalarBytes s, ZMod.val_lt s, ZMod.natCast_zmod_val s⟩

theorem scalarBytes_injective : Function.Injective (scalarBytes : Scalar → Bytes) := by
  intro a b h
  have hval := congrArg beNat h
  rw [beNat_scalarBytes, beNat_scalarBytes] at hval
  exact ZMod.val_injective _ hval

/-- A number below the order is its own residue. -/
theorem mustScalarFromBytes_of_lt {n : Nat} (h : n < order) : mustScalarFromBytes n = n := by
  have hlt : n < 256 ^ scalarSize := h.trans order_lt_pow
  by_cases hzero : n = 0
  · subst hzero
    have herr : scalarFromBytes (beBytes scalarSize 0) = .error "secp256k1 scalar is zero" := by
      simp [scalarFromBytes, beNat_beBytes hlt, rejectIf]
    rw [mustScalarFromBytes, herr, Nat.cast_zero]
  · have hval : ((n : ℕ) : Scalar).val = n := ZMod.val_natCast_of_lt h
    have hok : scalarFromBytes (beBytes scalarSize n) = .ok (n : Scalar) := by
      rw [scalarFromBytes_eq_ok, scalarBytes, hval]
      refine ⟨rfl, fun hcast => hzero ?_⟩
      rw [← hval, hcast, ZMod.val_zero]
    rw [mustScalarFromBytes, hok]

/-- One subtraction of the order reduces a number below its double. -/
theorem mustScalarFromBytes_sub {n : Nat} (h : n < 2 * order) :
    mustScalarFromBytes (if n < order then n else n - order) = n := by
  by_cases hlt : n < order
  · rw [if_pos hlt, mustScalarFromBytes_of_lt hlt]
  · have hle : order ≤ n := not_lt.mp hlt
    rw [if_neg hlt, mustScalarFromBytes_of_lt (by omega), Nat.cast_sub hle, ZMod.natCast_self,
      sub_zero]

theorem scalarFromBigInt_eq (x : ℤ) : scalarFromBigInt x = (x : Scalar) := by
  have hpos : (0 : ℤ) < order := by exact_mod_cast order_pos
  have hnonneg : 0 ≤ x % order := Int.emod_nonneg x hpos.ne'
  have hlt : (x % order).toNat < order := by
    have := Int.emod_lt_of_pos x hpos
    omega
  rw [scalarFromBigInt, mustScalarFromBytes_of_lt hlt, ← Int.cast_natCast, Int.toNat_of_nonneg hnonneg]
  exact ZMod.intCast_mod x order

theorem scalarFromBytesModOrder_eq_ok {b : Bytes} {s : Scalar} :
    scalarFromBytesModOrder b = .ok s ↔ b.length = scalarSize ∧ s = (beNat b : Scalar) := by
  simp only [scalarFromBytesModOrder, seq_eq_ok, rejectIf_eq_ok, not_not, pure, Except.pure,
    Except.ok.injEq]
  refine and_congr_right fun hlength => ?_
  have hlt : beNat b < 2 * order := by
    have := beNat_lt b
    rw [hlength, pow_scalarSize] at this
    exact this.trans Curve.lt_two_mul_order
  rw [mustScalarFromBytes_sub hlt, eq_comm]

theorem scalarFromFieldElement_eq (x : FieldElement) :
    scalarFromFieldElement x = (x.val : Scalar) :=
  mustScalarFromBytes_sub
    ((ZMod.val_lt x).trans (Curve.fieldModulus_lt.trans Curve.lt_two_mul_order))

theorem scalarInvert_eq_ok {a b : Scalar} : scalarInvert a = .ok b ↔ a ≠ 0 ∧ b = a⁻¹ := by
  simp only [scalarInvert, seq_eq_ok, rejectIf_eq_ok, pure, Except.pure, Except.ok.injEq]
  exact and_congr_right fun _ => eq_comm

/-- Exactly one of a non-zero scalar and its negation is low. -/
theorem isLowS_neg {s : Scalar} (hs : s ≠ 0) : isLowS (-s) = !isLowS s := by
  have hval : (-s).val = order - s.val := by rw [ZMod.neg_val, if_neg hs]
  have hlt := ZMod.val_lt s
  have hodd := order_odd
  rw [isLowS, isLowS, hval, Bool.eq_iff_iff]
  simp only [decide_eq_true_eq, Bool.not_eq_true', decide_eq_false_iff_not]
  omega

/-- Normalization returns a low scalar that is the argument up to sign. -/
theorem normalizeLowS_spec {s : Scalar} (hs : s ≠ 0) :
    isLowS (normalizeLowS s).1 = true ∧
      (normalizeLowS s).1 = if (normalizeLowS s).2 then -s else s := by
  by_cases h : isLowS s
  · simp [normalizeLowS, h]
  · simp [normalizeLowS, h, isLowS_neg hs]

/-! ## Lemmas on points -/

theorem addPoints_eq_sum (points : List Point) : addPoints points = points.sum := by
  rw [addPoints, List.sum_eq_foldl]

theorem scalarBaseMult_injective : Function.Injective (scalarBaseMult : Scalar → Point) :=
  smul_left_injective Scalar Curve.generator_ne_zero

theorem coordinates_ne_none {P : Point} (hP : P ≠ 0) : ∃ x y, coordinates P = some (x, y) := by
  cases h : coordinates P with
  | none => exact absurd ((Curve.coordinates_eq_none P).mp h) hP
  | some xy => exact ⟨xy.1, xy.2, rfl⟩

theorem coordinates_injective {P Q : Point} {x y : FieldElement}
    (hP : coordinates P = some (x, y)) (hQ : coordinates Q = some (x, y)) : P = Q := by
  rw [← Curve.ofCoordinates_eq_some] at hP hQ
  exact Option.some.inj (hP.symm.trans hQ)

/-- No point has order two. -/
theorem coordinates_y_ne_zero {P : Point} {x y : FieldElement}
    (hP : coordinates P = some (x, y)) : y ≠ 0 := by
  rintro rfl
  have hneg := Curve.coordinates_neg P x 0 hP
  rw [neg_zero] at hneg
  have heq : P = -P := coordinates_injective hP hneg
  have htwo : (2 : Scalar) • P = 0 := by
    rw [two_smul]
    exact add_eq_zero_iff_eq_neg.mpr heq
  have hne : (2 : Scalar) ≠ 0 := by
    intro h
    have hdvd := (ZMod.natCast_eq_zero_iff 2 order).mp (by exact_mod_cast h)
    exact absurd (Nat.le_of_dvd (by omega) hdvd) (not_le.mpr two_lt_order)
  have hzero : P = 0 := (smul_eq_zero.mp htwo).resolve_left hne
  rw [(Curve.coordinates_eq_none P).mpr hzero] at hP
  cases hP

theorem fieldModulus_odd : fieldModulus % 2 = 1 := by
  have := Curve.fieldModulus_mod_four
  omega

/-- The two roots differ in parity. -/
theorem isOdd_neg {y : FieldElement} (hy : y ≠ 0) : isOdd (-y) = !isOdd y := by
  have hval : (-y).val = fieldModulus - y.val := by rw [ZMod.neg_val, if_neg hy]
  have hlt := ZMod.val_lt y
  have hodd := fieldModulus_odd
  rw [isOdd, isOdd, hval, Bool.eq_iff_iff]
  simp only [decide_eq_true_eq, Bool.not_eq_true', decide_eq_false_iff_not]
  omega

/-- The candidate root of a square is a root. -/
theorem fieldSqrt_sq (y : FieldElement) : fieldSqrt (y ^ 2) ^ 2 = y ^ 2 := by
  have hexp : 2 * ((fieldModulus + 1) / 4 * 2) = fieldModulus + 1 := by
    have := Curve.fieldModulus_mod_four
    omega
  rw [fieldSqrt, ← pow_mul, ← pow_mul, hexp, pow_succ, ZMod.pow_card, sq]

theorem val_fieldElement_lt (x : FieldElement) : x.val < 256 ^ scalarSize := by
  rw [pow_scalarSize]
  exact (ZMod.val_lt x).trans Curve.fieldModulus_lt

theorem beNat_fieldBytes (x : FieldElement) : beNat (fieldBytes x) = x.val :=
  beNat_beBytes (val_fieldElement_lt x)

@[simp] theorem length_fieldBytes (x : FieldElement) : (fieldBytes x).length = scalarSize :=
  length_beBytes _ _

theorem fieldElementFromBytes_eq_ok {b : Bytes} {x : FieldElement} :
    fieldElementFromBytes b = .ok x ↔ b = fieldBytes x := by
  simp only [fieldElementFromBytes, seq_eq_ok, rejectIf_eq_ok, not_not, not_le, pure,
    Except.pure, Except.ok.injEq]
  constructor
  · rintro ⟨hlength, hlt, rfl⟩
    rw [fieldBytes, ZMod.val_natCast_of_lt hlt, beBytes_beNat hlength]
  · rintro rfl
    rw [beNat_fieldBytes]
    exact ⟨length_fieldBytes x, ZMod.val_lt x, ZMod.natCast_zmod_val x⟩

theorem pointBytes_eq_ok {P : Point} {b : Bytes} :
    pointBytes P = .ok b ↔
      ∃ x y, coordinates P = some (x, y) ∧
        b = (if isOdd y then 0x03 else 0x02) :: fieldBytes x := by
  rw [pointBytes]
  cases h : coordinates P with
  | none => simp
  | some xy =>
    obtain ⟨x, y⟩ := xy
    simp only [Except.ok.injEq, Option.some.injEq, Prod.mk.injEq]
    constructor
    · rintro rfl
      exact ⟨x, y, ⟨rfl, rfl⟩, rfl⟩
    · rintro ⟨x', y', ⟨rfl, rfl⟩, rfl⟩
      rfl

theorem pointBytes_isOk {P : Point} : (∃ b, pointBytes P = .ok b) ↔ P ≠ 0 := by
  constructor
  · rintro ⟨b, hb⟩ rfl
    obtain ⟨x, y, hxy, -⟩ := pointBytes_eq_ok.mp hb
    rw [(Curve.coordinates_eq_none 0).mpr rfl] at hxy
    cases hxy
  · intro hP
    obtain ⟨x, y, hxy⟩ := coordinates_ne_none hP
    exact ⟨_, pointBytes_eq_ok.mpr ⟨x, y, hxy, rfl⟩⟩

theorem isOdd_selectRoot {y : FieldElement} (hy : y ≠ 0) (wantOdd : Bool) :
    isOdd (selectRoot wantOdd y) = wantOdd := by
  by_cases h : isOdd y = wantOdd
  · rw [selectRoot, if_neg (not_not.mpr h), h]
  · rw [selectRoot, if_pos h, isOdd_neg hy]
    exact Bool.not_eq.mpr h

/-- The root that the tag of a point selects is its `y`. -/
theorem selectRoot_fieldSqrt {y : FieldElement} (hy : y ≠ 0) :
    selectRoot (isOdd y) (fieldSqrt (y ^ 2)) = y := by
  obtain h | h := sq_eq_sq_iff_eq_or_eq_neg.mp (fieldSqrt_sq y)
  · rw [h, selectRoot, if_neg (not_not.mpr rfl)]
  · rw [h, selectRoot, isOdd_neg hy, if_pos (Bool.not_ne_self (isOdd y)), neg_neg]

/-- Parsing is the inverse of encoding. -/
theorem pointFromBytes_eq_ok {b : Bytes} {P : Point} :
    pointFromBytes b = .ok P ↔ pointBytes P = .ok b := by
  constructor
  · intro h
    cases b with
    | nil => cases h
    | cons tag rest =>
      obtain ⟨htag, hparse⟩ := seq_eq_ok.mp h
      obtain ⟨x, hx, hroot⟩ := bind_eq_ok.mp hparse
      obtain ⟨-, hpoint⟩ := seq_eq_ok.mp hroot
      rw [rejectIf_eq_ok] at htag
      obtain rfl := fieldElementFromBytes_eq_ok.mp hx
      cases hQ : ofCoordinates x (selectRoot (tag == 0x03) (fieldSqrt (x ^ 2 * x + 7))) with
      | none =>
        rw [hQ] at hpoint
        cases hpoint
      | some Q =>
        rw [hQ] at hpoint
        cases hpoint
        rw [Curve.ofCoordinates_eq_some] at hQ
        have hne : fieldSqrt (x ^ 2 * x + 7) ≠ 0 := by
          intro hzero
          apply coordinates_y_ne_zero hQ
          rw [hzero, selectRoot, neg_zero, ite_self]
        have htags : tag = 0x02 ∨ tag = 0x03 := by tauto
        refine pointBytes_eq_ok.mpr ⟨x, _, hQ, ?_⟩
        rw [isOdd_selectRoot hne]
        obtain rfl | rfl := htags <;> rfl
  · intro h
    obtain ⟨x, y, hxy, rfl⟩ := pointBytes_eq_ok.mp h
    have hsq : x ^ 2 * x + 7 = y ^ 2 := by
      rw [Curve.coordinates_onCurve P x y hxy, ← pow_succ]
    have htag : ((if isOdd y then 0x03 else 0x02 : UInt8) == 0x03) = isOdd y := by
      cases isOdd y <;> rfl
    have hcompressed : rejectIf ((fieldBytes x).length + 1 ≠ pubkeyLength ∨
        ((if isOdd y then 0x03 else 0x02 : UInt8) ≠ 0x02 ∧
          (if isOdd y then 0x03 else 0x02 : UInt8) ≠ 0x03))
        "secp256k1 point must be compressed" = .ok () := by
      rw [rejectIf_eq_ok, length_fieldBytes]
      cases isOdd y <;> decide
    refine seq_eq_ok.mpr ⟨hcompressed, bind_eq_ok.mpr
      ⟨x, fieldElementFromBytes_eq_ok.mpr rfl, seq_eq_ok.mpr ⟨?_, ?_⟩⟩⟩
    · rw [rejectIf_eq_ok, hsq, fieldSqrt_sq, not_not]
    · rw [htag, hsq, selectRoot_fieldSqrt (coordinates_y_ne_zero hxy),
        (Curve.ofCoordinates_eq_some x y P).mpr hxy]

theorem pointFromBytes_pointBytes {P : Point} (hP : P ≠ 0) :
    ∃ b, pointBytes P = .ok b ∧ pointFromBytes b = .ok P := by
  obtain ⟨b, hb⟩ := pointBytes_isOk.mpr hP
  exact ⟨b, hb, pointFromBytes_eq_ok.mpr hb⟩

theorem pointFromBytes_ne_zero {b : Bytes} {P : Point} (h : pointFromBytes b = .ok P) : P ≠ 0 :=
  pointBytes_isOk.mp ⟨b, pointFromBytes_eq_ok.mp h⟩

end Tss.Secp256k1
