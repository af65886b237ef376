import Tss.Curve.Secp256k1

/-!
# ECDSA verification (`internal/curve/secp256k1/ecdsa.go`)

`verifyECDSA` is the verifier of the source. A signature `(r, s)` verifies
when the point `R` with `[s]R = [z]G + [r]X` has `x`-coordinate `r` modulo
the order (`verifyECDSA_of_nonce`), whichever of the two representatives of
`s` is published.
-/

namespace Tss.Secp256k1

open Fallible

variable [Curve]

/-- The scalar of a digest, reduced when it is not a canonical non-zero scalar. -/
def digestScalar (digest : Bytes) : Scalar :=
  match scalarFromBytes digest with
  | .ok z => z
  | .error _ => scalarFromBigInt (beNat digest)

def verifyECDSA (publicKey : Point) (digest : Bytes) (r s : Scalar) : Bool :=
  if digest.length ≠ 32 ∨ publicKey = 0 then false
  else if r = 0 ∨ s = 0 then false
  else
    let z := digestScalar digest
    match scalarInvert s with
    | .error _ => false
    | .ok w =>
      let u1 := z * w
      let u2 := r * w
      match coordinates (scalarBaseMult u1 + u2 • publicKey) with
      | none => false
      | some (x, _) => scalarFromFieldElement x = r

/-- Signer and verifier reduce a digest alike. -/
theorem digestScalar_eq (digest : Bytes) : digestScalar digest = (beNat digest : Scalar) := by
  rw [digestScalar]
  cases h : scalarFromBytes digest with
  | ok z =>
    obtain ⟨rfl, -⟩ := scalarFromBytes_eq_ok.mp h
    rw [beNat_scalarBytes, ZMod.natCast_zmod_val]
  | error e =>
    show scalarFromBigInt (beNat digest : ℤ) = _
    rw [scalarFromBigInt_eq, Int.cast_natCast]

/-- A signature whose nonce point `R` solves `[s]R = [z]G + [r]X` verifies. -/
theorem verifyECDSA_of_nonce {X R : Point} {digest : Bytes} {r s : Scalar} {x y : FieldElement}
    (hdigest : digest.length = 32) (hX : X ≠ 0) (hr : r ≠ 0) (hs : s ≠ 0)
    (hR : coordinates R = some (x, y)) (hx : scalarFromFieldElement x = r)
    (hnonce : s • R = scalarBaseMult (beNat digest : Scalar) + r • X) :
    verifyECDSA X digest r s = true := by
  have hinv : scalarInvert s = .ok s⁻¹ := scalarInvert_eq_ok.mpr ⟨hs, rfl⟩
  have hpoint : scalarBaseMult ((beNat digest : Scalar) * s⁻¹) + (r * s⁻¹) • X = R := by
    calc scalarBaseMult ((beNat digest : Scalar) * s⁻¹) + (r * s⁻¹) • X
        = s⁻¹ • (scalarBaseMult (beNat digest : Scalar) + r • X) := by
          rw [smul_add, scalarBaseMult, scalarBaseMult, smul_smul, smul_smul, mul_comm s⁻¹,
            mul_comm s⁻¹]
      _ = R := by rw [← hnonce, smul_smul, inv_mul_cancel₀ hs, one_smul]
  have hinput : ¬ (digest.length ≠ 32 ∨ X = 0) := not_or.mpr ⟨not_not.mpr hdigest, hX⟩
  have hscalars : ¬ (r = 0 ∨ s = 0) := not_or.mpr ⟨hr, hs⟩
  rw [verifyECDSA, if_neg hinput, if_neg hscalars, hinv]
  simp only [digestScalar_eq, hpoint, hR, hx, decide_true]

end Tss.Secp256k1
