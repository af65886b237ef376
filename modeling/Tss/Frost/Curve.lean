import Mathlib.Algebra.Module.Basic
import Mathlib.Algebra.Module.Torsion.Field
import Mathlib.Algebra.BigOperators.Group.List.Basic
import Mathlib.Algebra.Field.Basic
import Tss.Lib.Bytes
import Tss.Party

/-!
# The Ed25519 group (`internal/curve/edwards25519`)

The curve arithmetic is `filippo.io/edwards25519` and the reference
verifier is `crypto/ed25519`; neither is part of the repository.
`Edwards25519` is what the protocol uses of them: the scalars form a field,
the points form a module over it, and both have canonical encodings.

`G` is the prime-order subgroup. `PointFromBytes` rejects every other
point, so no point the protocol computes with lies outside it.
-/

namespace Tss.Frost

/-- The scalar field `F` and the prime-order group `G` of Ed25519. -/
class Edwards25519 (F : outParam Type) (G : Type) [Field F] [AddCommGroup G] [Module F G] where
  base : G
  base_ne_zero : base ≠ 0
  /-- Party identifiers lie below the group order. -/
  natCast_inj : ∀ a b : Nat, a < 2 ^ 32 → b < 2 ^ 32 → (a : F) = (b : F) → a = b
  /-- `Point.Bytes`. -/
  pointBytes : G → Bytes
  length_pointBytes : ∀ P, (pointBytes P).length = 32
  /-- `Point.SetBytes`, on the encodings of the points of `G`. -/
  pointFromBytes : Bytes → Option G
  pointFromBytes_pointBytes : ∀ P, pointFromBytes (pointBytes P) = some P
  /-- `Scalar.Bytes`. -/
  scalarBytes : F → Bytes
  length_scalarBytes : ∀ a, (scalarBytes a).length = 32
  /-- `Scalar.SetCanonicalBytes`. -/
  scalarFromCanonical : Bytes → Option F
  scalarFromCanonical_scalarBytes : ∀ a, scalarFromCanonical (scalarBytes a) = some a
  /-- `Scalar.SetUniformBytes` of a 64-byte digest. -/
  scalarFromUniform : Vector UInt8 64 → F

open Edwards25519

variable {F G : Type} [Field F] [AddCommGroup G] [Module F G] [Edwards25519 F G]

/-- A point that the semantic point types hold: parsed, so not the identity. -/
abbrev SemanticPoint (G : Type) [AddCommGroup G] := {P : G // P ≠ 0}

/-- `newSemanticPointFromPoint`: the identity is not allowed. -/
def newSemanticPointFromPoint [DecidableEq G] (P : G) : Option (SemanticPoint G) :=
  if h : P ≠ 0 then some ⟨P, h⟩ else none

/-- `ScalarFromUint64` of a party identifier. -/
def partyScalar (F : Type) [Field F] (id : PartyID) : F := (id.toNat : F)

/-- `ScalarBaseMult`. -/
def baseMult (a : F) : G := a • (base : G)

/-- `HashToScalar` over the concatenation of its parts. -/
def hashToScalar (G : Type) [AddCommGroup G] [Module F G] [Edwards25519 F G] [Sha512]
    (input : Bytes) : F :=
  scalarFromUniform G (Sha512.sum512 input)

/-- `Ed25519Challenge`: `H(R || A || msg)`. -/
def ed25519Challenge (G : Type) [AddCommGroup G] [Module F G] [Edwards25519 F G] [Sha512]
    (R A msg : Bytes) : F :=
  hashToScalar G (R ++ A ++ msg)

/-- `crypto/ed25519.Verify`: the verifier recomputes `R` from the scalar half of the
signature and compares encodings. -/
def ed25519Verify (G : Type) [AddCommGroup G] [Module F G] [Edwards25519 F G] [Sha512]
    (publicKey message sig : Bytes) : Bool :=
  match (pointFromBytes publicKey : Option G), scalarFromCanonical G (sig.drop 32) with
  | some A, some S =>
    let k : F := ed25519Challenge G (sig.take 32) publicKey message
    sig.length == 64 && pointBytes (baseMult S - k • A) == sig.take 32
  | _, _ => false

section Lemmas

theorem partyScalar_injective (G : Type) [AddCommGroup G] [Module F G] [Edwards25519 F G] :
    Function.Injective (partyScalar F) := by
  intro a b hab
  exact UInt32.toNat_inj.mp (natCast_inj G _ _ a.toNat_lt b.toNat_lt hab)

theorem baseMult_add (a b : F) : (baseMult (a + b) : G) = baseMult a + baseMult b :=
  add_smul a b base

theorem smul_baseMult (a b : F) : a • (baseMult b : G) = baseMult (a * b) :=
  smul_smul a b base

theorem baseMult_sum {α : Type} (l : List α) (a : α → F) :
    (baseMult (l.map a).sum : G) = (l.map fun x => baseMult (a x)).sum := by
  induction l with
  | nil => exact zero_smul F base
  | cons x l ih => rw [List.map_cons, List.sum_cons, List.map_cons, List.sum_cons, baseMult_add, ih]

theorem baseMult_injective : Function.Injective (baseMult (F := F) (G := G)) :=
  smul_left_injective F base_ne_zero

/-- The verifier accepts `R || z` exactly by the equation `[z]B = R + [c]A`. -/
theorem ed25519Verify_iff [Sha512] (A R : G) (z : F) (message : Bytes) :
    ed25519Verify G (pointBytes A) message (pointBytes R ++ scalarBytes G z) = true ↔
      baseMult z = R + ed25519Challenge G (pointBytes R) (pointBytes A) message • A := by
  have htake : (pointBytes R ++ scalarBytes G z).take 32 = pointBytes R :=
    List.take_left' (length_pointBytes R)
  have hdrop : (pointBytes R ++ scalarBytes G z).drop 32 = scalarBytes G z :=
    List.drop_left' (length_pointBytes R)
  have hlength : (pointBytes R ++ scalarBytes G z).length = 64 := by
    rw [List.length_append, length_pointBytes, length_scalarBytes]
  have hinj : ∀ P Q : G, pointBytes P = pointBytes Q ↔ P = Q := by
    intro P Q
    refine ⟨fun h => ?_, fun h => h ▸ rfl⟩
    have := congrArg (pointFromBytes (G := G)) h
    rwa [pointFromBytes_pointBytes, pointFromBytes_pointBytes, Option.some.injEq] at this
  simp only [ed25519Verify, pointFromBytes_pointBytes, hdrop, scalarFromCanonical_scalarBytes,
    htake, hlength, beq_self_eq_true, Bool.true_and, beq_iff_eq, hinj]
  exact sub_eq_iff_eq_add

end Lemmas

end Tss.Frost
