import Mathlib.NumberTheory.LegendreSymbol.JacobiSymbol
import Tss.Curve.Secp256k1
import Tss.Paillier.Key

/-!
# The zero-knowledge proofs (`internal/zk/paillier`)

The security parameters, and the statements of the proofs that presigning
uses, with the checks that their verifiers make on them.
-/

namespace Tss.Paillier

open Secp256k1 Fallible

/-! ## Security parameters -/

structure SecurityParams where
  ell : ℕ
  ellPrime : ℕ
  epsilon : ℕ
  challengeBits : ℕ
  minPaillierBits : ℕ
deriving DecidableEq

/-- `tss.DefaultMaxPaillierModulusBits`. -/
def maxSecurityParameterBits : ℕ := 8192

def proofResponseSlackBits : ℕ := 2
def decAggregationSlackBits : ℕ := 16

def minModulusBits : ℕ := 512

def boundedProofRange (base bonus : ℕ) : ℕ :=
  if maxSecurityParameterBits < bonus ∨ maxSecurityParameterBits - bonus < base
  then maxSecurityParameterBits else base + bonus

namespace SecurityParams

/-- `DefaultSecurityParams`. -/
def default : SecurityParams where
  ell := 256
  ellPrime := 1280
  epsilon := 512
  challengeBits := 256
  minPaillierBits := 3072

def affGRange (sp : SecurityParams) : ℕ :=
  boundedProofRange sp.ellPrime (max sp.challengeBits sp.epsilon)

def validate (sp : SecurityParams) : Except String Unit := do
  rejectIf (sp.ell = 0) "SecurityParams.Ell must be positive"
  rejectIf (sp.ellPrime = 0) "SecurityParams.EllPrime must be positive"
  rejectIf (sp.epsilon = 0) "SecurityParams.Epsilon must be positive"
  rejectIf (sp.challengeBits = 0 ∨ 256 < sp.challengeBits)
    "SecurityParams.ChallengeBits must be in [1, 256]"
  rejectIf (sp.minPaillierBits < minModulusBits)
    ("SecurityParams.MinPaillierBits must be at least " ++ toString minModulusBits)
  rejectIf (maxSecurityParameterBits < sp.minPaillierBits)
    ("SecurityParams.MinPaillierBits must not exceed " ++ toString maxSecurityParameterBits)
  let bonus := max sp.challengeBits sp.epsilon
  let maxRange := maxSecurityParameterBits - proofResponseSlackBits
  rejectIf (maxRange < bonus)
    ("SecurityParams range bonus must not exceed " ++ toString maxRange)
  rejectIf (maxRange - bonus < sp.ell)
    ("SecurityParams encryption range must not exceed " ++ toString maxRange ++ " bits")
  rejectIf (maxRange - bonus < sp.ellPrime)
    ("SecurityParams affine range must not exceed " ++ toString maxRange ++ " bits")
  let decryptionRange :=
    "SecurityParams decryption range must not exceed " ++ toString maxRange ++ " bits"
  rejectIf (maxRange - sp.ell < sp.ell) decryptionRange
  let decPlaintextBase := max sp.ellPrime (sp.ell + sp.ell)
  rejectIf (maxRange - decAggregationSlackBits < decPlaintextBase) decryptionRange
  let decPlaintextRange := decPlaintextBase + decAggregationSlackBits
  rejectIf (maxRange - decPlaintextRange < bonus) decryptionRange

def checkPaillierModulus (sp : SecurityParams) (pk : PublicKey) : Except String Unit :=
  rejectIf (bitLen pk.n < sp.minPaillierBits)
    ("paillier modulus is " ++ toString (bitLen pk.n) ++ " bits, minimum is "
      ++ toString sp.minPaillierBits)

end SecurityParams

def inSignedPowerOfTwo (x : ℤ) (bits : ℕ) : Bool := -2 ^ bits ≤ x ∧ x ≤ 2 ^ bits

/-! ## Ring-Pedersen parameters -/

structure RingPedersenParams where
  n : ℕ
  s : ℕ
  t : ℕ
deriving DecidableEq

namespace RingPedersenParams

/-- `ValidateRingPedersenParams`. -/
def validate (params : RingPedersenParams) : Except String Unit := do
  rejectIf (params.n = 0 ∨ params.n % 2 = 0 ∨ params.n.Prime) "invalid Ring-Pedersen modulus"
  rejectIf (params.s = 0 ∨ params.n ≤ params.s ∨ params.t = 0 ∨ params.n ≤ params.t)
    "Ring-Pedersen parameter out of range"
  rejectIf (params.s.gcd params.n ≠ 1) "Ring-Pedersen s is not in Z_N*"
  rejectIf (params.t.gcd params.n ≠ 1) "Ring-Pedersen t is not in Z_N*"
  rejectIf (params.s ≤ 1 ∨ params.t ≤ 1) "degenerate Ring-Pedersen parameters"
  rejectIf (jacobiSym params.s params.n ≠ 1 ∨ jacobiSym params.t params.n ≠ 1)
    "Ring-Pedersen parameters must have Jacobi symbol +1"

/-- `validateRPParamsForProof`. -/
def validateForProof (params : RingPedersenParams) (sp : SecurityParams) : Except String Unit := do
  params.validate
  rejectIf (bitLen params.n < sp.minPaillierBits)
    ("Ring-Pedersen modulus is " ++ toString (bitLen params.n) ++ " bits, minimum is "
      ++ toString sp.minPaillierBits)

/-- `validateAuxModulusDistinct`. -/
def validateDistinct (params : RingPedersenParams) (keys : List PublicKey) : Except String Unit :=
  rejectIf (∃ key ∈ keys, params.n = key.n)
    "Ring-Pedersen modulus must differ from every Paillier modulus in the statement"

end RingPedersenParams

section Statements

variable [Curve]

/-- The points of a statement, which may not be the identity. -/
def requireFinite (errors : String → String → String) (points : List (String × Point)) :
    Except String Unit :=
  points.forM fun (name, point) => do
    let _ ← (pointBytes point).mapError (errors name)

/-! ## Discrete logarithm of an ElGamal plaintext -/

structure ElogStatement [Curve] where
  generator : Point
  lambdaCommitment : Point
  elGamalCommitment : Point
  elGamalBase : Point
  resultCommitment : Point
  resultBase : Point

def validateElogPublic (stmt : ElogStatement) : Except String Unit :=
  requireFinite (fun name err => "ElogProof: invalid statement " ++ name ++ ": " ++ err)
    [("Generator", stmt.generator), ("LambdaCommitment", stmt.lambdaCommitment),
      ("ElGamalCommitment", stmt.elGamalCommitment), ("ElGamalBase", stmt.elGamalBase),
      ("ResultCommitment", stmt.resultCommitment), ("ResultBase", stmt.resultBase)]

/-! ## Affine operations -/

structure AffGStarStatement [Curve] where
  receiverPaillierN : PublicKey
  proverPaillierN : PublicKey
  c : ℕ
  d : ℕ
  y : ℕ
  x : Point

def validateAffGStarPublic (params : SecurityParams) (stmt : AffGStarStatement) :
    Except String Unit := do
  params.validate
  [("N0", stmt.receiverPaillierN), ("N1", stmt.proverPaillierN)].forM fun (name, key) => do
    key.validate.mapError fun err => "AffGStarProof: invalid " ++ name ++ ": " ++ err
    (params.checkPaillierModulus key).mapError fun err =>
      "AffGStarProof: invalid " ++ name ++ ": " ++ err
  (stmt.receiverPaillierN.validateCiphertext stmt.c).mapError ("AffGStarProof: invalid C: " ++ ·)
  (stmt.receiverPaillierN.validateCiphertext stmt.d).mapError ("AffGStarProof: invalid D: " ++ ·)
  (stmt.proverPaillierN.validateCiphertext stmt.y).mapError ("AffGStarProof: invalid Y: " ++ ·)
  let _ ← (pointBytes stmt.x).mapError ("AffGStarProof: invalid X: " ++ ·)

end Statements

end Tss.Paillier
