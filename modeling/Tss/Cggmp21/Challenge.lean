import Tss.Cggmp21.Epoch
import Tss.Wire.Message

/-!
# Challenges over secp256k1 (`internal/zk/challenge`)

A challenge is a scalar that is derived from a digest, by rejection.
-/

namespace Tss.Cggmp21

open Secp256k1 Fallible Wire

/-- The error of a function whose failures are plain texts. -/
def liftText {α : Type} (x : Except String α) : Except GoError α := x.mapError .new

@[simp] theorem liftText_eq_ok {α : Type} {x : Except String α} {a : α} :
    liftText x = .ok a ↔ x = .ok a := mapError_eq_ok

@[simp] theorem liftText_ok {α : Type} (a : α) : liftText (.ok a : Except String α) = .ok a := rfl

section Challenge

variable [Sha256]

def challengeCandidate (domainLabel : String) (root : Bytes) (counter : Nat) : Bytes :=
  ((Transcript.new domainLabel).appendBytes "root" root |>.appendUint32 "counter"
    (UInt32.ofNat counter)).sum

/-- `DeriveCanonicalNonZeroSecp256k1`, of a root that is a digest. -/
def deriveCanonicalNonZeroSecp256k1 [Curve] (domainLabel : String) (root : Bytes) (counterLimit : Nat) :
    Except GoError Scalar :=
  match (List.range counterLimit).findSome? fun counter =>
      (scalarFromBytes (challengeCandidate domainLabel root counter)).toOption with
  | some scalar => .ok scalar
  | none => .error (.sentinel .rejectionLimit)

end Challenge

end Tss.Cggmp21
