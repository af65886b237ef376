import Tss.Cggmp21.Artifact
import Tss.Cggmp21.Epoch

/-!
# The public context of an online signing attempt (`cggmp21/secp256k1/sign_attempt.go`)

The record that online signing works from once the presign shares are
consumed: the nonce point, the normalized commitments and the key they are
bound to. `validateSignAttemptPublicContext` is the check every signer makes
before it uses such a record.
-/

namespace Tss.Cggmp21

open Secp256k1 Fallible

/-- `tss.DerivationResult`, without the parent fingerprint and the child number, which no
check reads. -/
structure DerivationResult where
  scheme : GoString
  childPublicKey : Bytes
  childChainCode : Bytes
  requestedPath : List UInt32
  resolvedPath : List UInt32
  depth : UInt8
  additiveShift : Bytes
deriving DecidableEq

def derivationSchemeBIP32Secp256k1 : GoString := lit "bip32-secp256k1"

def maxDerivationDepth : Nat := 255

def hardenedKeyStart : UInt32 := 0x80000000

def validateNonHardened (path : List UInt32) : Except String Unit := do
  rejectIf (maxDerivationDepth < path.length)
    ("derivation depth overflow: path has " ++ toString path.length ++ " indices (max "
      ++ toString maxDerivationDepth ++ ")")
  path.zipIdx.forM fun (index, i) =>
    rejectIf (hardenedKeyStart ≤ index)
      ("hardened derivation unsupported at path element " ++ toString i ++ ": index "
        ++ toString index)

def DerivationResult.validate (r : DerivationResult) : Except String Unit := do
  rejectIf (r.scheme = []) "missing derivation scheme"
  rejectIf (r.childPublicKey = []) "missing child public key"
  rejectIf (r.childChainCode.length ≠ 32) "invalid chain code length"
  validateNonHardened r.requestedPath
  validateNonHardened r.resolvedPath
  rejectIf (r.requestedPath.length ≠ r.resolvedPath.length)
    "requested and resolved path depth mismatch"
  rejectIf (r.depth.toNat ≠ r.resolvedPath.length) "derivation depth mismatch"
  rejectIf (r.additiveShift ≠ [] ∧ r.additiveShift.length ≠ 32)
    "additive shift must be empty or 32 bytes"

/-- `signAttemptPublicContext`. A missing derivation or epoch is `none`. -/
structure SignAttemptPublicContext [Curve] where
  recordVersion : UInt16
  party : PartyID
  threshold : Int
  signers : PartySet
  protocolPresignID : Bytes
  epochID : Bytes
  gamma : Point
  littleR : Scalar
  commitments : List NormalizedPresignCommitment
  transcriptHash : Bytes
  contextHash : Bytes
  verificationKey : Bytes
  keyID : GoString
  derivation : Option DerivationResult
  epoch : Option EpochContext
  presignSlot : GoString

def signAttemptMetadataVersion : UInt16 := 1
def maxSignLifecycleIdentifier : Nat := 256
def presignLifecycleSlotPrefix : GoString := lit "cggmp21-secp256k1-presign-"

def validateSignLifecycleIdentifier (value : GoString) : Except String Unit :=
  match utf8Runes value with
  | none => .error "invalid lifecycle identifier"
  | some runes => do
    rejectIf (value = [] ∨ maxSignLifecycleIdentifier < value.length)
      "invalid lifecycle identifier"
    rejectIf (∃ r ∈ runes, r < 0x20 ∨ r = 0x7f)
      "lifecycle identifier contains control characters"

def presignSlotID (protocolPresignID : Bytes) : Except String GoString := do
  rejectIf (protocolPresignID.length ≠ sha256Size) "protocol presign id must be 32 bytes"
  rejectIf (protocolPresignID = zero32.toList) "protocol presign id must be non-zero"
  pure (presignLifecycleSlotPrefix ++ hexEncode protocolPresignID)

variable [Curve]

def validateDerivationResult (result : DerivationResult) : Except String Unit := do
  result.validate.mapError ("invalid derivation result: " ++ ·)
  rejectIf (result.scheme ≠ derivationSchemeBIP32Secp256k1)
    "derivation scheme must be \"bip32-secp256k1\""
  rejectIf (result.additiveShift.length ≠ scalarSize) "additive shift must be 32 bytes"
  let _ ← (pointFromBytes result.childPublicKey).mapError ("invalid child public key: " ++ ·)

/-- The texts of `validateSignPublicCommitments`, after `ErrSignAttemptCorrupt`. -/
def publicCommitmentErrors : CommitmentErrors where
  order _ := "sign public commitment order mismatch"
  deltaTilde party err := "invalid DeltaTilde for party " ++ toString party ++ ": " ++ err
  sTilde party err := "invalid STilde for party " ++ toString party ++ ": " ++ err

def validateSignPublicCommitments (context : SignAttemptPublicContext) (publicKey : Point) :
    Except String Unit := do
  let points ← decodeCommitments publicCommitmentErrors context.signers context.commitments
  rejectIf (addPoints (points.map (·.1)) ≠ generator ∨ addPoints (points.map (·.2)) ≠ publicKey)
    "sign public commitments do not aggregate"

/-- The derivation of the current generation: no shift, no path, the key itself. -/
def validateGenerationDerivation (context : SignAttemptPublicContext)
    (derivation : DerivationResult) : Except String Unit := do
  (validateDerivationResult derivation).mapError ("invalid sign generation derivation: " ++ ·)
  let shift ← (scalarFromBytesAllowZero derivation.additiveShift).mapError fun _ =>
    "sign derivation is not the current generation binding"
  rejectIf (shift ≠ 0 ∨ derivation.requestedPath ≠ [] ∨ derivation.resolvedPath ≠ [] ∨
      derivation.childPublicKey ≠ context.verificationKey)
    "sign derivation is not the current generation binding"

/-- The epoch the presign belongs to: its identity, its key and its parties. -/
def validateEpochBinding [Sha256] (context : SignAttemptPublicContext) (limits : Limits)
    (epoch : EpochContext) (publicKey : Point) : Except String Unit := do
  (epoch.validateWithLimits limits).mapError ("invalid sign epoch context: " ++ ·)
  rejectIf (context.epochID ≠ epoch.epochID ∨ epoch.threshold ≠ context.threshold)
    "sign epoch identity or threshold mismatch"
  let wantSlot ← (presignSlotID context.protocolPresignID).mapError fun _ =>
    "sign presign slot mismatch"
  rejectIf (context.presignSlot ≠ wantSlot) "sign presign slot mismatch"
  let (epochPublicKey, epochParties) ← epoch.groupPublicKey.mapError fun _ =>
    "sign epoch public-key binding mismatch"
  rejectIf (epochPublicKey ≠ publicKey) "sign epoch public-key binding mismatch"
  rejectIf (context.party ∉ epochParties) "sign party is outside epoch"
  context.signers.forM fun signer =>
    rejectIf (signer ∉ epochParties)
      ("sign signer " ++ toString signer ++ " is outside epoch")

/-- `validateSignAttemptPublicContext`. Every error wraps `ErrSignAttemptCorrupt`; the text
is what follows it. -/
def validateSignAttemptPublicContext [Sha256] (context : SignAttemptPublicContext)
    (limits : Limits) : Except String Unit :=
  match context.derivation, context.epoch with
  | some derivation, some epoch => do
    rejectIf (context.recordVersion ≠ signAttemptMetadataVersion ∨
        context.party = broadcastPartyId ∨
        context.threshold ≤ 0 ∨ (context.signers.length : Int) < context.threshold ∨
        limits.threshold.maxSigners < context.signers.length ∨
        context.protocolPresignID.length ≠ sha256Size ∨
        context.epochID.length ≠ sha256Size ∨
        context.transcriptHash.length ≠ sha256Size ∨
        context.contextHash.length ≠ sha256Size ∨
        context.verificationKey = [] ∨
        validateSignLifecycleIdentifier context.keyID ≠ .ok () ∨
        context.presignSlot = [] ∨
        context.commitments.length ≠ context.signers.length)
      "invalid sign public context"
    (limits.threshold.validateThreshold context.threshold context.signers.length).mapError
      ("invalid sign public threshold: " ++ ·)
    rejectIf (validateStrictSortedIDs context.signers ≠ .ok () ∨
        context.party ∉ context.signers)
      "invalid sign public signer set"
    let _ ← (pointBytes context.gamma).mapError ("invalid sign public Gamma: " ++ ·)
    rejectIf (context.littleR = 0 ∨
        (coordinates context.gamma).any fun (x, _) => context.littleR ≠ scalarFromFieldElement x)
      "invalid sign public little r"
    let publicKey ← (pointFromBytes context.verificationKey).mapError
      ("invalid sign verification key: " ++ ·)
    validateGenerationDerivation context derivation
    validateEpochBinding context limits epoch publicKey
    validateSignPublicCommitments context publicKey
  | _, _ => .error "invalid sign public context"

def normalizedCommitmentForPublicContext (context : SignAttemptPublicContext) (party : PartyID) :
    Option NormalizedPresignCommitment :=
  context.commitments.find? (·.party = party)

end Tss.Cggmp21
