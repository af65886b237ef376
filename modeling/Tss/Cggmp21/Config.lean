import Tss.Cggmp21.Epoch
import Tss.Wire.Message
import Tss.Guard

/-!
# Limits and threshold configuration (`limits.go`, `config.go`, `payload_encoding.go`)

`ProtocolLimits` are the local resource bounds a party decodes payloads under.
They are not shared protocol intent and no plan digest covers them, so two
parties of one run may hold different ones.
-/

namespace Tss.Cggmp21

open Fallible Wire

/-! ## Limits -/

/-- `Limits`, with the caps that the payload codecs read. -/
structure ProtocolLimits extends Limits where
  maxScalarBytes : Int
  maxSerializedKeyShareBytes : Int
  maxMessageBytes : Int
  maxModulusBits : Int
  maxPublicKeyBytes : Int
  maxPrivateKeyBytes : Int
  maxCiphertextBytes : Int
  maxPaillierProofBytes : Int
  maxRingPedersenBytes : Int
  maxZKProofBytes : Int
  maxFields : Int
  maxFieldBytes : Int

namespace ProtocolLimits

/-- `DefaultLimits`. -/
def default : ProtocolLimits where
  threshold := ⟨16, 16, 16, 2, false⟩
  maxPointBytes := 65
  maxScalarBytes := 32
  maxSerializedKeyShareBytes := 2 * 2 ^ 20
  maxMessageBytes := 2 ^ 20
  maxModulusBits := 8192
  maxPublicKeyBytes := 2048
  maxPrivateKeyBytes := 4096
  maxCiphertextBytes := 2048
  maxPaillierProofBytes := 256 * 2 ^ 10
  maxRingPedersenBytes := 16384
  maxZKProofBytes := 512 * 2 ^ 10
  maxFields := 256
  maxFieldBytes := 2 ^ 20

end ProtocolLimits

/-! The entries of `fieldLimits`, under the names that struct tags use. -/

namespace FieldLimit

def paillierModulusBits : NamedLimit ProtocolLimits :=
  ⟨"paillier_modulus_bits", fun l => l.maxModulusBits⟩

end FieldLimit

/-! ## Threshold configuration -/

/-- `EnvelopeSigner`: a signature of a digest, or an error. -/
abbrev EnvelopeSigner := Array32 → Except GoError Bytes

/-- `ThresholdConfig`, without its sources of randomness and its logger. -/
structure ThresholdConfig where
  threshold : Nat
  parties : PartySet
  self : PartyID
  sessionID : Array32
  envelopeSigner : Option EnvelopeSigner

/-! ## Outbound envelopes -/

def defaultMaxEnvelopeSignatureBytes : Nat := 4096

def signEnvelope [Sha256] (e : Envelope) (signer : EnvelopeSigner) : Except GoError Envelope := do
  let signature ← (signer e.signingDigest).mapError
    (.wrap "sign envelope for party %d: %w" [.num e.sender.toNat])
  rejectIf (signature = []) (.new "empty envelope signature")
  rejectIf (defaultMaxEnvelopeSignatureBytes < signature.length)
    (.errorf "envelope sender signature too large: %d > %d"
      [.num signature.length, .num defaultMaxEnvelopeSignatureBytes])
  pure { e with senderSignature := signature }

def newEnvelope [Sha256] (config : ThresholdConfig) (round : UInt8) (sender recipient : PartyID)
    (payloadType : GoString) (payload : Bytes) : Except GoError Envelope := do
  let e ← Tss.newEnvelope protocolCGGMP21Secp256k1 config.sessionID round sender recipient
    payloadType payload
  match config.envelopeSigner with
  | none => pure e
  | some signer => signEnvelope e signer

/-- An envelope has the fields it was asked for, and some signature. -/
theorem newEnvelope_eq_ok [Sha256] {config : ThresholdConfig} {round : UInt8}
    {sender recipient : PartyID} {payloadType : GoString} {payload : Bytes} {e : Envelope}
    (h : newEnvelope config round sender recipient payloadType payload = .ok e) :
    ∃ signature, e = ⟨protocolCGGMP21Secp256k1, config.sessionID, round, sender, recipient,
      payloadType, payload, signature⟩ := by
  obtain ⟨unsigned, hunsigned, h⟩ := bind_eq_ok.mp h
  obtain rfl := Tss.newEnvelope_eq_ok hunsigned
  cases hsigner : config.envelopeSigner with
  | none =>
    rw [hsigner] at h
    exact ⟨[], (Except.ok.inj h).symm⟩
  | some signer =>
    rw [hsigner] at h
    obtain ⟨signature, -, h⟩ := bind_eq_ok.mp h
    iterate 2 obtain ⟨-, h⟩ := seq_eq_ok.mp h
    exact ⟨signature, (Except.ok.inj h).symm⟩

/-! ## Errors with evidence -/

/-- The encoding of blame evidence, which may fail. -/
class EvidenceEncoding where
  /-- Why the evidence for a failure with this reason cannot be encoded. -/
  failure : Envelope → String → Option GoError

section Evidence

variable [EvidenceEncoding]

def protocolErrorWithEvidence (code : ErrorCode) (env : Envelope) (reason : String)
    (blamed : PartySet) (err : GoError) : GoError :=
  match EvidenceEncoding.failure env reason with
  | some evErr => .newProtocolError .invariant env.round env.sender
      (.wrapBoth (.wrap "blame evidence marshal failed: %w" [] evErr) err)
  | none => .protocol code env.round env.sender (some ⟨reason, blamed⟩) err

def verificationErrorWithEvidence (env : Envelope) (reason : String) (blamed : PartySet)
    (err : GoError) : GoError :=
  protocolErrorWithEvidence .verification env reason blamed err

end Evidence

/-! ## Errors that end a session -/

/-- A failed verification, unless it is about the plan. -/
def abortsSession (p : ProtocolError) : Bool :=
  p.code = .verification && !p.err.is .planHashMismatch

/-- `shouldAbortSession` of the CGGMP21 sessions. -/
def shouldAbortSession (err : GoError) : Bool := err.asProtocol.any abortsSession

end Tss.Cggmp21
