import Tss.Errors
import Tss.Transcript

/-!
# Envelopes and broadcast certificates (`envelope.go`, `envelope_signature.go`, `broadcast.go`)

An `Envelope` is what a party sends; an `InboundEnvelope` adds what the
receiving transport knows about the delivery. A broadcast certificate holds
one signed acknowledgement per party, all of the same envelope.
-/

namespace Tss

open Transcript

/-! ## Envelopes -/

structure Envelope where
  protocol : GoString
  sessionID : Array32
  round : UInt8
  sender : PartyID
  recipient : PartyID
  payloadType : GoString
  payload : Bytes
  senderSignature : Bytes
deriving DecidableEq

def protocolVersion : UInt16 := 1

def protocolFROSTEd25519 : GoString := lit "frost-ed25519"
def protocolCGGMP21Secp256k1 : GoString := lit "cggmp21-secp256k1"

def defaultMaxEnvelopePayloadBytes : Nat := 2 ^ 20
def defaultMaxPayloadTypeBytes : Nat := 128
def defaultMaxProtocolNameBytes : Nat := 64

/-- `NewEnvelope`, under the default limits and without a sender signature. Its second pass
over the same fields (`validateEnvelopeFields`) repeats checks already made. -/
def newEnvelope (protocol : GoString) (sessionID : Array32) (round : UInt8) (sender recipient : PartyID)
    (payloadType : GoString) (payload : Bytes) : Except GoError Envelope := do
  rejectIf (protocol = []) (.new "envelope protocol is empty")
  rejectIf (payloadType = []) (.new "envelope payload type is empty")
  rejectIf (defaultMaxProtocolNameBytes < protocol.length)
    (.errorf "envelope protocol name too long: %d > %d"
      [.num protocol.length, .num defaultMaxProtocolNameBytes])
  rejectIf (defaultMaxPayloadTypeBytes < payloadType.length)
    (.errorf "envelope payload type too long: %d > %d"
      [.num payloadType.length, .num defaultMaxPayloadTypeBytes])
  rejectIf (defaultMaxEnvelopePayloadBytes < payload.length)
    (.errorf "envelope payload too large: %d > %d"
      [.num payload.length, .num defaultMaxEnvelopePayloadBytes])
  rejectIf (sessionID = zero32) (.sentinel .invalidSessionID)
  rejectIf (sender = broadcastPartyId) (.new "envelope sender is zero (unset)")
  pure { protocol, sessionID, round, sender, recipient, payloadType, payload, senderSignature := [] }

open Fallible in
theorem newEnvelope_plain (protocol : GoString) (sessionID : Array32) (round : UInt8)
    (sender recipient : PartyID) (payloadType : GoString) (payload : Bytes) :
    ErrorsIn GoError.Plain
      (newEnvelope protocol sessionID round sender recipient payloadType payload) := by
  repeat refine .guard rfl ?_
  exact .ok _

/-- The envelope has the fields it was asked for. -/
theorem newEnvelope_eq_ok {protocol : GoString} {sessionID : Array32} {round : UInt8}
    {sender recipient : PartyID} {payloadType : GoString} {payload : Bytes} {e : Envelope}
    (h : newEnvelope protocol sessionID round sender recipient payloadType payload = .ok e) :
    e = ⟨protocol, sessionID, round, sender, recipient, payloadType, payload, []⟩ := by
  simp only [newEnvelope, Fallible.bind_eq_ok] at h
  obtain ⟨_, -, _, -, _, -, _, -, _, -, _, -, _, -, h⟩ := h
  exact (Except.ok.inj h).symm

section Digests

variable [Sha256]

/-- `PayloadHashFromEnvelope`. -/
def Envelope.payloadHash (e : Envelope) : Array32 := Sha256.sum256 e.payload

/-- The entries that both envelope digests share. -/
def Envelope.digestEntries (e : Envelope) (label : String) : Builder :=
  ((((((((new label).appendString "protocol" e.protocol).appendUint16 "version"
    protocolVersion).appendBytes "session_id" e.sessionID.toList).appendUint8 "round"
    e.round).appendUint32 "from" e.sender).appendUint32 "to" e.recipient).appendString "payload_type"
    e.payloadType).appendBytes "payload" e.payload

def Envelope.digest (e : Envelope) : Array32 :=
  let t := e.digestEntries "github.com/islishude/tss/envelope/v1"
  (if e.senderSignature = [] then t
    else t.appendBytes "sender_signature" e.senderSignature).sum32

/-- `EnvelopeSigningDigest`. -/
def Envelope.signingDigest (e : Envelope) : Array32 :=
  (e.digestEntries "github.com/islishude/tss/envelope-signature/v1").sum32

end Digests

/-! ## Receive facts -/

/-- `ChannelProtection`: `undefined` is a value the type has no name for. -/
inductive ChannelProtection where
  | unknown
  | plaintext
  | confidential
  | undefined (value : UInt8)
deriving DecidableEq

/-- `ReceiveInfo`, without the fields that only logs read. -/
structure ReceiveInfo where
  peer : PartyID
  protection : ChannelProtection
deriving DecidableEq

structure BroadcastAck where
  party : PartyID
  payloadHash : Array32
  envelopeDigest : Array32
  signature : Bytes
deriving DecidableEq

structure BroadcastCertificate where
  protocol : GoString
  sessionID : Array32
  round : UInt8
  sender : PartyID
  payloadType : GoString
  payloadHash : Array32
  envelopeDigest : Array32
  recipients : PartySet
  acks : List BroadcastAck
deriving DecidableEq

structure InboundEnvelope where
  env : Envelope
  receiveInfo : ReceiveInfo
  broadcast : Option BroadcastCertificate
deriving DecidableEq

/-! ## Certificates -/

/-- `BroadcastAckVerifier` and `EnvelopeSignatureVerifier`: the caller's check of a
signature of a party over a digest, `none` when it accepts. -/
abbrev SignatureVerifier := PartyID → Array32 → Bytes → Option GoError

/-- The outcome of a caller's verifier. -/
def verifierOutcome : Option GoError → Except GoError Unit
  | none => .ok ()
  | some err => .error err

section Certificates

variable [Sha256]

def ackDigest (e : Envelope) : Array32 :=
  ((((((((new "github.com/islishude/tss/broadcast-ack/v1").appendString "protocol"
    e.protocol).appendBytes "session_id" e.sessionID.toList).appendUint8 "round"
    e.round).appendUint32 "from" e.sender).appendString "payload_type" e.payloadType).appendBytes
    "payload_hash" e.payloadHash.toList).appendBytes "envelope_digest" e.digest.toList).sum32

/-- The loop over the acknowledgements in `VerifyStructure`. -/
def BroadcastCertificate.verifyAcks (c : BroadcastCertificate) (parties : PartySet) :
    List PartyID → List BroadcastAck → Except GoError Unit
  | _, [] => .ok ()
  | seen, ack :: acks => do
    rejectIf (ack.party ∉ parties ∨ ack.party ∈ seen ∨ ack.payloadHash ≠ c.payloadHash ∨
      ack.envelopeDigest ≠ c.envelopeDigest) (.sentinel .invalidBroadcastCertificate)
    c.verifyAcks parties (ack.party :: seen) acks

def BroadcastCertificate.verifyStructure (c : BroadcastCertificate) (e : Envelope)
    (parties : PartySet) : Except GoError Unit := do
  rejectIf (c.protocol ≠ e.protocol ∨ c.sessionID ≠ e.sessionID ∨ c.round ≠ e.round ∨
    c.sender ≠ e.sender ∨ c.payloadType ≠ e.payloadType ∨ c.payloadHash ≠ e.payloadHash ∨
    c.envelopeDigest ≠ e.digest) (.sentinel .invalidBroadcastCertificate)
  rejectIf (c.recipients.length ≠ parties.length ∨ ¬ parties ⊆ c.recipients ∨
    c.acks.length ≠ parties.length) (.sentinel .invalidBroadcastCertificate)
  c.verifyAcks parties [] c.acks

def verifyBroadcastAck (e : Envelope) (ack : BroadcastAck) (verifier : SignatureVerifier) :
    Except GoError Unit := do
  rejectIf (ack.payloadHash ≠ e.payloadHash) (.new "ack payload hash mismatch")
  rejectIf (ack.envelopeDigest ≠ e.digest) (.new "ack envelope digest mismatch")
  verifierOutcome (verifier ack.party (ackDigest e) ack.signature)

def BroadcastCertificate.verifyFull (c : BroadcastCertificate) (e : Envelope) (parties : PartySet)
    (verifier : Option SignatureVerifier) : Except GoError Unit := do
  c.verifyStructure e parties
  match verifier with
  | none => .error (.wrapBoth (.sentinel .invalidBroadcastCertificate) (.sentinel .missingAckVerifier))
  | some verifier =>
    c.acks.forM fun ack =>
      (verifyBroadcastAck e ack verifier).mapError fun err =>
        .wrapBoth (.sentinel .invalidBroadcastCertificate)
          (.wrap "party %d: %w" [.num ack.party.toNat] err)

def verifyEnvelopeSignature (e : Envelope) (verifier : SignatureVerifier) :
    Except GoError Unit := do
  rejectIf (e.senderSignature = []) (.sentinel .missingEnvelopeSignature)
  (verifierOutcome (verifier e.sender e.signingDigest e.senderSignature)).mapError
    (.wrapBoth (.sentinel .invalidEnvelopeSignature))

end Certificates

end Tss
