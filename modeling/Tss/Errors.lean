import Tss.Party

/-!
# Error values (`errors.go`, package `errors`)

A Go error is a chain: `fmt.Errorf` with `%w` and `tss.ProtocolError` keep
the error they wrap, and `errors.Is` and `errors.As` search the chain.
Whether a session aborts is decided by such a search, so the chain is part
of the model.
-/

namespace Tss

/-- The error variables of the library and of package `context` that code compares with or
returns as they are. -/
inductive Sentinel where
  | canceled
  | deadlineExceeded
  | unauthenticatedTransport
  | senderIdentityMismatch
  | missingChannelProtection
  | invalidChannelProtection
  | missingConfidentiality
  | unexpectedConfidentiality
  | missingBroadcastCertificate
  | invalidBroadcastCertificate
  | duplicateMessage
  | equivocation
  | missingEnvelopeGuard
  | missingAckVerifier
  | missingEnvelopeSignature
  | missingEnvelopeSignatureVerifier
  | invalidEnvelopeSignature
  | wrongRecipient
  | selfSender
  | expectedDirectMessage
  | expectedBroadcastMessage
  | unknownPayloadPolicy
  | missingReplayCache
  | replayCacheFull
  | invalidSessionID
  | planHashMismatch
  | runCompleted
  | lifecycleCommitPending
  | rejectionLimit
  | chainCodeRequired
  | invalidChainCodeLength
  | invalidPublicKey
  | invalidChildMode
  | derivationDepthOverflow
  | hardenedDerivationUnsupported
  | invalidChild
deriving DecidableEq, Repr

/-- An argument of `fmt.Errorf` other than an error. -/
inductive ErrorArg where
  | num (n : Nat)
  | int (n : Int)
  | text (s : GoString)
deriving DecidableEq

/-- `tss.Blame`, without the encoded evidence, which no session reads. -/
structure Blame where
  reason : String
  parties : PartySet
deriving DecidableEq

inductive GoError where
  /-- `errors.New`. -/
  | new (text : String)
  /-- `fmt.Errorf` that wraps nothing. -/
  | errorf (format : String) (args : List ErrorArg)
  | sentinel (s : Sentinel)
  /-- `fmt.Errorf` with one `%w`. -/
  | wrap (format : String) (args : List ErrorArg) (inner : GoError)
  /-- `fmt.Errorf("%w: %w", outer, inner)`. -/
  | wrapBoth (outer inner : GoError)
  /-- `*tss.ProtocolError`. -/
  | protocol (code : ErrorCode) (round : UInt8) (party : PartyID) (blame : Option Blame)
      (err : GoError)
deriving DecidableEq

/-- The fields of a `tss.ProtocolError` found by `errors.As`. -/
structure ProtocolError where
  code : ErrorCode
  round : UInt8
  party : PartyID
  blame : Option Blame
  err : GoError
deriving DecidableEq

namespace GoError

def newProtocolError (code : ErrorCode) (round : UInt8) (party : PartyID) (err : GoError) :
    GoError :=
  .protocol code round party none err

def is (target : Sentinel) : GoError → Bool
  | new _ => false
  | errorf _ _ => false
  | sentinel s => s == target
  | wrap _ _ inner => inner.is target
  | wrapBoth outer inner => outer.is target || inner.is target
  | protocol _ _ _ _ err => err.is target

/-- `errors.As` with a `*tss.ProtocolError`: the first one of the chain. -/
def asProtocol : GoError → Option ProtocolError
  | new _ => none
  | errorf _ _ => none
  | sentinel _ => none
  | wrap _ _ inner => inner.asProtocol
  | wrapBoth outer inner => outer.asProtocol <|> inner.asProtocol
  | protocol code round party blame err => some ⟨code, round, party, blame, err⟩

/-- No protocol error stands in the chain. -/
def Plain (err : GoError) : Prop := err.asProtocol = none

/-- An error of a local check: no protocol error stands in the chain, and it is not about the
plan of the run. -/
structure Inert (err : GoError) : Prop where
  plain : err.Plain
  notPlan : err.is .planHashMismatch = false

@[simp] theorem asProtocol_protocol (code : ErrorCode) (round : UInt8) (party : PartyID)
    (blame : Option Blame) (err : GoError) :
    (protocol code round party blame err).asProtocol = some ⟨code, round, party, blame, err⟩ :=
  rfl

end GoError

end Tss
