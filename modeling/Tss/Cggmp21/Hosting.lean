import Tss.Cggmp21.Config
import Tss.Lifecycle.Operations

/-!
# What the lifecycle sessions share

Refresh, reshare and child derivation each run Figure 7, exchange
confirmations and make the outcome durable. Their session logic is modelled
over `LifecycleOps`: the Figure 7 state machine and the key share are what the
class says a session uses of them, so what is proved of a session holds
whatever they compute.
-/

namespace Tss.Cggmp21

open Fallible Lifecycle

/-! ## Payload types -/

def payloadKeygenConfirmation : GoString := lit "cggmp21.secp256k1.keygen.confirmation"
def payloadAuxInfoCommitment : GoString := lit "cggmp21.secp256k1.auxinfo.commitment"
def payloadAuxInfoReveal : GoString := lit "cggmp21.secp256k1.auxinfo.reveal"
def payloadAuxInfoProofs : GoString := lit "cggmp21.secp256k1.auxinfo.proofs"
def payloadAuxInfoDirect : GoString := lit "cggmp21.secp256k1.auxinfo.direct"
def payloadAuxInfoDecryptionError : GoString := lit "cggmp21.secp256k1.auxinfo.decryption-error"

def auxInfoPayloads : List GoString :=
  [payloadAuxInfoCommitment, payloadAuxInfoReveal, payloadAuxInfoProofs, payloadAuxInfoDirect,
    payloadAuxInfoDecryptionError]

def isAuxInfoPayload (payloadType : GoString) : Bool := auxInfoPayloads.any (· = payloadType)

/-- An envelope that Figure 7 sends. -/
def AuxEnvelope : Type := { e : Envelope // isAuxInfoPayload e.payloadType = true }

/-- `paperKeygenMessageKey`. -/
structure MessageKey where
  round : UInt8
  sender : PartyID
  recipient : PartyID
  payloadType : GoString
deriving DecidableEq

/-- `newPaperKeygenMessageKey`. -/
def newMessageKey (e : Envelope) : MessageKey := ⟨e.round, e.sender, e.recipient, e.payloadType⟩

/-! ## Confirmations -/

structure KeygenConfirmation where
  sessionID : Array32
  sender : PartyID
  threshold : ℕ
  parties : PartySet
  publicKey : Bytes
  transcriptHash : Bytes
  commitmentsHash : Bytes
  chainCode : Bytes
  planHash : Bytes
  epochID : Bytes
deriving DecidableEq

/-- A binding field that differs. -/
def confirmationMismatch (field : String) (confirmation : KeygenConfirmation) : GoError :=
  .errorf ("keygen confirmation " ++ field ++ " mismatch from party %d")
    [.num confirmation.sender.toNat]

def compareKeygenConfirmationBindingFields (reference confirmation : KeygenConfirmation) :
    Except GoError Unit := do
  rejectIf (confirmation.sessionID ≠ reference.sessionID)
    (confirmationMismatch "session" confirmation)
  rejectIf (confirmation.threshold ≠ reference.threshold)
    (.errorf "keygen confirmation threshold mismatch from party %d: got %d, want %d"
      [.num confirmation.sender.toNat, .num confirmation.threshold, .num reference.threshold])
  rejectIf (confirmation.parties ≠ reference.parties) (confirmationMismatch "party set" confirmation)
  rejectIf (confirmation.publicKey ≠ reference.publicKey)
    (confirmationMismatch "public key" confirmation)
  rejectIf (confirmation.transcriptHash ≠ reference.transcriptHash)
    (confirmationMismatch "transcript" confirmation)
  rejectIf (confirmation.commitmentsHash ≠ reference.commitmentsHash)
    (confirmationMismatch "commitments" confirmation)
  rejectIf (confirmation.planHash ≠ reference.planHash)
    (.wrap "keygen confirmation from party %d: %w" [.num confirmation.sender.toNat]
      (.sentinel .planHashMismatch))
  rejectIf (confirmation.epochID ≠ reference.epochID) (confirmationMismatch "epoch" confirmation)

/-- `planvalidation.RequireHash`. -/
def requirePlanHash (label : String) (got want : Bytes) : Except GoError Unit := do
  rejectIf (got.length ≠ sha256Size) (.errorf (label ++ " plan hash must be %d bytes")
    [.num sha256Size])
  rejectIf (got ≠ want) (.wrap (label ++ ": %w") [] (.sentinel .planHashMismatch))

/-! ## Figure 7 and key shares, as a session uses them -/

inductive Figure7FailureClass where
  | decryptionError
  | falseAccusation
deriving DecidableEq

structure Figure7Failure where
  failureClass : Figure7FailureClass
  reporter : PartyID
  accused : PartyID
  directEnvelopeDigest : Bytes
deriving DecidableEq

/-- `preparedAuxInfoInbound`: what a verified message does, before it is applied. -/
structure PreparedAuxInfo (AuxInfo AuxResult : Type) where
  out : List AuxEnvelope
  failure : Option Figure7Failure
  result : Option AuxResult
  apply : Except GoError AuxInfo

/-- The parts of a run that a session only moves around. `Coins` is what one call reads from the
random source. -/
class LifecycleOps where
  Coins : Type
  AuxInfo : Type
  AuxResult : Type
  KeyShare : Type
  /-- `auxInfoState.prepareInbound`. -/
  prepareInbound : AuxInfo → HandlerContext → Envelope → Coins →
    Except GoError (PreparedAuxInfo AuxInfo AuxResult)
  /-- `auxInfoPreparationError`. -/
  preparationError : Envelope → PartySet → GoError → GoError
  /-- `KeygenConfirmation.UnmarshalBinaryWithLimits`. -/
  unmarshalConfirmation : ProtocolLimits → Bytes → Except GoError KeygenConfirmation
  /-- `verifyKeygenConfirmationForPreservedChainCode`. -/
  verifyConfirmation : KeyShare → KeygenConfirmation → Except GoError Unit
  /-- `verifyKeygenConfirmationSetPreservedChainCodeStruct`, `attachKeygenConfirmations` and
  `ValidateWithLimits` of the share with the confirmations attached. -/
  attachConfirmations : ProtocolLimits → KeyShare → List KeygenConfirmation →
    Except GoError KeyShare
  /-- `KeyShare.MarshalBinaryWithLimits`. -/
  marshalKeyShare : ProtocolLimits → KeyShare → Except GoError Bytes
  /-- The epoch ID and the plan hash of `PublicMetadata`. -/
  metadata : KeyShare → Option (Bytes × Bytes)
  /-- Why the certificate of a broadcast cannot be bound into the evidence of a blame. -/
  bindFailure : InboundEnvelope → Blame → Option GoError

def bindInboundAuthenticationEvidence [LifecycleOps] (inbound : InboundEnvelope) (err : GoError) :
    GoError :=
  match err.asProtocol, inbound.broadcast with
  | some ⟨code, round, party, some blame, cause⟩, some _ =>
    if inbound.env.recipient ≠ broadcastPartyId then err
    else match LifecycleOps.bindFailure inbound blame with
      | some failure =>
        .newProtocolError .invariant inbound.env.round inbound.env.sender failure
      | none => .protocol code round party (some blame) cause
  | _, _ => err

/-! ## Durable calls -/

/-- What becomes of a call of the lifecycle store. A context that is done is a call that fails
without effect. -/
inductive StoreFault where
  | none
  /-- The call fails without effect. -/
  | failed (err : LifecycleError)
  /-- The call takes effect and still reports an error. -/
  | lost (err : LifecycleError)

/-- The call, with its fault. -/
def StoreFault.run {α : Type} (fault : StoreFault) (call : LifecycleM α) : LifecycleM α :=
  match fault with
  | .none => call
  | .failed err => throw err
  | .lost err => do
    let _ ← call
    throw err

/-- The error of a session's call: one of the protocol, or one of the store. -/
inductive SessionError where
  | err (e : GoError)
  /-- `fmt.Errorf` with the error of the store. -/
  | store (format : String) (e : LifecycleError)
  /-- `errors.Join`. -/
  | join (first second : SessionError)

namespace SessionError

/-- `errors.As` with a `*tss.ProtocolError`. -/
def asProtocol : SessionError → Option ProtocolError
  | err e => e.asProtocol
  | store _ _ => none
  | join first second => first.asProtocol <|> second.asProtocol

/-- `bindInboundAuthenticationEvidence` of the error of a call. -/
def bindEvidence [LifecycleOps] (inbound : InboundEnvelope) : SessionError → SessionError
  | err e => err (bindInboundAuthenticationEvidence inbound e)
  | e => e

/-- `shouldAbortSession`. -/
def shouldAbort (e : SessionError) : Bool := e.asProtocol.any abortsSession

end SessionError

/-- A session with the replay cache of its guard and the store that its runs are recorded in. -/
structure World (S : Type) where
  session : S
  cache : ReplayCache
  store : MemoryLifecycleStore

/-- A method of a session. -/
abbrev SessionM (S : Type) := Proc (World S) SessionError

namespace SessionM

variable {S α : Type}

/-- The outcome of a check. -/
def lift (x : Except GoError α) : SessionM S α := Proc.outcome (x.mapError .err)

/-- A body that only works on the session. -/
def onSession (x : Proc S GoError α) : SessionM S α :=
  Proc.zoom (·.session) (fun s w => { w with session := s }) (Proc.mapError .err x)

/-- A call of the store. -/
def onStore (format : String) (fault : StoreFault) (call : LifecycleM α) : SessionM S α :=
  Proc.zoom (·.store) (fun st w => { w with store := st })
    (Proc.mapError (.store format) (fault.run call))

def modifySession (f : S → S) : SessionM S Unit := modify fun w => { w with session := f w.session }

/-- Run a body and hand its outcome to the caller; its writes stay. -/
def result (x : SessionM S α) : SessionM S (Except SessionError α) :=
  fun w => (.ok (Proc.exec x w).1, (Proc.exec x w).2)

/-! A call of the store leaves the session alone, and a check leaves everything alone. -/

section Spec

open Proc

variable {β : Type} {E : SessionError → World S → Prop} {Q : α → World S → Prop}
  {R : β → World S → Prop} {w : World S}

theorem spec_lift_bind {x : Except GoError α} {f : α → SessionM S β}
    (he : ∀ e, x = .error e → E (.err e) w) (ha : ∀ a, x = .ok a → Spec E R (f a) w) :
    Spec E R (lift x >>= f) w := by
  cases x with
  | error e => exact he e rfl
  | ok a => exact ha a rfl

theorem spec_onSession {x : Proc S GoError α}
    (h : Spec (fun e t => E (.err e) { w with session := t })
      (fun a t => Q a { w with session := t }) x w.session) : Spec E Q (onSession x) w := by
  rw [Spec, onSession, exec_zoom, exec_mapError]
  rcases hr : exec x w.session with ⟨e | a, t⟩
  · exact h.error hr
  · exact h.ok hr

theorem spec_onStore {format : String} {fault : StoreFault} {call : LifecycleM α}
    (he : ∀ e store, E (.store format e) { w with store })
    (ha : ∀ a store, Q a { w with store }) : Spec E Q (onStore format fault call) w := by
  rw [Spec, onStore, exec_zoom, exec_mapError]
  rcases exec (fault.run call) w.store with ⟨e | a, t⟩
  · exact he e t
  · exact ha a t

theorem spec_modifySession {Q : Unit → World S → Prop} {f : S → S}
    (h : Q ⟨⟩ { w with session := f w.session }) : Spec E Q (modifySession f) w := h

theorem spec_modifySession_bind {g : S → S} {f : Unit → SessionM S β}
    (h : Spec E R (f ⟨⟩) { w with session := g w.session }) :
    Spec E R (modifySession g >>= f) w :=
  Spec.modify_bind h

theorem spec_result {x : SessionM S α} {Q : Except SessionError α → World S → Prop}
    (h : Spec (fun e => Q (.error e)) (fun a => Q (.ok a)) x w) : Spec E Q (result x) w := by
  show Q (exec x w).1 (exec x w).2
  rcases hr : exec x w with ⟨e | a, t⟩
  · exact h.error hr
  · exact h.ok hr

end Spec

end SessionM

end Tss.Cggmp21
