import Tss.Envelope
import Tss.Lib.FMap
import Tss.Lib.Proc

/-!
# The envelope guard and the handler template (`guard.go`, `replay.go`, `config.go`,
`frost/ed25519/session_transition.go`)

`validateInbound` runs the transport checks on a delivery and reserves its
replay slot. The cache is kept beside the session (`Hosted`), so that what a
handler does to one and to the other can be told apart.
-/

namespace Tss

/-! ## Delivery policies -/

inductive DeliveryMode where
  | direct
  | broadcast
deriving DecidableEq

inductive ConfidentialityPolicy where
  | forbidden
  | optional
  | required
deriving DecidableEq

inductive BroadcastConsistencyPolicy where
  | none
  | required
deriving DecidableEq

structure DeliveryPolicy where
  protocol : GoString
  round : UInt8
  payloadType : GoString
  mode : DeliveryMode
  confidentiality : ConfidentialityPolicy
  broadcastConsistency : BroadcastConsistencyPolicy
  requireSenderSignature : Bool
deriving DecidableEq

abbrev PolicySet := List DeliveryPolicy

/-- `PolicySet.Match`. -/
def PolicySet.matchPolicy (ps : PolicySet) (protocol : GoString) (round : UInt8) (payloadType : GoString) :
    Except GoError DeliveryPolicy :=
  match ps.find? fun p => p.protocol = protocol ∧ p.round = round ∧ p.payloadType = payloadType with
  | some p => .ok p
  | none => .error (.sentinel .unknownPayloadPolicy)

/-! ## Replay cache -/

structure MessageSlotKey where
  protocol : GoString
  sessionID : Array32
  round : UInt8
  sender : PartyID
  recipient : PartyID
  payloadType : GoString
deriving DecidableEq

/-- `SlotKeyFromEnvelope`. -/
def Envelope.slotKey (e : Envelope) : MessageSlotKey :=
  ⟨e.protocol, e.sessionID, e.round, e.sender, e.recipient, e.payloadType⟩

/-- `InMemoryReplayCache`. -/
structure ReplayCache where
  seen : FMap MessageSlotKey Array32
  maxEntries : Nat

/-- `CheckAndStore`. A rejected message leaves the cache as it is. -/
def ReplayCache.checkAndStore (c : ReplayCache) (slot : MessageSlotKey) (payloadHash : Array32) :
    Except GoError ReplayCache :=
  match c.seen.lookup slot with
  | none => do
    rejectIf (c.maxEntries ≤ c.seen.keys.card) (.sentinel .replayCacheFull)
    pure { c with seen := c.seen.insert slot payloadHash }
  | some existing =>
    if existing = payloadHash then .error (.sentinel .duplicateMessage)
    else .error (.sentinel .equivocation)

/-! ## The guard -/

/-- `EnvelopeGuard`, without its construction-time parties and its replay cache. -/
structure EnvelopeGuard where
  self : PartyID
  protocol : GoString
  sessionID : Array32
  policies : PolicySet
  ackVerifier : Option SignatureVerifier
  envelopeVerifier : Option SignatureVerifier

/-- The rejection of a delivery: a protocol error at the round and sender of the envelope. -/
def Envelope.invalid (e : Envelope) (err : GoError) : GoError :=
  .newProtocolError .invalidMessage e.round e.sender err

def validateInboundDeliveryPolicy (e : Envelope) (info : ReceiveInfo) (policy : DeliveryPolicy) :
    Except GoError Unit := do
  match policy.mode with
  | .direct =>
    rejectIf (e.recipient = broadcastPartyId)
      (e.invalid (.wrap "%w: %s" [.text e.payloadType] (.sentinel .expectedDirectMessage)))
  | .broadcast =>
    rejectIf (e.recipient ≠ broadcastPartyId)
      (e.invalid (.wrap "%w: %s" [.text e.payloadType] (.sentinel .expectedBroadcastMessage)))
  match policy.confidentiality with
  | .required =>
    rejectIf (info.protection ≠ .confidential)
      (e.invalid (.wrap "%w: %s" [.text e.payloadType] (.sentinel .missingConfidentiality)))
  | .forbidden =>
    rejectIf (info.protection = .confidential)
      (e.invalid (.wrap "%w: %s" [.text e.payloadType] (.sentinel .unexpectedConfidentiality)))
  | .optional => pure ()

section Validate

variable [Sha256]

/-- The sender signature, where the policy asks for one. -/
def EnvelopeGuard.validateSignature (g : EnvelopeGuard) (e : Envelope) (policy : DeliveryPolicy) :
    Except GoError Unit :=
  if policy.requireSenderSignature then
    match g.envelopeVerifier with
    | none => .error (e.invalid (.sentinel .missingEnvelopeSignatureVerifier))
    | some verifier => (verifyEnvelopeSignature e verifier).mapError e.invalid
  else .ok ()

/-- The broadcast certificate, where the policy asks for one. -/
def EnvelopeGuard.validateCertificate (g : EnvelopeGuard) (env : InboundEnvelope)
    (parties : PartySet) (policy : DeliveryPolicy) : Except GoError Unit :=
  if policy.broadcastConsistency = .required then
    match env.broadcast with
    | none => .error (env.env.invalid (.wrap "%w: %s" [.text env.env.payloadType]
        (.sentinel .missingBroadcastCertificate)))
    | some cert => (cert.verifyFull env.env parties g.ackVerifier).mapError fun err =>
        env.env.invalid (.wrapBoth (.sentinel .invalidBroadcastCertificate) err)
  else .ok ()

/-- `validateWithParties` up to the replay check: `ValidateWithoutReplay`. -/
def EnvelopeGuard.validateWithoutReplay (g : EnvelopeGuard) (env : InboundEnvelope)
    (parties : PartySet) : Except GoError Unit := do
  let e := env.env
  let info := env.receiveInfo
  rejectIf (e.protocol ≠ g.protocol)
    (e.invalid (.errorf "unexpected protocol %q" [.text e.protocol]))
  rejectIf (e.sessionID ≠ g.sessionID) (e.invalid (.new "session mismatch"))
  rejectIf (e.sender ∉ parties)
    (e.invalid (.errorf "sender %d is not a participant" [.num e.sender.toNat]))
  rejectIf (e.sender = g.self) (e.invalid (.sentinel .selfSender))
  rejectIf (info.peer = broadcastPartyId) (e.invalid (.sentinel .unauthenticatedTransport))
  rejectIf (info.peer ≠ e.sender)
    (e.invalid (.wrap "%w: authenticated %d, envelope from %d"
      [.num info.peer.toNat, .num e.sender.toNat] (.sentinel .senderIdentityMismatch)))
  match info.protection with
  | .unknown => throw (e.invalid (.sentinel .missingChannelProtection))
  | .undefined value =>
    throw (e.invalid (.wrap "%w: %d" [.num value.toNat] (.sentinel .invalidChannelProtection)))
  | _ => pure ()
  rejectIf (e.recipient ≠ broadcastPartyId ∧ e.recipient ≠ g.self)
    (e.invalid (.wrap "%w: expected %d, got %d" [.num g.self.toNat, .num e.recipient.toNat]
      (.sentinel .wrongRecipient)))
  let policy ← (g.policies.matchPolicy e.protocol e.round e.payloadType).mapError e.invalid
  g.validateSignature e policy
  validateInboundDeliveryPolicy e info policy
  g.validateCertificate env parties policy

/-- The replay check of `validateWithParties`: a duplicate is reported as such, anything
else is a verification failure. -/
def reserveReplaySlot (e : Envelope) (cache : ReplayCache) : Except GoError ReplayCache :=
  (cache.checkAndStore e.slotKey e.payloadHash).mapError fun err =>
    if err.is .duplicateMessage then .sentinel .duplicateMessage
    else .newProtocolError .verification e.round e.sender err

/-- `requireEnvelopeGuardIdentity`. -/
def EnvelopeGuard.requireIdentity (g : EnvelopeGuard) (protocol : GoString) (session : Array32)
    (self : PartyID) : Except GoError Unit := do
  rejectIf (g.protocol ≠ protocol)
    (.errorf "guard protocol %q does not match expected %q" [.text g.protocol, .text protocol])
  rejectIf (g.sessionID ≠ session)
    (.errorf "guard session %x does not match expected %x"
      [.text g.sessionID.toList, .text session.toList])
  rejectIf (g.self ≠ self)
    (.errorf "guard self %d does not match expected %d" [.num g.self.toNat, .num self.toNat])
  rejectIf (g.policies = []) (.new "guard policy set must not be empty")
  rejectIf (g.ackVerifier.isNone) (.sentinel .missingAckVerifier)
  rejectIf ((g.policies.any (·.requireSenderSignature)) ∧ g.envelopeVerifier.isNone)
    (.sentinel .missingEnvelopeSignatureVerifier)

def validateInboundWithoutReplay (g : EnvelopeGuard) (env : InboundEnvelope) (protocol : GoString)
    (session : Array32) (allowedSenders : PartySet) (self : PartyID) : Except GoError Unit := do
  g.requireIdentity protocol session self
  rejectIf (allowedSenders = []) (.new "allowed senders must not be empty")
  g.validateWithoutReplay env allowedSenders

/-- `ValidateInbound`: the cache with the slot of the message reserved. -/
def validateInbound (g : EnvelopeGuard) (env : InboundEnvelope) (protocol : GoString)
    (session : Array32) (allowedSenders : PartySet) (self : PartyID) (cache : ReplayCache) :
    Except GoError ReplayCache := do
  validateInboundWithoutReplay g env protocol session allowedSenders self
  reserveReplaySlot env.env cache

open Fallible in
/-- An accepted envelope comes from another party of the allowed ones. -/
theorem validateInboundWithoutReplay_sender {g : EnvelopeGuard} {env : InboundEnvelope}
    {protocol : GoString} {session : Array32} {allowedSenders : PartySet} {self : PartyID}
    (h : validateInboundWithoutReplay g env protocol session allowedSenders self = .ok ()) :
    env.env.sender ∈ allowedSenders ∧ env.env.sender ≠ g.self := by
  iterate 4 obtain ⟨-, h⟩ := seq_eq_ok.mp h
  obtain ⟨hmember, h⟩ := seq_eq_ok.mp h
  obtain ⟨hself, -⟩ := seq_eq_ok.mp h
  exact ⟨not_not.mp (rejectIf_eq_ok.mp hmember), rejectIf_eq_ok.mp hself⟩

end Validate

/-! ## Contexts -/

/-- Why a context is done. -/
inductive ContextCause where
  | canceled
  | deadlineExceeded
deriving DecidableEq

def ContextCause.err : ContextCause → GoError
  | .canceled => .sentinel .canceled
  | .deadlineExceeded => .sentinel .deadlineExceeded

/-- The delivery context and the session context of one `Handle` call. Either may become
done while the call runs; what the call sees of that is after how many of its checks. -/
structure HandlerContext where
  nilDelivery : Bool
  doneAfter : Option Nat
  cause : ContextCause

/-- The `i`-th `CheckHandlerContext` of a call. -/
def HandlerContext.check (ctx : HandlerContext) (i : Nat) : Except GoError Unit := do
  rejectIf ctx.nilDelivery (.new "nil handler context")
  rejectIf (ctx.doneAfter.any (· ≤ i)) ctx.cause.err

/-- A context that stays live through the call. -/
def HandlerContext.background : HandlerContext := ⟨false, none, .canceled⟩

/-- The context of an `Abort` or `Close` call, which is looked at once. -/
inductive CallerContext where
  | absent
  | done (cause : ContextCause)
  | live
deriving DecidableEq

/-- `nil` and done contexts are refused. -/
def CallerContext.check (nilText : String) : CallerContext → Except GoError Unit
  | .absent => .error (.new nilText)
  | .done cause => .error cause.err
  | .live => .ok ()

/-! ## The handler template of the FROST sessions -/

/-- A session and the replay cache of its guard. -/
structure Hosted (S : Type) where
  session : S
  cache : ReplayCache

/-- `shouldAbortSession` of the FROST sessions. -/
def shouldAbortSession (err : GoError) : Bool :=
  match err.asProtocol with
  | none => false
  | some p =>
    if p.code = .duplicate then false
    else if p.code = .verification ∧ p.err.is .planHashMismatch then false
    else p.code = .verification || p.code = .invariant || p.blame.isSome

/-- `terminalSignApplyError` and `terminalKeygenApplyError`: anything but a protocol error is an
invariant failure. -/
def terminalApplyError (round : UInt8) (err : GoError) : GoError :=
  match err.asProtocol with
  | some _ => err
  | none => .newProtocolError .invariant round broadcastPartyId err

def completedSessionError (e : Envelope) : GoError :=
  .newProtocolError .completed e.round e.sender (.new "session already completed")

def abortedSessionError (e : Envelope) : GoError :=
  .newProtocolError .aborted e.round e.sender (.new "session already aborted")

/-! ### Errors that abort -/

/-- The session aborts on the error once `terminalApplyError` has seen it. -/
def Terminal (err : GoError) : Prop :=
  ∀ round, shouldAbortSession (terminalApplyError round err) = true

theorem Terminal.of_plain {err : GoError} (h : err.Plain) : Terminal err := by
  intro round
  have hnone : err.asProtocol = none := h
  simp [Tss.terminalApplyError, hnone, shouldAbortSession, GoError.newProtocolError]

/-- A failed verification aborts, unless it is about the plan. -/
theorem Terminal.of_verification {cause : GoError} (h : cause.is .planHashMismatch = false)
    (round : UInt8) (party : PartyID) (blame : Option Blame) :
    Terminal (.protocol .verification round party blame cause) := by
  intro r
  simp [Tss.terminalApplyError, shouldAbortSession, h]

/-- A second look of `terminalApplyError` leaves the error as it is. -/
theorem Terminal.terminalApplyError {err : GoError} (h : Terminal err) (round : UInt8) :
    Terminal (terminalApplyError round err) := by
  intro r
  have hkeep : Tss.terminalApplyError r (Tss.terminalApplyError round err) =
      Tss.terminalApplyError round err := by
    cases hproto : err.asProtocol <;>
      simp [Tss.terminalApplyError, hproto, GoError.newProtocolError]
  rw [hkeep]
  exact h round

/-! ### Rejections of the guard -/

open Fallible

/-- The error is the rejection of this envelope. -/
def Envelope.Rejects (e : Envelope) (err : GoError) : Prop := ∃ cause, err = e.invalid cause

theorem Envelope.rejects_invalid (e : Envelope) (cause : GoError) : e.Rejects (e.invalid cause) :=
  ⟨cause, rfl⟩

theorem validateInboundDeliveryPolicy_rejects (e : Envelope) (info : ReceiveInfo)
    (policy : DeliveryPolicy) :
    ErrorsIn e.Rejects (validateInboundDeliveryPolicy e info policy) := by
  have hconfidential : ∀ x : Except GoError Unit, x = (match policy.confidentiality with
      | .required =>
        rejectIf (info.protection ≠ .confidential)
          (e.invalid (.wrap "%w: %s" [.text e.payloadType] (.sentinel .missingConfidentiality)))
      | .forbidden =>
        rejectIf (info.protection = .confidential)
          (e.invalid (.wrap "%w: %s" [.text e.payloadType] (.sentinel .unexpectedConfidentiality)))
      | .optional => pure ()) → ErrorsIn e.Rejects x := by
    intro x hx
    subst hx
    split
    · exact .rejectIf (e.rejects_invalid _)
    · exact .rejectIf (e.rejects_invalid _)
    · exact .ok _
  unfold validateInboundDeliveryPolicy
  dsimp only
  split
  · exact .bind (.rejectIf (e.rejects_invalid _)) fun _ _ => hconfidential _ rfl
  · exact .bind (.rejectIf (e.rejects_invalid _)) fun _ _ => hconfidential _ rfl

section Rejections

variable [Sha256]

theorem EnvelopeGuard.validateSignature_rejects (g : EnvelopeGuard) (e : Envelope)
    (policy : DeliveryPolicy) : ErrorsIn e.Rejects (g.validateSignature e policy) := by
  unfold EnvelopeGuard.validateSignature
  split
  · split
    · exact .error (e.rejects_invalid _)
    · exact .mapError fun _ _ => e.rejects_invalid _
  · exact .ok _

theorem EnvelopeGuard.validateCertificate_rejects (g : EnvelopeGuard) (env : InboundEnvelope)
    (parties : PartySet) (policy : DeliveryPolicy) :
    ErrorsIn env.env.Rejects (g.validateCertificate env parties policy) := by
  unfold EnvelopeGuard.validateCertificate
  split
  · split
    · exact .error (env.env.rejects_invalid _)
    · exact .mapError fun _ _ => env.env.rejects_invalid _
  · exact .ok _

/-- Everything the guard checks before the replay cache is a rejection of the envelope. -/
theorem EnvelopeGuard.validateWithoutReplay_rejects (g : EnvelopeGuard) (env : InboundEnvelope)
    (parties : PartySet) : ErrorsIn env.env.Rejects (g.validateWithoutReplay env parties) := by
  have hinvalid := env.env.rejects_invalid
  have hpolicy : ∀ policy, ErrorsIn env.env.Rejects (do
      g.validateSignature env.env policy
      validateInboundDeliveryPolicy env.env env.receiveInfo policy
      g.validateCertificate env parties policy) := by
    intro policy
    exact .bind (g.validateSignature_rejects env.env policy) fun _ _ =>
      .bind (validateInboundDeliveryPolicy_rejects env.env env.receiveInfo policy) fun _ _ =>
        g.validateCertificate_rejects env parties policy
  repeat refine .bind (.rejectIf (hinvalid _)) fun _ _ => ?_
  split
  · exact .error (hinvalid _)
  · exact .error (hinvalid _)
  · exact .bind (.rejectIf (hinvalid _)) fun _ _ =>
      .bind (.mapError fun _ _ => hinvalid _) fun policy _ => hpolicy policy

/-- A reserved slot was free. -/
theorem reserveReplaySlot_eq_ok {e : Envelope} {cache next : ReplayCache}
    (h : reserveReplaySlot e cache = .ok next) :
    cache.seen.lookup e.slotKey = none ∧
      next = { cache with seen := cache.seen.insert e.slotKey e.payloadHash } := by
  rw [reserveReplaySlot, mapError_eq_ok, ReplayCache.checkAndStore] at h
  split at h
  · next hfree =>
    obtain ⟨-, h⟩ := seq_eq_ok.mp h
    exact ⟨hfree, (Except.ok.inj h).symm⟩
  · split at h <;> cases h

/-- No rejection before the replay check aborts a session. -/
theorem validateInboundWithoutReplay_keeps (g : EnvelopeGuard) (env : InboundEnvelope)
    (protocol : GoString) (session : Array32) (allowedSenders : PartySet) (self : PartyID) :
    ErrorsIn (fun err => shouldAbortSession err = false)
      (validateInboundWithoutReplay g env protocol session allowedSenders self) := by
  have hplain : ∀ err : GoError, err.Plain → shouldAbortSession err = false := by
    intro err h
    have hnone : err.asProtocol = none := h
    simp [shouldAbortSession, hnone]
  refine .bind (ErrorsIn.imp (P := GoError.Plain) ?_ hplain) fun _ _ =>
    .bind (.rejectIf (hplain _ rfl)) fun _ _ => ?_
  · unfold EnvelopeGuard.requireIdentity
    repeat refine .guard rfl ?_
    exact .rejectIf rfl
  · refine ErrorsIn.imp (g.validateWithoutReplay_rejects env allowedSenders) ?_
    rintro err ⟨cause, rfl⟩
    simp [Envelope.invalid, GoError.newProtocolError, shouldAbortSession]

end Rejections

/-- What a session type supplies to the template: `T` are its transitions. -/
structure SessionOps (S T : Type) where
  completed : S → Bool
  aborted : S → Bool
  abort : S → S
  /-- The first step of `build`. -/
  validateInbound : S → InboundEnvelope → ReplayCache → Except GoError ReplayCache
  /-- The rest of `build`. -/
  build : S → Envelope → Except GoError T
  apply : T → Proc S GoError (List Envelope)

namespace SessionOps

variable {S T : Type} (ops : SessionOps S T)

/-- Errors of `build`: a duplicate is reported as `ErrDuplicateMessage` itself. -/
def normalizeDuplicate (err : GoError) : GoError :=
  if err.is .duplicateMessage then .sentinel .duplicateMessage else err

/-- The deferred abort. -/
def settle (r : Except GoError (List Envelope)) (s : S) : S :=
  match r with
  | .ok _ => s
  | .error err => if shouldAbortSession err then ops.abort s else s

def handleSessionEnvelope (ctx : HandlerContext) (env : InboundEnvelope) (h : Hosted S) :
    Except GoError (List Envelope) × Hosted S :=
  match ctx.check 0 with
  | .error err => (.error err, h)
  | .ok () =>
    if ops.completed h.session then (.error (completedSessionError env.env), h)
    else if ops.aborted h.session then (.error (abortedSessionError env.env), h)
    else
      match ops.validateInbound h.session env h.cache with
      | .error err =>
        let r := .error (normalizeDuplicate err)
        (r, { h with session := ops.settle r h.session })
      | .ok cache =>
        match ops.build h.session env.env with
        | .error err =>
          let r := .error (normalizeDuplicate err)
          (r, ⟨ops.settle r h.session, cache⟩)
        | .ok tx =>
          match ctx.check 1 with
          | .error err => (.error err, ⟨ops.settle (.error err) h.session, cache⟩)
          | .ok () =>
            let (r, s) := Proc.exec (ops.apply tx) h.session
            (r, ⟨ops.settle r s, cache⟩)

/-! ### What a call can do -/

/-- The outcomes of one call, with what each leaves behind. -/
inductive Handled (ctx : HandlerContext) (env : InboundEnvelope) (h : Hosted S) :
    Except GoError (List Envelope) → Hosted S → Prop
  /-- The context is done before anything happens. -/
  | cancelled (err : GoError) (hctx : ctx.check 0 = .error err) :
      Handled ctx env h (.error err) h
  /-- The session is completed or aborted. -/
  | terminal (err : GoError) (hdone : ops.completed h.session ∨ ops.aborted h.session) :
      Handled ctx env h (.error err) h
  /-- The guard rejects the envelope. -/
  | rejected (err : GoError) (hlive : ops.completed h.session = false)
      (hrun : ops.aborted h.session = false)
      (hvalid : ops.validateInbound h.session env h.cache = .error err) :
      Handled ctx env h (.error (normalizeDuplicate err))
        ⟨ops.settle (.error (normalizeDuplicate err)) h.session, h.cache⟩
  /-- The message is refused after its replay slot is reserved. -/
  | refused (cache : ReplayCache) (err : GoError) (hlive : ops.completed h.session = false)
      (hrun : ops.aborted h.session = false)
      (hvalid : ops.validateInbound h.session env h.cache = .ok cache)
      (hbuild : ops.build h.session env.env = .error err) :
      Handled ctx env h (.error (normalizeDuplicate err))
        ⟨ops.settle (.error (normalizeDuplicate err)) h.session, cache⟩
  /-- The context is done after the replay slot is reserved. -/
  | interrupted (cache : ReplayCache) (tx : T) (err : GoError)
      (hlive : ops.completed h.session = false) (hrun : ops.aborted h.session = false)
      (hvalid : ops.validateInbound h.session env h.cache = .ok cache)
      (hbuild : ops.build h.session env.env = .ok tx) (hctx : ctx.check 1 = .error err) :
      Handled ctx env h (.error err) ⟨ops.settle (.error err) h.session, cache⟩
  /-- The transition is applied. -/
  | applied (cache : ReplayCache) (tx : T) (hlive : ops.completed h.session = false)
      (hrun : ops.aborted h.session = false)
      (hvalid : ops.validateInbound h.session env h.cache = .ok cache)
      (hbuild : ops.build h.session env.env = .ok tx) :
      Handled ctx env h (Proc.exec (ops.apply tx) h.session).1
        ⟨ops.settle (Proc.exec (ops.apply tx) h.session).1 (Proc.exec (ops.apply tx) h.session).2,
          cache⟩

theorem handled (ctx : HandlerContext) (env : InboundEnvelope) (h : Hosted S) :
    ops.Handled ctx env h (ops.handleSessionEnvelope ctx env h).1
      (ops.handleSessionEnvelope ctx env h).2 := by
  unfold handleSessionEnvelope
  split
  · next err hctx => exact .cancelled err hctx
  · split
    · next hdone => exact .terminal _ (.inl hdone)
    · split
      · next hdone => exact .terminal _ (.inr hdone)
      · next hlive hrun =>
        rw [Bool.not_eq_true] at hlive hrun
        split
        · next err hvalid => exact .rejected err hlive hrun hvalid
        · next cache hvalid =>
          split
          · next err hbuild => exact .refused cache err hlive hrun hvalid hbuild
          · next tx hbuild =>
            split
            · next err hctx => exact .interrupted cache tx err hlive hrun hvalid hbuild hctx
            · exact .applied cache tx hlive hrun hvalid hbuild

variable {ops} in
/-- A property of the session survives a call when aborting keeps it and so does applying a
transition that was built from a live session. -/
theorem handle_inv {P : S → Prop} {ctx : HandlerContext} {env : InboundEnvelope} {h : Hosted S}
    (hP : P h.session) (habort : ∀ s, P s → P (ops.abort s))
    (happly : ∀ cache tx, ops.completed h.session = false → ops.aborted h.session = false →
      ops.validateInbound h.session env h.cache = .ok cache →
      ops.build h.session env.env = .ok tx →
      P (ops.settle (Proc.exec (ops.apply tx) h.session).1
        (Proc.exec (ops.apply tx) h.session).2)) :
    P (ops.handleSessionEnvelope ctx env h).2.session := by
  have hsettle : ∀ err, P (ops.settle (.error err) h.session) := by
    intro err
    unfold settle
    split
    · exact hP
    · split
      · exact habort _ hP
      · exact hP
  have hcases := ops.handled ctx env h
  generalize (ops.handleSessionEnvelope ctx env h).1 = r at hcases
  generalize (ops.handleSessionEnvelope ctx env h).2 = h' at hcases ⊢
  cases hcases with
  | cancelled => exact hP
  | terminal => exact hP
  | rejected err => exact hsettle _
  | refused cache err => exact hsettle _
  | interrupted cache tx err => exact hsettle _
  | applied cache tx hlive hrun hvalid hbuild => exact happly cache tx hlive hrun hvalid hbuild

variable {ops} in
/-- A failed call leaves the session as it was or aborts it, when every error of `apply` is
one the session aborts on. -/
theorem handle_error {Q : S → Prop} {ctx : HandlerContext} {env : InboundEnvelope}
    {h h' : Hosted S} {err : GoError}
    (hfail : ops.handleSessionEnvelope ctx env h = (.error err, h'))
    (hself : ops.completed h.session = false → ops.aborted h.session = false →
      Q (ops.abort h.session))
    (happly : ∀ tx, ops.completed h.session = false → ops.aborted h.session = false →
      ops.build h.session env.env = .ok tx →
      Proc.ErrorsAt (fun e t => shouldAbortSession e = true ∧ Q (ops.abort t)) (ops.apply tx)
        h.session) :
    h'.session = h.session ∨ Q h'.session := by
  have hsettle : ∀ e, ops.completed h.session = false → ops.aborted h.session = false →
      ops.settle (.error e) h.session = h.session ∨ Q (ops.settle (.error e) h.session) := by
    intro e hlive hrun
    unfold settle
    split
    · exact .inl rfl
    · split
      · exact .inr (hself hlive hrun)
      · exact .inl rfl
  have hcases := ops.handled ctx env h
  rw [hfail] at hcases
  generalize hr : (Except.error err : Except GoError (List Envelope)) = r at hcases
  cases hcases with
  | cancelled => exact .inl rfl
  | terminal => exact .inl rfl
  | rejected e hlive hrun => exact hsettle _ hlive hrun
  | refused cache e hlive hrun => exact hsettle _ hlive hrun
  | interrupted cache tx e hlive hrun => exact hsettle _ hlive hrun
  | applied cache tx hlive hrun hvalid hbuild =>
    right
    rcases hexec : Proc.exec (ops.apply tx) h.session with ⟨e | out, t⟩
    · obtain ⟨habort, hQ⟩ := (happly tx hlive hrun hbuild).error hexec
      simp only [settle, habort, if_true]
      exact hQ
    · rw [hexec] at hr
      cases hr

end SessionOps

end Tss
