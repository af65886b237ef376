import Tss.Frost.Payload

/-!
# The signing session (`frost/ed25519/sign.go`, `sign_transition.go`, `sign_prepare_commit.go`,
`sign_round1.go`, `sign_round2.go`, `lifecycle.go`)

The session as a state machine: what a delivered envelope, an abort and a
close do to it. `SignSession` holds what the rounds compute with; the
session adds what it has received early and its terminal flags.
-/

namespace Tss.Frost

open Edwards25519 Fallible

variable {F G : Type} [Field F] [DecidableEq F] [AddCommGroup G] [DecidableEq G] [Module F G]
  [Edwards25519 F G]

/-! ## Errors of the rounds as error values -/

def LagrangeError.toGoError : LagrangeError → GoError
  | .reserved => .new "party id 0 is reserved"
  | .duplicate id => .errorf "duplicate party id %d" [.num id.toNat]
  | .notInSet id => .errorf "party id %d not in interpolation set" [.num id.toNat]
  | .nonInvertible => .new "non-invertible interpolation denominator"

def frostSignBlame (sender : PartyID) : Tss.Blame := ⟨"invalid FROST partial signature", [sender]⟩

def frostNonceCommitmentBlame (sender : PartyID) : Tss.Blame :=
  ⟨"invalid FROST nonce commitment", [sender]⟩

/-- The error value of a failed round. A nil scalar is not an error of the source: the call
panics there, and no reachable session comes to it. -/
def SignError.toGoError : SignError F → GoError
  | .nonceUnavailable => .new "signing nonce is unavailable"
  | .missingNoncePoint => .new "missing nonce commitment point"
  | .missingVerificationShare id => .errorf "missing verification share for %d" [.num id.toNat]
  | .equationFailed => .new "partial verification equation failed"
  | .interpolation cause => cause.toGoError
  | .commitmentsIncomplete =>
    .new "group commitment requested before all nonce commitments were available"
  | .missingCommitment id => .errorf "missing commitment for %d" [.num id.toNat]
  | .bindingFactors cause =>
    .wrap "derive group commitment binding factors: %w" [] cause.toGoError
  | .groupNonceIdentity => .new "group nonce commitment is identity"
  | .aggregateInvalid =>
    .new "aggregated Ed25519 signature failed verification after all partials verified"
  | .nilScalar id => .errorf "nil scalar for %d" [.num id.toNat]
  | .protocol code round party blame cause =>
    .protocol code (UInt8.ofNat round) party (blame.map fun b => frostSignBlame b.envelope.sender)
      cause.toGoError

/-! ## Session state -/

def payloadSignCommitment : GoString := lit "frost.ed25519.sign.commitment"
def payloadSignPartial : GoString := lit "frost.ed25519.sign.partial"

/-- `SignSession` as a state machine, without its logger, signing context and the retained
commitment envelope. -/
structure SigningSession (F G : Type) [AddCommGroup G] extends SignSession F G where
  limits : Limits
  guard : EnvelopeGuard
  pendingPartials : FMap PartyID F
  pendingEnvelopes : FMap PartyID (PartialEnvelope F)
  aborted : Bool
  closed : Bool
  signature : Bytes
  /-- The commitment set and value of each local partial computed so far. No function reads
  it: it records the computations for the theorems. -/
  computedPartials : List (FMap PartyID (NonceCommitment G) × F)

namespace SigningSession

def clearNonceScalars (s : SigningSession F G) : SigningSession F G :=
  { s with dNonce := none, eNonce := none }

def clearCompletedSigningState (s : SigningSession F G) : SigningSession F G :=
  { s.clearNonceScalars with
    commitments := ∅
    partials := ∅
    partialEnvelopes := ∅
    pendingPartials := ∅
    pendingEnvelopes := ∅
    message := [] }

/-- `abort`. A destroyed derivation has no verification key. -/
def abort (s : SigningSession F G) : SigningSession F G :=
  { s.clearCompletedSigningState with
    aborted := true
    deltaScalar := none
    derivation := ⟨[]⟩
    signature := [] }

/-! ## The local partial and the aggregate -/

section Rounds

variable [Sha512]

/-- `prepareLocalPartial`: the partial and the envelope that carries it. -/
def prepareLocalPartial (s : SigningSession F G) :
    Except GoError (Option (PartialEnvelope F × Envelope)) := do
  match ← s.toSignSession.prepareLocalPartial.mapError SignError.toGoError with
  | none => pure none
  | some part =>
    let payload ← part.payload.marshal G
    let env ← newEnvelope protocolFROSTEd25519 s.sessionID 2 s.key.party broadcastPartyId
      payloadSignPartial payload
    pure (some (part, env))

def commitLocalPartial (part : PartialEnvelope F) (s : SigningSession F G) : SigningSession F G :=
  { s.clearNonceScalars with
    partials := s.partials.insert s.key.party part.payload.z
    partialEnvelopes := s.partialEnvelopes.insert s.key.party part
    partialSent := true }

/-- Records the partial that `prepareLocalPartial` computes in this state, if it computes one. -/
def recordPartial (s : SigningSession F G) : SigningSession F G :=
  match s.toSignSession.prepareLocalPartial with
  | .ok (some part) =>
    { s with computedPartials := s.computedPartials ++ [(s.commitments, part.payload.z)] }
  | _ => s

def commitAggregate (sig : Bytes) (s : SigningSession F G) : SigningSession F G :=
  { s.clearCompletedSigningState with
    signature := sig
    completed := true }

def tryAggregate : Proc (SigningSession F G) GoError Unit := do
  let s ← get
  match ← Proc.outcome (s.prepareAggregate.mapError SignError.toGoError) with
  | none => pure ()
  | some sig => modify (commitAggregate sig)

def tryEmitPartial : Proc (SigningSession F G) GoError (List Envelope) := do
  let s ← get
  modify recordPartial
  match ← Proc.outcome s.prepareLocalPartial with
  | none => pure []
  | some (part, env) =>
    modify (commitLocalPartial part)
    tryAggregate
    pure [env]

def verifyAcceptedPartial (s : SigningSession F G) (round : UInt8) (sender : PartyID) (part : F) :
    Except GoError Unit := do
  rejectIf (s.commitments.keys.card ≠ s.signers.length)
    (.new "cannot verify partial before all nonce commitments are available")
  let (R, rhos) ← s.groupCommitment.mapError fun err =>
    terminalApplyError round err.toGoError
  match rhos.lookup sender with
  | none => .error (SignError.toGoError (.nilScalar sender : SignError F))
  | some rho =>
    (s.verifyPartial sender part rho (s.challenge R)).mapError fun err =>
      .protocol .verification round sender (some (frostSignBlame sender)) err.toGoError

/-- The check of one pending partial in `promotePendingPartials`. -/
def verifyPending (s : SigningSession F G) (id : PartyID) : Except GoError Unit :=
  match s.pendingPartials.lookup id with
  | none => .ok ()
  | some part =>
    -- The zero envelope stands for a missing map entry.
    match s.pendingEnvelopes.lookup id with
    | none => s.verifyAcceptedPartial 0 broadcastPartyId part
    | some env => s.verifyAcceptedPartial (UInt8.ofNat env.round) env.sender part

/-- The promotion of one pending partial. -/
def promotePending (s : SigningSession F G) (id : PartyID) : SigningSession F G :=
  match s.pendingPartials.lookup id with
  | none => s
  | some part =>
    { s with
      partials := s.partials.insert id part
      partialEnvelopes :=
        match s.pendingEnvelopes.lookup id with
        | none => s.partialEnvelopes
        | some env => s.partialEnvelopes.insert id env
      pendingPartials := s.pendingPartials.erase id
      pendingEnvelopes := s.pendingEnvelopes.erase id }

def promotePendingPartials : Proc (SigningSession F G) GoError Unit := do
  let s ← get
  if s.commitments.keys.card ≠ s.signers.length ∨ s.pendingPartials.keys.card = 0 then pure ()
  else
    Proc.outcome (s.signers.forM s.verifyPending)
    modify fun s => s.signers.foldl promotePending s

end Rounds

/-! ## Transitions -/

/-- `acceptNonceCommitmentTx` and `acceptPartialTx`. -/
inductive Transition (F G : Type) [AddCommGroup G] where
  /-- A transition marked as a duplicate: applying it does nothing. -/
  | duplicate
  | acceptNonceCommitment (sender : PartyID) (commitment : NonceCommitment G)
  | acceptPartial (sender : PartyID) (part : F) (env : PartialEnvelope F) (pending : Bool)

section Transitions

variable [Sha512]

/-- `apply` of both transitions. -/
def apply : Transition F G → Proc (SigningSession F G) GoError (List Envelope)
  | .duplicate => pure []
  | .acceptNonceCommitment sender commitment => do
    modify fun s => { s with commitments := s.commitments.insert sender commitment }
    Proc.mapError (terminalApplyError 1) promotePendingPartials
    Proc.mapError (terminalApplyError 1) tryEmitPartial
  | .acceptPartial sender part env pending =>
    if pending then do
      modify fun s => { s with
        pendingPartials := s.pendingPartials.insert sender part
        pendingEnvelopes := s.pendingEnvelopes.insert sender env }
      pure []
    else do
      modify fun s => { s with
        partials := s.partials.insert sender part
        partialEnvelopes := s.partialEnvelopes.insert sender env }
      Proc.mapError (terminalApplyError 2) tryAggregate
      pure []

def buildAcceptNonceCommitmentTx (s : SigningSession F G) (base : Envelope) :
    Except GoError (Transition F G) := do
  rejectIf (base.round ≠ 1)
    (.newProtocolError .round base.round base.sender (.new "commitment must be round 1"))
  let commitment ← (NonceCommitment.unmarshal s.limits base.payload).mapError fun err =>
    .protocol .verification base.round base.sender (some (frostNonceCommitmentBlame base.sender))
      (.wrap "invalid FROST nonce commitment: %w" [] err)
  (requireHash "sign" commitment.planHash s.planHash).mapError
    (.newProtocolError .verification base.round base.sender)
  match s.commitments.lookup base.sender with
  | some existing =>
    if existing = commitment then pure .duplicate
    else .error (.newProtocolError .verification base.round base.sender
      (.new "conflicting nonce commitment"))
  | none => pure (.acceptNonceCommitment base.sender commitment)

/-- The outcome of a second partial of a sender. -/
def duplicatePartial (base : Envelope) (text : String) (existing part : F) :
    Except GoError (Transition F G) :=
  if existing = part then .ok .duplicate
  else .error (.newProtocolError .verification base.round base.sender (.new text))

def buildAcceptPartialTx (s : SigningSession F G) (base : Envelope) :
    Except GoError (Transition F G) := do
  rejectIf (base.round ≠ 2)
    (.newProtocolError .round base.round base.sender (.new "partial signature must be round 2"))
  let payload ← (SignPartialPayload.unmarshal G s.limits base.payload).mapError fun err =>
    .protocol .verification base.round base.sender (some (frostSignBlame base.sender))
      (.wrap "invalid FROST partial signature: %w" [] err)
  (requireHash "sign" payload.planHash s.planHash).mapError
    (.newProtocolError .verification base.round base.sender)
  match s.partials.lookup base.sender, s.pendingPartials.lookup base.sender with
  | some existing, _ => duplicatePartial base "conflicting partial signature" existing payload.z
  | none, some existing =>
    duplicatePartial base "conflicting pending partial signature" existing payload.z
  | none, none => do
    let pending : Bool := s.commitments.keys.card ≠ s.signers.length
    if ¬ pending then s.verifyAcceptedPartial base.round base.sender payload.z
    pure (.acceptPartial base.sender payload.z
      ⟨base.sessionID, base.round.toNat, base.sender, payload⟩ pending)

/-- `buildSignTransition` after the guard. -/
def build (s : SigningSession F G) (base : Envelope) : Except GoError (Transition F G) := do
  rejectIf (base.sender ∉ s.signers)
    (base.invalid (.new "sender is not in signer set"))
  if base.payloadType = payloadSignCommitment then s.buildAcceptNonceCommitmentTx base
  else if base.payloadType = payloadSignPartial then s.buildAcceptPartialTx base
  else .error (base.invalid (.errorf "unexpected payload type %q" [.text base.payloadType]))

/-- The session's part of the handler template. -/
def ops [Sha256] : SessionOps (SigningSession F G) (Transition F G) where
  completed s := s.completed
  aborted s := s.aborted
  abort := abort
  validateInbound s env cache :=
    validateInbound s.guard env protocolFROSTEd25519 s.sessionID s.signers s.key.party cache
  build := build
  apply := apply

/-! ## Calls -/

def handle [Sha256] (ctx : HandlerContext) (env : InboundEnvelope)
    (h : Hosted (SigningSession F G)) :
    Except GoError (List Envelope) × Hosted (SigningSession F G) :=
  ops.handleSessionEnvelope ctx env h

/-- `SignSession.Abort`. -/
def abortCall (ctx : CallerContext) (reason : GoString) (s : SigningSession F G) :
    Except GoError Unit × SigningSession F G :=
  match ctx.check "nil session disposition context" with
  | .error err => (.error err, s)
  | .ok () =>
    if reason = [] then (.error (.new "session abort reason must not be empty"), s)
    else if s.closed || s.aborted then (.ok (), s)
    else if s.completed then (.error (.sentinel .runCompleted), s)
    else (.ok (), s.abort)

/-- `SignSession.Close`. -/
def closeCall (ctx : CallerContext) (s : SigningSession F G) :
    Except GoError Unit × SigningSession F G :=
  match ctx.check "nil session close context" with
  | .error err => (.error err, s)
  | .ok () =>
    if s.closed then (.ok (), s)
    else if !s.completed && !s.aborted then (.ok (), { s.abort with closed := true })
    else
      (.ok (), { s.clearCompletedSigningState with
        derivation := ⟨[]⟩
        signature := []
        closed := true })

/-- A call on a session. -/
inductive Call where
  | handle (ctx : HandlerContext) (env : InboundEnvelope)
  | abort (ctx : CallerContext) (reason : GoString)
  | close (ctx : CallerContext)

/-- One call; only `Handle` returns envelopes. -/
def step [Sha256] (h : Hosted (SigningSession F G)) :
    Call → Except GoError (List Envelope) × Hosted (SigningSession F G)
  | .handle ctx env => handle ctx env h
  | .abort ctx reason =>
    let (r, s) := abortCall ctx reason h.session
    (r.map fun _ => [], { h with session := s })
  | .close ctx =>
    let (r, s) := closeCall ctx h.session
    (r.map fun _ => [], { h with session := s })

/-! ## Start -/

/-- The parts of a sign plan that the session keeps. -/
structure Plan (F : Type) where
  sessionID : Array32
  message : Bytes
  signers : PartySet
  derivation : DerivationResult
  additiveShift : Option F
  planHash : Bytes
  limits : Limits

/-- `newNonceCommitmentPointFromPoint`. -/
def newNonceCommitmentPoint (P : G) : Except GoError (SemanticPoint G) :=
  match newSemanticPointFromPoint P with
  | none => .error (.new "identity point is not allowed")
  | some Y => .ok Y

/-- The session `StartSign` builds before it tries to emit the partial. -/
def initial (key : KeyShare F G) (plan : Plan F) (guard : EnvelopeGuard) (d e : F)
    (commitment : NonceCommitment G) : SigningSession F G where
  key := key
  sessionID := plan.sessionID
  message := plan.message
  signers := plan.signers
  derivation := plan.derivation
  planHash := plan.planHash
  commitments := (∅ : FMap PartyID (NonceCommitment G)).insert key.party commitment
  partials := ∅
  partialEnvelopes := ∅
  dNonce := some d
  eNonce := some e
  deltaScalar := plan.additiveShift
  partialSent := false
  completed := false
  limits := plan.limits
  guard := guard
  pendingPartials := ∅
  pendingEnvelopes := ∅
  aborted := false
  closed := false
  signature := []
  computedPartials := []

/-- `StartSign` from the nonces `d` and `e` on. What it checks of the key, the plan and the
guard before it draws them is left out: every session it starts is one of these. -/
def startSign (key : KeyShare F G) (plan : Plan F) (guard : EnvelopeGuard) (d e : F) :
    Except GoError (SigningSession F G × List Envelope) := do
  let D ← newNonceCommitmentPoint (baseMult d)
  let E ← newNonceCommitmentPoint (baseMult e)
  let commitment : NonceCommitment G := { D, E, planHash := plan.planHash }
  let payload ← commitment.marshal
  let env ← newEnvelope protocolFROSTEd25519 plan.sessionID 1 key.party broadcastPartyId
    payloadSignCommitment payload
  match Proc.exec tryEmitPartial (initial key plan guard d e commitment) with
  | (.error err, _) => .error err
  | (.ok out, s) => .ok (s, env :: out)

end Transitions

end SigningSession

end Tss.Frost
