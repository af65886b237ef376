import Tss.Cggmp21.Reshare.Session
import Tss.Lib.Run

/-!
# Handling, retrying and closing a reshare (`reshare.go`, `reshare_lifecycle.go`)

What a call of a reshare session does to the session, to the replay cache of
its guard and to the lifecycle store. The outcome of a run becomes visible only
after it is durable: envelopes of a transition whose commit failed wait in the
outbox for `RetryLifecycleCommit`.
-/

set_option linter.unusedSectionVars false

namespace Tss.Cggmp21

open Secp256k1 Fallible Paillier Lifecycle

/-- The fates of the store calls of one call of a session, of which each kind is made once at
most. -/
structure ReshareFaults where
  beginCutover : StoreFault
  install : StoreFault
  retire : StoreFault
  finish : StoreFault

namespace ReshareSession

section Calls

variable [Sha256] [Curve] [EvidenceEncoding] [ReshareOps]

/-- A method of a reshare session. -/
abbrev Call := SessionM ReshareSession

/-! ## Starting -/

/-- `deriveReshareProvisionalIdentifiers`, over the remaining parties. -/
def deriveProvisionalIdentifiers (digest : PartyID → ℕ → Bytes) :
    PartySet → FMap PartyID Bytes → Except GoError (FMap PartyID Bytes)
  | [], out => pure out
  | party :: parties, out => do
    let identifier ← (liftText (deriveEpochIdentifierWithDigest (digest party)
      (List.range maxEpochIdentifierCandidates))).mapError
        (.wrap "derive provisional identifier for party %d: %w" [.num party.toNat])
    rejectIf (∃ other ∈ out.keys, out.lookup other = some identifier)
      (.errorf "provisional identifier collision with party %d" [.num party.toNat])
    deriveProvisionalIdentifiers digest parties (out.insert party identifier)

def reshareProvisionalIdentifierLabel : String := "cggmp21-secp256k1-reshare-provisional-identifier"

/-- The candidate hashed for a party and a counter. -/
def provisionalDigest (stableSID : Array32) (sourceEpochID : Bytes) (runSessionID : Array32)
    (planHash : Bytes) (party : PartyID) (counter : ℕ) : Bytes :=
  ((((((Transcript.new reshareProvisionalIdentifierLabel).appendBytes "stable_sid"
    stableSID.toList).appendBytes "source_epoch_id" sourceEpochID).appendBytes "run_session_id"
    runSessionID.toList).appendBytes "plan_hash" planHash).appendUint32 "party" party).appendUint32
    "counter" (UInt32.ofNat counter) |>.sum

def deriveReshareProvisionalIdentifiers (stableSID : Array32) (sourceEpochID : Bytes)
    (runSessionID : Array32) (planHash : Bytes) (parties : PartySet) :
    Except GoError (FMap PartyID Bytes) := do
  rejectIf (stableSID = zero32 ∨ runSessionID = zero32)
    (.new "derive reshare provisional identifiers: invalid session binding")
  rejectIf (sourceEpochID.length ≠ 32 ∨ planHash.length ≠ 32)
    (.new "derive reshare provisional identifiers: invalid epoch or plan hash")
  (liftText (validateStrictSortedIDs parties)).mapError
    (.wrap "derive reshare provisional identifiers: %w" [])
  deriveProvisionalIdentifiers (provisionalDigest stableSID sourceEpochID runSessionID planHash)
    parties ∅

/-- What `startLifecycleReshare` hands to a session: the plan's fields in a configuration whose
identifiers are still to be derived, the guard, the old share of a dealer, and the lease of the
run. -/
structure StartInput where
  config : ReshareConfig
  guard : EnvelopeGuard
  oldSecret : Option Scalar
  lease : RunLease
  source : GenerationBinding
  targetGeneration : GoString

/-- The session that `startReshareSession` sets up, before the receiver's material. -/
def newSession (i : StartInput) (provisionalIDs : FMap PartyID Bytes) : ReshareSession where
  config := { i.config with provisionalIDs }
  guard := i.guard
  oldSecret := i.oldSecret
  dealerData := .ofKeys i.config.dealerParties.toFinset fun _ => ⟨none, none⟩
  newPartyData := .ofKeys i.config.newParties.toFinset fun _ => ⟨none, none, none⟩
  completed := false
  aborted := false
  closed := false
  closePending := false
  newShare := none
  newPaillier := none
  dealerSent := false
  factorProofsSent := false
  auxInfo := none
  figure7Failure := none
  accepted := []
  lifecycleLease := i.lease
  lifecycleSource := i.source
  lifecycleTargetGeneration := i.targetGeneration
  lifecycleFinished := false
  lifecycleFinal := none
  lifecycleRetirement := none
  lifecycleOutbox := []

/-- The receiver's part of `startReshareSession`. -/
def startReceiver (coins : LifecycleOps.Coins) : Body (List Envelope) := do
  let s ← get
  let (newPaillier, material) ← Proc.outcome (ReshareOps.initReceiverMaterial s.config coins)
  modify fun s => { s with newPaillier := some newPaillier }
  modify (modifyNewParty s.config.selfID fun _ => ⟨some material, none, none⟩)
  let payload ← Proc.outcome (ReshareOps.marshalReceiverMaterial s.config material)
  let receiverEnv ← Proc.outcome (newEnvelope s.receiverConfig reshareStartRound s.config.selfID
    broadcastPartyId payloadReshareReceiverMaterial payload)
  let dealerOut ← maybeSendDealerMessages coins
  return receiverEnv :: dealerOut

/-- `startReshareSession`, for a plan and a guard that were validated. -/
def start (i : StartInput) (coins : LifecycleOps.Coins) :
    Except GoError (ReshareSession × List Envelope) := do
  let c := i.config
  let provisionalIDs ← (deriveReshareProvisionalIdentifiers c.sourceEpoch.sid c.sourceEpochID
    c.cfg.sessionID c.planHash c.newParties).mapError (.newProtocolError .invalidConfig 0 c.selfID)
  rejectIf (c.isDealer ∧ i.oldSecret.isNone)
    (.newProtocolError .invalidConfig 0 c.selfID (.new "dealer requires old key share"))
  rejectIf (c.isDealer ≠ decide (c.selfID ∈ c.dealerParties) ∨
      c.isReceiver ≠ decide (c.selfID ∈ c.newParties))
    (.newProtocolError .invalidConfig 0 c.selfID
      (.new "local party role does not match reshare start function"))
  rejectIf (c.isDealer = false ∧ c.isReceiver = false)
    (.newProtocolError .invalidConfig 0 c.selfID
      (.new "reshare session requires dealer or receiver role"))
  if c.isReceiver then
    match Proc.exec (startReceiver coins) (newSession i provisionalIDs) with
    | (.ok out, s) => pure (s, out)
    | (.error e, _) => .error e
  else pure (newSession i provisionalIDs, [])

/-! ## Durable outcomes -/

/-- A result is staged and not durable. -/
def commitPending (s : ReshareSession) : Bool :=
  !s.lifecycleFinished && (s.lifecycleFinal.isSome || s.lifecycleRetirement.isSome)

/-- The store calls of `commitReshareReceiverGeneration`: an overlap party cuts over from its old
generation. -/
def installGeneration (s : ReshareSession) (faults : ReshareFaults) (target : GenerationBinding)
    (blob planHash : Bytes) : Call GenerationRecord :=
  if s.config.isDealer then do
    let fence ← SessionM.onStore "begin overlap reshare cutover: %w" faults.beginCutover
      (beginCutoverFromLease none s.lifecycleLease target)
    SessionM.onStore "commit reshare receiver generation: %w" faults.install
      (commitCutover none fence blob planHash)
  else
    SessionM.onStore "commit reshare receiver generation: %w" faults.install
      (commitInitialGenerationFromReshareLease none s.lifecycleLease target blob planHash)

def commitReshareReceiverGeneration (faults : ReshareFaults) (final : LifecycleOps.KeyShare) :
    Call Unit := do
  let s := (← get).session
  let blob ← SessionM.lift ((LifecycleOps.marshalKeyShare s.config.limits final).mapError
    (.wrap "encode reshared key generation: %w" []))
  match LifecycleOps.metadata final with
  | none => throw (.err (.new "reshared key generation has no public epoch metadata"))
  | some (epoch, planHash) => do
    let epochID ← SessionM.lift ((newEpochID epoch).mapError
      (.wrap "derive reshared lifecycle epoch: %w" []))
    let target := s.targetBinding epochID
    Proc.throwIf (s.invalidTarget target) (.err (.new "invalid reshared lifecycle target binding"))
    let record ← s.installGeneration faults target blob planHash
    Proc.throwIf (record.binding ≠ target ∨ record.status ≠ .current ∨ record.blob ≠ blob)
      (.store "%w" (.lifecycleCorrupt "reshared generation commit mismatch"))
    SessionM.modifySession fun s => { s with
      lifecycleFinal := none
      newShare := some final
      lifecycleFinished := true
      completed := true
      oldSecret := none }

def commitPendingReshareLifecycle (faults : ReshareFaults) : Call Unit := do
  let s := (← get).session
  if s.lifecycleFinished then pure ()
  else do
    Proc.throwIf (s.lifecycleLease.token = 0)
      (.err (.new "reshare lifecycle store or lease is unavailable"))
    match s.lifecycleFinal, s.lifecycleRetirement with
    | some final, _ => commitReshareReceiverGeneration faults final
    | none, some retirement => do
      let _ ← SessionM.onStore "commit dealer-only reshare retirement: %w" faults.retire
        (commitRetirementFromLease none s.lifecycleLease retirement)
      SessionM.modifySession fun s =>
        { s with lifecycleFinished := true, completed := true, oldSecret := none }
    | none, none =>
      if s.aborted ∨ s.figure7Failure.isSome then do
        match ← SessionM.result (SessionM.onStore "abort reshare run lease: %w" faults.finish
            (finishRunLease none s.lifecycleLease .aborted)) with
        | .error e => do
          SessionM.modifySession fun s => { s with closePending := true }
          throw e
        | .ok _ =>
          SessionM.modifySession fun s =>
            { s with lifecycleFinished := true, closePending := false }
      else pure ()

/-- The outcome of a run has been decided. -/
def outcomeDecided (s : ReshareSession) : Bool :=
  s.lifecycleFinal.isSome || s.lifecycleRetirement.isSome || s.aborted || s.figure7Failure.isSome

def commitReshareLifecycleEffects (faults : ReshareFaults) (out : List Envelope) :
    Call (List Envelope) := do
  let s := (← get).session
  if s.outcomeDecided then do
    if out ≠ [] then SessionM.modifySession fun s => { s with lifecycleOutbox := out }
    commitPendingReshareLifecycle faults
    SessionM.modifySession fun s => { s with lifecycleOutbox := [] }
    return out
  else return out

/-! ## Handling -/

/-- The parties that an envelope may come from. -/
def allowedParties (s : ReshareSession) (env : Envelope) : PartySet :=
  if env.payloadType = payloadReshareReceiverMaterial ∨
      env.payloadType = payloadReshareFactorProof ∨
      env.payloadType = payloadKeygenConfirmation ∨ isAuxInfoPayload env.payloadType
  then s.config.newParties else s.config.dealerParties

/-- `validateInbound`: the slot of the message is taken. -/
def validateInbound (inbound : InboundEnvelope) (allowed : PartySet) : Call Unit := do
  let w ← get
  let cache ← SessionM.lift (Tss.validateInbound w.session.guard inbound protocolCGGMP21Secp256k1
    w.session.config.cfg.sessionID allowed w.session.config.selfID w.cache)
  modify fun w => { w with cache }

/-- A duplicate is reported as the bare sentinel. -/
def bareDuplicate (err : SessionError) : SessionError :=
  match err with
  | .err e => if e.is .duplicateMessage then .err (.sentinel .duplicateMessage) else .err e
  | err => err

def handleTerminalInbound (inbound : InboundEnvelope) (allowed : PartySet) :
    Call (List Envelope) := do
  Proc.mapError bareDuplicate (validateInbound inbound allowed)
  let s := (← get).session
  if s.completed then
    if (s.config.isReceiver = false ∧ inbound.env.payloadType = payloadReshareReceiverMaterial) ∨
        inbound.env.payloadType = payloadKeygenConfirmation then return []
    else throw (.err (completedSessionError inbound.env))
  else throw (.err (abortedSessionError inbound.env))

/-- The checks of `handleHandoffInbound` before the copy is made. -/
def checkHandoff (s : ReshareSession) (env : Envelope) : Except GoError Unit := do
  rejectIf (s.config.isReceiver ∧ (s.auxInfo.isSome ∨ s.newShare.isSome))
    (envError .round env "temporary reshare handoff message arrived after Figure 7 started")
  rejectIf (env.payloadType = payloadReshareShare ∧ env.round = reshareShareRound ∧
      (s.dealerData.lookup env.sender).any (·.commitments.isNone))
    (envError .round env "reshare share arrived before dealer commitments")

def handleHandoffInbound (ctx : HandlerContext) (inbound : InboundEnvelope) (allowed : PartySet)
    (coins : LifecycleOps.Coins) (faults : ReshareFaults) : Call (List Envelope) := do
  let s := (← get).session
  SessionM.lift (s.checkHandoff inbound.env)
  if s.hasAcceptedInbound inbound.env then do
    Proc.mapError bareDuplicate (validateInbound inbound allowed)
    throw (.err (envError .duplicate inbound.env "reshare message slot is already accepted"))
  else do
    SessionM.lift (ctx.check 2)
    match Proc.exec (applyValidatedInbound coins inbound.env) s.cloneForInboundTransition with
    | (.error e, _) => throw (.err e)
    | (.ok out, staged) => do
      Proc.mapError bareDuplicate (validateInbound inbound allowed)
      SessionM.lift (ctx.check 3)
      SessionM.modifySession (commitInboundTransition staged)
      commitReshareLifecycleEffects faults out

/-- The checks of `handleReshareConfirmationInbound`. -/
def readConfirmation (s : ReshareSession) (env : Envelope) :
    Except GoError KeygenConfirmation := do
  rejectIf (env.round ≠ reshareConfirmationRound ∨ env.recipient ≠ broadcastPartyId)
    (envError .round env "reshare confirmation in wrong round or delivery mode")
  rejectIf (s.config.isReceiver ∧ s.auxInfo.isNone ∧ s.newShare.isNone)
    (envError .round env "reshare confirmation arrived before the local Figure 7 phase")
  let confirmation ← (LifecycleOps.unmarshalConfirmation s.config.limits env.payload).mapError
    (.newProtocolError .invalidMessage env.round env.sender)
  rejectIf (confirmation.sender ≠ env.sender)
    (envError .invalidMessage env "reshare confirmation sender mismatch")
  (requirePlanHash "reshare confirmation" confirmation.planHash s.config.planHash).mapError
    (.newProtocolError .verification env.round env.sender)
  (s.verifyReshareConfirmationPublicBinding confirmation).mapError
    (.newProtocolError .verification env.round env.sender)
  match s.newPartyData.lookup env.sender with
  | none => .error (.newProtocolError .invalidMessage env.round env.sender
      (.errorf "party %d is not a target reshare party" [.num env.sender.toNat]))
  | some data => do
    match data.confirmation with
    | none => pure ()
    | some stored =>
      if stored = confirmation then
        .error (.newProtocolError .duplicate env.round env.sender (.sentinel .duplicateMessage))
      else .error (.newProtocolError .verification env.round env.sender
        (.errorf "conflicting reshare confirmation from party %d" [.num env.sender.toNat]))
    match s.newShare with
    | none => pure confirmation
    | some newShare => do
      (LifecycleOps.verifyConfirmation newShare confirmation).mapError
        (.newProtocolError .verification env.round env.sender)
      pure confirmation

/-- The share that a confirmation completes, if it is the last one. -/
def finalWith (s : ReshareSession) (env : Envelope) (confirmation : KeygenConfirmation) :
    Except GoError (Option LifecycleOps.KeyShare) :=
  match s.newShare with
  | none => pure none
  | some newShare =>
    let confirmations := s.reshareConfirmationCandidates (some (env.sender, confirmation))
    if confirmations.length = s.config.newParties.length then
      ((s.buildReshareFinalKeyShare newShare confirmations).mapError
        (.newProtocolError .verification env.round env.sender)).map some
    else pure none

def handleReshareConfirmationInbound (inbound : InboundEnvelope) : Call (List Envelope) := do
  let env := inbound.env
  let s := (← get).session
  let confirmation ← SessionM.lift (s.readConfirmation env)
  let final ← SessionM.lift (s.finalWith env confirmation)
  validateInbound inbound s.config.newParties
  SessionM.modifySession fun s =>
    { s.modifyNewParty env.sender (fun d => { d with confirmation := some confirmation }) with
      accepted := newMessageKey env :: s.accepted }
  match final with
  | some share =>
    SessionM.onSession (Proc.mapError (.newProtocolError .invariant env.round s.config.selfID)
      (stageReshareFinal share))
    return []
  | none => do
    if s.config.isReceiver = false then SessionM.onSession tryCompleteDealerOnly
    return []

structure PreparedReshareOutput where
  share : LifecycleOps.KeyShare
  confirmation : KeygenConfirmation
  confirmationEnvelope : Envelope
  final : Option LifecycleOps.KeyShare

def prepareReshareOutput (s : ReshareSession) (coins : LifecycleOps.Coins)
    (result : LifecycleOps.AuxResult) : Except GoError PreparedReshareOutput := do
  let (share, confirmation, encoded) ← ReshareOps.buildShare s.config result coins
  let confirmationEnvelope ← newEnvelope s.receiverConfig reshareConfirmationRound s.config.selfID
    broadcastPartyId payloadKeygenConfirmation encoded
  let confirmations := s.reshareConfirmationCandidates (some (s.config.selfID, confirmation))
  confirmations.forM fun (party, candidate) =>
    (LifecycleOps.verifyConfirmation share candidate).mapError
      (.wrap "buffered reshare confirmation from party %d: %w" [.num party.toNat])
  if confirmations.length = s.config.newParties.length then do
    let final ← s.buildReshareFinalKeyShare share confirmations
    pure ⟨share, confirmation, confirmationEnvelope, some final⟩
  else pure ⟨share, confirmation, confirmationEnvelope, none⟩

def commitReshareOutput (output : PreparedReshareOutput) : Body Unit := do
  modify fun s => { s with newShare := some output.share }
  modify fun s => s.modifyNewParty s.config.selfID fun d =>
    { d with confirmation := some output.confirmation }
  modify fun s => { s with auxInfo := none }
  match output.final with
  | none => pure ()
  | some final => stageReshareFinal final

def terminalReshareFigure7Failure (failure : Figure7Failure) (s : ReshareSession) :
    ReshareSession :=
  { s.abort with figure7Failure := some failure, completed := true }

/-- The output prepared from a message that ends Figure 7. -/
def prepareOutput (s : ReshareSession) (env : Envelope) (coins : LifecycleOps.Coins)
    (result : Option LifecycleOps.AuxResult) : Except GoError (Option PreparedReshareOutput) :=
  match result with
  | none => pure none
  | some result => ((s.prepareReshareOutput coins result).mapError
      (.newProtocolError .verification env.round env.sender)).map some

def handleReshareAuxInfoInbound (ctx : HandlerContext) (inbound : InboundEnvelope)
    (coins : LifecycleOps.Coins) : Call (List Envelope) := do
  let env := inbound.env
  let s := (← get).session
  if s.config.isReceiver = false then do
    validateInbound inbound s.config.newParties
    SessionM.modifySession fun s => { s with accepted := newMessageKey env :: s.accepted }
    return []
  else
    match s.auxInfo, s.newShare with
    | some auxInfo, none => do
      let prepared ← SessionM.lift ((LifecycleOps.prepareInbound auxInfo ctx env coins).mapError
        (LifecycleOps.preparationError env s.config.newParties))
      let output ← SessionM.lift (s.prepareOutput env coins prepared.result)
      validateInbound inbound s.config.newParties
      SessionM.lift (ctx.check 2)
      let auxInfo ← SessionM.lift (prepared.apply.mapError fun e =>
        .newProtocolError .invariant env.round s.config.selfID
          (.wrap "commit reshare Figure 7 transition: %w" [] e))
      SessionM.modifySession fun s => { s with
        auxInfo := some auxInfo
        accepted := newMessageKey env :: s.accepted }
      match prepared.failure, output with
      | some failure, _ => do
        SessionM.modifySession (terminalReshareFigure7Failure failure)
        return prepared.out.map (·.1)
      | none, none => return prepared.out.map (·.1)
      | none, some output => do
        SessionM.onSession (Proc.mapError (.newProtocolError .invariant env.round s.config.selfID)
          (commitReshareOutput output))
        return prepared.out.map (·.1) ++ [output.confirmationEnvelope]
    | _, _ => throw (.err (envError .round env
        "figure 7 message arrived outside the verified reshare handoff"))

/-- `Handle` in a live session, before its deferred abort. -/
def handleLive (ctx : HandlerContext) (inbound : InboundEnvelope) (allowed : PartySet)
    (coins : LifecycleOps.Coins) (faults : ReshareFaults) : Call (List Envelope) := do
  let env := inbound.env
  let s := (← get).session
  SessionM.lift (validateInboundWithoutReplay s.guard inbound protocolCGGMP21Secp256k1
    s.config.cfg.sessionID allowed s.config.selfID)
  SessionM.lift (ctx.check 1)
  if newMessageKey env ∈ s.accepted then do
    validateInbound inbound allowed
    throw (.err (envError .duplicate env "reshare message slot is already accepted"))
  else if env.payloadType = payloadKeygenConfirmation then do
    let out ← handleReshareConfirmationInbound inbound
    commitReshareLifecycleEffects faults out
  else if isAuxInfoPayload env.payloadType then do
    let out ← handleReshareAuxInfoInbound ctx inbound coins
    commitReshareLifecycleEffects faults out
  else handleHandoffInbound ctx inbound allowed coins faults

/-- The deferred part of `Handle`: a failed verification aborts the session. -/
def settle (inbound : InboundEnvelope) (faults : ReshareFaults)
    (r : Except SessionError (List Envelope)) : Call (List Envelope) :=
  match r with
  | .ok out => return out
  | .error e =>
    let e := e.bindEvidence inbound
    if e.shouldAbort then do
      SessionM.modifySession abort
      match ← SessionM.result (commitPendingReshareLifecycle faults) with
      | .ok _ => throw e
      | .error lifecycleErr => throw (.join e lifecycleErr)
    else throw e

def handle (ctx : HandlerContext) (inbound : InboundEnvelope) (coins : LifecycleOps.Coins)
    (faults : ReshareFaults) : Call (List Envelope) := do
  SessionM.lift (ctx.check 0)
  let s := (← get).session
  Proc.throwIf s.commitPending
    (.err (.new "reshare lifecycle commit is pending; call RetryLifecycleCommit"))
  let allowed := s.allowedParties inbound.env
  if s.completed ∨ s.aborted then handleTerminalInbound inbound allowed
  else do
    let r ← SessionM.result (handleLive ctx inbound allowed coins faults)
    settle inbound faults r

/-! ## Retrying, aborting and closing -/

def retryLifecycleCommit (faults : ReshareFaults) : Call (List Envelope) := do
  commitPendingReshareLifecycle faults
  let s := (← get).session
  SessionM.modifySession fun s => { s with lifecycleOutbox := [] }
  return s.lifecycleOutbox

/-- `abortDispositionLocked`. -/
def abortDisposition (fault : StoreFault) : Call Unit := do
  let s := (← get).session
  if s.closed then pure ()
  else do
    Proc.throwIf s.commitPending (.err (.sentinel .lifecycleCommitPending))
    Proc.throwIf (s.completed ∧ s.aborted = false) (.err (.sentinel .runCompleted))
    if s.lifecycleFinished = false ∧ s.lifecycleLease.token ≠ 0 then do
      match ← SessionM.result (SessionM.onStore "abort reshare lifecycle lease: %w" fault
          (finishRunLease none s.lifecycleLease .aborted)) with
      | .error e => do
        SessionM.modifySession fun s => { s.abort with closePending := true }
        throw e
      | .ok _ =>
        SessionM.modifySession fun s =>
          { s.abort with lifecycleFinished := true, closePending := false }
    else SessionM.modifySession fun s => { s.abort with closePending := false }

/-- `Abort`. -/
def abortSession (ctx : CallerContext) (reason : GoString) (fault : StoreFault) : Call Unit := do
  SessionM.lift (ctx.check "nil session disposition context")
  Proc.throwIf (reason = []) (.err (.new "session abort reason must not be empty"))
  abortDisposition fault

def close (ctx : CallerContext) (fault : StoreFault) : Call Unit := do
  SessionM.lift (ctx.check "nil session close context")
  let s := (← get).session
  if s.closed then pure ()
  else do
    Proc.throwIf s.commitPending (.err (.sentinel .lifecycleCommitPending))
    if s.closePending ∨ (s.completed = false ∧ s.aborted = false) then abortDisposition fault
    SessionM.modifySession fun s => { s.abort with closed := true, closePending := false }

/-! ## Runs -/

/-- A call of a session. -/
inductive Input [Curve] [ReshareOps] where
  | handle (ctx : HandlerContext) (inbound : InboundEnvelope) (coins : LifecycleOps.Coins)
      (faults : ReshareFaults)
  | retry (faults : ReshareFaults)
  | abort (ctx : CallerContext) (reason : GoString) (fault : StoreFault)
  | close (ctx : CallerContext) (fault : StoreFault)

/-- The call, and the envelopes that it returns. -/
def call : Input → Call (List Envelope)
  | .handle ctx inbound coins faults => handle ctx inbound coins faults
  | .retry faults => retryLifecycleCommit faults
  | .abort ctx reason fault => do
    abortSession ctx reason fault
    return []
  | .close ctx fault => do
    close ctx fault
    return []

/-- What a call returns: a call that fails returns no envelope. -/
def returned (r : Except SessionError (List Envelope)) : List Envelope :=
  match r with
  | .ok out => out
  | .error _ => []

/-- One call, as a step of the world. -/
def step (w : World ReshareSession) (i : Input) : List Envelope × World ReshareSession :=
  let r := Proc.exec (call i) w
  (returned r.1, r.2)

end Calls

end ReshareSession

end Tss.Cggmp21
