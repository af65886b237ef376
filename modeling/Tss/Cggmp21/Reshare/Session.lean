import Tss.Cggmp21.Hosting
import Tss.Cggmp21.Reshare.Share

/-!
# Reshare sessions (`reshare.go`, `reshare_round1.go`, `reshare_completion.go`)

A session is a dealer of the old committee, a receiver of the new one, or
both. Receivers broadcast fresh Paillier material; a dealer that has all of it
sends its commitments and one encrypted share to every other receiver, and a
receiver that has all of it sends every other receiver a factor proof. A
receiver that holds the dealers' data, the material and the factor proofs
starts Figure 7 and clears the handoff.

An inbound message of the handoff works on a copy of the session, which
replaces the session only when everything has succeeded.
-/

set_option linter.unusedSectionVars false

namespace Tss.Cggmp21

open Secp256k1 Fallible Paillier Lifecycle

def payloadReshareDealerCommitments : GoString := lit "cggmp21.secp256k1.reshare.dealer_commitments"
def payloadReshareShare : GoString := lit "cggmp21.secp256k1.reshare.share"
def payloadReshareReceiverMaterial : GoString := lit "cggmp21.secp256k1.reshare.receiver_material"
def payloadReshareFactorProof : GoString := lit "cggmp21.secp256k1.reshare.factor-proof"

def reshareConfirmationRound : UInt8 := 6

/-! ## Payloads and the handoff's cryptography -/

structure ReshareDealerCommitmentsPayload where
  commitments : List Bytes
  planHash : Bytes

structure ReshareReceiverMaterialPayload where
  material : ReceiverMaterial
  planHash : Bytes

structure ReshareFactorProofPayload where
  prover : PartyID
  verifier : PartyID
  paillierPublicKey : PublicKey
  proof : FactorProof
  planHash : Bytes

/-- What a dealer's polynomial yields: the encoded commitments, its own share if it also receives,
and the encrypted share of each receiver. -/
structure Dealing [Curve] where
  commitments : List Bytes
  payload : Bytes
  selfShare : Scalar
  sharePayload : PartyID → Except GoError Bytes

/-- The cryptography of the handoff, under the names of the functions that compute it. -/
class ReshareOps [Curve] extends LifecycleOps where
  /-- `initReceiverMaterial`. -/
  initReceiverMaterial : ReshareConfig → Coins → Except GoError (PrivateKey × ReceiverMaterial)
  marshalReceiverMaterial : ReshareConfig → ReceiverMaterial → Except GoError Bytes
  /-- `dealerMessages`, up to the envelopes. -/
  deal : ReshareConfig → Scalar → (PartyID → Option ReceiverMaterial) → Coins →
    Except GoError Dealing
  /-- The domain, the proof and the payload for one verifier. -/
  proveFactor : ReshareConfig → PrivateKey → PublicKey → PartyID → RingPedersenParams → Coins →
    Except GoError Bytes
  unmarshalDealerCommitments : ProtocolLimits → Bytes →
    Except GoError ReshareDealerCommitmentsPayload
  unmarshalShare : ProtocolLimits → Bytes → Except GoError ReshareSharePayload
  unmarshalReceiverMaterial : ProtocolLimits → Bytes → Except GoError ReshareReceiverMaterialPayload
  unmarshalFactorProof : ProtocolLimits → Bytes → Except GoError ReshareFactorProofPayload
  /-- `validateDealerCommitments`. -/
  validateDealerCommitments : ReshareConfig → PartyID → List Bytes → Except GoError Unit
  /-- `applyReshareShare`: the scalar it records. -/
  openShare : ReshareConfig → Envelope → ReshareSharePayload → ShareView → Except GoError Scalar
  /-- `verifyAndStoreReceiverMaterial`, after its comparison with the factor proof's key. -/
  verifyReceiverMaterial : ReshareConfig → Envelope → ReceiverMaterial → Except GoError Unit
  /-- The domain of a factor proof and `VerifyFactor`. -/
  verifyFactorProof : ReshareConfig → Envelope → RingPedersenParams → ReshareFactorProofPayload →
    Except GoError Unit
  /-- The constant of `aggregateCommitments`, encoded. -/
  groupPublicKey : ReshareConfig → List (List Bytes) → Except GoError Bytes
  /-- `startReshareAuxInfo`, from the dealers' commitments and the shares they sent here. -/
  startAuxInfo : ReshareConfig → List (List Bytes) → List Scalar → Coins →
    Except GoError (AuxInfo × List AuxEnvelope)
  /-- `prepareReshareOutput`, up to the encoded confirmation. -/
  buildShare : ReshareConfig → AuxResult → Coins →
    Except GoError (KeyShare × KeygenConfirmation × Bytes)

/-! ## Sessions -/

structure ReshareDealerPartyData [Curve] where
  commitments : Option (List Bytes)
  share : Option Scalar

structure ReshareNewPartyData where
  material : Option ReceiverMaterial
  factor : Option (FactorProof × PublicKey)
  confirmation : Option KeygenConfirmation

/-- `ReshareSession`. Of the old key share only the secret is used. -/
structure ReshareSession [Curve] [ReshareOps] where
  config : ReshareConfig
  guard : EnvelopeGuard
  oldSecret : Option Scalar
  dealerData : FMap PartyID ReshareDealerPartyData
  newPartyData : FMap PartyID ReshareNewPartyData
  completed : Bool
  aborted : Bool
  closed : Bool
  closePending : Bool
  newShare : Option (LifecycleOps.KeyShare)
  newPaillier : Option PrivateKey
  dealerSent : Bool
  factorProofsSent : Bool
  auxInfo : Option (LifecycleOps.AuxInfo)
  figure7Failure : Option Figure7Failure
  accepted : List MessageKey
  lifecycleLease : RunLease
  lifecycleSource : GenerationBinding
  lifecycleTargetGeneration : GoString
  lifecycleFinished : Bool
  lifecycleFinal : Option (LifecycleOps.KeyShare)
  lifecycleRetirement : Option GenerationBinding
  lifecycleOutbox : List Envelope

namespace ReshareSession

/-- A body of the session that the copy runs. -/
abbrev Body [Curve] [ReshareOps] := Proc ReshareSession GoError

section Session

variable [Sha256] [Curve] [EvidenceEncoding] [ReshareOps]

/-- The new parties other than this one. -/
def others (s : ReshareSession) : PartySet := s.config.newParties.filter (· ≠ s.config.selfID)

/-- The stored material of a new party. -/
def materialOf (s : ReshareSession) (id : PartyID) : Option ReceiverMaterial :=
  (s.newPartyData.lookup id).bind (·.material)

/-- The stored factor proof of a new party, with the key it is about. -/
def factorOf (s : ReshareSession) (id : PartyID) : Option (FactorProof × PublicKey) :=
  (s.newPartyData.lookup id).bind (·.factor)

def confirmationOf (s : ReshareSession) (id : PartyID) : Option KeygenConfirmation :=
  (s.newPartyData.lookup id).bind (·.confirmation)

def commitmentsOf (s : ReshareSession) (id : PartyID) : Option (List Bytes) :=
  (s.dealerData.lookup id).bind (·.commitments)

def shareOf (s : ReshareSession) (id : PartyID) : Option Scalar :=
  (s.dealerData.lookup id).bind (·.share)

def allReshareDealerDataReceived (s : ReshareSession) : Bool :=
  s.config.dealerParties.all fun id => (s.commitmentsOf id).isSome && (s.shareOf id).isSome

def allReshareReceiverMaterialReceived (s : ReshareSession) : Bool :=
  s.config.newParties.all fun id => (s.materialOf id).isSome

def allReshareConfirmationsReceived (s : ReshareSession) : Bool :=
  s.config.newParties.all fun id => (s.confirmationOf id).isSome

def allDealerCommitmentsReceived (s : ReshareSession) : Bool :=
  s.config.dealerParties.all fun id => (s.commitmentsOf id).isSome

def allReshareFactorProofsReceived (s : ReshareSession) : Bool :=
  s.others.all fun id => (s.factorOf id).isSome

def dealerConfig (s : ReshareSession) : ThresholdConfig :=
  { s.config.cfg with parties := s.config.dealerParties }

def receiverConfig (s : ReshareSession) : ThresholdConfig :=
  { s.config.cfg with parties := s.config.newParties, threshold := s.config.newThreshold }

def cleanupTemporaryReshareHandoff (s : ReshareSession) : ReshareSession :=
  { s with
    dealerData := s.dealerData.mapVals fun _ d => { d with share := none }
    newPaillier := none
    newPartyData := s.newPartyData.mapVals fun _ d => { d with material := none, factor := none } }

def abort (s : ReshareSession) : ReshareSession :=
  { s.cleanupTemporaryReshareHandoff with
    aborted := true
    newPartyData := s.newPartyData.mapVals fun _ _ => ⟨none, none, none⟩
    newShare := none
    oldSecret := none
    lifecycleFinal := none
    lifecycleRetirement := none
    lifecycleOutbox := []
    auxInfo := none
    accepted := []
    completed := false }

/-! ### Sending -/

def modifyDealer (id : PartyID) (f : ReshareDealerPartyData → ReshareDealerPartyData)
    (s : ReshareSession) : ReshareSession :=
  { s with dealerData := s.dealerData.insert id (f ((s.dealerData.lookup id).getD ⟨none, none⟩)) }

def modifyNewParty (id : PartyID) (f : ReshareNewPartyData → ReshareNewPartyData)
    (s : ReshareSession) : ReshareSession :=
  { s with newPartyData :=
      s.newPartyData.insert id (f ((s.newPartyData.lookup id).getD ⟨none, none, none⟩)) }

def newEpochID (raw : Bytes) : Except GoError EpochID :=
  if h : raw.length = 32 then do
    let id : EpochID := ⟨raw.toArray, h⟩
    rejectIf (idValid id = false) (.new "zero epoch id")
    pure id
  else .error (.new "epoch id must be 32 bytes")

/-- The generation that a retirement or an installation of this run is about. -/
def targetBinding (s : ReshareSession) (epochID : EpochID) : GenerationBinding :=
  ⟨s.lifecycleSource.keyID, s.lifecycleTargetGeneration, epochID⟩

/-- The checks on the target of a run against its source. -/
def invalidTarget (s : ReshareSession) (target : GenerationBinding) : Prop :=
  target.validate ≠ none ∨ target.keyGeneration = s.lifecycleSource.keyGeneration ∨
    target.epochID = s.lifecycleSource.epochID

instance (s : ReshareSession) (target : GenerationBinding) : Decidable (s.invalidTarget target) :=
  inferInstanceAs (Decidable (_ ∨ _ ∨ _))

/-- The generation that `stageReshareRetirement` retires for. -/
def retirementTarget (s : ReshareSession) (confirmation : KeygenConfirmation) :
    Except GoError GenerationBinding := do
  rejectIf (s.config.isReceiver ∨ s.config.isDealer = false)
    (.new "invalid dealer-only reshare retirement")
  rejectIf s.lifecycleFinal.isSome (.new "reshare lifecycle role has conflicting terminal result")
  let epochID ← (newEpochID confirmation.epochID).mapError
    (.wrap "invalid reshare target epoch confirmation: %w" [])
  rejectIf (s.invalidTarget (s.targetBinding epochID))
    (.new "invalid dealer-only reshare retirement target")
  rejectIf (s.lifecycleRetirement.any (· ≠ s.targetBinding epochID))
    (.new "conflicting dealer-only reshare retirement target")
  pure (s.targetBinding epochID)

def stageReshareRetirement (confirmation : Option KeygenConfirmation) : Body Unit := do
  let s ← get
  match confirmation with
  | none => throw (.new "invalid dealer-only reshare retirement")
  | some confirmation => do
    let target ← Proc.outcome (s.retirementTarget confirmation)
    modify fun s => { s with lifecycleRetirement := some target }

def verifyReshareConfirmationPublicBinding (s : ReshareSession) (confirmation : KeygenConfirmation) :
    Except GoError Unit :=
  rejectIf (confirmation.sender ∉ s.config.newParties ∨
      confirmation.sessionID ≠ s.config.cfg.sessionID ∨
      confirmation.threshold ≠ s.config.newThreshold ∨
      confirmation.parties ≠ s.config.newParties ∨
      confirmation.publicKey ≠ s.config.oldPublicKey ∨
      confirmation.chainCode ≠ s.config.oldChainCode ∨
      confirmation.planHash ≠ s.config.planHash)
    (.new "reshare confirmation public binding mismatch")

/-- The comparison of `tryCompleteDealerOnly` of one party's confirmation with the first one. -/
def compareWithReference (s : ReshareSession) (reference : Option KeygenConfirmation)
    (party : PartyID) : Except GoError (Option KeygenConfirmation) :=
  match s.confirmationOf party with
  | none => .error (.newProtocolError .verification reshareConfirmationRound party
      (.new "nil reshare confirmation"))
  | some confirmation => do
    (s.verifyReshareConfirmationPublicBinding confirmation).mapError
      (.newProtocolError .verification reshareConfirmationRound party)
    match reference with
    | none => pure (some confirmation)
    | some reference => do
      (compareKeygenConfirmationBindingFields reference confirmation).mapError
        (.newProtocolError .verification reshareConfirmationRound party)
      rejectIf (reference.chainCode ≠ confirmation.chainCode)
        (.newProtocolError .verification reshareConfirmationRound party
          (.new "reshare confirmations disagree on preserved chain code"))
      pure (some reference)

def tryCompleteDealerOnly : Body Unit := do
  let s ← get
  if s.allDealerCommitmentsReceived then do
    let publicKey ← Proc.outcome (ReshareOps.groupPublicKey s.config
      (s.config.dealerParties.filterMap s.commitmentsOf))
    Proc.throwIf (publicKey ≠ s.config.oldPublicKey)
      (.new "reshared dealer handoff changed the group public key")
    if s.allReshareConfirmationsReceived then do
      let reference ← Proc.outcome (s.config.newParties.foldlM s.compareWithReference none)
      modify cleanupTemporaryReshareHandoff
      stageReshareRetirement reference
    else pure ()
  else pure ()

def startReshareAuxInfo (coins : LifecycleOps.Coins) : Body (List Envelope) := do
  let s ← get
  let (auxInfo, out) ← Proc.outcome (ReshareOps.startAuxInfo s.config
    (s.config.dealerParties.filterMap s.commitmentsOf) (s.config.dealerParties.filterMap s.shareOf)
    coins)
  modify fun s => { s with auxInfo := some auxInfo }
  modify cleanupTemporaryReshareHandoff
  return out.map (·.1)

/-- `reshareConfirmationCandidates`, in the order of the parties. -/
def reshareConfirmationCandidates (s : ReshareSession)
    (override : Option (PartyID × KeygenConfirmation)) : List (PartyID × KeygenConfirmation) :=
  s.config.newParties.filterMap fun party =>
    match override with
    | some (overrideParty, confirmation) =>
      if party = overrideParty then some (party, confirmation)
      else (s.confirmationOf party).map (party, ·)
    | none => (s.confirmationOf party).map (party, ·)

def buildReshareFinalKeyShare (s : ReshareSession) (pending : LifecycleOps.KeyShare)
    (confirmations : List (PartyID × KeygenConfirmation)) : Except GoError LifecycleOps.KeyShare := do
  rejectIf (confirmations.length ≠ s.config.newParties.length)
    (.new "incomplete reshare confirmation set")
  LifecycleOps.attachConfirmations s.config.limits pending (confirmations.map (·.2))

def stageReshareFinal (share : LifecycleOps.KeyShare) : Body Unit := do
  let s ← get
  Proc.throwIf (s.config.isReceiver = false) (.new "missing reshare receiver final key share")
  Proc.throwIf s.lifecycleFinal.isSome (.new "conflicting pending reshare lifecycle result")
  Proc.throwIf s.lifecycleRetirement.isSome
    (.new "reshare lifecycle role has conflicting terminal result")
  modify fun s => { s with lifecycleFinal := some share }

def finalizeConfirmedShare : Body Unit := do
  let s ← get
  match s.newShare with
  | none => throw (.newProtocolError .verification reshareConfirmationRound s.config.selfID
      (.new "missing pending reshare share"))
  | some newShare => do
    let final ← Proc.outcome ((s.buildReshareFinalKeyShare newShare
      (s.reshareConfirmationCandidates none)).mapError
        (.newProtocolError .verification reshareConfirmationRound s.config.selfID))
    Proc.mapError (.newProtocolError .invariant reshareConfirmationRound s.config.selfID)
      (stageReshareFinal final)

def tryComplete (coins : LifecycleOps.Coins) : Body (List Envelope) := do
  let s ← get
  if s.completed then return []
  else if s.config.isReceiver = false then do
    tryCompleteDealerOnly
    return []
  else if s.newShare.isSome then do
    if s.allReshareConfirmationsReceived then finalizeConfirmedShare
    return []
  else if s.auxInfo.isSome then return []
  else if s.allReshareDealerDataReceived ∧ s.allReshareReceiverMaterialReceived ∧
      s.allReshareFactorProofsReceived then
    startReshareAuxInfo coins
  else return []

/-- The envelope with the encrypted share of one receiver. -/
def dealerShareEnvelope (s : ReshareSession) (dealing : Dealing) (id : PartyID) :
    Except GoError Envelope := do
  let payload ← dealing.sharePayload id
  newEnvelope s.dealerConfig reshareShareRound s.config.selfID id payloadReshareShare payload

def dealerMessages (coins : LifecycleOps.Coins) : Body (List Envelope) := do
  let s ← get
  match s.oldSecret with
  | none => throw (.new "nil key share")
  | some secret => do
    let dealing ← Proc.outcome (ReshareOps.deal s.config secret s.materialOf coins)
    let dealerEnv ← Proc.outcome (newEnvelope s.dealerConfig reshareStartRound s.config.selfID
      broadcastPartyId payloadReshareDealerCommitments dealing.payload)
    let shares ← Proc.outcome (s.others.mapM (s.dealerShareEnvelope dealing))
    Proc.throwIf (s.commitmentsOf s.config.selfID).isSome
      (.new "duplicate local reshare dealer commitments")
    Proc.throwIf (s.config.isReceiver ∧ (s.shareOf s.config.selfID).isSome)
      (.new "duplicate local reshare share")
    modify (modifyDealer s.config.selfID fun d =>
      ⟨some dealing.commitments, if s.config.isReceiver then some dealing.selfShare else d.share⟩)
    return dealerEnv :: shares

def maybeSendDealerMessages (coins : LifecycleOps.Coins) : Body (List Envelope) := do
  let s ← get
  if s.config.isDealer ∧ s.dealerSent = false ∧ s.allReshareReceiverMaterialReceived then do
    let out ← dealerMessages coins
    modify fun s => { s with dealerSent := true }
    let completionOut ← tryComplete coins
    return out ++ completionOut
  else return []

/-- The factor proof for one verifier. -/
def factorProofEnvelope (s : ReshareSession) (coins : LifecycleOps.Coins) (verifier : PartyID) :
    Except GoError Envelope :=
  match s.newPaillier, s.materialOf s.config.selfID, s.materialOf verifier with
  | some newPaillier, some own, some material => do
    let payload ← ReshareOps.proveFactor s.config newPaillier own.publicKey verifier material.params
      coins
    newEnvelope s.receiverConfig reshareShareRound s.config.selfID verifier
      payloadReshareFactorProof payload
  | _, _, _ => .error (.new "nil factor proof inputs")

def maybeSendReceiverFactorProofs (coins : LifecycleOps.Coins) : Body (List Envelope) := do
  let s ← get
  if s.config.isReceiver ∧ s.factorProofsSent = false ∧ s.allReshareReceiverMaterialReceived then do
    let out ← Proc.outcome (s.others.mapM (s.factorProofEnvelope coins))
    modify fun s => { s with factorProofsSent := true }
    return out
  else return []

/-! ### Messages of the handoff -/

/-- An error at the round and the sender of an envelope. -/
def envError (code : ErrorCode) (env : Envelope) (text : String) : GoError :=
  .newProtocolError code env.round env.sender (.new text)

def applyReshareDealerCommitments (env : Envelope) : Body Unit := do
  let s ← get
  Proc.throwIf (env.round ≠ reshareStartRound)
    (envError .round env "reshare dealer commitments in wrong round")
  match s.dealerData.lookup env.sender with
  | none => throw (.newProtocolError .invalidMessage env.round env.sender
      (.errorf "party %d is not a dealer" [.num env.sender.toNat]))
  | some dd => do
    Proc.throwIf dd.commitments.isSome
      (envError .duplicate env "duplicate reshare dealer commitments")
    let p ← Proc.outcome ((ReshareOps.unmarshalDealerCommitments s.config.limits env.payload).mapError
      (protocolErrorWithEvidence .invalidMessage env "malformed reshare dealer commitments"
        [env.sender]))
    Proc.outcome ((requirePlanHash "reshare" p.planHash s.config.planHash).mapError
      (.newProtocolError .verification env.round env.sender))
    Proc.outcome ((ReshareOps.validateDealerCommitments s.config env.sender p.commitments).mapError
      (verificationErrorWithEvidence env "invalid reshare dealer commitments" [env.sender]))
    modify (modifyDealer env.sender fun d => { d with commitments := some p.commitments })

/-- What the checks of a share read of the session. -/
def shareView (s : ReshareSession) (dealer : PartyID) : ShareView where
  commitments := s.commitmentsOf dealer
  material := s.materialOf s.config.selfID
  newPaillier := s.newPaillier

def applyReshareShareInbound (env : Envelope) : Body Unit := do
  let s ← get
  Proc.throwIf (env.round ≠ reshareShareRound)
    (envError .round env "reshare encrypted share in wrong round")
  Proc.throwIf (s.config.isReceiver = false)
    (envError .invalidMessage env "local party is not a reshare receiver")
  let p ← Proc.outcome ((ReshareOps.unmarshalShare s.config.limits env.payload).mapError
    (.newProtocolError .invalidMessage env.round env.sender))
  Proc.outcome ((requirePlanHash "reshare" p.planHash s.config.planHash).mapError
    (.newProtocolError .verification env.round env.sender))
  match s.dealerData.lookup env.sender with
  | none => throw (.newProtocolError .invalidMessage env.round env.sender
      (.errorf "party %d is not a dealer" [.num env.sender.toNat]))
  | some dd => do
    Proc.throwIf dd.share.isSome (envError .duplicate env "duplicate reshare share")
    Proc.throwIf dd.commitments.isNone
      (envError .round env "reshare share arrived before dealer commitments")
    let share ← Proc.outcome (ReshareOps.openShare s.config env p (s.shareView env.sender))
    modify (modifyDealer env.sender fun d => { d with share := some share })

/-- `verifyAndStoreReceiverMaterial`. Storing the material drops a confirmation that arrived
before it. -/
def verifyAndStoreReceiverMaterial (env : Envelope) (material : ReceiverMaterial) : Body Unit := do
  let s ← get
  Proc.throwIf ((s.factorOf env.sender).any (·.2.n ≠ material.publicKey.n))
    (verificationErrorWithEvidence env "reshare receiver material conflicts with factor proof"
      [env.sender] (.new "receiver Paillier key equivocation"))
  Proc.outcome (ReshareOps.verifyReceiverMaterial s.config env material)
  modify (modifyNewParty env.sender fun d => ⟨some material, d.factor, none⟩)

def applyReshareReceiverMaterial (coins : LifecycleOps.Coins) (env : Envelope) :
    Body (List Envelope) := do
  let s ← get
  Proc.throwIf (env.round ≠ reshareStartRound)
    (envError .round env "reshare receiver material in wrong round")
  match s.newPartyData.lookup env.sender with
  | none => throw (.newProtocolError .invalidMessage env.round env.sender
      (.errorf "party %d is not a new party" [.num env.sender.toNat]))
  | some npd => do
    Proc.throwIf npd.material.isSome (envError .duplicate env "duplicate reshare receiver material")
    let p ← Proc.outcome ((ReshareOps.unmarshalReceiverMaterial s.config.limits env.payload).mapError
      (.newProtocolError .invalidMessage env.round env.sender))
    Proc.outcome ((requirePlanHash "reshare" p.planHash s.config.planHash).mapError
      (.newProtocolError .verification env.round env.sender))
    verifyAndStoreReceiverMaterial env p.material
    let out ← maybeSendDealerMessages coins
    let factorOut ← maybeSendReceiverFactorProofs coins
    return out ++ factorOut

def applyReshareFactorProof (env : Envelope) : Body Unit := do
  let s ← get
  Proc.throwIf (env.round ≠ reshareShareRound ∨ s.config.isReceiver = false)
    (envError .round env "unexpected reshare factor proof")
  let p ← Proc.outcome ((ReshareOps.unmarshalFactorProof s.config.limits env.payload).mapError
    (protocolErrorWithEvidence .invalidMessage env "malformed reshare Paillier factor proof"
      [env.sender]))
  Proc.throwIf (p.prover ≠ env.sender ∨ p.verifier ≠ s.config.selfID ∨
      p.prover ∉ s.config.newParties)
    (protocolErrorWithEvidence .invalidMessage env "reshare factor proof identity mismatch"
      [env.sender] (.new "reshare factor proof identity mismatch"))
  Proc.outcome ((requirePlanHash "reshare" p.planHash s.config.planHash).mapError
    (protocolErrorWithEvidence .verification env "reshare factor proof plan mismatch" [env.sender]))
  Proc.throwIf (s.factorOf env.sender).isSome (envError .duplicate env "duplicate reshare factor proof")
  match s.materialOf s.config.selfID with
  | none => throw (envError .invariant env "missing Ring-Pedersen parameters")
  | some own => do
    Proc.outcome (ReshareOps.verifyFactorProof s.config env own.params p)
    Proc.throwIf ((s.materialOf env.sender).any (·.publicKey.n ≠ p.paillierPublicKey.n))
      (verificationErrorWithEvidence env "reshare factor proof key mismatch" [env.sender]
        (.new "factor proof Paillier key differs from receiver broadcast"))
    modify (modifyNewParty env.sender fun d => { d with factor := some (p.proof, p.paillierPublicKey) })

/-- The switch of `applyValidatedInbound`. -/
def applyPayload (coins : LifecycleOps.Coins) (env : Envelope) : Body (List Envelope) :=
  if env.payloadType = payloadReshareDealerCommitments then do
    applyReshareDealerCommitments env
    return []
  else if env.payloadType = payloadReshareShare then do
    applyReshareShareInbound env
    return []
  else if env.payloadType = payloadReshareReceiverMaterial then
    applyReshareReceiverMaterial coins env
  else if env.payloadType = payloadReshareFactorProof then do
    applyReshareFactorProof env
    return []
  else throw (.newProtocolError .invalidMessage env.round env.sender
    (.errorf "unexpected payload type %q" [.text env.payloadType]))

def applyValidatedInbound (coins : LifecycleOps.Coins) (env : Envelope) : Body (List Envelope) := do
  let out ← applyPayload coins env
  let completionOut ← tryComplete coins
  return out ++ completionOut

def hasAcceptedInbound (s : ReshareSession) (env : Envelope) : Bool :=
  if env.payloadType = payloadReshareDealerCommitments then (s.commitmentsOf env.sender).isSome
  else if env.payloadType = payloadReshareShare then (s.shareOf env.sender).isSome
  else if env.payloadType = payloadReshareReceiverMaterial then (s.materialOf env.sender).isSome
  else if env.payloadType = payloadReshareFactorProof then (s.factorOf env.sender).isSome
  else if env.payloadType = payloadKeygenConfirmation then (s.confirmationOf env.sender).isSome
  else false

/-- `cloneForInboundTransition`. Figure 7, its failure and a pending generation are not copied. -/
def cloneForInboundTransition (s : ReshareSession) : ReshareSession :=
  { s with
    closed := false
    closePending := false
    auxInfo := none
    figure7Failure := none
    lifecycleFinal := none }

def commitInboundTransition (staged s : ReshareSession) : ReshareSession :=
  { staged with closed := s.closed, closePending := s.closePending }

end Session

end ReshareSession

end Tss.Cggmp21
