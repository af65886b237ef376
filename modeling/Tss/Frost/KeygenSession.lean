import Tss.Frost.Confirmation

/-!
# The key generation session (`frost/ed25519/keygen.go`, `keygen_start.go`, `keygen_state.go`,
`keygen_transition.go`, `keygen_completion.go`, `keygen_finalize.go`, `keygen_proof.go`)

Every party deals a polynomial: it broadcasts commitments with a proof of
knowledge of the constant term, then sends each party its share, then
confirms what it holds. Messages of later rounds may come first and are kept.
-/

namespace Tss.Frost

open Edwards25519 Fallible Wire

variable {F G : Type} [Field F] [DecidableEq F] [AddCommGroup G] [DecidableEq G] [Module F G]
  [Edwards25519 F G]

/-! ## Configuration and state -/

/-- `ThresholdConfig`, without the sources of randomness, logging and signing. The parties of
a session are sorted, so that `SortParties` leaves them as they are. -/
structure ThresholdConfig where
  threshold : Nat
  parties : PartySet
  self : PartyID
  sessionID : Array32

def keygenCommitmentRound : UInt8 := 1
def keygenShareRound : UInt8 := 2
def keygenConfirmationRound : UInt8 := 3

def payloadKeygenCommitments : GoString := lit "frost.ed25519.keygen.commitments"
def payloadKeygenShare : GoString := lit "frost.ed25519.keygen.share"
def payloadKeygenConfirmation : GoString := lit "frost.ed25519.keygen.confirmation"

/-- What a dealer broadcasts in the first round. -/
structure Dealing (G : Type) where
  commitments : List G
  chainCodeCommit : Bytes
  proof : SchnorrProof
deriving DecidableEq

/-- `frostKeygenRound1Slot`. Commitments, proof and chain-code commitment come together. -/
structure Round1Slot (F G : Type) where
  dealing : Option (Dealing G)
  share : Option F

/-- `frostKeygenLocalMaterial`. The polynomial is dropped once the shares are built. -/
structure LocalMaterial (F G : Type) where
  polynomial : Option (List F)
  dealing : Dealing G
  localShare : F
  chainCode : Bytes

structure TrustedDealerCommitment (G : Type) [AddCommGroup G] where
  party : PartyID
  constantCommitment : SemanticPoint G
  chainCodeCommit : Bytes

/-- `TrustedDealerImportPlan`: the parts a session checks against. -/
structure TrustedDealerImportPlan (G : Type) [AddCommGroup G] where
  publicKey : SemanticPoint G
  chainCode : Bytes
  commitments : List (TrustedDealerCommitment G)

/-- `frostPendingKeyShare`. -/
structure PendingKeyShare (F G : Type) [AddCommGroup G] extends KeyShare F G where
  keygenSessionID : Array32
  keygenTranscriptHash : Bytes
  planHash : Bytes
  localChainCode : Bytes

inductive KeygenState where
  | collectingCommitments
  | collectingShares
  | awaitingConfirmations
  | confirmed
  | aborted
deriving DecidableEq

structure KeygenSession (F G : Type) [AddCommGroup G] where
  cfg : ThresholdConfig
  limits : Limits
  planHash : Bytes
  importPlan : Option (TrustedDealerImportPlan G)
  guard : EnvelopeGuard
  localMaterial : Option (LocalMaterial F G)
  round1 : FMap PartyID (Round1Slot F G)
  confirmations : FMap PartyID (KeygenConfirmation G)
  chainCodes : FMap PartyID Bytes
  pendingConfirmations : FMap PartyID (KeygenConfirmation G)
  pending : Option (PendingKeyShare F G)
  keyShare : Option (KeyShareState F G)
  state : KeygenState
  completed : Bool
  aborted : Bool
  closed : Bool

/-! ## Payloads -/

def keygenCommitmentsSchema : Schema :=
  ⟨"keygenCommitmentsPayload", "frost.ed25519.payload.keygen.commitments", 1,
    [(1, "Commitments"), (2, "ChainCodeCommit"), (3, "PlanHash"), (4, "Proof")]⟩

def Dealing.validate (d : Dealing G) (planHash : Bytes) : Except GoError Unit := do
  rejectIf (d.chainCodeCommit.length ≠ 32)
    (.errorf "chain code commit must be 32 bytes, got %d" [.num d.chainCodeCommit.length])
  rejectIf (planHash.length ≠ sha256Size)
    (.new "keygen commitments plan hash must be 32 bytes")
  (validateCommitments true d.commitments).mapError (.wrap "keygen commitments: %w" [])
  (d.proof.validate G).mapError (.wrap "keygen commitments proof: %w" [])

/-- `keygenCommitmentsPayload.MarshalBinaryWithLimits`. -/
def Dealing.marshal (limits : Limits) (d : Dealing G) (planHash : Bytes) :
    Except GoError Bytes := do
  (d.validate planHash).mapError keygenCommitmentsSchema.marshalError
  let commitments ← (do
    let raw ← commitmentsToWire "keygen" true d.commitments
    checkCustomItemLimit limits.threshold.maxThreshold raw
    pure raw : Except GoError Bytes).mapError (keygenCommitmentsSchema.fieldError 0)
  let proof ← (d.proof.marshalRecord G).mapError (keygenCommitmentsSchema.fieldError 3)
  keygenCommitmentsSchema.marshal [commitments, d.chainCodeCommit, planHash, proof]

/-- `keygenCommitmentsPayload.UnmarshalBinaryWithLimits`: the dealing and its plan hash. -/
def Dealing.unmarshal (limits : Limits) (raw : Bytes) : Except GoError (Dealing G × Bytes) := do
  let values ← keygenCommitmentsSchema.unmarshal limits.payloadFrameLimits raw
  let commitments ← itemsField keygenCommitmentsSchema 0 limits.threshold.maxThreshold
    (values.getD 0 []) (commitmentsFromWire "keygen" true)
  let planHash ← hashField keygenCommitmentsSchema 2 (values.getD 2 [])
  let proof ← (SchnorrProof.unmarshalRecord G limits.payloadFrameLimits (values.getD 3 [])).mapError
    (keygenCommitmentsSchema.fieldError 3)
  let d : Dealing G := { commitments, chainCodeCommit := values.getD 1 [], proof }
  (d.validate planHash).mapError keygenCommitmentsSchema.validateError
  pure (d, planHash)

/-- `keygenSharePayload` and `reshareSharePayload`. -/
structure SharePayload (F : Type) where
  share : F
  planHash : Bytes
deriving DecidableEq

def keygenShareSchema : Schema :=
  ⟨"keygenSharePayload", "frost.ed25519.payload.keygen.share", 1, [(1, "Share"), (2, "PlanHash")]⟩

/-- `MarshalBinaryWithLimits` of a share. A scalar is canonical, so that only the plan hash can
be refused. -/
def SharePayload.marshal (G : Type) [AddCommGroup G] [Module F G] [Edwards25519 F G]
    (schema : Schema) (kind : String) (p : SharePayload F) : Except GoError Bytes := do
  rejectIf (p.planHash.length ≠ sha256Size)
    (schema.marshalError (.new (kind ++ " share plan hash must be 32 bytes")))
  schema.marshal [scalarBytes G p.share, p.planHash]

/-- `UnmarshalBinaryWithLimits` of a share. The scalar itself is checked by `Validate`, after
the plan hash is read. -/
def SharePayload.unmarshal (G : Type) [AddCommGroup G] [Module F G] [Edwards25519 F G]
    (schema : Schema) (limits : Limits) (raw : Bytes) : Except GoError (SharePayload F) := do
  let values ← schema.unmarshal limits.payloadFrameLimits raw
  let encoded ← hashField schema 0 (values.getD 0 [])
  let planHash ← hashField schema 1 (values.getD 1 [])
  let share ← (scalarFromCanonicalBytes G encoded).mapError schema.validateError
  pure { share, planHash }

/-! ## The dealer's proof -/

section Hash

variable [Sha256]

def protocolVersion : UInt32 := 1

/-- The transcript of `frostKeygenProofStatement.domain`. -/
def keygenProofTranscript (cfg : ThresholdConfig) (planHash : Bytes) (dealer : PartyID)
    (commitments : List G) (chainCodeCommit : Bytes) : Transcript.Builder :=
  (Transcript.new "frost-ed25519-keygen-constant-proof-v1").appendString "ciphersuite_context"
      rfc9591ContextString
    |>.appendString "protocol" protocolFROSTEd25519
    |>.appendUint32 "version" protocolVersion
    |>.appendBytes "session_id" cfg.sessionID.toList
    |>.appendUint32 "round" keygenCommitmentRound.toUInt32
    |>.appendUint32 "dealer" dealer
    |>.appendUint32 "threshold" (UInt32.ofNat cfg.threshold)
    |>.appendUint32List "parties" cfg.parties
    |>.appendBytes "plan_hash" planHash
    |>.appendBytesList "coefficient_commitments" (commitments.map pointBytes)
    |>.appendBytes "chain_code_commitment" chainCodeCommit

def frostKeygenProofDomain (cfg : ThresholdConfig) (planHash : Bytes) (dealer : PartyID)
    (commitments : List G) (chainCodeCommit : Bytes) : Bytes :=
  (keygenProofTranscript cfg planHash dealer commitments chainCodeCommit).sum

def pointAt (points : List G) (i : Nat) : Except GoError G :=
  match points[i]? with
  | some P => .ok P
  | none => .error (.errorf "commitment index %d out of range" [.num i])

def verifyFROSTKeygenProof (cfg : ThresholdConfig) (planHash : Bytes) (dealer : PartyID)
    (d : Dealing G) : Except GoError Unit := do
  let constant ← pointAt d.commitments 0
  let domain := frostKeygenProofDomain cfg planHash dealer d.commitments d.chainCodeCommit
  rejectIf (d.proof.verify G domain (pointBytes constant) = false)
    (.new "invalid keygen constant-term proof")

end Hash

/-! ## Shares and aggregates -/

def verifyCommitmentShare (points : List G) (id : PartyID) (share : F) : Except GoError Unit :=
  match evalCommitmentPoints (F := F) points id with
  | none => .error (.new "empty commitments")
  | some want =>
    rejectIf ((baseMult share : G) ≠ want) (.new "share does not match commitments")

def frostKeygenBlame (dealer : PartyID) : Tss.Blame := ⟨"invalid DKG share", [dealer]⟩

def frostKeygenCommitmentBlame (dealer : PartyID) : Tss.Blame :=
  ⟨"invalid FROST DKG commitment or proof", [dealer]⟩

/-- The error that blames `id` for its share. -/
def shareBlameError (id : PartyID) (err : GoError) : GoError :=
  .protocol .verification keygenShareRound id (some (frostKeygenBlame id)) err

/-- `newGroupCommitmentsFromPoints`: the commitments with their constant term, which is not the
identity. -/
def newGroupCommitments (points : List G) (threshold : Nat) :
    Except GoError (SemanticPoint G × List G) := do
  rejectIf (threshold = 0) (.new "commitment threshold must be positive")
  rejectIf (points.length ≠ threshold)
    (.errorf "got %d commitments, want %d" [.num points.length, .num threshold])
  match points.head?.bind newSemanticPointFromPoint with
  | none => .error (.wrap "invalid commitment %d: %w" [.num 0] (.new "identity point is not allowed"))
  | some publicKey => pure (publicKey, points)

/-- The sum of the commitments to the coefficient of one degree. -/
def aggregateDegree (commitments : List (List G)) (degree : Nat) : Except GoError G := do
  let points ← commitments.mapM fun c => pointAt c degree
  pure (points.foldl (· + ·) 0)

def aggregateFROSTKeygenCommitments (threshold : Nat) (commitments : List (List G)) :
    Except GoError (SemanticPoint G × List G) := do
  let points ← (List.range threshold).mapM (aggregateDegree commitments)
  (newGroupCommitments points threshold).mapError (.wrap "invalid group public key: %w" [])

/-- `groupCommitments.Eval`. -/
def evalGroupCommitments (group : List G) (id : PartyID) : Except GoError (SemanticPoint G) :=
  match evalCommitmentPoints (F := F) group id with
  | none => .error (.new "empty commitments")
  | some P =>
    match newSemanticPointFromPoint P with
    | none => .error (.new "identity point is not allowed")
    | some Y => .ok Y

/-- `deriveFROSTVerificationShares`: the shares in the order of the parties. -/
def deriveFROSTVerificationShares (parties : PartySet) (group : List G) :
    Except GoError (List (PartyID × SemanticPoint G)) :=
  parties.mapM fun id => do
    let share ← evalGroupCommitments (F := F) group id
    pure (id, share)

/-- The map of a list of party data. -/
def partyDataOf {α : Type} (shares : List (PartyID × α)) : FMap PartyID α :=
  shares.foldl (fun m p => m.insert p.1 p.2) ∅

section Hash

variable [Sha256]

/-- One dealer's entries in the keygen transcript. -/
def appendDealer (t : Transcript.Builder) (dealer : PartyID × List Bytes × Bytes) :
    Transcript.Builder :=
  t.appendUint32 "dealer" dealer.1
    |>.appendBytesList "dealer_commitments" dealer.2.1
    |>.appendBytes "dealer_constant_proof" dealer.2.2

/-- One entry of `appendVerificationShares`. -/
def appendVerificationShare (t : Transcript.Builder) (share : PartyID × SemanticPoint G) :
    Transcript.Builder :=
  t.appendUint32 "verification_share_party" share.1
    |>.appendBytes "verification_share_public_key" (pointBytes share.2.val)

/-- The transcript of `frostKeygenTranscriptHash`. -/
def keygenTranscript (cfg : ThresholdConfig) (chainCodeCommitAggregate planHash : Bytes)
    (dealers : List (PartyID × List Bytes × Bytes)) (group : List G)
    (verificationShares : List (PartyID × SemanticPoint G)) : Transcript.Builder :=
  let t := (Transcript.new "frost-ed25519-keygen-transcript-v1").appendString
      "ciphersuite_context" rfc9591ContextString
    |>.appendString "protocol" protocolFROSTEd25519
    |>.appendUint32 "version" protocolVersion
    |>.appendBytes "session_id" cfg.sessionID.toList
    |>.appendUint32 "threshold" (UInt32.ofNat cfg.threshold)
    |>.appendUint32List "parties" cfg.parties
    |>.appendBytes "chain_code" chainCodeCommitAggregate
    |>.appendBytes "plan_hash" planHash
  let t := dealers.foldl appendDealer t
  let t := t.appendBytesList "group_commitments" (group.map pointBytes)
  verificationShares.foldl appendVerificationShare t

end Hash

namespace PendingKeyShare

def confirmationReference [Sha256] (p : PendingKeyShare F G) (sender : PartyID)
    (chainCode : Bytes) : Except GoError (KeygenConfirmation G) := do
  rejectIf (sender ∉ p.parties)
    (.errorf "confirmation sender %d is not a participant" [.num sender.toNat])
  pure
    { sessionID := p.keygenSessionID
      sender
      threshold := p.threshold
      parties := p.parties
      publicKey := p.publicKey
      transcriptHash := p.keygenTranscriptHash
      commitmentsHash := KeyShareState.keygenGroupCommitmentsHash p.groupCommitments
      chainCode
      planHash := p.planHash }

/-- `verifyKeygenConfirmationForPending`. -/
def verifyConfirmation [Sha256] (p : PendingKeyShare F G) (c : KeygenConfirmation G) :
    Except GoError Unit := do
  let reference ← p.confirmationReference p.party p.localChainCode
  compareKeygenConfirmationBindingFields reference c

/-- `verifyKeygenConfirmationSetForPending`. -/
def verifyConfirmationSet [Sha256] (p : PendingKeyShare F G)
    (confirmations : List (KeygenConfirmation G)) : Except GoError Unit := do
  let reference ← p.confirmationReference p.party p.localChainCode
  verifyKeygenConfirmationBindingList p.parties reference confirmations

end PendingKeyShare

namespace KeygenSession

/-! ## Inboxes -/

def slot (s : KeygenSession F G) (id : PartyID) : Except GoError (Round1Slot F G) :=
  match s.round1.lookup id with
  | none => .error (.errorf "party %d is not a keygen participant" [.num id.toNat])
  | some slot => .ok slot

/-- `commitmentsReady`: every party has dealt, or the error of a missing slot before the first
that has not. -/
def commitmentsReady (s : KeygenSession F G) : PartySet → Except GoError Bool
  | [] => .ok true
  | id :: ids =>
    match s.round1.lookup id with
    | none => .error (.errorf "missing keygen commitment slot for party %d" [.num id.toNat])
    | some slot => if slot.dealing = none then .ok false else s.commitmentsReady ids

/-- One party in `frostKeygenRound1Snapshot`. -/
structure SnapshotEntry (F G : Type) where
  party : PartyID
  dealing : Dealing G
  share : F

/-- `frostKeygenRound1Inbox.snapshot` over the remaining parties. -/
def round1Snapshot (s : KeygenSession F G) :
    PartySet → Except GoError (Option (List (SnapshotEntry F G)))
  | [] => .ok (some [])
  | id :: ids =>
    match s.round1.lookup id with
    | none => .error (.errorf "missing keygen round1 slot for party %d" [.num id.toNat])
    | some ⟨some dealing, some share⟩ => do
      match ← s.round1Snapshot ids with
      | none => pure none
      | some entries => pure (some (⟨id, dealing, share⟩ :: entries))
    | some _ => .ok none

/-- `frostKeygenConfirmationInbox.snapshot` over the remaining parties. -/
def confirmationSnapshot (s : KeygenSession F G) :
    PartySet → Except GoError (Option (List (KeygenConfirmation G)))
  | [] => .ok (some [])
  | id :: ids =>
    match s.confirmations.lookup id with
    | none => .ok none
    | some c =>
      match s.chainCodes.lookup id with
      | none => .error (.errorf "missing keygen chain code reveal for party %d" [.num id.toNat])
      | some _ => do
        match ← s.confirmationSnapshot ids with
        | none => pure none
        | some confirmations => pure (some (c :: confirmations))

/-- `DestroySecrets` of the inbox. -/
def destroySecrets (round1 : FMap PartyID (Round1Slot F G)) : FMap PartyID (Round1Slot F G) :=
  round1.mapVals fun _ slot => { slot with share := none }

def abort (s : KeygenSession F G) : KeygenSession F G :=
  if s.aborted then s
  else
    { s with
      localMaterial := none
      round1 := destroySecrets s.round1
      confirmations := ∅
      chainCodes := ∅
      pendingConfirmations := ∅
      aborted := true
      pending := none
      keyShare := if s.completed then s.keyShare else none
      completed := false
      state := .aborted }

section Rounds

variable [Sha256]

/-! ## The commitment round -/

/-- One dealer in `verifyAvailableFROSTKeygenShares`. -/
def verifyAvailableShare (s : KeygenSession F G) (id : PartyID) : Except GoError Unit := do
  let slot ← s.slot id
  match slot.share, slot.dealing with
  | none, _ => pure ()
  | some _, none =>
    .error (.newProtocolError .invariant keygenCommitmentRound id
      (.new "share buffered without dealer commitments at round transition"))
  | some share, some dealing =>
    (verifyCommitmentShare dealing.commitments s.cfg.self share).mapError (shareBlameError id)

/-- The envelope of one share in `emitFROSTKeygenRound2`. -/
def shareEnvelope (s : KeygenSession F G) (polynomial : List F) (id : PartyID) :
    Except GoError Envelope := do
  let payload ← SharePayload.marshal G keygenShareSchema "keygen"
    { share := evalScalarPolynomial polynomial id, planHash := s.planHash }
  newEnvelope protocolFROSTEd25519 s.cfg.sessionID keygenShareRound s.cfg.self id
    payloadKeygenShare payload

def emitFROSTKeygenRound2 (s : KeygenSession F G) : Except GoError (List Envelope) :=
  match s.localMaterial.bind LocalMaterial.polynomial with
  | none => .error (.new "missing local polynomial for keygen share round")
  | some polynomial => (s.cfg.parties.filter (· ≠ s.cfg.self)).mapM (s.shareEnvelope polynomial)

/-! ## The share round -/

/-- One dealer in `verifyFROSTKeygenShares`. -/
def verifySnapshotShare (s : KeygenSession F G) (entry : SnapshotEntry F G) :
    Except GoError Unit :=
  (verifyCommitmentShare entry.dealing.commitments s.cfg.self entry.share).mapError
    (shareBlameError entry.party)

/-- `buildFROSTKeygenTranscriptHash`. -/
def buildTranscriptHash (s : KeygenSession F G) (snap : List (SnapshotEntry F G))
    (group : List G) (shares : List (PartyID × SemanticPoint G)) : Except GoError Bytes := do
  let dealers ← snap.mapM fun entry => do
    let proof ← (entry.dealing.proof.marshal G).mapError
      (.wrap "marshal keygen constant-term proof: %w" [])
    pure (entry.party, entry.dealing.commitments.map pointBytes, proof)
  let aggregate ← aggregateChainCode s.cfg.parties
    (partyDataOf (snap.map fun entry => (entry.party, entry.dealing.chainCodeCommit)))
  pure (keygenTranscript s.cfg aggregate s.planHash dealers group shares).sum

/-- The error of an aggregate that is no key: nobody is blamed. -/
def aggregateError (text : String) (err : GoError) : GoError :=
  .newProtocolError .verification keygenShareRound broadcastPartyId (.wrap text [] err)

/-- `preparedPendingKeyShare`. -/
structure PreparedPending (F G : Type) [AddCommGroup G] where
  pending : PendingKeyShare F G
  confirmation : KeygenConfirmation G
  env : Envelope

def preparePendingKeyMaterial (s : KeygenSession F G) (snap : List (SnapshotEntry F G)) :
    Except GoError (PreparedPending F G) := do
  rejectIf (s.pending.isSome ∨ s.completed) (.new "keygen round1 already completed")
  match s.localMaterial with
  | none => .error (.new "missing keygen local material")
  | some material =>
    snap.forM s.verifySnapshotShare
    let secret := snap.foldl (fun total entry => total + entry.share) 0
    let (publicKey, group) ← (aggregateFROSTKeygenCommitments s.cfg.threshold
        (snap.map fun entry => entry.dealing.commitments)).mapError
      (aggregateError "invalid aggregate keygen commitments: %w")
    rejectIf (s.importPlan.any fun plan => publicKey ≠ plan.publicKey)
      (.new "trusted-dealer import produced the wrong group public key")
    let shares ← (deriveFROSTVerificationShares (F := F) s.cfg.parties group).mapError
      (aggregateError "invalid aggregate verification shares: %w")
    let transcriptHash ← s.buildTranscriptHash snap group shares
    let pending : PendingKeyShare F G :=
      { party := s.cfg.self
        threshold := s.cfg.threshold
        parties := s.cfg.parties
        publicKey
        secret
        groupCommitments := group
        partyData := partyDataOf shares
        keygenSessionID := s.cfg.sessionID
        keygenTranscriptHash := transcriptHash
        planHash := s.planHash
        localChainCode := material.chainCode }
    let confirmation ← pending.confirmationReference pending.party pending.localChainCode
    let encoded ← confirmation.marshal s.limits
    let env ← newEnvelope protocolFROSTEd25519 s.cfg.sessionID keygenConfirmationRound s.cfg.self
      broadcastPartyId payloadKeygenConfirmation encoded
    pure { pending, confirmation, env }

def commitPendingKeyShare (p : PreparedPending F G) (s : KeygenSession F G) : KeygenSession F G :=
  { s with
    confirmations := s.confirmations.insert s.cfg.self p.confirmation
    chainCodes := s.chainCodes.insert s.cfg.self p.confirmation.chainCode
    pending := some p.pending
    state := .awaitingConfirmations
    localMaterial := none
    round1 := destroySecrets s.round1 }

/-! ## The confirmation round -/

/-- The error of the confirmation round. -/
def confirmationError (party : PartyID) (err : GoError) : GoError :=
  .newProtocolError .verification keygenConfirmationRound party err

/-- `verifyFROSTKeygenCommitRevealChainCode`. -/
def verifyReveal (sessionID : Array32) (sender : PartyID) (revealed commitment : Bytes) :
    Except GoError Unit :=
  rejectIf (verifyChainCodeCommit sessionID sender revealed commitment = false)
    (.errorf "keygen confirmation chain code does not match round 1 commit from party %d"
      [.num sender.toNat])

/-- One reveal in `buildFinalKeyShare`; a missing commitment or reveal is empty. -/
def checkFinalReveal (s : KeygenSession F G) (id : PartyID) : Except GoError Unit :=
  (do
    let slot ← s.slot id
    verifyReveal s.cfg.sessionID id ((s.chainCodes.lookup id).getD [])
      ((slot.dealing.map Dealing.chainCodeCommit).getD []) : Except GoError Unit).mapError
    (confirmationError id)

def buildFinalKeyShare (s : KeygenSession F G) (snap : List (KeygenConfirmation G)) :
    Except GoError (KeyShareState F G) := do
  match s.pending with
  | none => .error (confirmationError s.cfg.self (.new "missing pending key share"))
  | some pending =>
    (pending.verifyConfirmationSet snap).mapError (confirmationError s.cfg.self)
    s.cfg.parties.forM s.checkFinalReveal
    let chainCode ← (aggregateChainCode s.cfg.parties s.chainCodes).mapError
      (confirmationError s.cfg.self)
    rejectIf (s.importPlan.any fun plan => chainCode ≠ plan.chainCode)
      (confirmationError s.cfg.self (.new "trusted-dealer import chain code mismatch"))
    let final : KeyShareState F G :=
      { pending.toKeyShare with
        chainCode
        keygenSessionID := pending.keygenSessionID
        keygenTranscriptHash := pending.keygenTranscriptHash
        planHash := pending.planHash
        confirmationMode := .keygenContributions
        confirmations := ∅ }
    let final ← (final.applyConfirmationSet snap).mapError (confirmationError s.cfg.self)
    (final.validateWithLimits s.limits).mapError (confirmationError s.cfg.self)
    pure final

def commitFinalKeyShare (share : KeyShareState F G) (s : KeygenSession F G) : KeygenSession F G :=
  { s with
    pending := none
    confirmations := ∅
    chainCodes := ∅
    keyShare := some share
    completed := true
    state := .confirmed }

/-! ## Advancing -/

/-- `tryAdvance` while awaiting confirmations. -/
def advanceConfirmations : Proc (KeygenSession F G) GoError (List Envelope) := do
  let s ← get
  match ← Proc.outcome (s.confirmationSnapshot s.cfg.parties) with
  | none => pure []
  | some snap =>
    let share ← Proc.outcome (s.buildFinalKeyShare snap)
    modify (commitFinalKeyShare share)
    pure []

/-- `tryAdvance` while collecting shares. What it calls at the end is in the next state. -/
def advanceShares : Proc (KeygenSession F G) GoError (List Envelope) := do
  let s ← get
  match ← Proc.outcome (s.round1Snapshot s.cfg.parties) with
  | none => pure []
  | some snap =>
    let prepared ← Proc.outcome (s.preparePendingKeyMaterial snap)
    modify (commitPendingKeyShare prepared)
    let more ← advanceConfirmations
    pure (prepared.env :: more)

/-- `tryAdvance` while collecting commitments. When a later round fails, the shares built here
are not returned. -/
def advanceCommitments : Proc (KeygenSession F G) GoError (List Envelope) := do
  let s ← get
  let ready ← Proc.outcome (s.commitmentsReady s.cfg.parties)
  if ready then do
    Proc.outcome (s.cfg.parties.forM s.verifyAvailableShare)
    let out ← Proc.outcome s.emitFROSTKeygenRound2
    modify fun s => { s with
      state := .collectingShares
      localMaterial := s.localMaterial.map fun m => { m with polynomial := none } }
    let more ← advanceShares
    pure (out ++ more)
  else pure []

def tryAdvance : Proc (KeygenSession F G) GoError (List Envelope) := do
  let s ← get
  if s.completed || s.aborted then pure []
  else
    match s.state with
    | .collectingCommitments => advanceCommitments
    | .collectingShares => advanceShares
    | .awaitingConfirmations => advanceConfirmations
    | .confirmed | .aborted => pure []

/-! ## Transitions -/

def promotePendingKeygenConfirmation (sender : PartyID) :
    Proc (KeygenSession F G) GoError Unit := do
  let s ← get
  match s.pendingConfirmations.lookup sender with
  | none => pure ()
  | some c =>
    let slot ← Proc.outcome (s.slot sender)
    match slot.dealing with
    | none => pure ()
    | some dealing =>
      Proc.outcome ((verifyReveal s.cfg.sessionID sender c.chainCode
        dealing.chainCodeCommit).mapError (confirmationError sender))
      match s.pending with
      | none => pure ()
      | some pending =>
        Proc.outcome ((pending.verifyConfirmation c).mapError (confirmationError sender))
      modify fun s => { s with
        chainCodes := s.chainCodes.insert sender c.chainCode
        confirmations := s.confirmations.insert sender c
        pendingConfirmations := s.pendingConfirmations.erase sender }

end Rounds

end KeygenSession

/-- `acceptKeygenCommitmentsTx`, `acceptKeygenShareTx` and `acceptKeygenConfirmationTx`. -/
inductive KeygenTransition (F G : Type) [AddCommGroup G] where
  /-- A transition marked as a duplicate: applying it does nothing. -/
  | duplicate
  | acceptCommitments (sender : PartyID) (dealing : Dealing G)
  | acceptShare (sender : PartyID) (share : F)
  | acceptConfirmation (sender : PartyID) (confirmation : KeygenConfirmation G) (pending : Bool)

namespace KeygenSession

section Transitions

variable [Sha256]

/-- `apply` of the three transitions. -/
def apply : KeygenTransition F G → Proc (KeygenSession F G) GoError (List Envelope)
  | .duplicate => pure []
  | .acceptCommitments sender dealing => do
    let s ← get
    let slot ← Proc.outcome (s.slot sender)
    modify fun s => { s with
      round1 := s.round1.insert sender { slot with dealing := some dealing } }
    Proc.mapError (terminalApplyError keygenCommitmentRound)
      (promotePendingKeygenConfirmation sender)
    Proc.mapError (terminalApplyError keygenCommitmentRound) tryAdvance
  | .acceptShare sender share => do
    let s ← get
    let slot ← Proc.outcome (s.slot sender)
    modify fun s => { s with round1 := s.round1.insert sender { slot with share := some share } }
    Proc.mapError (terminalApplyError keygenShareRound) tryAdvance
  | .acceptConfirmation sender confirmation pending =>
    if pending then do
      modify fun s => { s with
        pendingConfirmations := s.pendingConfirmations.insert sender confirmation }
      pure []
    else do
      modify fun s => { s with
        chainCodes := s.chainCodes.insert sender confirmation.chainCode
        confirmations := s.confirmations.insert sender confirmation }
      Proc.mapError (terminalApplyError keygenConfirmationRound) tryAdvance

/-- `keygenCommitmentVerificationError`. -/
def commitmentVerificationError (base : Envelope) (err : GoError) : GoError :=
  .protocol .verification keygenCommitmentRound base.sender
    (some (frostKeygenCommitmentBlame base.sender)) err

/-- The constraint of a trusted-dealer import on the commitments of a dealer. -/
def checkImportConstraint (s : KeygenSession F G) (dealer : PartyID) (d : Dealing G) :
    Except GoError Unit :=
  match s.importPlan with
  | none => .ok ()
  | some plan =>
    match plan.commitments.find? (·.party = dealer) with
    | none => .error (.new "missing trusted-dealer commitment constraint")
    | some expected => do
      let constant ← pointAt d.commitments 0
      rejectIf (constant ≠ expected.constantCommitment.val ∨
          d.chainCodeCommit ≠ expected.chainCodeCommit)
        (.new "keygen commitments do not match trusted-dealer import plan")

def buildAcceptKeygenCommitmentsTx (s : KeygenSession F G) (base : Envelope) :
    Except GoError (KeygenTransition F G) := do
  let (dealing, planHash) ← (Dealing.unmarshal s.limits base.payload).mapError
    (commitmentVerificationError base)
  (requireHash "keygen" planHash s.planHash).mapError
    (.newProtocolError .verification base.round base.sender)
  (validateCommitmentsThreshold s.cfg.threshold true dealing.commitments).mapError
    (commitmentVerificationError base)
  (verifyFROSTKeygenProof s.cfg s.planHash base.sender dealing).mapError
    (commitmentVerificationError base)
  (s.checkImportConstraint base.sender dealing).mapError (commitmentVerificationError base)
  let slot ← (s.slot base.sender).mapError base.invalid
  match slot.dealing with
  | some existing =>
    if existing = dealing then pure .duplicate
    else .error (commitmentVerificationError base (.new "conflicting commitments"))
  | none => pure (.acceptCommitments base.sender dealing)

def buildAcceptKeygenShareTx (s : KeygenSession F G) (base : Envelope) :
    Except GoError (KeygenTransition F G) := do
  let payload ← (SharePayload.unmarshal G keygenShareSchema s.limits base.payload).mapError
    (shareBlameError base.sender)
  (requireHash "keygen" payload.planHash s.planHash).mapError
    (.newProtocolError .verification base.round base.sender)
  let slot ← (s.slot base.sender).mapError base.invalid
  match slot.share with
  | some existing =>
    if existing = payload.share then pure .duplicate
    else .error (shareBlameError base.sender (.new "conflicting share"))
  | none =>
    match slot.dealing with
    | none => pure ()
    | some dealing =>
      (verifyCommitmentShare dealing.commitments s.cfg.self payload.share).mapError
        (shareBlameError base.sender)
    pure (.acceptShare base.sender payload.share)

/-- The outcome of a second confirmation of a sender. -/
def duplicateConfirmation (base : Envelope) (text : String)
    (existing confirmation : KeygenConfirmation G) : Except GoError (KeygenTransition F G) :=
  if existing = confirmation then .ok .duplicate
  else .error (.newProtocolError .verification base.round base.sender
    (.errorf text [.num base.sender.toNat]))

def buildAcceptKeygenConfirmationTx (s : KeygenSession F G) (base : Envelope) :
    Except GoError (KeygenTransition F G) := do
  rejectIf (base.round ≠ keygenConfirmationRound)
    (.newProtocolError .round base.round base.sender (.new "keygen confirmation in wrong round"))
  let confirmation ← (KeygenConfirmation.unmarshal s.limits base.payload).mapError base.invalid
  rejectIf (confirmation.sender ≠ base.sender)
    (base.invalid (.errorf
      "keygen confirmation sender mismatch: env from %d, payload sender %d"
      [.num base.sender.toNat, .num confirmation.sender.toNat]))
  (requireHash "keygen confirmation" confirmation.planHash s.planHash).mapError
    (.newProtocolError .verification base.round base.sender)
  match s.pendingConfirmations.lookup base.sender with
  | some existing =>
    duplicateConfirmation base "conflicting pending keygen confirmation from party %d" existing
      confirmation
  | none =>
    let slot ← (s.slot base.sender).mapError base.invalid
    match s.confirmations.lookup base.sender with
    | some existing =>
      duplicateConfirmation base "conflicting keygen confirmation from party %d" existing
        confirmation
    | none =>
      match slot.dealing with
      | none => pure (.acceptConfirmation base.sender confirmation true)
      | some dealing =>
        (verifyReveal s.cfg.sessionID base.sender confirmation.chainCode
          dealing.chainCodeCommit).mapError
          (.newProtocolError .verification base.round base.sender)
        match s.pending with
        | none => pure ()
        | some pending =>
          (pending.verifyConfirmation confirmation).mapError
            (.newProtocolError .verification base.round base.sender)
        pure (.acceptConfirmation base.sender confirmation false)

/-- `buildKeygenTransition` after the guard. -/
def build (s : KeygenSession F G) (base : Envelope) : Except GoError (KeygenTransition F G) :=
  if base.payloadType = payloadKeygenConfirmation then s.buildAcceptKeygenConfirmationTx base
  else if base.payloadType = payloadKeygenCommitments then do
    rejectIf (base.round ≠ keygenCommitmentRound)
      (.newProtocolError .round base.round base.sender (.new "keygen commitments in wrong round"))
    s.buildAcceptKeygenCommitmentsTx base
  else if base.payloadType = payloadKeygenShare then do
    rejectIf (base.round ≠ keygenShareRound)
      (.newProtocolError .round base.round base.sender (.new "keygen share in wrong round"))
    s.buildAcceptKeygenShareTx base
  else .error (base.invalid (.errorf "unexpected payload type %q" [.text base.payloadType]))

/-- The session's part of the handler template. -/
def ops : SessionOps (KeygenSession F G) (KeygenTransition F G) where
  completed s := s.completed
  aborted s := s.aborted
  abort := abort
  validateInbound s env cache :=
    validateInbound s.guard env protocolFROSTEd25519 s.cfg.sessionID s.cfg.parties s.cfg.self cache
  build := build
  apply := apply

/-! ## Calls -/

def handle (ctx : HandlerContext) (env : InboundEnvelope) (h : Hosted (KeygenSession F G)) :
    Except GoError (List Envelope) × Hosted (KeygenSession F G) :=
  ops.handleSessionEnvelope ctx env h

/-- `KeygenSession.Abort`. -/
def abortCall (ctx : CallerContext) (reason : GoString) (s : KeygenSession F G) :
    Except GoError Unit × KeygenSession F G :=
  match ctx.check "nil session disposition context" with
  | .error err => (.error err, s)
  | .ok () =>
    if reason = [] then (.error (.new "session abort reason must not be empty"), s)
    else if s.closed || s.aborted then (.ok (), s)
    else if s.completed then (.error (.sentinel .runCompleted), s)
    else (.ok (), s.abort)

/-- `KeygenSession.Close`. -/
def closeCall (ctx : CallerContext) (s : KeygenSession F G) :
    Except GoError Unit × KeygenSession F G :=
  match ctx.check "nil session close context" with
  | .error err => (.error err, s)
  | .ok () =>
    if s.closed then (.ok (), s)
    else
      let s := if !s.completed && !s.aborted then s.abort else s
      (.ok (), { s with keyShare := none, closed := true })

/-- A call on a session. -/
inductive Call where
  | handle (ctx : HandlerContext) (env : InboundEnvelope)
  | abort (ctx : CallerContext) (reason : GoString)
  | close (ctx : CallerContext)

/-- One call; only `Handle` returns envelopes. -/
def step (h : Hosted (KeygenSession F G)) :
    Call → Except GoError (List Envelope) × Hosted (KeygenSession F G)
  | .handle ctx env => handle ctx env h
  | .abort ctx reason =>
    let (r, s) := abortCall ctx reason h.session
    (r.map fun _ => [], { h with session := s })
  | .close ctx =>
    let (r, s) := closeCall ctx h.session
    (r.map fun _ => [], { h with session := s })

/-! ## Start -/

/-- `KeygenSession.KeyShare`. -/
def keyShareResult (s : KeygenSession F G) : Option (KeyShareState F G) :=
  if s.completed then s.keyShare else none

/-- What a party brings into the run: its coefficients, its chain-code contribution and the
nonce of its proof. -/
structure Contribution (F : Type) where
  polynomial : List F
  chainCode : Bytes
  nonce : F

/-- The commitments to a polynomial. -/
def commitTo (polynomial : List F) : List G := polynomial.map baseMult

/-- `generateFROSTKeygenLocalMaterial` and `prepareFROSTKeygenProof`, with what they draw as an
input. -/
def generateLocalMaterial (cfg : ThresholdConfig) (planHash : Bytes) (c : Contribution F) :
    Except GoError (LocalMaterial F G) := do
  validateCommitmentsThreshold cfg.threshold true (commitTo c.polynomial : List G)
  rejectIf (c.chainCode.length ≠ 32)
    (.new "trusted-dealer chain code contribution must be 32 bytes")
  let chainCodeCommit := chainCodeCommitment cfg.sessionID cfg.self c.chainCode
  let domain := frostKeygenProofDomain cfg planHash cfg.self (commitTo c.polynomial : List G)
    chainCodeCommit
  match SchnorrProof.prove G domain (c.polynomial.headD 0) c.nonce with
  | none => .error (.sentinel .rejectionLimit)
  | some proof =>
    pure
      { polynomial := some c.polynomial
        dealing := { commitments := commitTo c.polynomial, chainCodeCommit, proof }
        localShare := evalScalarPolynomial c.polynomial cfg.self
        chainCode := c.chainCode }

/-- `newFROSTKeygenSession`. -/
def initial (cfg : ThresholdConfig) (limits : Limits) (planHash : Bytes) (guard : EnvelopeGuard)
    (material : LocalMaterial F G) (importPlan : Option (TrustedDealerImportPlan G)) :
    KeygenSession F G where
  cfg := cfg
  limits := limits
  planHash := planHash
  importPlan := importPlan
  guard := guard
  localMaterial := some material
  round1 := (cfg.parties.foldl (fun m id => m.insert id ⟨none, none⟩)
    (∅ : FMap PartyID (Round1Slot F G))).insert cfg.self
      ⟨some material.dealing, some material.localShare⟩
  confirmations := ∅
  chainCodes := ∅
  pendingConfirmations := ∅
  pending := none
  keyShare := none
  state := .collectingCommitments
  completed := false
  aborted := false
  closed := false

/-- `StartKeygen` and `StartTrustedDealerImport` from the local material on, with a local party
that is in the party set. What they check of the plan and the guard before is left out: every
session they start is one of these. -/
def startKeygen (cfg : ThresholdConfig) (limits : Limits) (planHash : Bytes)
    (guard : EnvelopeGuard) (c : Contribution F)
    (importPlan : Option (TrustedDealerImportPlan G)) :
    Except GoError (KeygenSession F G × List Envelope) := do
  let material ← generateLocalMaterial cfg planHash c
  let payload ← material.dealing.marshal limits planHash
  let env ← newEnvelope protocolFROSTEd25519 cfg.sessionID keygenCommitmentRound cfg.self
    broadcastPartyId payloadKeygenCommitments payload
  match Proc.exec tryAdvance (initial cfg limits planHash guard material importPlan) with
  | (.error err, _) => .error err
  | (.ok out, s) => .ok (s, env :: out)

end Transitions

end KeygenSession

end Tss.Frost
