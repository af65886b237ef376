import Tss.Frost.KeyShare

/-!
# Signing rounds (`sign_prepare_commit.go`, `sign_round2.go`, `rfc9591_hash.go`)

What a `SignSession` computes from the commitments and partials it has
collected: the binding factors and the group commitment, the local
partial, the check on everybody's partial and the aggregate signature.

Payloads stand in envelopes as values; their wire encoding and its size
limits are not modelled.
-/

namespace Tss.Frost

open Edwards25519 Fallible

/-! ## Session state -/

structure NonceCommitment (G : Type) [AddCommGroup G] where
  D : SemanticPoint G
  E : SemanticPoint G
  planHash : Bytes
deriving DecidableEq

structure SignPartialPayload (F : Type) where
  z : F
  planHash : Bytes
deriving DecidableEq

/-- The envelope of a partial signature. -/
structure PartialEnvelope (F : Type) where
  sessionID : Array32
  round : Nat
  sender : PartyID
  payload : SignPartialPayload F
deriving DecidableEq

/-- The part of `tss.DerivationResult` that signing reads: the key the verifier uses. -/
structure DerivationResult where
  childPublicKey : Bytes
deriving DecidableEq

def DerivationResult.verificationKeyBytes (r : DerivationResult) : Bytes := r.childPublicKey

/-- `SignSession`, without the transport guard, the logger and the limits. -/
structure SignSession (F G : Type) [AddCommGroup G] where
  key : KeyShare F G
  sessionID : Array32
  message : Bytes
  signers : PartySet
  derivation : DerivationResult
  planHash : Bytes
  commitments : FMap PartyID (NonceCommitment G)
  partials : FMap PartyID F
  partialEnvelopes : FMap PartyID (PartialEnvelope F)
  dNonce : Option F
  eNonce : Option F
  deltaScalar : Option F
  partialSent : Bool
  completed : Bool

/-- `frostSignBlame`: the evidence is over the partial's envelope, the signers and the
verification key. -/
structure Blame (F : Type) where
  envelope : PartialEnvelope F
  signers : PartySet
  publicKey : Bytes
deriving DecidableEq

/-- The errors of the signing rounds. -/
inductive SignError (F : Type) where
  /-- `signing nonce is unavailable` -/
  | nonceUnavailable
  /-- `missing nonce commitment point` -/
  | missingNoncePoint
  /-- `missing verification share for %d` -/
  | missingVerificationShare (id : PartyID)
  /-- `partial verification equation failed` -/
  | equationFailed
  | interpolation (cause : LagrangeError)
  /-- `group commitment requested before all nonce commitments were available` -/
  | commitmentsIncomplete
  /-- `missing commitment for %d` -/
  | missingCommitment (id : PartyID)
  /-- `derive group commitment binding factors: %w` -/
  | bindingFactors (cause : SignError F)
  /-- `group nonce commitment is identity` -/
  | groupNonceIdentity
  /-- `aggregated Ed25519 signature failed verification after all partials verified` -/
  | aggregateInvalid
  /-- A nil scalar is used: the call panics. -/
  | nilScalar (id : PartyID)
  /-- `tss.ProtocolError`. -/
  | protocol (code : ErrorCode) (round : Nat) (party : PartyID) (blame : Option (Blame F))
      (cause : SignError F)
deriving DecidableEq

def signStartRound : Nat := 1
def signRound2 : Nat := 2

/-! ## Hashes -/

def rfc9591ContextString : GoString := lit "FROST-ED25519-SHA512-v1"

section

variable [Sha512]

def rfc9591H1 {F : Type} (G : Type) [Field F] [AddCommGroup G] [Module F G] [Edwards25519 F G]
    (input : Bytes) : F :=
  hashToScalar G (rfc9591ContextString ++ lit "rho" ++ input)

def rfc9591H4 (msg : Bytes) : Bytes := sha512 (rfc9591ContextString ++ lit "msg" ++ msg)

def rfc9591H5 (encoded : Bytes) : Bytes := sha512 (rfc9591ContextString ++ lit "com" ++ encoded)

end

variable {F G : Type} [Field F] [DecidableEq F] [AddCommGroup G] [DecidableEq G] [Module F G]
  [Edwards25519 F G]

def partyIDScalarEncoding (G : Type) [AddCommGroup G] [Module F G] [Edwards25519 F G]
    (id : PartyID) : Bytes :=
  scalarBytes G (partyScalar F id)

def encodeGroupCommitmentList (signers : PartySet) (commitments : FMap PartyID (NonceCommitment G)) :
    Except (SignError F) Bytes :=
  signers.foldlM (fun out id =>
    match commitments.lookup id with
    | none => .error (.missingCommitment id)
    | some c =>
      .ok (out ++ (partyIDScalarEncoding G id ++ pointBytes c.D.val ++ pointBytes c.E.val))) []

namespace SignSession

variable [Sha512]

/-- The input all binding factors share: the key the verifier will use, the message and
the commitment list. -/
def bindingInput (s : SignSession F G) (encoded : Bytes) : Bytes :=
  s.derivation.verificationKeyBytes ++ rfc9591H4 s.message ++ rfc9591H5 encoded

def bindingFactors (s : SignSession F G) : Except (SignError F) (FMap PartyID F) := do
  let encoded ← encodeGroupCommitmentList s.signers s.commitments
  pure (s.signers.foldl (fun out id =>
    out.insert id (rfc9591H1 G (s.bindingInput encoded ++ partyIDScalarEncoding G id))) ∅)

/-- `groupCommitmentProtocolError`. -/
def groupCommitmentError (code : ErrorCode) (cause : SignError F) : SignError F :=
  .protocol code signStartRound broadcastPartyId none cause

/-- One signer's term `D + [rho]E` of the group commitment. -/
def nonceTerm (s : SignSession F G) (rhos : FMap PartyID F) (id : PartyID) :
    Except (SignError F) G :=
  match s.commitments.lookup id with
  | none => .error (groupCommitmentError .invariant (.missingCommitment id))
  | some c =>
    match rhos.lookup id with
    | none => .error (.nilScalar id)
    | some rho => .ok (c.D.val + rho • c.E.val)

def finalizeGroupCommitment (terms : List G) : Except (SignError F) G := do
  let R := terms.foldl (· + ·) 0
  rejectIf (R = 0) (groupCommitmentError .verification .groupNonceIdentity)
  pure R

def groupCommitment (s : SignSession F G) : Except (SignError F) (G × FMap PartyID F) := do
  rejectIf (s.commitments.keys.card ≠ s.signers.length)
    (groupCommitmentError .invariant .commitmentsIncomplete)
  let rhos ← s.bindingFactors.mapError fun err =>
    groupCommitmentError .invariant (.bindingFactors err)
  let terms ← s.signers.mapM (s.nonceTerm rhos)
  let R ← finalizeGroupCommitment terms
  pure (R, rhos)

/-- The challenge that every party computes from the group commitment. -/
def challenge (s : SignSession F G) (R : G) : F :=
  ed25519Challenge G (pointBytes R) s.derivation.verificationKeyBytes s.message

/-- The additive shift, zero when there is none. -/
def shift (s : SignSession F G) : F := s.deltaScalar.getD 0

/-- `prepareLocalPartial`: the partial and its envelope once every commitment is there. -/
def prepareLocalPartial (s : SignSession F G) :
    Except (SignError F) (Option (PartialEnvelope F)) := do
  if s.partialSent ∨ s.commitments.keys.card ≠ s.signers.length then return none
  match s.dNonce, s.eNonce with
  | some d, some e =>
    let (R, rhos) ← s.groupCommitment
    let c := s.challenge R
    let lambda ← (lagrangeCoefficientScalar s.key.party s.signers).mapError .interpolation
    match rhos.lookup s.key.party with
    | none => throw (.nilScalar s.key.party)
    | some rho =>
      let z := rho * e + d + lambda * c * s.key.secret
      -- A missing or zero shift adds nothing.
      let z := if s.deltaScalar.any (· ≠ 0) then z + lambda * c * s.shift else z
      pure (some
        { sessionID := s.sessionID
          round := signRound2
          sender := s.key.party
          payload := { z := z, planHash := s.planHash } })
  | _, _ => throw .nonceUnavailable

/-- `verifyPartial`: `[z]B = D + [rho]E + [lambda * c]Y` with the shifted share `Y`. -/
def verifyPartial (s : SignSession F G) (id : PartyID) (z rho challenge : F) :
    Except (SignError F) Unit :=
  match s.commitments.lookup id with
  | none => .error .missingNoncePoint
  | some c =>
    match s.key.verificationSharePoint id with
    | none => .error (.missingVerificationShare id)
    | some share => do
      let Y := if s.deltaScalar.any (· ≠ 0) then share.val + baseMult s.shift else share.val
      let lambda ← (lagrangeCoefficientScalar id s.signers).mapError .interpolation
      rejectIf ((baseMult z : G) ≠ c.D.val + rho • c.E.val + (lambda * challenge) • Y)
        .equationFailed

/-- `partialBlameEnvelope`: the envelope as received, or one rebuilt from the scalar. -/
def partialBlameEnvelope (s : SignSession F G) (id : PartyID) (z : F) : PartialEnvelope F :=
  (s.partialEnvelopes.lookup id).getD
    { sessionID := s.sessionID
      round := signRound2
      sender := id
      payload := { z := z, planHash := s.planHash } }

/-- One iteration of the aggregation loop: a partial is verified before it is added. -/
def aggregateStep (s : SignSession F G) (rhos : FMap PartyID F) (c z : F) (id : PartyID) :
    Except (SignError F) F :=
  match s.partials.lookup id, rhos.lookup id with
  | some part, some rho => do
    (s.verifyPartial id part rho c).mapError fun err =>
      .protocol .verification signRound2 id
        (some ⟨s.partialBlameEnvelope id part, s.signers, s.derivation.verificationKeyBytes⟩) err
    pure (z + part)
  | _, _ => .error (.nilScalar id)

/-- The error of the branch where the aggregate of verified partials does not verify. -/
def aggregateInvariantError : SignError F :=
  .protocol .invariant signRound2 broadcastPartyId none .aggregateInvalid

/-- `prepareAggregate`: the signature once every commitment and partial is there. -/
def prepareAggregate (s : SignSession F G) : Except (SignError F) (Option Bytes) := do
  if s.completed ∨ s.partials.keys.card ≠ s.signers.length then return none
  if s.commitments.keys.card ≠ s.signers.length then return none
  let (R, rhos) ← s.groupCommitment
  let c := s.challenge R
  let z ← s.signers.foldlM (s.aggregateStep rhos c) 0
  let sig := pointBytes R ++ scalarBytes G z
  rejectIf (¬ ed25519Verify G s.derivation.verificationKeyBytes s.message sig)
    aggregateInvariantError
  pure (some sig)

end SignSession

end Tss.Frost
