import Tss.Frost.Schnorr

/-!
# Confirmations and complete key shares (`frost/ed25519/keygen_confirmation.go`,
`keygen_confirmation_verify.go`, `keyshare.go`, `internal/bip32util`)

A lifecycle run ends with one confirmation of each party: what the party
holds, bound to the plan. A complete key share keeps them, and its
validation checks that they agree with it.
-/

set_option linter.unusedSectionVars false

namespace Tss.Frost

open Edwards25519 Fallible Wire

variable {F G : Type} [Field F] [DecidableEq F] [AddCommGroup G] [DecidableEq G] [Module F G]
  [Edwards25519 F G]

/-! ## Chain codes -/

def chainCodeSize : Nat := 32

/-- One party's contribution to `AggregateChainCode`; a missing entry is empty. -/
def addChainCode (chainCodes : FMap PartyID Bytes) (out : Bytes) (id : PartyID) :
    Except GoError Bytes := do
  let chainCode := (chainCodes.lookup id).getD []
  rejectIf (chainCode.length ≠ chainCodeSize)
    (.errorf "party %d chain code is %d bytes, want %d"
      [.num id.toNat, .num chainCode.length, .num chainCodeSize])
  pure (List.zipWith (· ^^^ ·) out chainCode)

/-- `AggregateChainCode`: the exclusive or of all contributions. -/
def aggregateChainCode (parties : PartySet) (chainCodes : FMap PartyID Bytes) :
    Except GoError Bytes :=
  parties.foldlM (addChainCode chainCodes) (List.replicate chainCodeSize 0)

def frostChainCodeCommitLabel : String := "frost-ed25519-chain-code-commit-v1"

section Hash

variable [Sha256]

/-- The transcript of `ChainCodeCommitment`. -/
def chainCodeTranscript (sessionID : Array32) (party : PartyID) (chainCode : Bytes) :
    Transcript.Builder :=
  (Transcript.new frostChainCodeCommitLabel).appendBytes "session_id" sessionID.toList
    |>.appendUint32 "party_id" party
    |>.appendBytes "chain_code" chainCode

def chainCodeCommitment (sessionID : Array32) (party : PartyID) (chainCode : Bytes) : Bytes :=
  (chainCodeTranscript sessionID party chainCode).sum

def verifyChainCodeCommit (sessionID : Array32) (party : PartyID) (chainCode commit : Bytes) :
    Bool :=
  commit.length = sha256Size ∧ chainCode.length = chainCodeSize ∧
    chainCodeCommitment sessionID party chainCode = commit

end Hash

/-! ## Confirmations -/

structure KeygenConfirmation (G : Type) [AddCommGroup G] where
  sessionID : Array32
  sender : PartyID
  threshold : Nat
  parties : PartySet
  publicKey : SemanticPoint G
  transcriptHash : Bytes
  commitmentsHash : Bytes
  chainCode : Bytes
  planHash : Bytes
deriving DecidableEq

namespace KeygenConfirmation

/-- `Validate`. The public key is a semantic point, which is all its own check asks. -/
def validate (c : KeygenConfirmation G) : Except GoError Unit := do
  rejectIf (c.sender = 0) (.new "keygen confirmation: zero sender")
  rejectIf (c.threshold < 1) (.new "keygen confirmation: threshold < 1")
  rejectIf (c.parties = []) (.new "keygen confirmation: empty party set")
  rejectIf (c.parties.length < c.threshold)
    (.new "keygen confirmation: threshold exceeds party count")
  rejectIf (c.transcriptHash.length ≠ sha256Size)
    (.new "keygen confirmation: invalid transcript hash length")
  rejectIf (c.commitmentsHash.length ≠ sha256Size)
    (.new "keygen confirmation: invalid commitments hash length")
  rejectIf (c.chainCode.length ≠ 32) (.new "keygen confirmation: chain code must be 32 bytes")
  rejectIf (c.planHash.length ≠ sha256Size)
    (.new "keygen confirmation: invalid plan hash length")
  (validateStrictSortedIDs c.parties).mapError fun text =>
    .wrap "keygen confirmation: %w" [] (.new text)
  rejectIf (c.sender ∉ c.parties) (.new "keygen confirmation: sender not in party set")

def validateWithLimits (limits : Limits) (c : KeygenConfirmation G) : Except GoError Unit := do
  rejectIf (limits.threshold.maxParties < c.parties.length)
    (.errorf "keygen confirmation: too many parties: %d > %d"
      [.num c.parties.length, .num limits.threshold.maxParties.toNat])
  rejectIf (limits.threshold.maxThreshold < c.threshold)
    (.errorf "keygen confirmation: threshold too large: %d > %d"
      [.num c.threshold, .num limits.threshold.maxThreshold.toNat])
  (limits.threshold.validateThreshold c.threshold c.parties.length).mapError
    (.wrap "keygen confirmation: %w" [])
  c.validate

def schema : Schema :=
  ⟨"KeygenConfirmation", "frost.ed25519.keygen-confirmation", 1,
    [(1, "SessionID"), (2, "Sender"), (3, "Threshold"), (4, "Parties"), (5, "PublicKey"),
      (6, "TranscriptHash"), (7, "CommitmentsHash"), (8, "ChainCode"), (9, "PlanHash")]⟩

/-- `MarshalBinaryWithLimits`. -/
def marshal (limits : Limits) (c : KeygenConfirmation G) : Except GoError Bytes := do
  c.validateWithLimits limits
  rejectIf (2 ^ 32 ≤ c.threshold)
    (schema.fieldError 2 (.errorf "uint32 value %d exceeds max" [.num c.threshold]))
  (checkUint32ListLimit limits.threshold.maxParties c.parties.length).mapError
    (schema.fieldError 3)
  schema.marshal [c.sessionID.toList, be32 c.sender.toNat, be32 c.threshold,
    Transcript.encodeUint32List c.parties, pointBytes c.publicKey.val, c.transcriptHash,
    c.commitmentsHash, c.chainCode, c.planHash]

/-- The session identifier in its field. -/
def sessionIDField (raw : Bytes) : Except GoError Array32 :=
  if h : raw.length = 32 then .ok ⟨raw.toArray, h⟩
  else .error (schema.fieldError 0 (.errorf "got %d bytes, want %d" [.num raw.length, .num 32]))

/-- `UnmarshalBinaryWithLimits`. -/
def unmarshal (limits : Limits) (raw : Bytes) : Except GoError (KeygenConfirmation G) := do
  let values ← schema.unmarshal limits.payloadFrameLimits raw
  let sessionID ← sessionIDField (values.getD 0 [])
  let sender ← (decodeUint32 (values.getD 1 [])).mapError (schema.fieldError 1)
  let threshold ← (decodeUint32 (values.getD 2 [])).mapError (schema.fieldError 2)
  let parties ← (decodeUint32List limits.threshold.maxParties (values.getD 3 [])).mapError
    (schema.fieldError 3)
  let publicKey ← fixedField schema 4 (values.getD 4 []) semanticPointFromBytes
  let transcriptHash ← hashField schema 5 (values.getD 5 [])
  let commitmentsHash ← hashField schema 6 (values.getD 6 [])
  let chainCode ← hashField schema 7 (values.getD 7 [])
  let planHash ← hashField schema 8 (values.getD 8 [])
  let c : KeygenConfirmation G :=
    { sessionID, sender, threshold := threshold.toNat, parties, publicKey, transcriptHash,
      commitmentsHash, chainCode, planHash }
  c.validate.mapError schema.validateError
  c.validateWithLimits limits
  pure c

theorem sessionIDField_toList (id : Array32) : sessionIDField id.toList = .ok id := by
  have hlength : id.toList.length = 32 := by simp
  rw [sessionIDField, dif_pos hlength]
  rfl

/-- The values of the fields, in the order of the schema. -/
def fieldValues (c : KeygenConfirmation G) : List Bytes :=
  [c.sessionID.toList, be32 c.sender.toNat, be32 c.threshold,
    Transcript.encodeUint32List c.parties, pointBytes c.publicKey.val, c.transcriptHash,
    c.commitmentsHash, c.chainCode, c.planHash]

/-- A confirmation that was written has fields of the right lengths. -/
theorem marshal_eq_ok {limits : Limits} {c : KeygenConfirmation G} {raw : Bytes}
    (h : c.marshal limits = .ok raw) :
    c.validateWithLimits limits = .ok () ∧ c.threshold < 2 ^ 32 ∧
      schema.marshal c.fieldValues = .ok raw := by
  obtain ⟨hvalid, h⟩ := seq_eq_ok.mp h
  obtain ⟨hthreshold, h⟩ := seq_eq_ok.mp h
  obtain ⟨-, h⟩ := seq_eq_ok.mp h
  rw [rejectIf_eq_ok, not_le] at hthreshold
  exact ⟨hvalid, hthreshold, h⟩

/-- Once the frame is read, only the parties and the validation can be refused. -/
theorem unmarshal_fieldValues {limits limits' : Limits} {c : KeygenConfirmation G} {raw : Bytes}
    (hvalid : c.validateWithLimits limits = .ok ()) (hthreshold : c.threshold < 2 ^ 32)
    (hvalues : schema.unmarshal limits'.payloadFrameLimits raw = .ok c.fieldValues)
    (hparties : decodeUint32List limits'.threshold.maxParties
      (Transcript.encodeUint32List c.parties) = .ok c.parties) :
    unmarshal limits' raw = (do
      c.validate.mapError schema.validateError
      c.validateWithLimits limits'
      pure c) := by
  simp only [validateWithLimits, validate, seq_eq_ok, rejectIf_eq_ok, mapError_eq_ok] at hvalid
  obtain ⟨-, -, -, -, -, -, -, htranscript, hcommitments, hchain, hplan, -⟩ := hvalid
  rw [not_not] at htranscript hcommitments hchain hplan
  have hthreshold' : (UInt32.ofNat c.threshold).toNat = c.threshold :=
    UInt32.toNat_ofNat_of_lt' hthreshold
  unfold unmarshal
  rw [hvalues, ok_bind]
  simp only [fieldValues, List.getD_cons_zero, List.getD_cons_succ, sessionIDField_toList,
    decodeUint32_be32 c.sender.toNat_lt, decodeUint32_be32 hthreshold, hparties,
    fixedField_eq schema 4 (length_pointBytes _) (semanticPointFromBytes_pointBytes c.publicKey),
    hashField_eq schema 5 htranscript, hashField_eq schema 6 hcommitments,
    hashField_eq schema 7 hchain, hashField_eq schema 8 hplan, mapError_ok, ok_bind,
    UInt32.ofNat_toNat, hthreshold']

/-- What is read from a confirmation that was written is the confirmation. -/
theorem unmarshal_eq {limits limits' : Limits} {c c' : KeygenConfirmation G} {raw : Bytes}
    (hraw : c.marshal limits = .ok raw) (h : unmarshal limits' raw = .ok c') :
    c' = c ∧ c.parties.length ≤ maxRecordCount := by
  obtain ⟨hvalid, hthreshold, hraw⟩ := marshal_eq_ok hraw
  have hread := h
  obtain ⟨values, hvalues, hread⟩ := bind_eq_ok.mp hread
  obtain rfl := Schema.unmarshal_eq rfl hraw hvalues
  iterate 3 obtain ⟨_, -, hread⟩ := bind_eq_ok.mp hread
  obtain ⟨parties, hparties, -⟩ := bind_eq_ok.mp hread
  rw [mapError_eq_ok] at hparties
  obtain ⟨rfl, hcount⟩ := decodeUint32List_eq hparties
  rw [unmarshal_fieldValues hvalid hthreshold hvalues hparties] at h
  iterate 2 obtain ⟨-, h⟩ := seq_eq_ok.mp h
  exact ⟨(Except.ok.inj h).symm, hcount⟩

end KeygenConfirmation

/-! ## Complete key shares -/

/-- `keyShareConfirmationMode`. -/
inductive ConfirmationMode where
  | keygenContributions
  | lifecycleAggregate
deriving DecidableEq

/-- `keyShareState`. The confirmations of `PartyData` are a map of their own. -/
structure KeyShareState (F G : Type) [AddCommGroup G] extends KeyShare F G where
  chainCode : Bytes
  keygenSessionID : Array32
  keygenTranscriptHash : Bytes
  planHash : Bytes
  confirmationMode : ConfirmationMode
  confirmations : FMap PartyID (KeygenConfirmation G)

def ConsistencyError.toGoError : ConsistencyError → GoError
  | .publicKey => .new "group public key does not match first group commitment"
  | .evaluate id => .errorf "cannot evaluate commitments for party %d" [.num id.toNat]
  | .verificationShare id =>
    .errorf "verification share for party %d does not match group commitments" [.num id.toNat]
  | .missingLocal => .new "missing verification share for local party"
  | .secretShare => .new "secret share inconsistent with verification share"

namespace KeyShareState

/-- One party in `checkPartyDataKeys`. -/
def checkPartyData (k : KeyShareState F G) (id : PartyID) : Except GoError Unit := do
  rejectIf (id = broadcastPartyId) (.new "broadcast party cannot have key share party data")
  rejectIf (k.partyData.lookup id = none)
    (.errorf "missing party data for participant %d" [.num id.toNat])
  match k.confirmations.lookup id with
  | none => pure ()
  | some c =>
    rejectIf (c.sender ≠ id)
      (.errorf "keygen confirmation sender %d does not match party data key %d"
        [.num c.sender.toNat, .num id.toNat])

/-- `checkPartyDataKeys`. As many keys as parties and one for each party leave none over. -/
def checkPartyDataKeys (k : KeyShareState F G) : Except GoError Unit := do
  rejectIf (k.partyData.keys.card ≠ k.parties.length)
    (.errorf "party data count %d != party count %d"
      [.num k.partyData.keys.card, .num k.parties.length])
  k.parties.forM k.checkPartyData

/-- `validateWithoutConfirmations`. Points, scalars and modes are valid by their types. -/
def validateWithoutConfirmations (k : KeyShareState F G) : Except GoError Unit := do
  rejectIf (k.keygenSessionID = zero32) (.new "key share has no keygen/lifecycle session id")
  rejectIf (k.threshold = 0 ∨ k.parties.length < k.threshold) (.new "invalid threshold")
  (validateStrictSortedIDs k.parties).mapError .new
  rejectIf (k.party ∉ k.parties) (.new "key share party is not in participant set")
  k.checkPartyDataKeys
  rejectIf (k.chainCode.length ≠ 32) (.new "chain code must be 32 bytes")
  rejectIf (k.keygenTranscriptHash = []) (.new "key share has no keygen transcript hash")
  rejectIf (k.planHash.length ≠ sha256Size) (.new "key share has no lifecycle plan hash")
  rejectIf (k.groupCommitments.length ≠ k.threshold)
    (.new "group commitments length must equal threshold")
  (validateCommitments true k.groupCommitments).mapError
    (.wrap "invalid group commitments: %w" [])

/-- `validateResourceLimits`. A point has 32 bytes, and no party has a confirmation without
party data. -/
def validateResourceLimits (limits : Limits) (k : KeyShareState F G) : Except GoError Unit := do
  rejectIf (limits.threshold.maxThreshold < k.threshold)
    (.errorf "threshold too large: %d > %d"
      [.num k.threshold, .num limits.threshold.maxThreshold.toNat])
  rejectIf (limits.threshold.maxParties < k.parties.length)
    (.errorf "parties too large: %d > %d"
      [.num k.parties.length, .num limits.threshold.maxParties.toNat])
  rejectIf (limits.threshold.maxThreshold < k.groupCommitments.length)
    (.errorf "group commitments too large: %d > %d"
      [.num k.groupCommitments.length, .num limits.threshold.maxThreshold.toNat])
  rejectIf (k.groupCommitments ≠ [] ∧ limits.maxPointBytes < 32)
    (.errorf "group commitment %d too large: %d > %d"
      [.num 0, .num 32, .num limits.maxPointBytes.toNat])
  rejectIf (limits.threshold.maxParties < k.partyData.keys.card)
    (.errorf "party data too large: %d > %d"
      [.num k.partyData.keys.card, .num limits.threshold.maxParties.toNat])
  rejectIf (k.partyData.keys.card ≠ 0 ∧ limits.maxPointBytes < 32)
    (.errorf "verification share too large: %d > %d"
      [.num 32, .num limits.maxPointBytes.toNat])

section Confirmations

variable [Sha256]

/-- The transcript of `keygenGroupCommitmentsHash`. -/
def groupCommitmentsTranscript (commitments : List G) : Transcript.Builder :=
  (Transcript.new "frost.ed25519.keygen-confirmation").appendBytesList "group_commitments"
    (commitments.map pointBytes)

def keygenGroupCommitmentsHash (commitments : List G) : Bytes :=
  (groupCommitmentsTranscript commitments).sum

/-- `keygenConfirmationReferenceUnchecked`. -/
def confirmationReference (k : KeyShareState F G) : KeygenConfirmation G where
  sessionID := k.keygenSessionID
  sender := k.party
  threshold := k.threshold
  parties := k.parties
  publicKey := k.publicKey
  transcriptHash := k.keygenTranscriptHash
  commitmentsHash := keygenGroupCommitmentsHash k.groupCommitments
  chainCode := k.chainCode
  planHash := k.planHash

end Confirmations

end KeyShareState

/-- `compareKeygenConfirmationBindingFields`: everything but the sender and the chain code. -/
def compareKeygenConfirmationBindingFields (reference c : KeygenConfirmation G) :
    Except GoError Unit := do
  rejectIf (c.sessionID ≠ reference.sessionID)
    (.errorf "keygen confirmation session mismatch from party %d" [.num c.sender.toNat])
  rejectIf (c.threshold ≠ reference.threshold)
    (.errorf "keygen confirmation threshold mismatch from party %d: got %d, want %d"
      [.num c.sender.toNat, .num c.threshold, .num reference.threshold])
  rejectIf (c.parties ≠ reference.parties)
    (.errorf "keygen confirmation party set mismatch from party %d" [.num c.sender.toNat])
  rejectIf (c.publicKey ≠ reference.publicKey)
    (.errorf "keygen confirmation public key mismatch from party %d" [.num c.sender.toNat])
  rejectIf (c.transcriptHash ≠ reference.transcriptHash)
    (.errorf "keygen confirmation transcript mismatch from party %d" [.num c.sender.toNat])
  rejectIf (c.commitmentsHash ≠ reference.commitmentsHash)
    (.errorf "keygen confirmation commitments mismatch from party %d" [.num c.sender.toNat])
  rejectIf (c.planHash ≠ reference.planHash)
    (.wrap "keygen confirmation from party %d: %w" [.num c.sender.toNat]
      (.sentinel .planHashMismatch))

/-- The loop of `verifyKeygenConfirmationBindingList` from index `i` on. -/
def verifyBindingListFrom (reference : KeygenConfirmation G) :
    Nat → List PartyID → PartySet → List (KeygenConfirmation G) → Except GoError Unit
  | i, seen, expected :: parties, c :: confirmations => do
    rejectIf (c.sender ≠ expected)
      (.errorf "keygen confirmation order mismatch at index %d: got party %d, want %d"
        [.num i, .num c.sender.toNat, .num expected.toNat])
    rejectIf (c.sender ∈ seen)
      (.errorf "duplicate keygen confirmation from party %d" [.num c.sender.toNat])
    compareKeygenConfirmationBindingFields reference c
    verifyBindingListFrom reference (i + 1) (c.sender :: seen) parties confirmations
  | _, _, _, _ => .ok ()

def verifyKeygenConfirmationBindingList (parties : PartySet) (reference : KeygenConfirmation G)
    (confirmations : List (KeygenConfirmation G)) : Except GoError Unit := do
  rejectIf (confirmations.length ≠ parties.length)
    (.errorf "got %d keygen confirmations, want %d"
      [.num confirmations.length, .num parties.length])
  verifyBindingListFrom reference 0 [] parties confirmations

namespace KeyShareState

variable [Sha256]

/-- `verifyKeygenConfirmationSetBinding`. -/
def verifyConfirmationSetBinding (k : KeyShareState F G)
    (confirmations : List (KeygenConfirmation G)) : Except GoError Unit :=
  verifyKeygenConfirmationBindingList k.parties k.confirmationReference confirmations

/-- `verifyKeygenConfirmationSetAggregateChainCode`. -/
def verifyConfirmationSetAggregateChainCode (k : KeyShareState F G)
    (confirmations : List (KeygenConfirmation G)) : Except GoError Unit := do
  k.verifyConfirmationSetBinding confirmations
  match k.confirmationMode with
  | .keygenContributions => do
    let chainCodes : FMap PartyID Bytes :=
      confirmations.foldl (fun m c => m.insert c.sender c.chainCode) ∅
    let aggregate ← (aggregateChainCode k.parties chainCodes).mapError
      (.wrap "keygen confirmation chain code set: %w" [])
    rejectIf (aggregate ≠ k.chainCode)
      (.new "keygen confirmation aggregate chain code mismatch")
  | .lifecycleAggregate =>
    confirmations.forM fun c =>
      rejectIf (c.chainCode ≠ k.chainCode)
        (.errorf "lifecycle confirmation chain code mismatch from party %d"
          [.num c.sender.toNat])

/-- One party in `orderedKeygenConfirmations`. -/
def orderedConfirmation (k : KeyShareState F G) (id : PartyID) :
    Except GoError (KeygenConfirmation G) :=
  match k.confirmations.lookup id with
  | none => .error (.errorf "missing keygen confirmation for party %d" [.num id.toNat])
  | some c => do
    rejectIf (c.sender ≠ id)
      (.errorf "keygen confirmation sender %d does not match party data key %d"
        [.num c.sender.toNat, .num id.toNat])
    pure c

def validateConfirmationSet (k : KeyShareState F G) : Except GoError Unit := do
  k.validateWithoutConfirmations
  rejectIf (k.confirmations.keys.card ≠ k.parties.length)
    (.errorf "lifecycle confirmation count %d != party count %d"
      [.num k.confirmations.keys.card, .num k.parties.length])
  let confirmations ← k.parties.mapM k.orderedConfirmation
  (k.verifyConfirmationSetAggregateChainCode confirmations).mapError
    (.wrap "invalid keygen confirmations: %w" [])

def validateConsistencyWithoutConfirmations (k : KeyShareState F G) : Except GoError Unit := do
  k.validateWithoutConfirmations
  k.validateConsistencyMaterial.mapError ConsistencyError.toGoError

def validateConsistency (k : KeyShareState F G) : Except GoError Unit := do
  k.validateConfirmationSet
  k.validateConsistencyWithoutConfirmations

def validateWithLimits (limits : Limits) (k : KeyShareState F G) : Except GoError Unit := do
  k.validateResourceLimits limits
  limits.threshold.validateThreshold k.threshold k.parties.length
  k.validateConsistency

/-- One confirmation in `attachKeygenConfirmations`. -/
def attachConfirmation (k : KeyShareState F G) (c : KeygenConfirmation G) :
    Except GoError (KeyShareState F G) := do
  rejectIf (k.partyData.lookup c.sender = none)
    (.errorf "keygen confirmation from unknown party %d" [.num c.sender.toNat])
  pure { k with confirmations := k.confirmations.insert c.sender c }

/-- `applyKeygenConfirmationSet`. -/
def applyConfirmationSet (k : KeyShareState F G) (confirmations : List (KeygenConfirmation G)) :
    Except GoError (KeyShareState F G) := do
  k.validateWithoutConfirmations.mapError (.wrap "invalid local key share: %w" [])
  k.verifyConfirmationSetBinding confirmations
  confirmations.foldlM attachConfirmation k

end KeyShareState

end Tss.Frost
