import Tss.Frost.Sign
import Tss.Guard
import Tss.Wire

/-!
# FROST payloads (`frost/ed25519/payload_encoding.go`, `keygen_confirmation.go`, `limits.go`)

Every message of the FROST sessions is a wire message. A payload type states
its schema and what its struct tags and its `Validate` ask of each field.
-/

set_option linter.unusedSectionVars false

namespace Tss.Frost

open Edwards25519 Fallible Wire

/-! ## Limits -/

structure ThresholdLimits where
  maxParties : Int
  maxThreshold : Int
  maxSigners : Int
  minProductionThreshold : Int
  allowOneOfOne : Bool
  allowOversizedSignerSet : Bool

def ThresholdLimits.validateThreshold (l : ThresholdLimits) (threshold nParties : Nat) :
    Except GoError Unit :=
  rejectIf ((threshold : Int) < l.minProductionThreshold ∧
      (l.allowOneOfOne = false ∨ threshold ≠ 1 ∨ nParties ≠ 1))
    (.errorf "threshold %d is below production minimum %d"
      [.num threshold, .num l.minProductionThreshold.toNat])

/-- `Limits`, without the caps on serialized key shares and dealer plans, which no session
reads. -/
structure Limits where
  threshold : ThresholdLimits
  maxMessageBytes : Int
  maxSerializedPayloadBytes : Int
  maxPointBytes : Int
  maxScalarBytes : Int
  tlvMaxFields : Int
  tlvMaxFieldBytes : Int

def defaultLimits : Limits where
  threshold :=
    { maxParties := 64
      maxThreshold := 64
      maxSigners := 64
      minProductionThreshold := 2
      allowOneOfOne := false
      allowOversizedSignerSet := true }
  maxMessageBytes := 65536
  maxSerializedPayloadBytes := 2 ^ 20
  maxPointBytes := 32
  maxScalarBytes := 32
  tlvMaxFields := 256
  tlvMaxFieldBytes := 2 ^ 20

def Limits.payloadFrameLimits (l : Limits) : FrameLimits :=
  ⟨l.maxSerializedPayloadBytes, l.tlvMaxFields, l.tlvMaxFieldBytes⟩

variable {F G : Type} [Field F] [DecidableEq F] [AddCommGroup G] [DecidableEq G] [Module F G]
  [Edwards25519 F G]

/-! ## Curve values on the wire -/

def pointFromBytesAllowIdentity (b : Bytes) : Except GoError G := do
  rejectIf (b.length ≠ 32) (.new "edwards25519 point must be 32 bytes")
  match (pointFromBytes b : Option G) with
  | none => .error (.new "edwards25519: invalid point encoding")
  | some P => do
    rejectIf (pointBytes P ≠ b) (.new "non-canonical edwards25519 point encoding")
    pure P

/-- `PointFromBytes`, with the point as one of the semantic point types. -/
def semanticPointFromBytes (b : Bytes) : Except GoError (SemanticPoint G) := do
  let P ← pointFromBytesAllowIdentity b
  match newSemanticPointFromPoint P with
  | none => .error (.new "identity point is not allowed")
  | some Y => pure Y

omit [DecidableEq F] in
/-- A point is read back from its encoding. -/
theorem pointFromBytesAllowIdentity_pointBytes (P : G) :
    pointFromBytesAllowIdentity (pointBytes P) = .ok P := by
  simp [pointFromBytesAllowIdentity, rejectIf, length_pointBytes, pointFromBytes_pointBytes]

omit [DecidableEq F] in
/-- A semantic point is read back from its encoding. -/
theorem semanticPointFromBytes_pointBytes (P : SemanticPoint G) :
    semanticPointFromBytes (pointBytes P.val) = .ok P := by
  rw [semanticPointFromBytes, pointFromBytesAllowIdentity_pointBytes, ok_bind,
    newSemanticPointFromPoint, dif_pos P.property]
  rfl

/-- `ScalarFromCanonical`. -/
def scalarFromCanonicalBytes (G : Type) [AddCommGroup G] [Module F G] [Edwards25519 F G]
    (b : Bytes) : Except GoError F :=
  match scalarFromCanonical G b with
  | none => .error (.new "edwards25519: invalid scalar encoding")
  | some a => .ok a

/-- `commitmentVector.validate`: what it asks beyond the points being points. -/
def validateCommitments (firstNonIdentity : Bool) (points : List G) : Except GoError Unit := do
  rejectIf (points = []) (.new "commitment threshold must be positive")
  rejectIf (firstNonIdentity ∧ points.head? = some 0)
    (.wrap "invalid commitment %d: %w" [.num 0] (.new "identity point is not allowed"))

/-- `validateThreshold`. -/
def validateCommitmentsThreshold (threshold : Nat) (firstNonIdentity : Bool) (points : List G) :
    Except GoError Unit := do
  rejectIf (threshold = 0) (.new "commitment threshold must be positive")
  rejectIf (points.length ≠ threshold)
    (.errorf "got %d commitments, want %d" [.num points.length, .num threshold])
  validateCommitments firstNonIdentity points

/-- One commitment of `parseCommitmentBytes`, the one at index `i`. -/
def parseCommitment (firstNonIdentity : Bool) (encoded : Bytes) (i : Nat) : Except GoError G :=
  (if firstNonIdentity ∧ i = 0 then (semanticPointFromBytes encoded).map Subtype.val
    else pointFromBytesAllowIdentity encoded : Except GoError G).mapError
      (.wrap "invalid commitment %d: %w" [.num i])

/-- `parseCommitmentBytes` with the number of commitments as its threshold. -/
def parseCommitmentBytes (firstNonIdentity : Bool) (encoded : List Bytes) :
    Except GoError (List G) := do
  rejectIf (encoded = []) (.new "commitment threshold must be positive")
  encoded.zipIdx.mapM fun p => parseCommitment firstNonIdentity p.1 p.2

/-- `unmarshalWireValue` of a commitment vector. -/
def commitmentsFromWire (kind : String) (firstNonIdentity : Bool) (raw : Bytes) :
    Except GoError (List G) := do
  let encoded ← (decodeBytesList 32 raw).mapError
    (.wrap ("decode " ++ kind ++ " commitments: %w") [])
  parseCommitmentBytes firstNonIdentity encoded

/-- `marshalWireValue` of a commitment vector. -/
def commitmentsToWire (kind : String) (firstNonIdentity : Bool) (points : List G) :
    Except GoError Bytes := do
  (validateCommitments firstNonIdentity points).mapError
    (.wrap ("invalid " ++ kind ++ " commitments: %w") [])
  pure (Transcript.encodeBytesList (points.map pointBytes))

/-- A custom field with a fixed length of 32. -/
def fixedField {α : Type} (s : Schema) (i : Nat) (raw : Bytes) (decode : Bytes → Except GoError α) :
    Except GoError α :=
  (do checkFixedLen 32 raw; decode raw : Except GoError α).mapError (s.fieldError i)

/-- A `[]byte` field with a fixed length of 32. -/
def hashField (s : Schema) (i : Nat) (raw : Bytes) : Except GoError Bytes :=
  fixedField s i raw fun b => .ok b

/-- A custom field with `max_items`. -/
def itemsField {α : Type} (s : Schema) (i : Nat) (maxItems : Int) (raw : Bytes)
    (decode : Bytes → Except GoError α) : Except GoError α :=
  (do checkCustomItemLimit maxItems raw; decode raw : Except GoError α).mapError (s.fieldError i)

theorem fixedField_eq {α : Type} (s : Schema) (i : Nat) {raw : Bytes}
    {decode : Bytes → Except GoError α} {a : α} (hlength : raw.length = 32)
    (hdecode : decode raw = .ok a) : fixedField s i raw decode = .ok a := by
  simp only [fixedField, checkFixedLen, rejectIf, hlength, ne_eq, not_true_eq_false, if_false,
    ok_bind, hdecode, mapError_ok]

theorem hashField_eq (s : Schema) (i : Nat) {raw : Bytes} (hlength : raw.length = 32) :
    hashField s i raw = .ok raw := fixedField_eq s i hlength rfl

/-! ## Signing payloads -/

def nonceCommitmentSchema : Schema :=
  ⟨"nonceCommitment", "frost.ed25519.payload.sign.commitment", 1,
    [(1, "D"), (2, "E"), (3, "PlanHash")]⟩

/-- `nonceCommitment.MarshalBinaryWithLimits`. -/
def NonceCommitment.marshal (c : NonceCommitment G) : Except GoError Bytes := do
  rejectIf (c.planHash.length ≠ sha256Size)
    (nonceCommitmentSchema.marshalError (.new "nonce commitment plan hash must be 32 bytes"))
  nonceCommitmentSchema.marshal [pointBytes c.D.val, pointBytes c.E.val, c.planHash]

/-- `nonceCommitment.UnmarshalBinaryWithLimits`. -/
def NonceCommitment.unmarshal (limits : Limits) (raw : Bytes) :
    Except GoError (NonceCommitment G) := do
  let values ← nonceCommitmentSchema.unmarshal limits.payloadFrameLimits raw
  let D ← fixedField nonceCommitmentSchema 0 (values.getD 0 []) semanticPointFromBytes
  let E ← fixedField nonceCommitmentSchema 1 (values.getD 1 []) semanticPointFromBytes
  let planHash ← hashField nonceCommitmentSchema 2 (values.getD 2 [])
  pure { D, E, planHash }

def signPartialPayloadSchema : Schema :=
  ⟨"signPartialPayload", "frost.ed25519.payload.sign.partial", 1, [(1, "Z"), (2, "PlanHash")]⟩

/-- `signPartialPayload.MarshalBinaryWithLimits`. -/
def SignPartialPayload.marshal (G : Type) [AddCommGroup G] [Module F G] [Edwards25519 F G]
    (p : SignPartialPayload F) : Except GoError Bytes := do
  rejectIf (p.planHash.length ≠ sha256Size)
    (signPartialPayloadSchema.marshalError (.new "sign partial plan hash must be 32 bytes"))
  signPartialPayloadSchema.marshal [scalarBytes G p.z, p.planHash]

/-- `signPartialPayload.UnmarshalBinaryWithLimits`. -/
def SignPartialPayload.unmarshal (G : Type) [AddCommGroup G] [Module F G] [Edwards25519 F G]
    (limits : Limits) (raw : Bytes) : Except GoError (SignPartialPayload F) := do
  let values ← signPartialPayloadSchema.unmarshal limits.payloadFrameLimits raw
  let z ← fixedField signPartialPayloadSchema 0 (values.getD 0 []) (scalarFromCanonicalBytes G)
  let planHash ← hashField signPartialPayloadSchema 1 (values.getD 1 [])
  pure { z, planHash }

/-! ## Plan hashes -/

def requireHash (label : String) (got want : Bytes) : Except GoError Unit := do
  rejectIf (got.length ≠ sha256Size)
    (.errorf (label ++ " plan hash must be %d bytes") [.num sha256Size])
  rejectIf (got ≠ want) (.wrap (label ++ ": %w") [] (.sentinel .planHashMismatch))

end Tss.Frost
