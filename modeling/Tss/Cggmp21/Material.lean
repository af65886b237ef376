import Tss.Cggmp21.Config
import Tss.Paillier.LogStar

/-!
# Auxiliary material (`internal/zk/paillier/types.go`, `domain.go`)

The Paillier material that parties publish: the encoding of a public key, the
records of its proofs, and the domain that the proof of an encrypted share is
bound to.
-/

namespace Tss.Cggmp21

open Secp256k1 Fallible Wire Paillier

/-! ## Public keys on the wire -/

/-- A positive integer of a public key. -/
def modulusField : FieldCodec ProtocolLimits ℕ :=
  .bigPos (some FieldLimit.paillierModulusBits) none

/-- The codec of `pai.PublicKey`. `NSquared` is rebuilt by `AfterUnmarshalWire`. -/
def publicKeyCodec : MessageCodec ProtocolLimits PublicKey where
  goName := "PublicKey"
  wireType := "paillier.public-key"
  wireVersion := 1
  body := (StructCodec.field 1 "N" modulusField).pair (.field 2 "G" modulusField)
  written pk := (pk.n, pk.g)
  afterUnmarshal := fun (n, g) => ⟨n, g, n * n⟩
  validate pk := liftText pk.validate
  afterUnmarshal_written := by
    intro pk h
    have hsq := (Paillier.validate_eq_ok.mp (liftText_eq_ok.mp h)).2.2.2.2.1
    show (⟨pk.n, pk.g, pk.n * pk.n⟩ : PublicKey) = pk
    rw [← hsq]

/-- A positive integer is written when its bits are within the limit. -/
theorem modulusField_encode {limits : ProtocolLimits} {f : FieldSpec} {n : ℕ} (hn : 0 < n)
    (hbits : (bitLen n : ℤ) ≤ limits.maxModulusBits) :
    modulusField.encode f limits n = .ok (natBytes n) := by
  have hpos : 0 < bitLen n := lt_bitLen.mpr (by rwa [pow_zero])
  have hlimit : ¬ limits.maxModulusBits ≤ 0 := by omega
  have hcheck : FieldCodec.checkBits (some FieldLimit.paillierModulusBits) f limits
      (bitLen (n : ℤ).natAbs) = .ok () := by
    show (do
      let max ← FieldLimit.paillierModulusBits.get f limits
      rejectIf (max < (bitLen (n : ℤ).natAbs : ℤ)) _) = _
    rw [NamedLimit.get, rejectIf, if_neg (by exact hlimit), ok_bind]
    show rejectIf (limits.maxModulusBits < _) _ = _
    rw [Int.natAbs_natCast, rejectIf, if_neg (by omega)]
  have hencode : encodeBigPos n = .ok (natBytes n) := by
    rw [encodeBigPos, rejectIf, if_neg (by omega), ok_bind, Int.natAbs_natCast]
    rfl
  show (do
    FieldCodec.checkBits (some FieldLimit.paillierModulusBits) f limits (bitLen (n : ℤ).natAbs)
    let out ← (encodeBigPos n).mapError _
    FieldCodec.checkBytes none f limits out
    pure out) = _
  rw [hcheck, ok_bind, hencode, mapError_ok, ok_bind]
  rfl

/-- A valid key whose generator is within the limit is written. -/
theorem exists_marshal_publicKey {limits : ProtocolLimits} {pk : PublicKey}
    (hpk : pk.validate = .ok ()) (hbits : (bitLen pk.g : ℤ) ≤ limits.maxModulusBits)
    (hsize : bitLen pk.g < 2 ^ 32) : ∃ raw, publicKeyCodec.marshal limits pk = .ok raw := by
  have hg := (Paillier.validate_eq_ok.mp hpk).2.2.2.2.2
  have hle : bitLen pk.n ≤ bitLen pk.g := bitLen_mono (by omega)
  have hn := Paillier.n_pos hpk
  have hlength : ∀ {n : ℕ}, bitLen n ≤ bitLen pk.g → (natBytes n).length < 2 ^ 32 := by
    intro n h
    rw [natBytes, length_beBytes]
    omega
  have hvalues : publicKeyCodec.body.encode ("wire " ++ publicKeyCodec.goName) limits (pk.n, pk.g) =
      .ok [natBytes pk.n, natBytes pk.g] := by
    show (do
      let values ← (StructCodec.field 1 "N" modulusField).encode _ limits pk.n
      let values' ← (StructCodec.field 2 "G" modulusField).encode _ limits pk.g
      pure (values ++ values')) = _
    have hnbits : (bitLen pk.n : ℤ) ≤ limits.maxModulusBits := by omega
    simp only [StructCodec.field, modulusField_encode hn hnbits,
      modulusField_encode (show 0 < pk.g by omega) hbits, mapError_ok, ok_bind]
    rfl
  have hvalid : publicKeyCodec.validate pk = .ok () := liftText_eq_ok.mpr hpk
  obtain ⟨body, hbody⟩ :
      ∃ body, marshalFieldBody [⟨1, natBytes pk.n⟩, ⟨2, natBytes pk.g⟩] = .ok body := by
    simp only [marshalFieldBody, checkFieldBody, rejectIf, if_neg (Nat.not_le.mpr (hlength hle)),
      if_neg (Nat.not_le.mpr (hlength le_rfl))]
    exact ⟨_, rfl⟩
  use magic ++ (be16 (lit "paillier.public-key").length ++ (lit "paillier.public-key" ++
    (be16 (1 : UInt16).toNat ++ body)))
  rw [MessageCodec.marshal, hvalid, mapError_ok, ok_bind]
  show (do
    let values ← publicKeyCodec.body.encode ("wire " ++ publicKeyCodec.goName) limits (pk.n, pk.g)
    publicKeyCodec.schema.marshal values) = _
  rw [hvalues, ok_bind]
  show marshalFields 1 (lit "paillier.public-key") [⟨1, natBytes pk.n⟩, ⟨2, natBytes pk.g⟩] = _
  rw [marshalFields, rejectIf, if_neg (by decide), ok_bind, rejectIf, if_neg (by decide), ok_bind,
    rejectIf, if_neg (by decide), ok_bind, hbody, ok_bind]
  rfl

/-! ## Proofs -/

def modulusProofRounds : ℕ := 128

structure ModulusProof where
  w : Bytes
  transcriptHash : Bytes
  x : List Bytes
  a : Bytes
  b : Bytes
  z : List Bytes
deriving DecidableEq

/-- One round of `validateModulusProof`. -/
def validateModulusRound (p : ModulusProof) (i : ℕ) : Except GoError Unit := do
  rejectIf (p.x[i]? = some [] ∨ p.z[i]? = some [])
    (.errorf "incomplete modulus proof round %d" [.num i])
  rejectIf (p.a[i]? ≠ some 0 ∧ p.a[i]? ≠ some 1) (.errorf "invalid modulus proof a bit %d" [.num i])
  rejectIf (p.b[i]? ≠ some 0 ∧ p.b[i]? ≠ some 1) (.errorf "invalid modulus proof b bit %d" [.num i])

/-- `validateModulusProof`. -/
def ModulusProof.validate (p : ModulusProof) : Except GoError Unit := do
  rejectIf (p.w = [] ∨ p.transcriptHash.length ≠ sha256Size) (.new "incomplete modulus proof")
  rejectIf (p.x.length ≠ modulusProofRounds ∨ p.z.length ≠ modulusProofRounds ∨
      p.a.length ≠ modulusProofRounds ∨ p.b.length ≠ modulusProofRounds)
    (.new "invalid modulus proof round count")
  (List.range modulusProofRounds).forM (validateModulusRound p)

structure RingPedersenProof where
  transcriptHash : Bytes
  commitments : List Bytes
  challenges : Bytes
  responses : List Bytes
deriving DecidableEq

structure FactorProof where
  p : ℕ
  q : ℕ
  a : ℕ
  b : ℕ
  t : ℕ
  sigma : ℤ
  z1 : ℤ
  z2 : ℤ
  w1 : ℤ
  w2 : ℤ
  v : ℤ
  transcriptHash : Bytes
deriving DecidableEq

def modulusBytes (n : ℕ) : ℕ := (bitLen n + 7) / 8

/-- `decodeFixedUnit` succeeds: a unit of the modulus, in as many bytes as the modulus has. -/
def isFixedUnit (raw : Bytes) (n : ℕ) : Bool := raw.length = modulusBytes n ∧ isZNStar (beNat raw) n

/-! ## Proof domains -/

section Domains

variable [Sha256]

def proofDomainVersion : String := "cggmp21-secp256k1-proof-domain-v1"

def domainLabelReshareEncryptedShare : String := "reshare.encrypted-share"

/-- `newDomainBuilder`, of a label that is not empty. -/
def newDomainBuilder (label : String) : Transcript.Builder :=
  (((Transcript.new proofDomainVersion).appendString "protocol"
    protocolCGGMP21Secp256k1).appendUint32 "version" 1).appendString "proof_label" (lit label)

def requireHash32 (name : String) (value : Bytes) : Except GoError Unit :=
  rejectIf (value.length ≠ sha256Size) (.errorf (name ++ " must be %d bytes, got %d")
    [.num sha256Size, .num value.length])

def validateDomainParticipants (threshold : ℕ) (parties : PartySet) : Except GoError Unit := do
  rejectIf (threshold = 0) (.new "proof domain threshold must be positive")
  rejectIf (parties = []) (.new "proof domain parties must not be empty")
  rejectIf (parties.length < threshold) (.errorf "proof domain threshold %d exceeds party count %d"
    [.num threshold, .num parties.length])
  (liftText (validateStrictSortedIDs parties)).mapError (.wrap "proof domain parties: %w" [])

def requireDomainParty (name : String) (party : PartyID) (parties : PartySet) :
    Except GoError Unit := do
  rejectIf (party = broadcastPartyId) (.new ("proof domain " ++ name ++ " must not be zero"))
  rejectIf (party ∉ parties)
    (.errorf ("proof domain " ++ name ++ " %d is not a participant") [.num party.toNat])

def appendPaillierStatement (t : Transcript.Builder) (pk : PublicKey) (limits : ProtocolLimits) :
    Except GoError Transcript.Builder := do
  let raw ← (publicKeyCodec.marshal limits pk).mapError
    (.wrap "paillier public key domain statement: %w" [])
  pure ((t.appendBytes "paillier_public_key" raw).appendBytes "ring_pedersen_params" [])

/-- `appendNoPresignContext` and `appendLifecyclePlanHash`, and the digest. -/
def sealDomain (t : Transcript.Builder) (planHash : Bytes) : Except GoError Bytes := do
  requireHash32 "lifecycle plan hash" planHash
  pure ((t.appendBytes "presign_context_hash" []).appendBytes "lifecycle_plan_hash" planHash).sum

def reshareEncryptedShareDomain [Curve] (sessionID : Array32) (threshold : ℕ)
    (dealers receivers : PartySet) (sender receiver : PartyID) (targetIdentifier : Bytes)
    (receiverPK : PublicKey) (planHash : Bytes) (limits : ProtocolLimits) :
    Except GoError Bytes := do
  validateDomainParticipants threshold receivers
  rejectIf (dealers = []) (.new "empty reshare dealer set")
  requireDomainParty "sender" sender dealers
  requireDomainParty "receiver" receiver receivers
  requireHash32 "plan hash" planHash
  let t := (newDomainBuilder domainLabelReshareEncryptedShare).appendBytes "session_id"
    sessionID.toList
  let t := t.appendUint32 "threshold" (UInt32.ofNat threshold)
  let t := (t.appendUint32List "parties" dealers).appendUint32List "signers" receivers
  let t := (t.appendUint32 "sender" sender).appendUint32 "receiver" receiver
  let _ ← liftText (identifierFromBytes targetIdentifier)
  let t := t.appendBytes "target_identifier" targetIdentifier
  let t := (t.appendBytes "public_key" []).appendBytes "keygen_transcript_hash" []
  let t ← appendPaillierStatement t receiverPK limits
  sealDomain t planHash

end Domains

end Tss.Cggmp21
