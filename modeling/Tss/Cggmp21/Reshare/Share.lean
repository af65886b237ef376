import Mathlib.NumberTheory.LucasLehmer
import Tss.Cggmp21.Material
import Tss.Curve.Model

/-!
# The encrypted share of a reshare (`reshare_round1.go`, `reshare_identifiers.go`)

A dealer sends every receiver one evaluation of its polynomial, encrypted under
the receiver's fresh Paillier key, with a proof that the plaintext is the
discrete logarithm of a point both sides compute from the dealer's commitments.
The proof bounds the plaintext by `2^(EncRange+1)` in absolute value; the
receiver decrypts to a residue modulo its Paillier modulus and accepts it below
the group order.
-/

set_option linter.unusedSectionVars false

namespace Tss.Cggmp21

open Secp256k1 Fallible Wire Paillier

/-! ## The handoff -/

def reshareStartRound : UInt8 := 1
def reshareShareRound : UInt8 := 2

def reshareCommitmentsHashLabel : String := "cggmp21-secp256k1-reshare-commitments-v1"

/-- The fields of a `ReshareSession` that never change. -/
structure ReshareConfig where
  sourceEpoch : EpochContext
  sourceEpochID : Bytes
  paillierBits : ℕ
  oldPublicKey : Bytes
  oldChainCode : Bytes
  dealerParties : PartySet
  newParties : PartySet
  newThreshold : ℕ
  selfID : PartyID
  isDealer : Bool
  isReceiver : Bool
  cfg : ThresholdConfig
  limits : ProtocolLimits
  securityParams : SecurityParams
  planHash : Bytes
  provisionalIDs : FMap PartyID Bytes

/-- `paillierPublicMaterial` and `ringPedersenPublicMaterial` of one party. -/
structure ReceiverMaterial where
  publicKey : PublicKey
  proof : ModulusProof
  params : RingPedersenParams
  ringPedersenProof : RingPedersenProof
deriving DecidableEq

section Handoff

variable [Sha256] [Curve]

def byteSlicesHash (label : String) (values : List Bytes) : Bytes :=
  ((Transcript.new label).appendBytesList "values" values).sum

structure ReshareSharePayload [Curve] where
  dealer : PartyID
  receiver : PartyID
  targetIdentifier : Bytes
  ciphertext : Bytes
  proof : LogStarProof
  dealerCommitmentHash : Bytes
  planHash : Bytes

/-- What the checks of an encrypted share read from the session: the commitments of the dealer
it names, and the receiver's own material and key. -/
structure ShareView where
  commitments : Option (List Bytes)
  material : Option ReceiverMaterial
  newPaillier : Option PrivateKey

/-- The provisional identifier of a party of the target committee. -/
def provisionalIdentifier (identifiers : FMap PartyID Bytes) (id : PartyID) :
    Except GoError Scalar :=
  match identifiers.lookup id with
  | none => .error (.errorf "missing provisional identifier for party %d" [.num id.toNat])
  | some encoded => liftText (identifierFromBytes encoded)

def provisionalLagrangeCoefficient (identifiers : FMap PartyID Bytes) (party : PartyID)
    (parties : PartySet) : Except GoError Scalar := do
  let all ← parties.mapM (provisionalIdentifier identifiers)
  match (parties.zip all).lookup party with
  | none => .error (.errorf "party %d is outside target committee" [.num party.toNat])
  | some target => liftText (lagrangeCoefficientAt target all)

def evaluateCommitmentPointsAtIdentifier (commitments : List Point) (identifier : Bytes) :
    Except GoError Point := do
  let x ← (liftText (scalarFromBytes identifier)).mapError
    (.wrap "invalid commitment evaluation identifier: %w" [])
  pure (commitments.foldl (fun (acc, power) commitment => (acc + power • commitment, power * x))
    ((0 : Point), (1 : Scalar))).1

def evaluateEncodedCommitmentsAtIdentifier (commitments : List Bytes) (identifier : Bytes) :
    Except GoError Point := do
  let points ← commitments.mapM fun encoded => liftText (pointFromBytes encoded)
  evaluateCommitmentPointsAtIdentifier points identifier

/-- A share that fails a check of its own message. -/
def shareError (code : ErrorCode) (env : Envelope) (text : String) : GoError :=
  .newProtocolError code reshareShareRound env.sender (.new text)

/-- A failure that the receiver puts on itself: it names nobody. -/
def localShareError (err : GoError) : GoError :=
  .newProtocolError .invariant reshareShareRound broadcastPartyId err

/-- The checks of `applyReshareShare` on the identities in a payload. -/
def checkShareIdentity (c : ReshareConfig) (env : Envelope) (p : ReshareSharePayload)
    (commitments : Option (List Bytes)) : Except GoError (List Bytes) := do
  rejectIf (p.dealer ≠ env.sender)
    (shareError .invalidMessage env "dealer share payload sender mismatch")
  rejectIf (p.receiver ≠ c.selfID)
    (shareError .invalidMessage env "dealer share payload receiver mismatch")
  match commitments with
  | none => .error (shareError .invalidMessage env "dealer share has no dealer commitments")
  | some commitments =>
    rejectIf (p.dealerCommitmentHash ≠ byteSlicesHash reshareCommitmentsHashLabel commitments)
      (shareError .invalidMessage env "dealer share commitment hash mismatch")
    pure commitments

/-- The receiver's identifier, if the payload names it. -/
def shareTarget (c : ReshareConfig) (env : Envelope) (p : ReshareSharePayload) :
    Except GoError Bytes :=
  if c.provisionalIDs.lookup c.selfID = some p.targetIdentifier then pure p.targetIdentifier
  else .error (shareError .verification env "dealer share target identifier mismatch")

/-- The point that an encrypted share has to open: the dealer's commitments at the receiver's
identifier, weighted for the target committee. -/
def expectedSharePoint (c : ReshareConfig) (commitments : List Bytes) (target : Bytes) :
    Except GoError Point := do
  let targetLambda ← provisionalLagrangeCoefficient c.provisionalIDs c.selfID c.newParties
  let evaluation ← evaluateEncodedCommitmentsAtIdentifier commitments target
  pure (targetLambda • evaluation)

variable [EvidenceEncoding]

/-- `applyReshareShare` up to the verification of the proof: the statement that was proved, and
the key that opens it. -/
def verifyReshareShare (c : ReshareConfig) (env : Envelope) (p : ReshareSharePayload)
    (view : ShareView) : Except GoError (LogStarStatement × PrivateKey) := do
  let commitments ← checkShareIdentity c env p view.commitments
  match view.material, view.newPaillier with
  | some material, some newPaillier =>
    let target ← shareTarget c env p
    let evaluation ← (expectedSharePoint c commitments target).mapError localShareError
    let domain ← (reshareEncryptedShareDomain c.cfg.sessionID c.newThreshold c.dealerParties
      c.newParties env.sender c.selfID target material.publicKey c.planHash c.limits).mapError
        localShareError
    let statement : LogStarStatement :=
      { paillierN := material.publicKey
        c := beNat p.ciphertext
        x := evaluation
        b := scalarBaseMult 1
        verifierAux := material.params }
    (verifyLogStar c.securityParams domain statement p.proof).mapError
      (verificationErrorWithEvidence env "invalid encrypted reshare share proof" [env.sender])
    pure (statement, newPaillier)
  | _, _ => .error (localShareError (.new "missing local reshare receiver material"))

/-- The rest of `applyReshareShare`: the plaintext, as a scalar. -/
def decryptReshareShare (newPaillier : PrivateKey) (ciphertext : ℕ) : Except GoError Scalar := do
  let plaintext ← (liftText (newPaillier.decrypt ciphertext)).mapError fun err =>
    localShareError (.wrap "verified reshare share decryption failed: %w" [] err)
  rejectIf (order ≤ plaintext)
    (localShareError (.new "verified reshare share plaintext is out of range"))
  (liftText (scalarFromBytesAllowZero (beBytes scalarSize plaintext))).mapError localShareError

/-- `applyReshareShare`: the scalar that it records for the dealer. -/
def applyReshareShare (c : ReshareConfig) (env : Envelope) (p : ReshareSharePayload)
    (view : ShareView) : Except GoError Scalar := do
  let (statement, newPaillier) ← verifyReshareShare c env p view
  decryptReshareShare newPaillier statement.c

/-! ## What a verified share opens to -/

/-- The receiver's key is a valid one, and its public half is the published material. This is how
`initReceiverMaterial` leaves the session, and nothing replaces the material of a receiver. -/
structure ShareView.KeyPublished (view : ShareView) : Prop where
  valid : ∀ {sk}, view.newPaillier = some sk → sk.validate = .ok ()
  published : ∀ {sk material}, view.newPaillier = some sk → view.material = some material →
    material.publicKey = sk.toPublicKey

omit [Sha256] [EvidenceEncoding] in
/-- The plaintext is recorded when it is below the order. -/
theorem decryptReshareShare_of_decrypt {sk : PrivateKey} {ciphertext m : ℕ}
    (h : sk.decrypt ciphertext = .ok m) :
    decryptReshareShare sk ciphertext = if m < order then .ok (m : Scalar)
      else .error (localShareError (.new "verified reshare share plaintext is out of range")) := by
  by_cases hm : m < order
  · have hscalar : scalarFromBytesAllowZero (beBytes scalarSize m) = .ok (m : Scalar) := by
      rw [scalarFromBytesAllowZero_eq_ok, scalarBytes, ZMod.val_natCast, Nat.mod_eq_of_lt hm]
    simp [decryptReshareShare, h, rejectIf, hscalar, if_neg (Nat.not_le.mpr hm), hm]
  · simp [decryptReshareShare, h, hm, rejectIf, Nat.le_of_not_lt hm]

omit [EvidenceEncoding] in
/-- The proof is only accepted for a ciphertext of the receiver's key. -/
theorem validateCiphertext_of_verifyLogStar {params : SecurityParams} {state : Bytes}
    {stmt : LogStarStatement} {proof : LogStarProof}
    (h : verifyLogStar params state stmt proof = .ok ())
    (hpk : stmt.paillierN.validate = .ok ()) :
    stmt.paillierN.validateCiphertext stmt.c = .ok () := by
  iterate 2 obtain ⟨-, h⟩ := seq_eq_ok.mp h
  obtain ⟨hpublic, -⟩ := seq_eq_ok.mp h
  iterate 2 obtain ⟨-, hpublic⟩ := seq_eq_ok.mp hpublic
  obtain ⟨-, hunit⟩ := seq_eq_ok.mp hpublic
  obtain ⟨hpos, hlt, hcop⟩ := requireZN2Star_eq_ok.mp (liftText_eq_ok.mp (mapError_eq_ok.mp hunit))
  rw [← pow_two] at hlt hcop
  exact validateCiphertext_eq_ok.mpr ⟨hpk, hpos, hlt, hcop⟩

/-- A verified share was proved for a ciphertext of the key that opens it. -/
theorem verifyReshareShare_spec {c : ReshareConfig} {env : Envelope} {p : ReshareSharePayload}
    {view : ShareView} (hview : view.KeyPublished) {stmt : LogStarStatement} {sk : PrivateKey}
    (h : verifyReshareShare c env p view = .ok (stmt, sk)) :
    stmt.paillierN = sk.toPublicKey ∧ sk.validate = .ok () ∧
      sk.validateCiphertext stmt.c = .ok () := by
  obtain ⟨commitments, -, h⟩ := bind_eq_ok.mp h
  cases hmaterial : view.material with
  | none =>
    rw [hmaterial] at h
    cases h
  | some material =>
    cases hkey : view.newPaillier with
    | none =>
      rw [hmaterial, hkey] at h
      cases h
    | some newPaillier =>
      rw [hmaterial, hkey] at h
      obtain ⟨target, -, h⟩ := bind_eq_ok.mp h
      obtain ⟨evaluation, -, h⟩ := bind_eq_ok.mp h
      obtain ⟨domain, -, h⟩ := bind_eq_ok.mp h
      obtain ⟨hproof, h⟩ := seq_eq_ok.mp h
      cases h
      have hpublished := hview.published hkey hmaterial
      have hvalid := hview.valid hkey
      have hpk : material.publicKey.validate = .ok () := by
        rw [hpublished]
        exact (seq_eq_ok.mp hvalid).1
      have hciphertext := validateCiphertext_of_verifyLogStar (mapError_eq_ok.mp hproof) hpk
      rw [hpublished] at hciphertext
      exact ⟨hpublished, hvalid, hciphertext⟩

/-- A share passes when its proof verifies against the point expected of the dealer. -/
theorem verifyReshareShare_eq_ok {c : ReshareConfig} {env : Envelope} {p : ReshareSharePayload}
    {view : ShareView} {commitments : List Bytes} {material : ReceiverMaterial} {sk : PrivateKey}
    {evaluation : Point} {domain : Bytes}
    (hidentity : checkShareIdentity c env p view.commitments = .ok commitments)
    (hmaterial : view.material = some material) (hkey : view.newPaillier = some sk)
    (htarget : c.provisionalIDs.lookup c.selfID = some p.targetIdentifier)
    (hpoint : expectedSharePoint c commitments p.targetIdentifier = .ok evaluation)
    (hdomain : reshareEncryptedShareDomain c.cfg.sessionID c.newThreshold c.dealerParties
      c.newParties env.sender c.selfID p.targetIdentifier material.publicKey c.planHash c.limits =
        .ok domain)
    (hproof : verifyLogStar c.securityParams domain ⟨material.publicKey, beNat p.ciphertext,
      evaluation, scalarBaseMult 1, material.params⟩ p.proof = .ok ()) :
    verifyReshareShare c env p view = .ok (⟨material.publicKey, beNat p.ciphertext, evaluation,
      scalarBaseMult 1, material.params⟩, sk) := by
  have htarget' : shareTarget c env p = .ok p.targetIdentifier := by
    rw [shareTarget, if_pos htarget]
    rfl
  simp only [verifyReshareShare, hidentity, hmaterial, hkey, htarget', hpoint, hdomain, hproof,
    mapError_ok, ok_bind]
  rfl

end Handoff

/-! ## A dealer that encrypts a negative plaintext -/

section Sample

/-- The Paillier key of two primes. -/
def keyOfPrimes (p q : ℕ) : PrivateKey where
  n := p * q
  g := p * q + 1
  nSquared := p * q * (p * q)
  lambda := (p - 1).lcm (q - 1)
  mu := (modInverse ((p - 1).lcm (q - 1)) (p * q)).getD 0
  p := p
  q := q

theorem keyOfPrimes_publicKey_valid {p q : ℕ} (hp : p.Prime) (hq : q.Prime)
    (hfour : p * q % 4 = 1) (hthree : p * q % 3 ≠ 0) :
    (keyOfPrimes p q).toPublicKey.validate = .ok () := by
  have hone : 1 < p * q := Nat.one_lt_mul_iff.mpr ⟨hp.pos, hq.pos, .inl hp.one_lt⟩
  exact validate_eq_ok.mpr
    ⟨hfour, hthree, Nat.not_prime_mul hp.ne_one hq.ne_one, hone, rfl, rfl⟩

theorem keyOfPrimes_valid {p q : ℕ} (hp : p.Prime) (hq : q.Prime) (hne : p ≠ q)
    (hfour : p * q % 4 = 1) (hthree : p * q % 3 ≠ 0)
    (hcoprime : ((p - 1).lcm (q - 1)).Coprime (p * q)) : (keyOfPrimes p q).validate = .ok () := by
  have hinverse : modInverse ((p - 1).lcm (q - 1)) (p * q) = some (keyOfPrimes p q).mu := by
    show _ = some ((modInverse ((p - 1).lcm (q - 1)) (p * q)).getD 0)
    cases hmu : modInverse ((p - 1).lcm (q - 1)) (p * q) with
    | none => exact absurd hcoprime (modInverse_eq_none.mp hmu)
    | some mu => rfl
  have hprime : ¬ (¬ p.Prime ∨ ¬ q.Prime) := by simp [hp, hq]
  rw [PrivateKey.validate, keyOfPrimes_publicKey_valid hp hq hfour hthree, ok_bind]
  simp only [seq_eq_ok, rejectIf_eq_ok, ne_eq, not_not]
  exact ⟨hp.ne_zero, hq.ne_zero, hne, rfl, hprime, rfl, hinverse⟩

/-- Two primes whose product has more than the 3072 bits that the default profile asks for. -/
@[irreducible] def samplePrime : ℕ := mersenne 1279
@[irreducible] def sampleOtherPrime : ℕ := mersenne 2203

theorem prime_samplePrime : samplePrime.Prime := by
  unfold samplePrime
  exact lucas_lehmer_sufficiency _ (by simp) (by norm_num)

theorem prime_sampleOtherPrime : sampleOtherPrime.Prime := by
  unfold sampleOtherPrime
  exact lucas_lehmer_sufficiency _ (by simp) (by norm_num)

def samplePaillier : PrivateKey := keyOfPrimes samplePrime sampleOtherPrime

theorem samplePaillier_valid : samplePaillier.validate = .ok () := by
  apply keyOfPrimes_valid prime_samplePrime prime_sampleOtherPrime
  · decide +kernel
  · decide +kernel
  · decide +kernel
  · decide +kernel

@[irreducible] def sampleAuxModulus : ℕ := 5 ^ 1400

def sampleRingPedersen : RingPedersenParams := ⟨sampleAuxModulus, 4, 16⟩

theorem sampleRingPedersen_valid : sampleRingPedersen.validate = .ok () := by
  have hodd : sampleAuxModulus ≠ 0 ∧ sampleAuxModulus % 2 ≠ 0 := by decide +kernel
  have hprime : ¬ sampleAuxModulus.Prime := by
    unfold sampleAuxModulus
    exact Nat.Prime.not_prime_pow (by omega)
  have hlarge : 16 < sampleAuxModulus := by decide +kernel
  have hcoprime : Nat.gcd 2 sampleAuxModulus = 1 := by decide +kernel
  have hsquare : ∀ k : ℕ, jacobiSym ((2 : ℤ) ^ (2 * k)) sampleAuxModulus = 1 := by
    intro k
    rw [mul_comm, pow_mul]
    apply jacobiSym.sq_one'
    rw [← Nat.cast_two, ← Nat.cast_pow, Int.gcd_natCast_natCast]
    exact Nat.Coprime.pow_left k hcoprime
  have hfour : jacobiSym 4 sampleAuxModulus = 1 := hsquare 1
  have hsixteen : jacobiSym 16 sampleAuxModulus = 1 := hsquare 2
  have hs : Nat.gcd 4 sampleAuxModulus = 1 := Nat.Coprime.pow_left 2 hcoprime
  have ht : Nat.gcd 16 sampleAuxModulus = 1 := Nat.Coprime.pow_left 4 hcoprime
  simp only [RingPedersenParams.validate, seq_eq_ok, rejectIf_eq_ok, not_or, not_not, ne_eq]
  simp only [sampleRingPedersen, Nat.cast_ofNat]
  exact ⟨⟨hodd.1, hodd.2, hprime⟩, ⟨by omega, by omega, by omega, by omega⟩, hs, ht,
    ⟨by omega, by omega⟩, hfour, hsixteen⟩

theorem sampleParams_valid : SecurityParams.default.validate = .ok () := by decide

theorem sampleStatement_bounds :
    SecurityParams.default.minPaillierBits ≤ bitLen samplePaillier.n ∧
    SecurityParams.default.minPaillierBits ≤ bitLen sampleRingPedersen.n ∧
    sampleRingPedersen.n ≠ samplePaillier.n ∧ bitLen samplePaillier.g ≤ 8192 ∧
    256 ^ scalarSize < samplePaillier.n - 1 := by
  decide +kernel

variable [Sha256] [Curve]

/-- Dealer 1 deals to party 2, which is the whole target committee. -/
def sampleReshareConfig : ReshareConfig where
  sourceEpoch := sampleEpoch
  sourceEpochID := sampleEpoch.epochID
  paillierBits := 3072
  oldPublicKey := encodedGenerator
  oldChainCode := sampleID.toList
  dealerParties := [1]
  newParties := [2]
  newThreshold := 1
  selfID := 2
  isDealer := false
  isReceiver := true
  cfg := ⟨1, [2], 2, sampleID, none⟩
  limits := ProtocolLimits.default
  securityParams := .default
  planHash := sampleID.toList
  provisionalIDs := Finmap.singleton 2 (scalarBytes 1)

def sampleMaterial : ReceiverMaterial where
  publicKey := samplePaillier.toPublicKey
  proof := ⟨[], [], [], [], [], []⟩
  params := sampleRingPedersen
  ringPedersenProof := ⟨[], [], [], []⟩

/-- A commitment to the constant polynomial with this value. -/
def sampleCommitment (x : ℤ) : Bytes :=
  (pointBytes ((x : Scalar) • generator)).toOption.getD []

/-- What party 2 holds when the share of dealer 1 arrives. -/
def sampleShareView (x : ℤ) : ShareView where
  commitments := some [sampleCommitment x]
  material := some sampleMaterial
  newPaillier := some samplePaillier

def sampleShareEnvelope : Envelope where
  protocol := protocolCGGMP21Secp256k1
  sessionID := sampleID
  round := reshareShareRound
  sender := 1
  recipient := 2
  payloadType := lit "cggmp21.secp256k1.reshare.share"
  payload := []
  senderSignature := []

theorem sampleShareView_keyPublished (x : ℤ) : (sampleShareView x).KeyPublished where
  valid := by
    intro sk h
    cases h
    exact samplePaillier_valid
  published := by
    intro sk material hsk hmaterial
    cases hsk
    cases hmaterial
    rfl

omit [Sha256] in
theorem sample_smul_ne_zero {x : ℤ} (hx : (x : Scalar) ≠ 0) :
    (x : Scalar) • (generator : Point) ≠ 0 := by
  intro h
  rw [← zero_smul Scalar generator] at h
  exact hx (scalarBaseMult_injective h)

/-- The point expected of the dealer is the one it committed to. -/
theorem sample_expectedSharePoint {x : ℤ} (hx : (x : Scalar) ≠ 0) :
    expectedSharePoint sampleReshareConfig [sampleCommitment x] (scalarBytes 1) =
      .ok ((x : Scalar) • generator) := by
  obtain ⟨raw, hraw⟩ := pointBytes_isOk.mpr (sample_smul_ne_zero hx)
  have hcommitment : sampleCommitment x = raw := by
    rw [sampleCommitment, hraw]
    rfl
  have hone : scalarFromBytes (scalarBytes (1 : Scalar)) = .ok 1 :=
    scalarFromBytes_eq_ok.mpr ⟨rfl, one_ne_zero⟩
  have hdecode : pointFromBytes raw = .ok ((x : Scalar) • generator) := by
    obtain ⟨raw', hraw', hback⟩ := pointFromBytes_pointBytes (sample_smul_ne_zero hx)
    obtain rfl : raw' = raw := Except.ok.inj (hraw'.symm.trans hraw)
    exact hback
  have hlambda : provisionalLagrangeCoefficient sampleReshareConfig.provisionalIDs 2 [2] =
      .ok (1 : Scalar) := by
    have hid : provisionalIdentifier sampleReshareConfig.provisionalIDs 2 = .ok (1 : Scalar) := by
      simp only [provisionalIdentifier, sampleReshareConfig, Finmap.lookup_singleton_eq,
        identifierFromBytes, hone, mapError_ok, liftText_ok]
    have hcoefficient : lagrangeCoefficientAt (1 : Scalar) [1] = .ok 1 := by
      rw [lagrangeCoefficientAt_eq (List.nodup_singleton _) (by simp) (by simp)]
      simp [Lagrange.coefficient]
    simp [provisionalLagrangeCoefficient, hid, hcoefficient]
  have hevaluation : evaluateEncodedCommitmentsAtIdentifier [sampleCommitment x] (scalarBytes 1) =
      .ok ((x : Scalar) • generator) := by
    simp [evaluateEncodedCommitmentsAtIdentifier, evaluateCommitmentPointsAtIdentifier, hcommitment,
      hdecode, hone]
  show (do
    let targetLambda ← provisionalLagrangeCoefficient sampleReshareConfig.provisionalIDs 2 [2]
    let evaluation ← evaluateEncodedCommitmentsAtIdentifier [sampleCommitment x] (scalarBytes 1)
    pure (targetLambda • evaluation)) = _
  rw [hlambda, ok_bind, hevaluation, ok_bind, one_smul]
  rfl

/-- The domain of the share's proof. -/
theorem exists_sampleDomain : ∃ domain, reshareEncryptedShareDomain sampleID 1 [1] [2] 1 2
    (scalarBytes (1 : Scalar)) samplePaillier.toPublicKey sampleID.toList ProtocolLimits.default =
      .ok domain := by
  have hbits := sampleStatement_bounds.2.2.2.1
  have hlimit : (bitLen samplePaillier.g : ℤ) ≤ ProtocolLimits.default.maxModulusBits := by
    show (bitLen samplePaillier.g : ℤ) ≤ 8192
    exact_mod_cast hbits
  obtain ⟨raw, hraw⟩ :=
    exists_marshal_publicKey (seq_eq_ok.mp samplePaillier_valid).1 hlimit (by omega)
  have hone : identifierFromBytes (scalarBytes (1 : Scalar)) = .ok 1 := by
    rw [identifierFromBytes, scalarFromBytes_eq_ok.mpr ⟨rfl, one_ne_zero⟩, mapError_ok]
  have hreceivers : validateDomainParticipants 1 [2] = .ok () := by decide
  have hsender : requireDomainParty "sender" 1 [1] = .ok () := by decide
  have hreceiver : requireDomainParty "receiver" 2 [2] = .ok () := by decide
  have hplan : requireHash32 "plan hash" sampleID.toList = .ok () := by decide
  have hseal : ∀ t : Transcript.Builder, ∃ domain, sealDomain t sampleID.toList = .ok domain := by
    intro t
    exact ⟨_, rfl⟩
  simp only [reshareEncryptedShareDomain, hreceivers, hsender, hreceiver, hplan, hone, ok_bind,
    rejectIf, List.cons_ne_nil, if_false, liftText_ok, appendPaillierStatement, hraw, mapError_ok]
  exact hseal _

/-- For either unit there is a message of the dealer that the receiver verifies, with a plaintext
of that value. -/
theorem exists_verified_share [EvidenceEncoding]
    (hdigest : ∀ b : Bytes, 0 < beNat (sha256 b) ∧ beNat (sha256 b) < order) {x : ℤ}
    (hx : |x| ≤ 1) (hne : (x : Scalar) ≠ 0) :
    ∃ p stmt, verifyReshareShare sampleReshareConfig sampleShareEnvelope p (sampleShareView x) =
        .ok (stmt, samplePaillier) ∧
      stmt.paillierN.Encrypts stmt.c x ∧ (x : Scalar) • generator = stmt.x := by
  have hpk := (seq_eq_ok.mp samplePaillier_valid).1
  obtain ⟨hbits, hauxBits, hdistinct, -, -⟩ := sampleStatement_bounds
  have hunit : isZNStar 1 samplePaillier.n = true :=
    isZNStar_eq_true.mpr ⟨one_pos, (validate_eq_ok.mp hpk).2.2.2.1, Nat.coprime_one_left _⟩
  obtain ⟨c, hc⟩ := exists_encryptWithRandomness hpk x (Nat.coprime_one_left samplePaillier.n)
  obtain ⟨hsize, hval⟩ := encryptWithRandomness_val hc (Nat.coprime_one_left _)
  have hciphertext : requireZN2Star c samplePaillier.n = .ok () :=
    requireZN2Star_of_unit (validate_eq_ok.mp hpk).2.2.2.1 hsize hval
  obtain ⟨domain, hdomain⟩ := exists_sampleDomain
  let stmt : LogStarStatement :=
    { paillierN := samplePaillier.toPublicKey
      c := c
      x := (x : Scalar) • generator
      b := scalarBaseMult 1
      verifierAux := sampleRingPedersen }
  have hb : stmt.b = generator := by
    show (1 : Scalar) • generator = _
    rw [one_smul]
  have hopens : stmt.Opens x 1 :=
    ⟨encRandom_eq_ok.mpr ⟨hpk, hunit, hc⟩, by rw [hb, scalarFromBigInt_eq]⟩
  have hpublic : validateLogStarPublic .default stmt = .ok () := by
    have haux : sampleRingPedersen.validateForProof .default = .ok () := by
      rw [RingPedersenParams.validateForProof, sampleRingPedersen_valid, ok_bind, rejectIf,
        if_neg (Nat.not_lt.mpr hauxBits)]
    have hkeys : sampleRingPedersen.validateDistinct [samplePaillier.toPublicKey] = .ok () := by
      rw [RingPedersenParams.validateDistinct, rejectIf, if_neg]
      simpa using hdistinct
    have hmodulus : SecurityParams.default.checkPaillierModulus samplePaillier.toPublicKey =
        .ok () := by
      rw [SecurityParams.checkPaillierModulus, rejectIf, if_neg (Nat.not_lt.mpr hbits)]
    simp only [validateLogStarPublic, stmt, haux, hkeys, hmodulus, hciphertext, liftText_ok,
      mapError_ok, ok_bind]
  have hgenerator : (generator : Point) ≠ 0 := Curve.generator_ne_zero
  have hy : scalarFromBigInt 1 • stmt.b ≠ 0 := by
    rw [hb, scalarFromBigInt_eq, Int.cast_one, one_smul]
    exact hgenerator
  obtain ⟨proof, e, hproof, hlt, hz1, hz3⟩ : ∃ proof e,
      respondLogStar .default domain stmt x 1 ⟨1, 1, 0, 0⟩ = .ok proof ∧ e < order ∧
        proof.z1 = e * x + 1 ∧ proof.z3 = e * 0 + 0 :=
    exists_respondLogStar domain sampleRingPedersen_valid hopens (hb ▸ hgenerator) hunit hy
      (challengeSigned_of_digest hdigest)
  have hverify : verifyLogStar .default domain stmt proof = .ok () := by
    have hrange : SecurityParams.default.encRange = 768 := by decide
    apply verifyLogStar_of_opens sampleParams_valid hpublic hopens hproof
    · -- the response is at most the challenge plus one, far below the range of the proof
      have horder := order_lt_pow
      have hpow : (256 : ℕ) ^ scalarSize + 1 ≤ 2 ^ 769 := by decide +kernel
      have hbound : (e : ℤ) + 1 ≤ 2 ^ 769 := by
        have : e + 1 ≤ 2 ^ 769 := by omega
        exact_mod_cast this
      have hcases : x = -1 ∨ x = 0 ∨ x = 1 := by
        have := abs_le.mp hx
        omega
      rw [hz1, hrange]
      simp only [inSignedPowerOfTwo, decide_eq_true_eq]
      obtain rfl | rfl | rfl := hcases <;> constructor <;> omega
    · have hpos := (RingPedersenParams.validate_spec sampleRingPedersen_valid).1
      rw [hz3, inMultRange]
      simp only [mul_zero, add_zero, decide_eq_true_eq, stmt]
      have hnonneg : (0 : ℤ) ≤ sampleRingPedersen.n *
          2 ^ (SecurityParams.default.encRange + 1) := by positivity
      exact ⟨by omega, by omega, hnonneg⟩
  let p : ReshareSharePayload :=
    ⟨1, 2, scalarBytes 1, natBytes c, proof,
      byteSlicesHash reshareCommitmentsHashLabel [sampleCommitment x], sampleID.toList⟩
  have hidentity : checkShareIdentity sampleReshareConfig sampleShareEnvelope p
      (sampleShareView x).commitments = .ok [sampleCommitment x] := by
    simp [p, checkShareIdentity, sampleReshareConfig, sampleShareEnvelope, sampleShareView, rejectIf]
  have hproof' : verifyLogStar .default domain ⟨samplePaillier.toPublicKey, beNat (natBytes c),
      (x : Scalar) • generator, scalarBaseMult 1, sampleRingPedersen⟩ proof = .ok () := by
    rw [beNat_natBytes]
    exact hverify
  have hencrypts : samplePaillier.Encrypts (beNat (natBytes c)) x := by
    rw [beNat_natBytes]
    exact encryptWithRandomness_encrypts hc
  exact ⟨p, _, verifyReshareShare_eq_ok hidentity rfl rfl Finmap.lookup_singleton_eq
    (sample_expectedSharePoint hne) hdomain hproof', hencrypts, rfl⟩

omit [Sha256] in
/-- A digest that starts with a one is a canonical scalar. -/
theorem lastBytes_digest :
    letI := Sha256.lastBytes
    ∀ b : Bytes, 0 < beNat (sha256 b) ∧ beNat (sha256 b) < order := by
  let := Sha256.lastBytes
  intro b
  obtain ⟨rest, hrest, hdigest⟩ : ∃ rest : Bytes, rest.length = 31 ∧ sha256 b = 1 :: rest := by
    refine ⟨List.ofFn fun i : Fin 31 => b.reverse.getD (31 - (i.val + 1)) 0, by simp, ?_⟩
    show (Vector.ofFn fun i : Fin 32 => if i = 0 then (1 : UInt8)
      else b.reverse.getD (31 - i) 0).toList = _
    rw [Vector.toList_ofFn, List.ofFn_succ]
    rfl
  have hlt := beNat_lt rest
  have horder := Curve.lt_two_mul_order
  rw [hdigest, beNat_cons, hrest]
  rw [hrest] at hlt
  have hone : (1 : UInt8).toNat = 1 := rfl
  rw [hone]
  constructor <;> omega

end Sample

end Tss.Cggmp21
