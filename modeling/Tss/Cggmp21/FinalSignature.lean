import Tss.Cggmp21.PublicContext
import Tss.Cggmp21.Signature
import Tss.Curve.Model
import Tss.Lib.FMap

/-!
# The final signature (`cggmp21/secp256k1/online_sign_transition.go`)

A signing session adds the verified partials up, normalizes the sum and
checks the signature once more before it is returned. The check cannot
fail: the equations of the partials add up to the equation of the
signature, because the commitments of the public context add up to the
generator and to the key.
-/

namespace Tss.Cggmp21

open Secp256k1 Fallible

/-- The part of `SignSession` that the final signature is computed from. -/
structure SignSession [Curve] where
  verification : SignAttemptPublicContext
  digest : Bytes
  publicKey : Bytes
  partials : FMap PartyID Scalar
  completed : Bool

variable [Curve]

/-- `prepareFinalSignature`: `none` when partials are missing or the session is complete. -/
def SignSession.prepareFinalSignature (s : SignSession) : Except String (Option Signature) :=
  if s.completed ∨ s.partials.keys.card ≠ s.verification.signers.length then .ok none
  else
    match s.verification.signers.mapM s.partials.lookup with
    | none => .ok none
    | some partials => do
      let sigS := partials.foldl (· + ·) 0
      rejectIf (sigS = 0) "zero ECDSA s"
      let normalized := normalizeLowS sigS
      let rPointBytes ← pointBytes s.verification.gamma
      let recoveryID ← recoveryIDFromPresignR rPointBytes normalized.2
      let r := s.verification.littleR
      let X ← pointFromBytes s.publicKey
      rejectIf (verifyECDSA X s.digest r normalized.1 = false)
        "all Figure 10 partials verified but aggregate ECDSA signature verification failed"
      pure (some ⟨scalarBytes r, scalarBytes normalized.1, recoveryID⟩)

/-- What an accepted public context guarantees: `(x, y)` is the nonce point and `X` the key
that the commitments add up to. -/
structure SignAttemptPublicContext.Aggregates (context : SignAttemptPublicContext) (X : Point)
    (x y : FieldElement) : Prop where
  verificationKey : pointFromBytes context.verificationKey = .ok X
  gamma : coordinates context.gamma = some (x, y)
  littleR : context.littleR = scalarFromFieldElement x
  littleR_ne_zero : context.littleR ≠ 0
  nodup : context.signers.Nodup
  parties : context.commitments.map (·.party) = context.signers
  decodes : ∀ c ∈ context.commitments, c.Decodes
  sum_deltaPoint : (context.commitments.map (·.deltaPoint)).sum = generator
  sum_sPoint : (context.commitments.map (·.sPoint)).sum = X

theorem validateSignPublicCommitments_eq_ok {context : SignAttemptPublicContext} {X : Point}
    (hlength : context.commitments.length = context.signers.length) :
    validateSignPublicCommitments context X = .ok () ↔
      (context.commitments.map (·.party) = context.signers ∧
        ∀ c ∈ context.commitments, c.Decodes) ∧
      (context.commitments.map (·.deltaPoint)).sum = generator ∧
      (context.commitments.map (·.sPoint)).sum = X := by
  simp only [validateSignPublicCommitments, bind_eq_ok, rejectIf_eq_ok,
    decodeCommitments_eq_ok hlength, addPoints_eq_sum, not_or, not_not]
  constructor
  · rintro ⟨points, ⟨hcommits, rfl⟩, hdelta, hs⟩
    rw [List.map_map] at hdelta hs
    exact ⟨hcommits, hdelta, hs⟩
  · rintro ⟨hcommits, hdelta, hs⟩
    refine ⟨_, ⟨hcommits, rfl⟩, ?_, ?_⟩
    · rw [List.map_map]
      exact hdelta
    · rw [List.map_map]
      exact hs

theorem aggregates_of_validate [Sha256] {context : SignAttemptPublicContext} {limits : Limits}
    (h : validateSignAttemptPublicContext context limits = .ok ()) :
    ∃ X x y, context.Aggregates X x y := by
  rw [validateSignAttemptPublicContext] at h
  split at h
  · simp only [bind_eq_ok, rejectIf_eq_ok, exists_const, mapError_eq_ok, not_or, not_not] at h
    obtain ⟨⟨-, -, -, -, -, -, -, -, -, -, -, -, hlength⟩, -, -, ⟨hsorted, -⟩, b, hgamma,
      ⟨hne, hlittleR⟩, X, hX, -, -, -, -, hcommitments⟩ := h
    obtain ⟨hcommits, hdelta, hs⟩ := (validateSignPublicCommitments_eq_ok hlength).mp hcommitments
    obtain ⟨x, y, hxy, -⟩ := pointBytes_eq_ok.mp hgamma
    refine ⟨X, x, y, hX, hxy, ?_, hne, nodup_of_validate hsorted, hcommits.1, hcommits.2, hdelta,
      hs⟩
    simpa [hxy] using hlittleR
  · cases h

variable {context : SignAttemptPublicContext} {X : Point} {x y : FieldElement}

theorem verifyFigure10Partial_eq_ok {gamma : Point} {c : NormalizedPresignCommitment}
    {message littleR sigma : Scalar} (hc : c.Decodes) (hgamma : gamma ≠ 0) :
    verifyFigure10Partial gamma c message littleR sigma = .ok () ↔
      sigma • gamma = message • c.deltaPoint + littleR • c.sPoint := by
  obtain ⟨b, hb⟩ := pointBytes_isOk.mpr hgamma
  simp [verifyFigure10Partial, hb, hc.1, hc.2]

namespace SignAttemptPublicContext.Aggregates

theorem find_commitment (h : context.Aggregates X x y) {c : NormalizedPresignCommitment}
    (hc : c ∈ context.commitments) :
    normalizedCommitmentForPublicContext context c.party = some c := by
  have hnodup : (context.commitments.map (·.party)).Nodup := h.parties ▸ h.nodup
  cases hfind : context.commitments.find? (·.party = c.party) with
  | none =>
    have hnone := List.find?_eq_none.mp hfind c hc
    simp at hnone
  | some c' =>
    have hparty : c'.party = c.party := by simpa using List.find?_some hfind
    have heq := List.inj_on_of_nodup_map hnodup (List.mem_of_find?_eq_some hfind) hc hparty
    rw [normalizedCommitmentForPublicContext, hfind, heq]

theorem gamma_ne_zero (h : context.Aggregates X x y) : context.gamma ≠ 0 := by
  intro hzero
  have hgamma := h.gamma
  rw [(Curve.coordinates_eq_none _).mpr hzero] at hgamma
  cases hgamma

/-- The equations of verified partials add up to the equation of the signature. -/
theorem sum_partials (h : context.Aggregates X x y) {z : Scalar} {sigma : PartyID → Scalar}
    (hpartials : ∀ id ∈ context.signers, ∃ c,
      normalizedCommitmentForPublicContext context id = some c ∧
        verifyFigure10Partial context.gamma c z context.littleR (sigma id) = .ok ()) :
    (context.signers.map sigma).sum • context.gamma =
      scalarBaseMult z + context.littleR • X := by
  have hequation : ∀ c ∈ context.commitments,
      sigma c.party • context.gamma = z • c.deltaPoint + context.littleR • c.sPoint := by
    intro c hc
    have hid : c.party ∈ context.signers := by
      rw [← h.parties]
      exact List.mem_map_of_mem hc
    obtain ⟨c', hfind, hverify⟩ := hpartials c.party hid
    obtain rfl := Option.some.inj ((h.find_commitment hc).symm.trans hfind)
    exact (verifyFigure10Partial_eq_ok (h.decodes c hc) h.gamma_ne_zero).mp hverify
  calc (context.signers.map sigma).sum • context.gamma
      = (context.commitments.map fun c => sigma c.party • context.gamma).sum := by
        rw [← h.parties, List.map_map, List.sum_smul, List.map_map]
        rfl
    _ = (context.commitments.map fun c =>
          z • c.deltaPoint + context.littleR • c.sPoint).sum := by
        rw [List.map_congr_left hequation]
    _ = z • (context.commitments.map (·.deltaPoint)).sum
          + context.littleR • (context.commitments.map (·.sPoint)).sum := by
        rw [List.sum_map_add, List.smul_sum, List.smul_sum, List.map_map, List.map_map]
        rfl
    _ = scalarBaseMult z + context.littleR • X := by
        rw [h.sum_deltaPoint, h.sum_sPoint, scalarBaseMult]

end SignAttemptPublicContext.Aggregates

/-- The nonce point that belongs to the normalized sum: the negation of `gamma` when the
sum was negated. -/
def noncePoint (gamma : Point) (sigS : Scalar) : Point :=
  if (normalizeLowS sigS).2 then -gamma else gamma

theorem normalizeLowS_smul_noncePoint (gamma : Point) {sigS : Scalar} (h : sigS ≠ 0) :
    (normalizeLowS sigS).1 • noncePoint gamma sigS = sigS • gamma := by
  rw [noncePoint, (normalizeLowS_spec h).2]
  cases (normalizeLowS sigS).2 <;> simp

theorem normalizeLowS_ne_zero {sigS : Scalar} (h : sigS ≠ 0) : (normalizeLowS sigS).1 ≠ 0 := by
  rw [(normalizeLowS_spec h).2]
  cases (normalizeLowS sigS).2 <;> simpa using h

theorem coordinates_noncePoint {gamma : Point} (h : coordinates gamma = some (x, y))
    (sigS : Scalar) : ∃ y', coordinates (noncePoint gamma sigS) = some (x, y') := by
  rw [noncePoint]
  cases (normalizeLowS sigS).2 with
  | false => exact ⟨y, h⟩
  | true => exact ⟨-y, Curve.coordinates_neg gamma x y h⟩

namespace SignSession

/-- The session holds exactly one scalar for every signer. -/
structure Collected (s : SignSession) (sigma : PartyID → Scalar) : Prop where
  digest : s.digest.length = 32
  publicKey : s.publicKey = s.verification.verificationKey
  completed : s.completed = false
  partials : ∀ id ∈ s.verification.signers, s.partials.lookup id = some (sigma id)
  only_signers : s.partials.keys.card = s.verification.signers.length

/-- The scalar of a signer passes the check a session makes before it stores it. -/
def PartialVerifies (s : SignSession) (id : PartyID) (sigma : Scalar) : Prop :=
  ∃ z c, scalarFromBytesModOrder s.digest = .ok z ∧
    normalizedCommitmentForPublicContext s.verification id = some c ∧
    verifyFigure10Partial s.verification.gamma c z s.verification.littleR sigma = .ok ()

/-- A session that holds all partials returns their normalized sum once it verifies. -/
theorem Collected.prepareFinalSignature_eq {s : SignSession} {sigma : PartyID → Scalar}
    (h : s.Collected sigma) (hsum : (s.verification.signers.map sigma).sum ≠ 0)
    {b : Bytes} (hb : pointBytes s.verification.gamma = .ok b) {recoveryID : UInt8}
    (hrec : recoveryIDFromPresignR b (normalizeLowS (s.verification.signers.map sigma).sum).2 =
      .ok recoveryID)
    (hpublic : pointFromBytes s.publicKey = .ok X)
    (hverify : verifyECDSA X s.digest s.verification.littleR
      (normalizeLowS (s.verification.signers.map sigma).sum).1 = true) :
    s.prepareFinalSignature = .ok (some ⟨scalarBytes s.verification.littleR,
      scalarBytes (normalizeLowS (s.verification.signers.map sigma).sum).1, recoveryID⟩) := by
  have hready : ¬ (s.completed = true ∨
      s.partials.keys.card ≠ s.verification.signers.length) := by
    simp [h.completed, h.only_signers]
  rw [prepareFinalSignature, if_neg hready, mapM_eq_some h.partials]
  simp only [← List.sum_eq_foldl]
  simp [rejectIf, hsum, hb, hrec, hpublic, hverify, pure, Except.pure]

/-- Whatever the senders of the partials do: partials that verify one by one add up to a
signature. It is the low representative, it verifies, and its recovery identifier is the
only one that recovers the key. -/
theorem prepareFinalSignature_sound [Sha256] (s : SignSession) (limits : Limits)
    (sigma : PartyID → Scalar)
    (hcontext : validateSignAttemptPublicContext s.verification limits = .ok ())
    (hcollected : s.Collected sigma)
    (hverified : ∀ id ∈ s.verification.signers, s.PartialVerifies id (sigma id))
    (hsum : (s.verification.signers.map sigma).sum ≠ 0) :
    ∃ sig sigS, s.prepareFinalSignature = .ok (some sig) ∧
      sig.R = scalarBytes s.verification.littleR ∧ sig.S = scalarBytes sigS ∧
      isLowS sigS = true ∧
      (sigS = (s.verification.signers.map sigma).sum ∨
        sigS = -(s.verification.signers.map sigma).sum) ∧
      verifyDigest s.publicKey s.digest sig = true ∧
      sig.recoveryID ≤ 3 ∧
      ∀ recoveryID, signatureRecoveryIDMatchesPublicKey s.publicKey s.digest
        { sig with recoveryID := recoveryID } = true ↔ recoveryID = sig.recoveryID := by
  obtain ⟨X, x, y, h⟩ := aggregates_of_validate hcontext
  have hpublic : pointFromBytes s.publicKey = .ok X := hcollected.publicKey ▸ h.verificationKey
  have hequation : (s.verification.signers.map sigma).sum • s.verification.gamma =
      scalarBaseMult (beNat s.digest : Scalar) + s.verification.littleR • X := by
    apply h.sum_partials
    intro id hid
    obtain ⟨z, c, hz, hfind, hverify⟩ := hverified id hid
    obtain ⟨-, rfl⟩ := scalarFromBytesModOrder_eq_ok.mp hz
    exact ⟨c, hfind, hverify⟩
  -- from here on only the sum matters
  generalize hsumdef : (s.verification.signers.map sigma).sum = sum at *
  have hnonce : (normalizeLowS sum).1 • noncePoint s.verification.gamma sum =
      scalarBaseMult (beNat s.digest : Scalar) + s.verification.littleR • X := by
    rw [normalizeLowS_smul_noncePoint s.verification.gamma hsum, hequation]
  have hs := normalizeLowS_ne_zero hsum
  obtain ⟨hlow, hsign⟩ := normalizeLowS_spec hsum
  obtain ⟨y', hR⟩ := coordinates_noncePoint h.gamma sum
  obtain ⟨b, hb⟩ := pointBytes_isOk.mpr h.gamma_ne_zero
  obtain ⟨recoveryID, hrec, hle, hx, hbytes⟩ :=
    recoveryIDFromPresignR_spec h.gamma hb (normalizeLowS sum).2
  rw [← h.littleR] at hx hbytes
  have hverify := verifyECDSA_of_nonce hcollected.digest (pointFromBytes_ne_zero hpublic)
    h.littleR_ne_zero hs hR h.littleR.symm hnonce
  subst hsumdef
  refine ⟨_, _, hcollected.prepareFinalSignature_eq hsum hb hrec hpublic hverify, rfl, rfl, hlow,
    ?_, ?_, hle, ?_⟩
  · rw [hsign]
    cases (normalizeLowS (s.verification.signers.map sigma).sum).2 <;> simp
  · exact verifyDigest_of_nonce hpublic hcollected.digest h.littleR_ne_zero hs hlow hR
      h.littleR.symm hnonce
  · intro other
    rw [recovers_iff hpublic hcollected.digest h.littleR_ne_zero hs hnonce]
    constructor
    · rintro ⟨hother, hxother, hbytesother⟩
      exact recoveryID_unique hother hle hxother hx
        (Except.ok.inj (hbytesother.symm.trans hbytes))
    · rintro rfl
      exact ⟨hle, hx, hbytes⟩

end SignSession

/-! ## Two signers

Party 1 holds the whole nonce and party 2 the whole key. -/

def sampleDerivation : DerivationResult where
  scheme := derivationSchemeBIP32Secp256k1
  childPublicKey := encodedGenerator
  childChainCode := zero32.toList
  requestedPath := []
  resolvedPath := []
  depth := 0
  additiveShift := zero32.toList

def samplePublicContext [Sha256] (littleR : Scalar) : SignAttemptPublicContext where
  recordVersion := signAttemptMetadataVersion
  party := 1
  threshold := 2
  signers := [1, 2]
  protocolPresignID := sampleID.toList
  epochID := sampleEpoch.epochID
  gamma := generator
  littleR := littleR
  commitments := [⟨1, encodedGenerator, []⟩, ⟨2, [], encodedGenerator⟩]
  transcriptHash := zero32.toList
  contextHash := zero32.toList
  verificationKey := encodedGenerator
  keyID := lit "k"
  derivation := some sampleDerivation
  epoch := some sampleEpoch
  presignSlot := presignLifecycleSlotPrefix ++ hexEncode sampleID.toList

theorem decodes_encodedGenerator : decodePresignGroupElement encodedGenerator = .ok generator := by
  rw [decodePresignGroupElement_eq_ok, encodePresignGroupElement, if_neg Curve.generator_ne_zero,
    pointBytes_generator]

theorem samplePublicContext_derivation [Sha256] (littleR : Scalar) :
    validateGenerationDerivation (samplePublicContext littleR) sampleDerivation = .ok () := by
  have hpoint := pointFromBytes_eq_ok.mpr pointBytes_generator
  have hne : encodedGenerator ≠ [] := fun h => by
    have hlength := length_encodedGenerator
    rw [h] at hlength
    cases hlength
  have hshift : scalarFromBytesAllowZero zero32.toList = .ok 0 := by
    rw [scalarFromBytesAllowZero_eq_ok, scalarBytes, ZMod.val_zero]
    decide
  have hscheme : derivationSchemeBIP32Secp256k1 ≠ [] := by decide
  simp [validateGenerationDerivation, validateDerivationResult, DerivationResult.validate,
    sampleDerivation, samplePublicContext, rejectIf, validateNonHardened, hpoint, hne, hshift,
    hscheme, scalarSize, maxDerivationDepth]

theorem samplePublicContext_epoch (littleR : Scalar) :
    letI := Sha256.lastBytes
    validateEpochBinding (samplePublicContext littleR) sampleLimits sampleEpoch generator =
      .ok () := by
  let := Sha256.lastBytes
  have hkey := sampleEpoch_deals.groupPublicKey_eq sampleEpoch_validates
  rw [Polynomial.eval_C, scalarBaseMult, one_smul] at hkey
  have hparties : sampleEpoch.parties = [1, 2] := rfl
  have hslot : presignSlotID sampleID.toList =
      .ok (presignLifecycleSlotPrefix ++ hexEncode sampleID.toList) := by
    decide +kernel
  have hthreshold : sampleEpoch.threshold = 2 := rfl
  simp [validateEpochBinding, samplePublicContext, sampleEpoch_validates, hslot, hkey, hparties,
    hthreshold, rejectIf, pure, Except.pure]

theorem samplePublicContext_validates {x y : FieldElement}
    (hxy : coordinates generator = some (x, y)) (hx : scalarFromFieldElement x ≠ 0) :
    letI := Sha256.lastBytes
    validateSignAttemptPublicContext (samplePublicContext (scalarFromFieldElement x))
      sampleLimits = .ok () := by
  let := Sha256.lastBytes
  have hpoint := pointFromBytes_eq_ok.mpr pointBytes_generator
  have hcommitments : validateSignPublicCommitments
      (samplePublicContext (scalarFromFieldElement x)) generator = .ok () := by
    rw [validateSignPublicCommitments_eq_ok rfl]
    have hnil : decodePresignGroupElement [] = .ok (0 : Point) := rfl
    simp [samplePublicContext, NormalizedPresignCommitment.Decodes,
      NormalizedPresignCommitment.deltaPoint, NormalizedPresignCommitment.sPoint,
      decodes_encodedGenerator, hnil, Except.toOption]
  have hne : encodedGenerator ≠ [] := fun h => by
    have hlength := length_encodedGenerator
    rw [h] at hlength
    cases hlength
  have hkey : validateSignLifecycleIdentifier (lit "k") = .ok () := by decide
  have hepochID : sampleEpoch.epochID.length = sha256Size := by
    obtain ⟨b, hb⟩ := sampleEpoch_epochID
    rw [hb, length_sha256]
  have hsorted : validateStrictSortedIDs [1, 2] = .ok () := by decide
  have hslot : presignLifecycleSlotPrefix ++ hexEncode sampleID.toList ≠ [] := by decide
  rw [validateSignAttemptPublicContext]
  split
  · rename_i derivation epoch hderivation hepoch
    obtain rfl : sampleDerivation = derivation := Option.some.inj hderivation
    obtain rfl : sampleEpoch = epoch := Option.some.inj hepoch
    simp only [bind_eq_ok, exists_const, rejectIf_eq_ok, mapError_eq_ok]
    refine ⟨?_, (), ?_, ?_, encodedGenerator, pointBytes_generator, ?_, generator, hpoint, (),
      samplePublicContext_derivation _, (), samplePublicContext_epoch _, hcommitments⟩
    · simp [samplePublicContext, sampleLimits, broadcastPartyId, sha256Size, hepochID, hne, hkey,
        hslot]
    · simp [samplePublicContext, sampleLimits, ThresholdLimits.validateThreshold]
    · simp [samplePublicContext, hsorted]
    · simp [samplePublicContext, hxy, hx]
  · rename_i hnone
    exact absurd rfl (hnone sampleDerivation sampleEpoch rfl)

/-- The digest is zero, so party 1 contributes zero and party 2 the signature. -/
def sampleSignSession [Sha256] (littleR : Scalar) : SignSession where
  verification := samplePublicContext littleR
  digest := zero32.toList
  publicKey := encodedGenerator
  partials := ((∅ : FMap _ _).insert 1 0).insert 2 littleR
  completed := false

/-- What the two signers of the sample session send. -/
def samplePartial (littleR : Scalar) (id : PartyID) : Scalar := if id = 1 then 0 else littleR

theorem sampleSignSession_signers [Sha256] {littleR : Scalar} {id : PartyID}
    (hid : id ∈ (sampleSignSession littleR).verification.signers) : id = 1 ∨ id = 2 := by
  have : id ∈ [1, 2] := hid
  simpa using this

theorem sampleSignSession_collected [Sha256] (littleR : Scalar) :
    (sampleSignSession littleR).Collected (samplePartial littleR) := by
  refine ⟨rfl, rfl, rfl, ?_, ?_⟩
  · intro id hid
    obtain rfl | rfl := sampleSignSession_signers hid
    · simp [sampleSignSession, samplePartial]
    · simp [sampleSignSession, samplePartial]
  · have hkeys : (sampleSignSession littleR).partials.keys = {1, 2} := by
      ext id
      rw [FMap.mem_keys_iff]
      by_cases h1 : id = 1 <;> by_cases h2 : id = 2 <;>
        simp [sampleSignSession, FMap.lookup_insert_ite, h1, h2]
    rw [hkeys]
    rfl

theorem sampleSignSession_verifies [Sha256] (littleR : Scalar) :
    ∀ id ∈ (sampleSignSession littleR).verification.signers,
      (sampleSignSession littleR).PartialVerifies id (samplePartial littleR id) := by
  intro id hid
  have hdigest : scalarFromBytesModOrder zero32.toList = .ok (0 : Scalar) := by
    rw [scalarFromBytesModOrder_eq_ok]
    refine ⟨rfl, ?_⟩
    have hzero : beNat zero32.toList = 0 := by decide
    rw [hzero, Nat.cast_zero]
  have hnil : decodePresignGroupElement [] = .ok (0 : Point) := rfl
  have hgenerator : pointBytes generator = .ok encodedGenerator := pointBytes_generator
  obtain rfl | rfl := sampleSignSession_signers hid
  · refine ⟨0, ⟨1, encodedGenerator, []⟩, hdigest, rfl, ?_⟩
    simp [verifyFigure10Partial, sampleSignSession, samplePublicContext, samplePartial,
      hgenerator, decodes_encodedGenerator, hnil]
  · refine ⟨0, ⟨2, [], encodedGenerator⟩, hdigest, rfl, ?_⟩
    simp [verifyFigure10Partial, sampleSignSession, samplePublicContext, samplePartial,
      hgenerator, decodes_encodedGenerator, hnil]

omit [Curve] in
/-- The sample session signs, on the curve of the model. -/
theorem sampleSignSession_signs :
    letI := Model.curve
    letI := Sha256.lastBytes
    ∃ littleR sig, (sampleSignSession littleR).prepareFinalSignature = .ok (some sig) ∧
      verifyDigest encodedGenerator zero32.toList sig = true ∧ sig.recoveryID ≤ 3 := by
  let := Model.curve
  let := Sha256.lastBytes
  obtain ⟨x, y, hxy⟩ := coordinates_ne_none Curve.generator_ne_zero
  have hx : scalarFromFieldElement x ≠ 0 := by
    rw [scalarFromFieldElement_eq]
    exact Model.generator_x_ne_zero hxy
  have hsum : (((sampleSignSession (scalarFromFieldElement x)).verification.signers.map
      (samplePartial (scalarFromFieldElement x))).sum : Scalar) ≠ 0 := by
    simpa [sampleSignSession, samplePublicContext, samplePartial] using hx
  obtain ⟨sig, sigS, hsig, -, -, -, -, hverify, hle, -⟩ :=
    SignSession.prepareFinalSignature_sound (sampleSignSession (scalarFromFieldElement x))
      sampleLimits (samplePartial (scalarFromFieldElement x)) (samplePublicContext_validates hxy hx)
      (sampleSignSession_collected _) (sampleSignSession_verifies _) hsum
  exact ⟨_, sig, hsig, hverify, hle⟩

end Tss.Cggmp21
