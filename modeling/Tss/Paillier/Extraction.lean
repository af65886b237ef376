import Tss.Paillier.LogStar
import Tss.Paillier.Modulus

/-!
# Extraction (`internal/zk/paillier/affg_star.go`, `elog.go`)

Two proofs with the same first messages that pass the equations of the
verifier under different challenges give a witness. Nothing is assumed about
how the proofs were made. The verifiers are stated over the derivation of the
challenge from the transcript, so that two runs may answer one transcript with
different challenges; `verifyAffGStar` and `verifyElog` are the instances with
the hashes of the source.
-/

namespace Tss.Paillier

open Secp256k1 Fallible Cggmp21 PaillierGroup Wire

/-! ## Quotients of ciphertexts -/

section Ciphertexts

variable {pk : PublicKey}

/-- The factors of a sum of ciphertexts are units, and it is their product. -/
theorem oAdd_eq_ok {a b c : ℕ} (h : oAdd pk a b = .ok c) :
    ∃ ua ub : (ZMod (pk.n ^ 2))ˣ, (a : ZMod (pk.n ^ 2)) = ua ∧ (b : ZMod (pk.n ^ 2)) = ub ∧
      b < pk.n ^ 2 ∧ (c : ZMod (pk.n ^ 2)) = (ua * ub : (ZMod (pk.n ^ 2))ˣ) := by
  obtain ⟨hpk, h⟩ := seq_eq_ok.mp h
  obtain ⟨ha, h⟩ := seq_eq_ok.mp h
  obtain ⟨hb, h⟩ := seq_eq_ok.mp h
  cases h
  rw [requireZN2Star_eq_ok, ← pow_two] at ha hb
  refine ⟨ZMod.unitOfCoprime a ha.2.2, ZMod.unitOfCoprime b hb.2.2, rfl, rfl, hb.2.1, ?_⟩
  rw [nSquared_eq hpk, ZMod.natCast_mod, Nat.cast_mul]
  rfl

theorem oMulPublic_eq_ok {k : ℤ} {c v : ℕ} (h : oMulPublic pk k c = .ok v) :
    ∃ u : (ZMod (pk.n ^ 2))ˣ, (c : ZMod (pk.n ^ 2)) = u ∧ c < pk.n ^ 2 ∧
      (v : ZMod (pk.n ^ 2)) = (u ^ k : (ZMod (pk.n ^ 2))ˣ) := by
  obtain ⟨hpk, hrest⟩ := seq_eq_ok.mp h
  obtain ⟨hc, -⟩ := seq_eq_ok.mp hrest
  rw [liftText_eq_ok] at hpk hc
  rw [requireZN2Star_eq_ok, ← pow_two] at hc
  have hu : (c : ZMod (pk.n ^ 2)) = ZMod.unitOfCoprime c hc.2.2 := rfl
  obtain ⟨v', hv', -, hval⟩ := oMulPublic_of_unit hpk hc.2.1 hu k
  obtain rfl := Except.ok.inj (hv'.symm.trans h)
  exact ⟨_, hu, hc.2.1, hval⟩

/-- The quotient of two encryptions encrypts the difference. -/
theorem encRandom_sub {m m' : ℤ} {r r' c c' : ℕ} (h : encRandom pk m r = .ok c)
    (h' : encRandom pk m' r' = .ok c') :
    ∃ rho d, isZNStar rho pk.n = true ∧ encRandom pk (m - m') rho = .ok d ∧ d < pk.n ^ 2 ∧
      ∃ ud uc' : (ZMod (pk.n ^ 2))ˣ, (d : ZMod (pk.n ^ 2)) = ud ∧ (c' : ZMod (pk.n ^ 2)) = uc' ∧
        (c : ZMod (pk.n ^ 2)) = (ud * uc' : (ZMod (pk.n ^ 2))ˣ) := by
  obtain ⟨hpk, hr, h⟩ := encRandom_eq_ok.mp h
  obtain ⟨-, hr', h'⟩ := encRandom_eq_ok.mp h'
  obtain ⟨-, -, hr⟩ := isZNStar_eq_true.mp hr
  obtain ⟨-, -, hr'⟩ := isZNStar_eq_true.mp hr'
  have hn := (validate_eq_ok.mp hpk).2.2.2.1
  obtain ⟨inv, -, -, hinv⟩ := modInverse_spec (by omega) hr'
  -- the randomness is the quotient, reduced
  have hmod : r * inv % pk.n * r' ≡ r [MOD pk.n] := by
    rw [← ZMod.natCast_eq_natCast_iff, Nat.cast_mul, ZMod.natCast_mod, Nat.cast_mul]
    linear_combination (r : ZMod pk.n) * hinv
  have hproduct : (r * inv % pk.n * r').Coprime pk.n := hmod.gcd_eq.trans hr
  have hrho : (r * inv % pk.n).Coprime pk.n := hproduct.coprime_mul_right
  have hstar : isZNStar (r * inv % pk.n) pk.n = true :=
    isZNStar_eq_true.mpr ⟨pos_of_coprime hn hrho, Nat.mod_lt _ (by omega), hrho⟩
  obtain ⟨d, hd⟩ := exists_encryptWithRandomness hpk (m - m') hrho
  obtain ⟨hdlt, hdval⟩ := encryptWithRandomness_val hd hrho
  refine ⟨_, d, hstar, encRandom_eq_ok.mpr ⟨hpk, hstar, hd⟩, hdlt, _, _, hdval,
    (encryptWithRandomness_val h' hr').2, ?_⟩
  rw [(encryptWithRandomness_val h hr).2, encrypt_mul, sub_add_cancel, encrypt, encrypt,
    ← unit_pow_mod hproduct hr hmod]
  congr 3
  apply Units.val_inj.mp
  rw [Units.val_mul, ZMod.coe_unitOfCoprime, ZMod.coe_unitOfCoprime, ZMod.coe_unitOfCoprime,
    Nat.cast_mul]

/-- Equal values below the modulus. -/
theorem eq_of_natCast_eq {n a b : ℕ} (ha : a < n) (hb : b < n) (h : (a : ZMod n) = b) : a = b := by
  have hmod := (ZMod.natCast_eq_natCast_iff' _ _ _).mp h
  rwa [Nat.mod_eq_of_lt ha, Nat.mod_eq_of_lt hb] at hmod

theorem abs_sub_le_pow {v v' : ℤ} {k : ℕ} (hv : |v| ≤ 2 ^ (k + 1)) (hv' : |v'| ≤ 2 ^ (k + 1)) :
    |v - v'| ≤ 2 ^ (k + 2) := by
  have hsub := abs_sub v v'
  rw [pow_succ 2 (k + 1)]
  omega

end Ciphertexts

/-! ## Affine operations without a setup -/

section Proofs

variable [Curve]

structure AffGStarProof where
  a : List Bytes
  b : List Bytes
  r : List Bytes
  z : List Bytes
  zPrime : List Bytes
  w : List Bytes
  lambda : List Bytes
  transcriptHash : Bytes

def affGStarMaxRounds : ℕ := 256

def validateCanonicalPositiveBytes (name : String) (i : ℕ) (encoded : Bytes) :
    Except GoError Unit :=
  rejectIf (encoded.head?.getD 0 = 0)
    (.errorf ("AffGStarProof: " ++ name ++ "[%d] is not a canonical positive integer") [.num i])

def validateCanonicalSignedBytes (name : String) (i : ℕ) (encoded : Bytes) :
    Except GoError Unit := do
  let _ ← (decodeBigIntSigned encoded).mapError
    (.wrap ("AffGStarProof: invalid " ++ name ++ "[%d]: %w") [.num i])

def AffGStarProof.validate (p : AffGStarProof) : Except GoError Unit := do
  let rounds := p.a.length
  rejectIf (rounds = 0 ∨ affGStarMaxRounds < rounds ∨ p.b.length ≠ rounds ∨ p.r.length ≠ rounds ∨
      p.z.length ≠ rounds ∨ p.zPrime.length ≠ rounds ∨ p.w.length ≠ rounds ∨
      p.lambda.length ≠ rounds)
    (.new "AffGStarProof: inconsistent round lists")
  (List.range rounds).forM fun i => do
    validateCanonicalPositiveBytes "A" i (p.a.getD i [])
    validateCanonicalPositiveBytes "B" i (p.b.getD i [])
    let _ ← (liftText (pointFromBytes (p.r.getD i []))).mapError
      (.wrap "AffGStarProof: invalid R[%d]: %w" [.num i])
    validateCanonicalSignedBytes "z" i (p.z.getD i [])
    validateCanonicalSignedBytes "zPrime" i (p.zPrime.getD i [])
    validateCanonicalPositiveBytes "w" i (p.w.getD i [])
    validateCanonicalPositiveBytes "lambda" i (p.lambda.getD i [])
  rejectIf (p.transcriptHash.length ≠ sha256Size) (.new "AffGStarProof: invalid transcript hash")

/-- One round of `affGStarTranscript`. -/
def appendAffGStarRound (a b r : List Bytes) (t : Transcript.Builder) (i : ℕ) :
    Except GoError Transcript.Builder := do
  let t := (t.appendUint32 "round" (UInt32.ofNat i)).appendBytes "A" (a.getD i [])
  let t := t.appendBytes "B" (b.getD i [])
  let _ ← (liftText (pointFromBytes (r.getD i []))).mapError
    (.wrap "transcript AppendPointBytes R: %w" [])
  pure (t.appendBytes "R" (r.getD i []))

def affGStarTranscript [Sha256] (params : SecurityParams) (state : Bytes)
    (stmt : AffGStarStatement) (a b r : List Bytes) : Except GoError Bytes := do
  liftText (validateAffGStarPublic params stmt)
  rejectIf (a.length = 0 ∨ a.length ≠ b.length ∨ a.length ≠ r.length)
    (.new "AffGStarProof transcript: inconsistent commitments")
  let t := appendSecurityParams (Transcript.new "cggmp21-paillier-aff-g-star-proof-v1") params
  let t := (t.appendBytes "state" state).appendBytes "N0" (natBytes stmt.receiverPaillierN.n)
  let t := (t.appendBytes "N1" (natBytes stmt.proverPaillierN.n)).appendBytes "C" (natBytes stmt.c)
  let t := (t.appendBytes "D" (natBytes stmt.d)).appendBytes "Y" (natBytes stmt.y)
  let t ← appendPoint t "X" stmt.x
  let t := t.appendUint32 "rounds" (UInt32.ofNat a.length)
  let t ← (List.range a.length).foldlM (appendAffGStarRound a b r) t
  pure t.sum

def affGStarChallenges [Sha256] (root : Bytes) (rounds : ℕ) : Bytes :=
  expandHash ((rounds + 7) / 8)
    "github.com/islishude/tss/internal/zk/paillier/aff-g-star/challenge/v1" root [] []

def affGStarChallengeBit (challenges : Bytes) (round : ℕ) : Bool :=
  (challenges.getD (round / 8) 0).toNat.testBit (7 - round % 8)

/-- What the equations compare with: the first message, with the statement added to it if the
challenge bit is set. -/
def affGStarRight (pk : PublicKey) (first statement : ℕ) (bit : Bool) : Except GoError ℕ :=
  if bit then liftText (oAdd pk first statement) else .ok first

/-- `verifyAffGStarRound`. The round's items are in the lists and are decoded: `Validate` has
seen to it. -/
def verifyAffGStarRound (params : SecurityParams) (stmt : AffGStarStatement)
    (proof : AffGStarProof) (challenges : Bytes) (i : ℕ) : Except GoError Unit := do
  let n0 := stmt.receiverPaillierN
  let n1 := stmt.proverPaillierN
  let a := beNat (proof.a.getD i [])
  let b := beNat (proof.b.getD i [])
  (liftText (requireZN2Star a n0.n)).mapError (.wrap "AffGStarProof: invalid A[%d]: %w" [.num i])
  (liftText (requireZN2Star b n1.n)).mapError (.wrap "AffGStarProof: invalid B[%d]: %w" [.num i])
  let r ← liftText (pointFromBytes (proof.r.getD i []))
  let z ← decodeBigIntSigned (proof.z.getD i [])
  let zPrime ← decodeBigIntSigned (proof.zPrime.getD i [])
  let w := beNat (proof.w.getD i [])
  let lambda := beNat (proof.lambda.getD i [])
  (requireZNStar w n0.n).mapError (.wrap "AffGStarProof: invalid w[%d]: %w" [.num i])
  (requireZNStar lambda n1.n).mapError (.wrap "AffGStarProof: invalid lambda[%d]: %w" [.num i])
  rejectIf (inSignedPowerOfTwo z (params.encRange + 1) = false)
    (.errorf "AffGStarProof: z[%d] out of range" [.num i])
  rejectIf (inSignedPowerOfTwo zPrime (params.affGRange + 1) = false)
    (.errorf "AffGStarProof: zPrime[%d] out of range" [.num i])
  let zC ← oMulPublic n0 z stmt.c
  let encZPrime0 ← encRandom n0 zPrime w
  let left0 ← liftText (oAdd n0 zC encZPrime0)
  let right0 ← affGStarRight n0 a stmt.d (affGStarChallengeBit challenges i)
  rejectIf (left0 ≠ right0) (.errorf "AffGStarProof: affine equation failed in round %d" [.num i])
  let leftCurve := scalarBaseMult (scalarFromBigInt z)
  let rightCurve := if affGStarChallengeBit challenges i then r + stmt.x else r
  rejectIf (leftCurve ≠ rightCurve)
    (.errorf "AffGStarProof: curve equation failed in round %d" [.num i])
  let left1 ← encRandom n1 zPrime lambda
  let right1 ← affGStarRight n1 b stmt.y (affGStarChallengeBit challenges i)
  rejectIf (left1 ≠ right1)
    (.errorf "AffGStarProof: encryption equation failed in round %d" [.num i])

/-- `VerifyAffGStar`, over the derivation of the challenges. -/
def verifyAffGStarWith [Sha256] (deriveChallenges : Bytes → ℕ → Bytes) (params : SecurityParams)
    (state : Bytes) (stmt : AffGStarStatement) (proof : AffGStarProof) : Except GoError Unit := do
  liftText (validateAffGStarPublic params stmt)
  proof.validate
  let rounds := params.challengeBits
  rejectIf (proof.a.length ≠ rounds)
    (.errorf "AffGStarProof: got %d rounds, want %d" [.num proof.a.length, .num rounds])
  let root ← affGStarTranscript params state stmt proof.a proof.b proof.r
  rejectIf (root ≠ proof.transcriptHash) (.new "AffGStarProof: transcript hash mismatch")
  let challenges := deriveChallenges root rounds
  (List.range rounds).forM (verifyAffGStarRound params stmt proof challenges)

def verifyAffGStar [Sha256] : SecurityParams → Bytes → AffGStarStatement → AffGStarProof →
    Except GoError Unit :=
  verifyAffGStarWith affGStarChallenges

/-- What an accepted round establishes. -/
structure AffGStarAccepted (params : SecurityParams) (stmt : AffGStarStatement)
    (a b : ℕ) (r : Point) (bit : Bool) (z zPrime : ℤ) : Prop where
  z_range : |z| ≤ 2 ^ (params.encRange + 1)
  zPrime_range : |zPrime| ≤ 2 ^ (params.affGRange + 1)
  affine : ∃ zC w enc left, oMulPublic stmt.receiverPaillierN z stmt.c = .ok zC ∧
    encRandom stmt.receiverPaillierN zPrime w = .ok enc ∧
    oAdd stmt.receiverPaillierN zC enc = .ok left ∧
    affGStarRight stmt.receiverPaillierN a stmt.d bit = .ok left
  curve : scalarBaseMult (scalarFromBigInt z) = if bit then r + stmt.x else r
  encryption : ∃ lambda left, encRandom stmt.proverPaillierN zPrime lambda = .ok left ∧
    affGStarRight stmt.proverPaillierN b stmt.y bit = .ok left

theorem verifyAffGStarRound_eq_ok {params : SecurityParams} {stmt : AffGStarStatement}
    {proof : AffGStarProof} {challenges : Bytes} {i : ℕ}
    (h : verifyAffGStarRound params stmt proof challenges i = .ok ()) :
    ∃ r z zPrime, liftText (pointFromBytes (proof.r.getD i [])) = .ok r ∧
      decodeBigIntSigned (proof.z.getD i []) = .ok z ∧
      decodeBigIntSigned (proof.zPrime.getD i []) = .ok zPrime ∧
      AffGStarAccepted params stmt (beNat (proof.a.getD i [])) (beNat (proof.b.getD i [])) r
        (affGStarChallengeBit challenges i) z zPrime := by
  iterate 2 obtain ⟨-, h⟩ := seq_eq_ok.mp h
  obtain ⟨r, hr, h⟩ := bind_eq_ok.mp h
  obtain ⟨z, hdecodeZ, h⟩ := bind_eq_ok.mp h
  obtain ⟨zPrime, hdecodeZPrime, h⟩ := bind_eq_ok.mp h
  iterate 2 obtain ⟨-, h⟩ := seq_eq_ok.mp h
  obtain ⟨hz, h⟩ := seq_eq_ok.mp h
  obtain ⟨hzPrime, h⟩ := seq_eq_ok.mp h
  obtain ⟨zC, hzC, h⟩ := bind_eq_ok.mp h
  obtain ⟨enc, henc, h⟩ := bind_eq_ok.mp h
  obtain ⟨left0, hleft0, h⟩ := bind_eq_ok.mp h
  obtain ⟨right0, hright0, h⟩ := bind_eq_ok.mp h
  obtain ⟨heq0, h⟩ := seq_eq_ok.mp h
  obtain ⟨hcurve, h⟩ := seq_eq_ok.mp h
  obtain ⟨left1, hleft1, h⟩ := bind_eq_ok.mp h
  obtain ⟨right1, hright1, heq1⟩ := bind_eq_ok.mp h
  rw [rejectIf_eq_ok, not_not] at heq0 hcurve heq1
  rw [rejectIf_eq_ok, Bool.not_eq_false, inSignedPowerOfTwo, decide_eq_true_eq] at hz hzPrime
  subst heq0 heq1
  exact ⟨r, z, zPrime, hr, hdecodeZ, hdecodeZPrime, abs_le.mpr hz, abs_le.mpr hzPrime,
    ⟨zC, _, enc, left0, hzC, henc, liftText_eq_ok.mp hleft0, hright0⟩, hcurve,
    _, left1, hleft1, hright1⟩

/-- The rounds of an accepted proof, under the challenges derived from its transcript hash. -/
theorem verifyAffGStarWith_eq_ok [Sha256] {deriveChallenges : Bytes → ℕ → Bytes}
    {params : SecurityParams} {state : Bytes} {stmt : AffGStarStatement} {proof : AffGStarProof}
    (h : verifyAffGStarWith deriveChallenges params state stmt proof = .ok ()) {i : ℕ}
    (hi : i < params.challengeBits) :
    verifyAffGStarRound params stmt proof
      (deriveChallenges proof.transcriptHash params.challengeBits) i = .ok () := by
  iterate 3 obtain ⟨-, h⟩ := seq_eq_ok.mp h
  obtain ⟨root, -, h⟩ := bind_eq_ok.mp h
  obtain ⟨hroot, h⟩ := seq_eq_ok.mp h
  rw [rejectIf_eq_ok, not_not] at hroot
  subst hroot
  exact forM_eq_ok.mp h i (List.mem_range.mpr hi)

/-- The integers and the randomness open the statement. -/
structure AffGStarStatement.Opens (stmt : AffGStarStatement) (x y : ℤ) (rho mu : ℕ) : Prop where
  rho_unit : isZNStar rho stmt.receiverPaillierN.n = true
  mu_unit : isZNStar mu stmt.proverPaillierN.n = true
  affine : ∃ xC encY, oMulPublic stmt.receiverPaillierN x stmt.c = .ok xC ∧
    encRandom stmt.receiverPaillierN y rho = .ok encY ∧
    oAdd stmt.receiverPaillierN xC encY = .ok stmt.d
  encryption : encRandom stmt.proverPaillierN y mu = .ok stmt.y
  point : scalarBaseMult (x : Scalar) = stmt.x

section Extract

variable {params : SecurityParams} {stmt : AffGStarStatement} {a b : ℕ} {r : Point}
  {z zPrime z' zPrime' : ℤ}

/-- The affine equations of the two rounds. -/
theorem AffGStarAccepted.extract_affine (h : AffGStarAccepted params stmt a b r true z zPrime)
    (h' : AffGStarAccepted params stmt a b r false z' zPrime') :
    ∃ rho xC encY, isZNStar rho stmt.receiverPaillierN.n = true ∧
      oMulPublic stmt.receiverPaillierN (z - z') stmt.c = .ok xC ∧
      encRandom stmt.receiverPaillierN (zPrime - zPrime') rho = .ok encY ∧
      oAdd stmt.receiverPaillierN xC encY = .ok stmt.d := by
  obtain ⟨zC, w, enc, left, hzC, henc, hleft, hright⟩ := h.affine
  obtain ⟨zC', w', enc', left', hzC', henc', hleft', hright'⟩ := h'.affine
  obtain rfl : a = left' := Except.ok.inj hright'
  obtain ⟨hpk, -⟩ := encRandom_eq_ok.mp henc
  obtain ⟨u, hu, hclt, hzCval⟩ := oMulPublic_eq_ok hzC
  obtain ⟨u', hu', -, hzCval'⟩ := oMulPublic_eq_ok hzC'
  obtain rfl : u = u' := Units.val_inj.mp (hu.symm.trans hu')
  obtain ⟨rho, encY, hrho, hencY, hylt, ud, uc', hud, huc', hquotient⟩ := encRandom_sub henc henc'
  obtain ⟨xC, hxC, hxlt, hxval⟩ := oMulPublic_of_unit hpk hclt hu (z - z')
  obtain ⟨ul, ur, hul, hur, -, hlval⟩ := oAdd_eq_ok hleft
  obtain ⟨ul', ur', hul', hur', -, hlval'⟩ := oAdd_eq_ok hleft'
  obtain ⟨ua, uD, hua, huD, hDlt, hDval⟩ := oAdd_eq_ok (liftText_eq_ok.mp hright)
  refine ⟨rho, xC, encY, hrho, hxC, hencY, oAdd_of_units hpk hxlt hylt hDlt hxval hud ?_⟩
  -- everything is an equation between units now
  obtain rfl := Units.val_inj.mp (hzCval.symm.trans hul)
  obtain rfl := Units.val_inj.mp (hzCval'.symm.trans hul')
  obtain rfl := Units.val_inj.mp (hquotient.symm.trans hur)
  obtain rfl := Units.val_inj.mp (huc'.symm.trans hur')
  have hleft : u ^ z * (ud * uc') = ua * uD := Units.val_inj.mp (hlval.symm.trans hDval)
  have hfirst : ua = u ^ z' * uc' := Units.val_inj.mp (hua.symm.trans hlval')
  rw [huD]
  congr 1
  rw [hfirst] at hleft
  have hcancel : u ^ z * ud * uc' = u ^ z' * uD * uc' := by
    rw [mul_assoc, hleft, mul_assoc, mul_assoc, mul_comm uc']
  rw [zpow_sub, mul_right_comm, mul_right_cancel hcancel, mul_comm, inv_mul_cancel_left]

/-- The equations on the prover's ciphertext. -/
theorem AffGStarAccepted.extract_encryption (h : AffGStarAccepted params stmt a b r true z zPrime)
    (h' : AffGStarAccepted params stmt a b r false z' zPrime') :
    ∃ mu, isZNStar mu stmt.proverPaillierN.n = true ∧
      encRandom stmt.proverPaillierN (zPrime - zPrime') mu = .ok stmt.y := by
  obtain ⟨lambda, left, henc, hright⟩ := h.encryption
  obtain ⟨lambda', left', henc', hright'⟩ := h'.encryption
  obtain rfl : b = left' := Except.ok.inj hright'
  obtain ⟨mu, d, hmu, hd, hdlt, ud, ub, hud, hub, hquotient⟩ := encRandom_sub henc henc'
  obtain ⟨ub', uY, hub', huY, hYlt, hYval⟩ := oAdd_eq_ok (liftText_eq_ok.mp hright)
  obtain rfl : ub = ub' := Units.val_inj.mp (hub.symm.trans hub')
  have hunits : ud = uY := by
    have heq := Units.val_inj.mp (hquotient.symm.trans hYval)
    rw [mul_comm] at heq
    exact mul_left_cancel heq
  have hdY : d = stmt.y := eq_of_natCast_eq hdlt hYlt (by rw [hud, hunits, huY])
  exact ⟨mu, hmu, hdY ▸ hd⟩

theorem AffGStarAccepted.extract_point (h : AffGStarAccepted params stmt a b r true z zPrime)
    (h' : AffGStarAccepted params stmt a b r false z' zPrime') :
    scalarBaseMult ((z - z' : ℤ) : Scalar) = stmt.x := by
  have hone : scalarBaseMult (scalarFromBigInt z) = r + stmt.x := h.curve
  have hzero : scalarBaseMult (scalarFromBigInt z') = r := h'.curve
  rw [scalarBaseMult, scalarFromBigInt_eq] at hone hzero
  rw [scalarBaseMult, Int.cast_sub, sub_smul, hone, hzero, add_sub_cancel_left]

/-- The range in which the extracted integers lie, and that they open the statement. -/
def AffGStarStatement.Extracted (params : SecurityParams) (stmt : AffGStarStatement) (x y : ℤ) :
    Prop :=
  |x| ≤ 2 ^ (params.encRange + 2) ∧ |y| ≤ 2 ^ (params.affGRange + 2) ∧
    ∃ rho mu, stmt.Opens x y rho mu

/-- One differing bit gives a witness: the responses to the set bit less those to the other. -/
theorem AffGStarAccepted.extract (h : AffGStarAccepted params stmt a b r true z zPrime)
    (h' : AffGStarAccepted params stmt a b r false z' zPrime') :
    stmt.Extracted params (z - z') (zPrime - zPrime') := by
  obtain ⟨rho, xC, encY, hrho, haffine⟩ := h.extract_affine h'
  obtain ⟨mu, hmu, henc⟩ := h.extract_encryption h'
  exact ⟨abs_sub_le_pow h.z_range h'.z_range, abs_sub_le_pow h.zPrime_range h'.zPrime_range,
    rho, mu, hrho, hmu, ⟨xC, encY, haffine⟩, henc, h.extract_point h'⟩

end Extract

/-! ## Discrete logarithm of an ElGamal plaintext -/

structure ElogProof where
  a : Bytes
  n : Bytes
  b : Bytes
  z : Bytes
  u : Bytes
  transcriptHash : Bytes

def ElogProof.validate (p : ElogProof) : Except GoError Unit := do
  [("A", p.a), ("N", p.n), ("B", p.b)].forM fun (name, value) => do
    let _ ← (liftText (pointFromBytes value)).mapError
      (.wrap ("ElogProof: invalid " ++ name ++ ": %w") [])
  [("z", p.z), ("u", p.u)].forM fun (name, value) => do
    let _ ← (liftText (scalarFromBytesAllowZero value)).mapError
      (.wrap ("ElogProof: invalid " ++ name ++ ": %w") [])
  rejectIf (p.transcriptHash.length ≠ sha256Size) (.new "ElogProof: invalid transcript hash")

def elogTranscript [Sha256] (state : Bytes) (stmt : ElogStatement) (a n b : Bytes) :
    Except GoError Bytes := do
  let t := (Transcript.new "cggmp21-paillier-elog-proof-v1").appendBytes "state" state
  let t ← [("generator", stmt.generator), ("lambda_commitment", stmt.lambdaCommitment),
      ("elgamal_commitment", stmt.elGamalCommitment), ("elgamal_base", stmt.elGamalBase),
      ("result_commitment", stmt.resultCommitment), ("result_base", stmt.resultBase)].foldlM
    (fun t (name, point) => appendPoint t name point) t
  pure (((t.appendBytes "A" a).appendBytes "N" n).appendBytes "B" b).sum

/-- `VerifyElog`, over the derivation of the challenge. -/
def verifyElogWith [Sha256] (deriveChallenge : Bytes → Except GoError Scalar) (state : Bytes)
    (stmt : ElogStatement) (proof : ElogProof) : Except GoError Unit := do
  liftText (validateElogPublic stmt)
  proof.validate
  let a ← liftText (pointFromBytes proof.a)
  let n ← liftText (pointFromBytes proof.n)
  let b ← liftText (pointFromBytes proof.b)
  let z ← liftText (scalarFromBytesAllowZero proof.z)
  let u ← liftText (scalarFromBytesAllowZero proof.u)
  let root ← elogTranscript state stmt proof.a proof.n proof.b
  rejectIf (root ≠ proof.transcriptHash) (.new "ElogProof: transcript hash mismatch")
  let challenge ← deriveChallenge root
  rejectIf (z • stmt.generator ≠ a + challenge • stmt.lambdaCommitment)
    (.new "ElogProof: first equation failed")
  rejectIf (u • stmt.generator + z • stmt.elGamalBase ≠ n + challenge • stmt.elGamalCommitment)
    (.new "ElogProof: second equation failed")
  rejectIf (u • stmt.resultBase ≠ b + challenge • stmt.resultCommitment)
    (.new "ElogProof: third equation failed")

def verifyElog [Sha256] : Bytes → ElogStatement → ElogProof → Except GoError Unit :=
  verifyElogWith fun root =>
    deriveCanonicalNonZeroSecp256k1 paillierChallengeDerivationLabel root challengeCounterLimit

/-- The witness of a statement: what `validateElogStatement` asks for. -/
structure ElogStatement.Opens (stmt : ElogStatement) (lambda y : Scalar) : Prop where
  exponent : stmt.lambdaCommitment = lambda • stmt.generator
  elGamal : stmt.elGamalCommitment = y • stmt.generator + lambda • stmt.elGamalBase
  result : stmt.resultCommitment = y • stmt.resultBase

/-- What an accepted proof establishes. -/
structure ElogAccepted (stmt : ElogStatement) (a n b : Point) (challenge z u : Scalar) : Prop where
  first : z • stmt.generator = a + challenge • stmt.lambdaCommitment
  second : u • stmt.generator + z • stmt.elGamalBase = n + challenge • stmt.elGamalCommitment
  third : u • stmt.resultBase = b + challenge • stmt.resultCommitment

theorem verifyElogWith_eq_ok [Sha256] {deriveChallenge : Bytes → Except GoError Scalar}
    {state : Bytes} {stmt : ElogStatement} {proof : ElogProof}
    (h : verifyElogWith deriveChallenge state stmt proof = .ok ()) :
    ∃ a n b z u challenge, pointFromBytes proof.a = .ok a ∧ pointFromBytes proof.n = .ok n ∧
      pointFromBytes proof.b = .ok b ∧ scalarFromBytesAllowZero proof.z = .ok z ∧
      scalarFromBytesAllowZero proof.u = .ok u ∧
      deriveChallenge proof.transcriptHash = .ok challenge ∧
      ElogAccepted stmt a n b challenge z u := by
  iterate 2 obtain ⟨-, h⟩ := seq_eq_ok.mp h
  obtain ⟨a, ha, h⟩ := bind_eq_ok.mp h
  obtain ⟨n, hn, h⟩ := bind_eq_ok.mp h
  obtain ⟨b, hb, h⟩ := bind_eq_ok.mp h
  obtain ⟨z, hz, h⟩ := bind_eq_ok.mp h
  obtain ⟨u, hu, h⟩ := bind_eq_ok.mp h
  obtain ⟨root, -, h⟩ := bind_eq_ok.mp h
  obtain ⟨hroot, h⟩ := seq_eq_ok.mp h
  obtain ⟨challenge, hchallenge, h⟩ := bind_eq_ok.mp h
  obtain ⟨hfirst, h⟩ := seq_eq_ok.mp h
  obtain ⟨hsecond, hthird⟩ := seq_eq_ok.mp h
  rw [rejectIf_eq_ok, not_not] at hroot hfirst hsecond hthird
  rw [liftText_eq_ok] at ha hn hb hz hu
  subst hroot
  exact ⟨a, n, b, z, u, challenge, ha, hn, hb, hz, hu, hchallenge, hfirst, hsecond, hthird⟩

/-- Two answers to one first message, divided by the difference of the challenges. -/
theorem sub_div_smul {P Q A : Point} {e e' z z' : Scalar} (he : e ≠ e') (h : z • P = A + e • Q)
    (h' : z' • P = A + e' • Q) : ((z - z') / (e - e')) • P = Q := by
  have hne : e - e' ≠ 0 := sub_ne_zero.mpr he
  have hsub : (z - z') • P = (e - e') • Q := by
    rw [sub_smul, sub_smul, h, h']
    abel
  rw [div_eq_inv_mul, mul_smul, hsub, inv_smul_smul₀ hne]

/-- Different challenges give a witness: the differences of the responses over that of the
challenges. -/
theorem ElogAccepted.extract {stmt : ElogStatement} {a n b : Point} {e e' z z' u u' : Scalar}
    (h : ElogAccepted stmt a n b e z u) (h' : ElogAccepted stmt a n b e' z' u') (he : e ≠ e') :
    stmt.Opens ((z - z') / (e - e')) ((u - u') / (e - e')) where
  exponent := (sub_div_smul he h.first h'.first).symm
  result := (sub_div_smul he h.third h'.third).symm
  elGamal := by
    have hne : e - e' ≠ 0 := sub_ne_zero.mpr he
    have hsub : (u - u') • stmt.generator + (z - z') • stmt.elGamalBase
        = (e - e') • stmt.elGamalCommitment := by
      rw [sub_smul, sub_smul, sub_smul, eq_sub_of_add_eq h.second, eq_sub_of_add_eq h'.second]
      abel
    rw [div_eq_inv_mul, div_eq_inv_mul, mul_smul, mul_smul, ← smul_add, hsub,
      inv_smul_smul₀ hne]

/-! ## Special soundness -/

/-- Two accepted proofs with the same first messages and different challenges give a witness. For
the affine operation the challenges differ in the bit of some round, and the witness is the
difference of that round's responses; for the logarithm they are different scalars, and the
differences are divided by theirs. -/
theorem affGStar_elog_specialSoundness [Sha256] :
    (∀ (params : SecurityParams) (stmt : AffGStarStatement) (state state' : Bytes)
      (deriveChallenges deriveChallenges' : Bytes → ℕ → Bytes) (proof proof' : AffGStarProof)
      (i : ℕ),
      verifyAffGStarWith deriveChallenges params state stmt proof = .ok () →
      verifyAffGStarWith deriveChallenges' params state' stmt proof' = .ok () →
      proof.a = proof'.a → proof.b = proof'.b → proof.r = proof'.r →
      i < params.challengeBits →
      affGStarChallengeBit (deriveChallenges proof.transcriptHash params.challengeBits) i = true →
      affGStarChallengeBit (deriveChallenges' proof'.transcriptHash params.challengeBits) i
        = false →
      ∃ z zPrime z' zPrime', decodeBigIntSigned (proof.z.getD i []) = .ok z ∧
        decodeBigIntSigned (proof.zPrime.getD i []) = .ok zPrime ∧
        decodeBigIntSigned (proof'.z.getD i []) = .ok z' ∧
        decodeBigIntSigned (proof'.zPrime.getD i []) = .ok zPrime' ∧
        stmt.Extracted params (z - z') (zPrime - zPrime')) ∧
    ∀ (stmt : ElogStatement) (state state' : Bytes)
      (deriveChallenge deriveChallenge' : Bytes → Except GoError Scalar) (proof proof' : ElogProof),
      verifyElogWith deriveChallenge state stmt proof = .ok () →
      verifyElogWith deriveChallenge' state' stmt proof' = .ok () →
      proof.a = proof'.a → proof.n = proof'.n → proof.b = proof'.b →
      deriveChallenge proof.transcriptHash ≠ deriveChallenge' proof'.transcriptHash →
      ∃ z u z' u' e e', scalarFromBytesAllowZero proof.z = .ok z ∧
        scalarFromBytesAllowZero proof.u = .ok u ∧
        scalarFromBytesAllowZero proof'.z = .ok z' ∧
        scalarFromBytesAllowZero proof'.u = .ok u' ∧
        deriveChallenge proof.transcriptHash = .ok e ∧
        deriveChallenge' proof'.transcriptHash = .ok e' ∧
        stmt.Opens ((z - z') / (e - e')) ((u - u') / (e - e')) := by
  constructor
  · intro params stmt state state' derive derive' proof proof' i h h' ha hb hr hi hbit hbit'
    obtain ⟨r, z, zPrime, hpoint, hz, hzPrime, haccepted⟩ :=
      verifyAffGStarRound_eq_ok (verifyAffGStarWith_eq_ok h hi)
    obtain ⟨r', z', zPrime', hpoint', hz', hzPrime', haccepted'⟩ :=
      verifyAffGStarRound_eq_ok (verifyAffGStarWith_eq_ok h' hi)
    rw [hr] at hpoint
    obtain rfl := Except.ok.inj (hpoint.symm.trans hpoint')
    rw [hbit, ha, hb] at haccepted
    rw [hbit'] at haccepted'
    exact ⟨z, zPrime, z', zPrime', hz, hzPrime, hz', hzPrime', haccepted.extract haccepted'⟩
  · intro stmt state state' derive derive' proof proof' h h' ha hn hb hne
    obtain ⟨a, n, b, z, u, e, hpa, hpn, hpb, hz, hu, he, haccepted⟩ := verifyElogWith_eq_ok h
    obtain ⟨a', n', b', z', u', e', hpa', hpn', hpb', hz', hu', he', haccepted'⟩ :=
      verifyElogWith_eq_ok h'
    rw [ha] at hpa
    rw [hn] at hpn
    rw [hb] at hpb
    obtain rfl := Except.ok.inj (hpa.symm.trans hpa')
    obtain rfl := Except.ok.inj (hpn.symm.trans hpn')
    obtain rfl := Except.ok.inj (hpb.symm.trans hpb')
    have hchallenge : e ≠ e' := by
      intro heq
      rw [he, he', heq] at hne
      exact hne rfl
    exact ⟨z, u, z', u', e, e', hz, hu, hz', hu', he, he',
      haccepted.extract haccepted' hchallenge⟩

end Proofs

end Tss.Paillier
