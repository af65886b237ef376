import Mathlib.NumberTheory.LSeries.PrimesInAP
import Mathlib.Tactic.NormNum.LegendreSymbol
import Tss.Cggmp21.Material
import Tss.Lib.Blum

/-!
# The modulus proof (`internal/zk/paillier/modulus.go`)

The prover of a Paillier-Blum modulus answers every challenge with an `N`-th
root and with a fourth root of the challenge, or of one of three multiples of
it. The first message, `W`, is prepared before; `finalizeModulus` computes the
answers and `verifyModulus` checks them.
-/

namespace Tss.Paillier

open Fallible Wire Cggmp21

/-! ## Fixed widths -/

def fixedEncodeStrict (x fixedLen : ℕ) : Except GoError Bytes := do
  rejectIf (fixedLen = 0) (.new "invalid fixed length")
  rejectIf (fixedLen < (natBytes x).length)
    (.errorf "integer encoding too long: got %d, want at most %d"
      [.num (natBytes x).length, .num fixedLen])
  pure (beBytes fixedLen x)

def expSecretMod (modulus base exponent modLen expLen : ℕ) : Except GoError ℕ := do
  let _ ← (fixedEncodeStrict modulus modLen).mapError (.wrap "encode modulus: %w" [])
  let _ ← (fixedEncodeStrict (base % modulus) modLen).mapError (.wrap "encode base: %w" [])
  let _ ← (fixedEncodeStrict exponent expLen).mapError (.wrap "encode exponent: %w" [])
  pure (expMod (base % modulus) exponent modulus)

/-! ## The adjusted challenge and its fourth root -/

/-- `(-1)^a * w^b * y`, reduced. -/
def adjustChallenge (n w y : ℕ) (a b : Bool) : ℕ :=
  let target := if b then y * w % n else y
  if a then (-(target : ℤ) % n).toNat else target

def isQuadraticResidueComposite (x p q : ℕ) : Bool :=
  jacobiSym (x % p : ℕ) p = 1 ∧ jacobiSym (x % q : ℕ) q = 1

def paillierPhi (sk : PrivateKey) : ℕ := (sk.p - 1) * (sk.q - 1)

def validateBlumFactors (p q : ℕ) : Except GoError Unit := do
  rejectIf (p = 0 ∨ q = 0) (.new "invalid Paillier factors")
  rejectIf (p = q) (.new "paillier factors must differ")
  rejectIf (p % 4 ≠ 3 ∨ q % 4 ≠ 3) (.new "paillier factors must be Blum primes")

def fourthRootBlum (sk : PrivateKey) (phi target : ℕ) : Except GoError ℕ :=
  let sqrtExp := (phi + 4) / 8
  let nLen := modulusBytes sk.n
  expSecretMod sk.n target (sqrtExp * sqrtExp) nLen (2 * nLen)

/-- The loops of `fourthRootForModulusProof`, over the adjustments that are left. -/
def tryFourthRoots (sk : PrivateKey) (phi w y : ℕ) :
    List (Bool × Bool) → Except GoError (Bool × Bool × ℕ)
  | [] => .error (.new "no quadratic-residue adjustment found")
  | (a, b) :: rest =>
    let target := adjustChallenge sk.n w y a b
    if isQuadraticResidueComposite target sk.p sk.q then do
      let root ← fourthRootBlum sk phi target
      if expMod root 4 sk.n = target then pure (a, b, root) else tryFourthRoots sk phi w y rest
    else tryFourthRoots sk phi w y rest

def fourthRootForModulusProof (sk : PrivateKey) (phi w y : ℕ) :
    Except GoError (Bool × Bool × ℕ) :=
  tryFourthRoots sk phi w y [(false, false), (false, true), (true, false), (true, true)]

/-- What the prover sends of one round. -/
structure ModulusAnswer where
  x : Bytes
  z : Bytes
  a : Bool
  b : Bool

/-- The proof of the answers of all rounds. -/
def assembleModulusProof (w transcript : Bytes) (answers : List ModulusAnswer) : ModulusProof where
  w := w
  transcriptHash := transcript
  x := answers.map (·.x)
  a := answers.map (·.a.toUInt8)
  b := answers.map (·.b.toUInt8)
  z := answers.map (·.z)

section Proof

variable [Sha256]

/-! ## Challenges -/

def proofTranscript (tag : String) (domain : Bytes) (statementParts commitmentParts : List Bytes) :
    Bytes :=
  let t := (Transcript.new "cggmp24-paillier-proof-transcript-v1").appendUint32 "proof_version" 1
  let t := (t.appendString "curve" (lit "secp256k1")).appendString "proof_tag" (lit tag)
  let t := (t.appendBytes "outer_domain" domain).appendBytesList "statement_parts" statementParts
  (t.appendBytesList "commitment_parts" commitmentParts).sum

/-- One block of `expandHash`. -/
def expandBlock (domain : String) (transcriptHash round attempt : Bytes) (counter : ℕ) : Bytes :=
  let t := (Transcript.new domain).appendBytes "transcript_hash" transcriptHash
  let t := (t.appendBytes "round" round).appendBytes "attempt" attempt
  (t.appendUint32 "block_counter" (UInt32.ofNat counter)).sum

def expandHash (size : ℕ) (domain : String) (transcriptHash round attempt : Bytes) : Bytes :=
  ((List.range ((size + 31) / 32)).flatMap
    (expandBlock domain transcriptHash round attempt)).take size

def modulusRejectionLimit (n nLen : ℕ) : Except GoError ℕ := do
  rejectIf (n ≤ 1 ∨ nLen = 0) (.new "invalid modulus rejection parameters")
  rejectIf (2 ^ (8 * nLen) < n) (.new "modulus exceeds candidate space")
  rejectIf (2 ^ (8 * nLen) / n = 0) (.new "empty modulus rejection quotient")
  pure (2 ^ (8 * nLen) / n * n)

def reduceUniformModulusCandidate (encoded : Bytes) (n limit : ℕ) : Option ℕ :=
  if encoded = [] ∨ limit ≤ beNat encoded ∨ isZNStar (beNat encoded % n) n = false then none
  else some (beNat encoded % n)

def modulusChallengeCounterLimit : ℕ := 256

def challengeExhausted : GoError := .new "modulus proof challenge rejection counter exhausted"

def deriveModulusY (n : ℕ) (transcript : Bytes) (round : ℕ) : Except GoError ℕ := do
  rejectIf (n ≤ 1 ∨ n % 2 = 0) (.new "invalid modulus")
  rejectIf (2 ^ 32 ≤ round) (.new "invalid modulus proof round")
  let nLen := modulusBytes n
  let limit ← modulusRejectionLimit n nLen
  let candidate := fun counter => reduceUniformModulusCandidate
    (expandHash nLen "cggmp24-paillier-mod-y-v1" transcript (be32 round) (be32 counter)) n limit
  match (List.range modulusChallengeCounterLimit).findSome? candidate with
  | some y => pure y
  | none => throw challengeExhausted

/-! ## Prover and verifier -/

/-- The transcript of a proof, over the encoding of the public key. -/
def modulusTranscript (domain : Bytes) (party : PartyID) (raw w : Bytes) : Bytes :=
  proofTranscript "mod" domain [be32 party.toNat, raw] [w]

/-- One round of `finalizeModulus`. -/
def answerModulusRound (sk : PrivateKey) (phi invN w : ℕ) (transcript : Bytes) (i : ℕ) :
    Except GoError ModulusAnswer := do
  let nLen := modulusBytes sk.n
  let y ← deriveModulusY sk.n transcript i
  let z ← (expSecretMod sk.n y invN nLen nLen).mapError (.wrap "modulus proof z round %d: %w" [.num i])
  let (a, b, x) ← (fourthRootForModulusProof sk phi w y).mapError
    (.wrap "modulus proof fourth root round %d: %w" [.num i])
  let xBytes ← (fixedEncodeStrict x nLen).mapError
    (.wrap "encode modulus proof x round %d: %w" [.num i])
  let zBytes ← (fixedEncodeStrict z nLen).mapError
    (.wrap "encode modulus proof z round %d: %w" [.num i])
  pure ⟨xBytes, zBytes, a, b⟩

def finalizeModulus (domain : Bytes) (sk : PrivateKey) (party : PartyID) (w : Bytes) :
    Except GoError ModulusProof := do
  liftText sk.validate
  validateBlumFactors sk.p sk.q
  let raw ← publicKeyCodec.marshal ProtocolLimits.default sk.toPublicKey
  let phi := paillierPhi sk
  match modInverse (sk.n % phi) phi with
  | none => throw (.new "paillier modulus is not invertible modulo phi(N)")
  | some invN =>
    rejectIf (isFixedUnit w sk.n = false ∨ jacobiSym (beNat w) sk.n ≠ -1)
      (.new "invalid prepared modulus proof commitment")
    let transcript := modulusTranscript domain party raw w
    let answers ← (List.range modulusProofRounds).mapM
      (answerModulusRound sk phi invN (beNat w) transcript)
    pure (assembleModulusProof w transcript answers)

/-- One round of `VerifyModulus`. -/
def checkModulusRound (n w : ℕ) (transcript : Bytes) (proof : ModulusProof) (i : ℕ) : Bool :=
  match proof.x[i]?, proof.z[i]?, proof.a[i]?, proof.b[i]? with
  | some x, some z, some a, some b =>
    isFixedUnit x n && isFixedUnit z n &&
      match deriveModulusY n transcript i with
      | .error _ => false
      | .ok y =>
        expMod (beNat z) n n = y && expMod (beNat x) 4 n = adjustChallenge n w y (a = 1) (b = 1)
  | _, _, _, _ => false

def verifyModulus (domain : Bytes) (pk : PublicKey) (party : PartyID) (proof : ModulusProof) :
    Bool :=
  proof.validate.isOk && pk.validate.isOk && !(pk.n.Prime ∨ pk.n % 2 = 0) &&
    match publicKeyCodec.marshal ProtocolLimits.default pk with
    | .error _ => false
    | .ok raw =>
      let transcript := modulusTranscript domain party raw proof.w
      isFixedUnit proof.w pk.n && jacobiSym (beNat proof.w) pk.n = -1 &&
        transcript = proof.transcriptHash &&
        (List.range modulusProofRounds).all (checkModulusRound pk.n (beNat proof.w) transcript proof)

end Proof

/-! ## Widths -/

theorem lt_pow_modulusBytes (n : ℕ) : n < 256 ^ modulusBytes n := by
  by_contra hle
  have hlt := pow256_le.mp (Nat.le_of_not_lt hle)
  rw [modulusBytes] at hlt
  omega

theorem modulusBytes_pos {n : ℕ} (hn : 0 < n) : 0 < modulusBytes n := by
  have hbits : 0 < bitLen n := lt_bitLen.mpr (by rwa [pow_zero])
  rw [modulusBytes]
  omega

theorem fixedEncodeStrict_ok {x fixedLen : ℕ} (hlen : 0 < fixedLen) (hx : x < 256 ^ fixedLen) :
    fixedEncodeStrict x fixedLen = .ok (beBytes fixedLen x) := by
  have hbits : ¬ 8 * fixedLen < bitLen x := fun h => absurd (pow256_le.mpr h) (by omega)
  have hlength : ¬ fixedLen < (natBytes x).length := by
    rw [natBytes, length_beBytes]
    omega
  rw [fixedEncodeStrict, rejectIf, if_neg hlen.ne', ok_bind, rejectIf, if_neg hlength, ok_bind]
  rfl

/-- A residue is written in as many bytes as the modulus has, and read back. -/
theorem isFixedUnit_beBytes {n x : ℕ} (hx : isZNStar x n = true) :
    isFixedUnit (beBytes (modulusBytes n) x) n = true ∧ beNat (beBytes (modulusBytes n) x) = x := by
  have hlt := (isZNStar_eq_true.mp hx).2.1.trans (lt_pow_modulusBytes n)
  have hback := beNat_beBytes hlt
  refine ⟨?_, hback⟩
  rw [isFixedUnit, decide_eq_true_eq, hback]
  exact ⟨length_beBytes _ _, hx⟩

theorem expSecretMod_ok {n exponent expLen : ℕ} (base : ℕ) (hn : 0 < n) (hlen : 0 < expLen)
    (hexp : exponent < 256 ^ expLen) :
    expSecretMod n base exponent (modulusBytes n) expLen = .ok (expMod (base % n) exponent n) := by
  have hwidth := lt_pow_modulusBytes n
  have hbase : base % n < 256 ^ modulusBytes n := (Nat.mod_lt base hn).trans hwidth
  rw [expSecretMod, fixedEncodeStrict_ok (modulusBytes_pos hn) hwidth, mapError_ok, ok_bind,
    fixedEncodeStrict_ok (modulusBytes_pos hn) hbase, mapError_ok, ok_bind,
    fixedEncodeStrict_ok hlen hexp, mapError_ok, ok_bind]
  rfl

/-! ## The adjusted challenge -/

/-- The adjusted challenge is the product, reduced. -/
theorem adjustChallenge_eq {n w y : ℕ} (hlt : y < n) (a b : Bool) :
    ((adjustChallenge n w y a b : ℕ) : ℤ) = Blum.adjusted w y a b % n := by
  have hn : (n : ℤ) ≠ 0 := by omega
  have htarget : (((if b then y * w % n else y : ℕ)) : ℤ) = (if b then (w : ℤ) else 1) * y % n := by
    cases b
    · rw [if_neg (by decide), if_neg (by decide), one_mul, Int.emod_eq_of_lt (by omega) (by omega)]
    · rw [if_pos rfl, if_pos rfl, Int.natCast_mod, Nat.cast_mul, mul_comm]
  rw [adjustChallenge, Blum.adjusted]
  cases a
  · simp only [Bool.false_eq_true, if_false, one_mul]
    exact htarget
  · rw [if_pos rfl, if_pos rfl, Int.toNat_of_nonneg (Int.emod_nonneg _ hn), htarget, neg_one_mul]
    exact (Int.mod_modEq _ _).neg

theorem adjustChallenge_lt {n w y : ℕ} (hn : 0 < n) (hlt : y < n) {a b : Bool} :
    adjustChallenge n w y a b < n := by
  have heq := adjustChallenge_eq (w := w) hlt a b
  have := Int.emod_lt_of_pos (Blum.adjusted w y a b) (show (0 : ℤ) < n by omega)
  omega

/-! ## Keys with Blum factors -/

/-- What the proof uses of a private key. -/
structure PrivateKey.IsBlum (sk : PrivateKey) : Prop where
  public_valid : sk.toPublicKey.validate = .ok ()
  prime_p : sk.p.Prime
  prime_q : sk.q.Prime
  ne : sk.p ≠ sk.q
  p_mod : sk.p % 4 = 3
  q_mod : sk.q % 4 = 3
  n_eq : sk.n = sk.p * sk.q
  coprime : (paillierPhi sk).Coprime sk.n

theorem PrivateKey.isBlum_of_validate {sk : PrivateKey} (h : sk.validate = .ok ())
    (hp : sk.p % 4 = 3) (hq : sk.q % 4 = 3) : sk.IsBlum := by
  have hcop := (PrivateKey.validate_spec h).2.2.1
  simp only [PrivateKey.validate, bind_eq_ok, exists_const, rejectIf_eq_ok, not_or, not_not] at h
  obtain ⟨_, hpk, -, -, hne, hmul, ⟨hprime, hprime'⟩, hlambda, -⟩ := h
  rw [hlambda] at hcop
  exact ⟨hpk, hprime, hprime', hne, hp, hq, hmul.symm,
    (hcop.coprime_dvd_left (Nat.dvd_lcm_left _ _)).mul_left
      (hcop.coprime_dvd_left (Nat.dvd_lcm_right _ _))⟩

theorem validateBlumFactors_ok {sk : PrivateKey} (hsk : sk.IsBlum) :
    validateBlumFactors sk.p sk.q = .ok () := by
  have hp := hsk.p_mod
  have hq := hsk.q_mod
  rw [validateBlumFactors, rejectIf, if_neg (by omega), ok_bind, rejectIf, if_neg hsk.ne, ok_bind,
    rejectIf_eq_ok]
  omega

namespace PrivateKey.IsBlum

variable {sk : PrivateKey} (hsk : sk.IsBlum)
include hsk

theorem one_lt : 1 < sk.n := (validate_eq_ok.mp hsk.public_valid).2.2.2.1

theorem p_dvd : sk.p ∣ sk.n := ⟨sk.q, hsk.n_eq⟩

theorem q_dvd : sk.q ∣ sk.n := ⟨sk.p, by rw [hsk.n_eq, mul_comm]⟩

theorem gcd_p {x : ℕ} (hx : x.Coprime sk.n) : (x : ℤ).gcd sk.p = 1 := by
  rw [Int.gcd_natCast_natCast]
  exact hx.coprime_dvd_right hsk.p_dvd

theorem gcd_q {x : ℕ} (hx : x.Coprime sk.n) : (x : ℤ).gcd sk.q = 1 := by
  rw [Int.gcd_natCast_natCast]
  exact hx.coprime_dvd_right hsk.q_dvd

theorem phi_pos : 0 < paillierPhi sk :=
  Nat.mul_pos (Nat.sub_pos_of_lt hsk.prime_p.one_lt) (Nat.sub_pos_of_lt hsk.prime_q.one_lt)

theorem phi_lt : paillierPhi sk < sk.n := by
  rw [paillierPhi, hsk.n_eq]
  exact Nat.mul_lt_mul'' (Nat.sub_lt hsk.prime_p.pos one_pos) (Nat.sub_lt hsk.prime_q.pos one_pos)

theorem totient_eq : sk.n.totient = paillierPhi sk := by
  rw [hsk.n_eq, Nat.totient_mul ((Nat.coprime_primes hsk.prime_p hsk.prime_q).mpr hsk.ne),
    Nat.totient_prime hsk.prime_p, Nat.totient_prime hsk.prime_q, paillierPhi]

/-- The modulus is invertible modulo the order of the units. -/
theorem exists_invN : ∃ invN, modInverse (sk.n % paillierPhi sk) (paillierPhi sk) = some invN ∧
    invN < paillierPhi sk ∧ invN * sk.n ≡ 1 [MOD sk.n.totient] := by
  have hmod : (sk.n % paillierPhi sk).Coprime (paillierPhi sk) := by
    rw [Nat.Coprime, ← Nat.gcd_rec]
    exact hsk.coprime
  obtain ⟨invN, hinv, hlt, hone⟩ := modInverse_spec hsk.phi_pos hmod
  refine ⟨invN, hinv, hlt, ?_⟩
  rw [hsk.totient_eq, ← ZMod.natCast_eq_natCast_iff]
  push_cast
  rw [ZMod.natCast_mod] at hone
  rw [mul_comm]
  exact hone

/-! ### One round -/

theorem isQuadraticResidueComposite_iff {w y : ℕ} (hw : w.Coprime sk.n) (hy : y.Coprime sk.n)
    (hlt : y < sk.n) (a b : Bool) :
    isQuadraticResidueComposite (adjustChallenge sk.n w y a b) sk.p sk.q = true ↔
      Blum.IsAdjustment sk.p sk.q w y a b := by
  have hgcdp := Blum.gcd_adjusted (hsk.gcd_p hw) (hsk.gcd_p hy) a b
  have hgcdq := Blum.gcd_adjusted (hsk.gcd_q hw) (hsk.gcd_q hy) a b
  rw [isQuadraticResidueComposite, decide_eq_true_eq, Blum.IsAdjustment,
    Blum.isSquare_iff_jacobiSym hsk.prime_p hgcdp, Blum.isSquare_iff_jacobiSym hsk.prime_q hgcdq,
    Int.natCast_mod, Int.natCast_mod, ← jacobiSym.mod_left, ← jacobiSym.mod_left,
    adjustChallenge_eq hlt, Blum.jacobiSym_emod_of_dvd hsk.p_dvd,
    Blum.jacobiSym_emod_of_dvd hsk.q_dvd]

/-- The root that is computed of a square modulo both factors. -/
theorem fourthRootBlum_ok {t : ℕ} (hlt : t < sk.n)
    (ht : isQuadraticResidueComposite t sk.p sk.q = true) :
    ∃ x, fourthRootBlum sk (paillierPhi sk) t = .ok x ∧ x < sk.n ∧ expMod x 4 sk.n = t := by
  have hn : 0 < sk.n := hsk.one_lt.le
  rw [isQuadraticResidueComposite, decide_eq_true_eq, Int.natCast_mod, Int.natCast_mod,
    ← jacobiSym.mod_left, ← jacobiSym.mod_left] at ht
  have hexp : Blum.rootExponent sk.p sk.q * Blum.rootExponent sk.p sk.q <
      256 ^ (2 * modulusBytes sk.n) := by
    have hroot : Blum.rootExponent sk.p sk.q < 256 ^ modulusBytes sk.n := by
      have := hsk.phi_lt
      have := lt_pow_modulusBytes sk.n
      rw [paillierPhi] at *
      rw [Blum.rootExponent]
      omega
    rw [two_mul, pow_add]
    exact Nat.mul_lt_mul'' hroot hroot
  refine ⟨_, expSecretMod_ok _ hn (Nat.mul_pos two_pos (modulusBytes_pos hn)) hexp,
    expMod_lt hn _ _, ?_⟩
  have hroot := Blum.fourthRoot_modEq hsk.prime_p hsk.prime_q hsk.p_mod hsk.q_mod hsk.ne ht.1 ht.2
  rw [← hsk.n_eq] at hroot
  rw [expMod_eq, expMod_eq, Nat.mod_eq_of_lt hlt, ← Nat.pow_mod]
  exact Nat.mod_eq_of_modEq hroot hlt

/-- The loop stops at the adjustment, when it is the only one. -/
theorem tryFourthRoots_ok {w y : ℕ} (hw : w.Coprime sk.n) (hy : y.Coprime sk.n) (hlt : y < sk.n)
    {a b : Bool} (hab : Blum.IsAdjustment sk.p sk.q w y a b)
    (hunique : ∀ a' b', Blum.IsAdjustment sk.p sk.q w y a' b' → a' = a ∧ b' = b)
    {pairs : List (Bool × Bool)} (hmem : (a, b) ∈ pairs) :
    ∃ x, tryFourthRoots sk (paillierPhi sk) w y pairs = .ok (a, b, x) ∧ x < sk.n ∧
      expMod x 4 sk.n = adjustChallenge sk.n w y a b := by
  induction pairs with
  | nil => cases hmem
  | cons pair rest ih =>
    obtain ⟨a', b'⟩ := pair
    by_cases hqr : isQuadraticResidueComposite (adjustChallenge sk.n w y a' b') sk.p sk.q = true
    · obtain ⟨rfl, rfl⟩ := hunique a' b' ((hsk.isQuadraticResidueComposite_iff hw hy hlt a' b').mp hqr)
      obtain ⟨x, hx, hxlt, hpow⟩ :=
        hsk.fourthRootBlum_ok (adjustChallenge_lt hsk.one_lt.le hlt) hqr
      refine ⟨x, ?_, hxlt, hpow⟩
      simp only [tryFourthRoots, hqr, if_true, hx, ok_bind, hpow]
      rfl
    · have hne : (a, b) ≠ (a', b') := by
        intro heq
        obtain ⟨rfl, rfl⟩ := Prod.mk.inj heq
        exact hqr ((hsk.isQuadraticResidueComposite_iff hw hy hlt a b).mpr hab)
      obtain ⟨x, hx, hrest⟩ := ih ((List.mem_cons.mp hmem).resolve_left hne)
      refine ⟨x, ?_, hrest⟩
      rw [← hx, tryFourthRoots, if_neg hqr]

/-- Every unit has one adjustment, and the prover finds it with its fourth root. -/
theorem fourthRootForModulusProof_ok {w y : ℕ} (hw : w.Coprime sk.n)
    (hj : jacobiSym w sk.n = -1) (hy : y.Coprime sk.n) (hlt : y < sk.n) :
    ∃ a b x, Blum.IsAdjustment sk.p sk.q w y a b ∧
      (∀ a' b', Blum.IsAdjustment sk.p sk.q w y a' b' → a' = a ∧ b' = b) ∧
      fourthRootForModulusProof sk (paillierPhi sk) w y = .ok (a, b, x) ∧ x < sk.n ∧
      expMod x 4 sk.n = adjustChallenge sk.n w y a b := by
  rw [hsk.n_eq] at hj
  obtain ⟨a, b, hab, hunique⟩ := Blum.exists_adjustment hsk.prime_p hsk.prime_q hsk.p_mod hsk.q_mod
    hj (hsk.gcd_p hw) (hsk.gcd_q hw) (hsk.gcd_p hy) (hsk.gcd_q hy)
  have hmem : (a, b) ∈ [(false, false), (false, true), (true, false), (true, true)] := by
    cases a <;> cases b <;> decide
  obtain ⟨x, hx, hrest⟩ := hsk.tryFourthRoots_ok hw hy hlt hab hunique hmem
  exact ⟨a, b, x, hab, hunique, hx, hrest⟩

end PrivateKey.IsBlum

/-! ## The whole proof -/

/-- A key of the size that is encoded. -/
theorem exists_marshal_of_bitLen {pk : PublicKey} (hpk : pk.validate = .ok ())
    (hbits : bitLen pk.n ≤ 8192) :
    ∃ raw, publicKeyCodec.marshal ProtocolLimits.default pk = .ok raw := by
  have hn := validate_eq_ok.mp hpk
  -- the generator is one more than the modulus, which is no power of two less one
  have hg : bitLen pk.g ≤ 8192 := by
    by_contra hlt
    have hpow := lt_bitLen.mp (Nat.lt_of_not_le hlt)
    have hne : ¬ 2 ^ 8192 ≤ pk.n := fun h => absurd (lt_bitLen.mpr h) (Nat.not_lt.mpr hbits)
    have heq : pk.n + 1 = 4 * 2 ^ 8190 := by
      rw [hn.2.2.2.2.2] at hpow
      rw [show 4 * 2 ^ 8190 = 2 ^ 8192 by rw [show 8192 = 2 + 8190 from rfl, pow_add]; norm_num]
      omega
    omega
  exact exists_marshal_publicKey hpk (by simpa [ProtocolLimits.default] using hg) (by omega)

/-- A proof that is put together from fixed-width units has the shape the verifier asks for. -/
theorem validate_assembleModulusProof {w transcript : Bytes} (hw : w ≠ [])
    (htranscript : transcript.length = sha256Size) {g : ℕ → ModulusAnswer} {n : ℕ} (hn : 0 < n)
    (hg : ∀ i < modulusProofRounds, isFixedUnit (g i).x n = true ∧ isFixedUnit (g i).z n = true) :
    (assembleModulusProof w transcript ((List.range modulusProofRounds).map g)).validate =
      .ok () := by
  have hne : ∀ {raw : Bytes}, isFixedUnit raw n = true → raw ≠ [] := by
    rintro raw hraw rfl
    rw [isFixedUnit, decide_eq_true_eq] at hraw
    exact (modulusBytes_pos hn).ne hraw.1
  have hbit : ∀ b : Bool, b.toUInt8 = 0 ∨ b.toUInt8 = 1 := by decide
  rw [ModulusProof.validate, rejectIf, if_neg (by simp [assembleModulusProof, hw, htranscript]),
    ok_bind, rejectIf, if_neg (by simp [assembleModulusProof]), ok_bind, forM_eq_ok]
  intro i hi
  rw [List.mem_range] at hi
  obtain ⟨hx, hz⟩ := hg i hi
  simp only [validateModulusRound, assembleModulusProof, List.map_map, List.getElem?_map, List.getElem?_range hi,
    Option.map_some, Function.comp, Option.some.injEq, ne_eq, bind_eq_ok, exists_const,
    rejectIf_eq_ok]
  refine ⟨?_, ?_, ?_⟩
  · exact not_or.mpr ⟨hne hx, hne hz⟩
  · exact fun h => (hbit (g i).a).elim h.1 h.2
  · exact fun h => (hbit (g i).b).elim h.1 h.2

section Proof

variable [Sha256]

/-- A challenge is a unit, unless the counter runs out. -/
theorem deriveModulusY_cases {n : ℕ} (hn : 1 < n) (hodd : n % 2 = 1) (transcript : Bytes) {i : ℕ}
    (hi : i < 2 ^ 32) :
    (∃ y, deriveModulusY n transcript i = .ok y ∧ isZNStar y n = true) ∨
      deriveModulusY n transcript i = .error challengeExhausted := by
  have hspace : n ≤ 2 ^ (8 * modulusBytes n) := by
    rw [pow_mul]
    exact (lt_pow_modulusBytes n).le
  have hquotient : 2 ^ (8 * modulusBytes n) / n ≠ 0 := (Nat.div_pos hspace (by omega)).ne'
  have hlimit : modulusRejectionLimit n (modulusBytes n) =
      .ok (2 ^ (8 * modulusBytes n) / n * n) := by
    have hpos := modulusBytes_pos (show 0 < n by omega)
    rw [modulusRejectionLimit, rejectIf, if_neg (by omega), ok_bind, rejectIf,
      if_neg (by omega), ok_bind, rejectIf, if_neg hquotient, ok_bind]
    rfl
  rw [deriveModulusY, rejectIf, if_neg (by omega), ok_bind, rejectIf, if_neg (by omega), ok_bind]
  simp only [hlimit, ok_bind]
  generalize hfind : List.findSome? _ _ = found
  cases found with
  | none => exact .inr rfl
  | some y =>
    obtain ⟨counter, -, hcandidate⟩ := List.exists_of_findSome?_eq_some hfind
    rw [reduceUniformModulusCandidate] at hcandidate
    split at hcandidate
    · cases hcandidate
    · rename_i hok
      cases hcandidate
      rw [not_or, not_or, Bool.not_eq_false] at hok
      exact .inl ⟨_, rfl, hok.2.2⟩

/-- The answer satisfies the equations of the verifier. -/
structure ModulusAnswer.Correct (n w y : ℕ) (answer : ModulusAnswer) : Prop where
  x_unit : isFixedUnit answer.x n = true
  z_unit : isFixedUnit answer.z n = true
  z_pow : expMod (beNat answer.z) n n = y
  x_pow : expMod (beNat answer.x) 4 n = adjustChallenge n w y answer.a answer.b

variable {sk : PrivateKey} {w : ℕ}

theorem answerModulusRound_ok (hsk : sk.IsBlum) (hw : w.Coprime sk.n) (hj : jacobiSym w sk.n = -1)
    {invN : ℕ} (hlt : invN < paillierPhi sk) (hinv : invN * sk.n ≡ 1 [MOD sk.n.totient])
    {transcript : Bytes} {i y : ℕ} (hy : deriveModulusY sk.n transcript i = .ok y)
    (hstar : isZNStar y sk.n = true) :
    ∃ answer, answerModulusRound sk (paillierPhi sk) invN w transcript i = .ok answer ∧
      answer.Correct sk.n w y := by
  obtain ⟨-, hylt, hycop⟩ := isZNStar_eq_true.mp hstar
  have hn : 0 < sk.n := hsk.one_lt.le
  have hwidth := lt_pow_modulusBytes sk.n
  have hlen := modulusBytes_pos hn
  obtain ⟨a, b, x, -, -, hx, hxlt, hxpow⟩ := hsk.fourthRootForModulusProof_ok hw hj hycop hylt
  have hz := expSecretMod_ok y hn hlen ((hlt.trans hsk.phi_lt).trans hwidth)
  rw [Nat.mod_eq_of_lt hylt] at hz
  have hzlt := expMod_lt hn y invN
  have hzpow : expMod (expMod y invN sk.n) sk.n sk.n = y := by
    rw [expMod_eq, expMod_eq, ← Nat.pow_mod]
    exact Nat.mod_eq_of_modEq (Blum.pow_mul_modEq hycop hinv) hylt
  -- a root of a unit is a unit
  have hunit : ∀ {v k t : ℕ}, v < sk.n → k ≠ 0 → t.Coprime sk.n → expMod v k sk.n = t →
      isZNStar v sk.n = true := by
    intro v k t hvlt hk ht hpow
    have hcop : v.Coprime sk.n := by
      rw [← hpow, expMod_eq, Nat.Coprime, ← Nat.gcd_rec, Nat.gcd_comm] at ht
      exact (Nat.coprime_pow_left_iff (Nat.pos_of_ne_zero hk) v sk.n).mp ht
    exact isZNStar_eq_true.mpr ⟨pos_of_coprime hsk.one_lt hcop, hvlt, hcop⟩
  have htcop : (adjustChallenge sk.n w y a b).Coprime sk.n := by
    have hgcd := Blum.gcd_adjusted (w := w) (y := y) (by rwa [Int.gcd_natCast_natCast])
      (by rwa [Int.gcd_natCast_natCast]) a b
    rw [← Int.gcd_emod, ← adjustChallenge_eq hylt, Int.gcd_natCast_natCast] at hgcd
    exact hgcd
  obtain ⟨hxunit, hxback⟩ := isFixedUnit_beBytes (hunit hxlt four_ne_zero htcop hxpow)
  obtain ⟨hzunit, hzback⟩ := isFixedUnit_beBytes (hunit hzlt hn.ne' hycop hzpow)
  refine ⟨⟨beBytes (modulusBytes sk.n) x, beBytes (modulusBytes sk.n) (expMod y invN sk.n), a, b⟩,
    ?_, hxunit, hzunit, by rw [hzback, hzpow], by rw [hxback, hxpow]⟩
  simp only [answerModulusRound, hy, hz, hx, mapError_ok, ok_bind,
    fixedEncodeStrict_ok hlen (hxlt.trans hwidth), fixedEncodeStrict_ok hlen (hzlt.trans hwidth)]
  rfl

/-- Correct answers to all challenges are accepted. -/
theorem verify_assembleModulusProof {pk : PublicKey} (hpk : pk.validate = .ok ()) {raw : Bytes}
    (hraw : publicKeyCodec.marshal ProtocolLimits.default pk = .ok raw) {domain wBytes : Bytes}
    (hunit : isFixedUnit wBytes pk.n = true) (hj : jacobiSym (beNat wBytes) pk.n = -1)
    {party : PartyID} {transcript : Bytes}
    (htranscript : modulusTranscript domain party raw wBytes = transcript) {y : ℕ → ℕ}
    {g : ℕ → ModulusAnswer}
    (hg : ∀ i < modulusProofRounds, deriveModulusY pk.n transcript i = .ok (y i) ∧
      (g i).Correct pk.n (beNat wBytes) (y i)) :
    verifyModulus domain pk party
      (assembleModulusProof wBytes transcript ((List.range modulusProofRounds).map g)) = true := by
  have hn := validate_eq_ok.mp hpk
  have hnonempty : wBytes ≠ [] := by
    rintro rfl
    rw [isFixedUnit, decide_eq_true_eq] at hunit
    exact (modulusBytes_pos (n_pos hpk)).ne hunit.1
  have hlength : transcript.length = sha256Size := by
    rw [← htranscript]
    exact length_sha256 _
  have hvalidate := validate_assembleModulusProof hnonempty hlength (n_pos hpk)
    fun i hi => ⟨(hg i hi).2.x_unit, (hg i hi).2.z_unit⟩
  have hbit : ∀ b : Bool, decide (b.toUInt8 = 1) = b := by decide
  have hrounds : (List.range modulusProofRounds).all (checkModulusRound pk.n (beNat wBytes)
      transcript (assembleModulusProof wBytes transcript
        ((List.range modulusProofRounds).map g))) = true := by
    rw [List.all_eq_true]
    intro i hi
    obtain ⟨hy, hcorrect⟩ := hg i (List.mem_range.mp hi)
    simp only [checkModulusRound, assembleModulusProof, List.map_map, List.getElem?_map,
      List.getElem?_range (List.mem_range.mp hi), Option.map_some, Function.comp, hy,
      hcorrect.x_unit, hcorrect.z_unit, hcorrect.z_pow, hcorrect.x_pow, hbit, Bool.and_self,
      decide_true]
  have hcomposite : ¬ (pk.n.Prime ∨ pk.n % 2 = 0) := by
    rw [not_or]
    exact ⟨hn.2.2.1, by omega⟩
  have hw : (assembleModulusProof wBytes transcript
      ((List.range modulusProofRounds).map g)).w = wBytes := rfl
  have hhash : (assembleModulusProof wBytes transcript
      ((List.range modulusProofRounds).map g)).transcriptHash = transcript := rfl
  simp only [verifyModulus, hvalidate, hpk, hraw, hw, hhash, htranscript, hunit, hj, hrounds,
    decide_eq_false hcomposite, decide_true]
  rfl

/-- The prover returns a proof that is accepted, unless a challenge cannot be derived. -/
theorem finalizeModulus_cases (hsk : sk.validate = .ok ()) (hp : sk.p % 4 = 3) (hq : sk.q % 4 = 3)
    (hbits : bitLen sk.n ≤ 8192) (domain : Bytes) (party : PartyID) {wBytes : Bytes}
    (hunit : isFixedUnit wBytes sk.n = true) (hj : jacobiSym (beNat wBytes) sk.n = -1) :
    (∃ proof, finalizeModulus domain sk party wBytes = .ok proof ∧
        verifyModulus domain sk.toPublicKey party proof = true) ∨
      finalizeModulus domain sk party wBytes = .error challengeExhausted := by
  have hblum := PrivateKey.isBlum_of_validate hsk hp hq
  have hpk := hblum.public_valid
  have hfacts := validate_eq_ok.mp hpk
  have hunit' := hunit
  rw [isFixedUnit, decide_eq_true_eq, isZNStar_eq_true] at hunit'
  obtain ⟨hlength, -, -, hwcop⟩ := hunit'
  obtain ⟨raw, hraw⟩ := exists_marshal_of_bitLen hpk hbits
  obtain ⟨invN, hinv, hinvlt, hinvmod⟩ := hblum.exists_invN
  generalize htranscript : modulusTranscript domain party raw wBytes = transcript
  have hrounds : finalizeModulus domain sk party wBytes =
      ((List.range modulusProofRounds).mapM
        (answerModulusRound sk (paillierPhi sk) invN (beNat wBytes) transcript)).map
          (assembleModulusProof wBytes transcript) := by
    simp only [finalizeModulus, hsk, liftText_ok, ok_bind, validateBlumFactors_ok hblum, hraw, hinv,
      rejectIf, hunit,
      hj, htranscript]
    rfl
  have hround : ∀ i < modulusProofRounds,
      (∃ y, deriveModulusY sk.n transcript i = .ok y ∧ isZNStar y sk.n = true) ∨
        deriveModulusY sk.n transcript i = .error challengeExhausted := by
    intro i hi
    rw [modulusProofRounds] at hi
    exact deriveModulusY_cases hblum.one_lt (by omega) transcript (by omega)
  by_cases hall : ∀ i < modulusProofRounds,
      ∃ y, deriveModulusY sk.n transcript i = .ok y ∧ isZNStar y sk.n = true
  · left
    have hanswers : ∀ i, ∃ y answer, i < modulusProofRounds →
        deriveModulusY sk.n transcript i = .ok y ∧
          answerModulusRound sk (paillierPhi sk) invN (beNat wBytes) transcript i = .ok answer ∧
          answer.Correct sk.n (beNat wBytes) y := by
      intro i
      by_cases hi : i < modulusProofRounds
      · obtain ⟨y, hy, hstar⟩ := hall i hi
        obtain ⟨answer, hanswer⟩ := answerModulusRound_ok hblum hwcop hj hinvlt hinvmod hy hstar
        exact ⟨y, answer, fun _ => ⟨hy, hanswer⟩⟩
      · exact ⟨0, ⟨[], [], false, false⟩, fun h => absurd h hi⟩
    choose y g hg using hanswers
    rw [mapM_of_ok (g := g) fun i hi => (hg i (List.mem_range.mp hi)).2.1] at hrounds
    exact ⟨_, hrounds, verify_assembleModulusProof hpk hraw hunit hj htranscript
      fun i hi => ⟨(hg i hi).1, (hg i hi).2.2⟩⟩
  · right
    rw [hrounds]
    cases hmapM : (List.range modulusProofRounds).mapM
      (answerModulusRound sk (paillierPhi sk) invN (beNat wBytes) transcript) with
    | ok answers =>
      exfalso
      apply hall
      intro i hi
      obtain ⟨answer, -, hanswer⟩ := mapM_ok_mem hmapM i (List.mem_range.mpr hi)
      obtain hy | herr := hround i hi
      · exact hy
      · rw [answerModulusRound, herr] at hanswer
        cases hanswer
    | error e =>
      obtain ⟨i, hi, hfail⟩ := mapM_eq_error hmapM
      obtain ⟨y, hy, hstar⟩ | herr := hround i (List.mem_range.mp hi)
      · obtain ⟨answer, hanswer, -⟩ := answerModulusRound_ok hblum hwcop hj hinvlt hinvmod hy hstar
        rw [hanswer] at hfail
        cases hfail
      · rw [answerModulusRound, herr] at hfail
        cases hfail
        rfl

end Proof

/-- The key of the primes 7 and 11. -/
def PrivateKey.sevenEleven : PrivateKey :=
  { n := 77, g := 78, nSquared := 5929, lambda := 30, mu := 18, p := 7, q := 11 }

/-- A key above the default limit is not encoded. -/
theorem marshal_oversized {pk : PublicKey} (hpk : pk.validate = .ok ())
    (hbits : 8192 < bitLen pk.n) : ∃ format args inner,
      publicKeyCodec.marshal ProtocolLimits.default pk = .error (.wrap format args inner) := by
  have hcheck : FieldCodec.checkBits (some FieldLimit.paillierModulusBits) (1, "N")
      ProtocolLimits.default (bitLen (pk.n : ℤ).natAbs) =
        .error (.errorf ("field " ++ "N" ++ ": bit length %d exceeds max_bits=%d")
          [.num (bitLen pk.n), .int 8192]) := by
    rw [Int.natAbs_natCast]
    exact if_pos (show (8192 : ℤ) < (bitLen pk.n : ℕ) by exact_mod_cast hbits)
  have hvalid : publicKeyCodec.validate pk = .ok () := liftText_eq_ok.mpr hpk
  refine ⟨"wire " ++ publicKeyCodec.goName ++ " field " ++ "N" ++ " tag %d: %w", [.num 1],
    .errorf ("field " ++ "N" ++ ": bit length %d exceeds max_bits=%d")
      [.num (bitLen pk.n), .int 8192], ?_⟩
  rw [MessageCodec.marshal, hvalid, mapError_ok, ok_bind]
  show (((FieldCodec.checkBits (some FieldLimit.paillierModulusBits) (1, "N")
    ProtocolLimits.default (bitLen (pk.n : ℤ).natAbs) >>= _).mapError _ >>= _) >>= _) >>= _ = _
  rw [hcheck]
  rfl

/-- A key made of two primes. -/
theorem exists_validate_of_primes {p q : ℕ} (hp : p.Prime) (hq : q.Prime) (hp3 : 3 < p)
    (hpq : p < q) (hp4 : p % 4 = 3) (hq4 : q % 4 = 3) (hdvd : ¬ p ∣ q - 1) :
    ∃ sk : PrivateKey, sk.validate = .ok () ∧ sk.p = p ∧ sk.q = q ∧ sk.n = p * q := by
  have hcop : ((p - 1).lcm (q - 1)).Coprime (p * q) := by
    have hside : ∀ {r : ℕ}, r.Prime → ¬ r ∣ p - 1 → ¬ r ∣ q - 1 →
        ((p - 1).lcm (q - 1)).Coprime r := by
      intro r hr hrp hrq
      rw [Nat.coprime_comm, hr.coprime_iff_not_dvd]
      intro hlcm
      exact (hr.dvd_mul.mp (hlcm.trans (Nat.lcm_dvd_mul _ _))).elim hrp hrq
    have hself : ∀ {r : ℕ}, 1 < r → ¬ r ∣ r - 1 := by
      intro r hr h
      have := Nat.le_of_dvd (by omega) h
      omega
    have hqp : ¬ q ∣ p - 1 := by
      intro h
      have := Nat.le_of_dvd (by omega) h
      omega
    exact (hside hp (hself hp.one_lt) hdvd).mul_right (hside hq hqp (hself hq.one_lt))
  obtain ⟨mu, hmu, -, -⟩ := modInverse_spec (Nat.mul_pos hp.pos hq.pos) hcop
  refine ⟨⟨⟨p * q, p * q + 1, p * q * (p * q)⟩, (p - 1).lcm (q - 1), mu, p, q⟩, ?_, rfl, rfl, rfl⟩
  have hthree : p * q % 3 ≠ 0 := by
    intro h
    rcases Nat.prime_three.dvd_mul.mp (Nat.dvd_of_mod_eq_zero h) with h | h
    · have := (Nat.prime_dvd_prime_iff_eq Nat.prime_three hp).mp h
      omega
    · have := (Nat.prime_dvd_prime_iff_eq Nat.prime_three hq).mp h
      omega
  have hpublic : PublicKey.validate ⟨p * q, p * q + 1, p * q * (p * q)⟩ = .ok () := by
    refine validate_eq_ok.mpr ⟨?_, hthree, Nat.not_prime_mul hp.ne_one hq.ne_one, ?_, rfl, rfl⟩
    · show p * q % 4 = 1
      rw [Nat.mul_mod, hp4, hq4]
    · show 1 < p * q
      nlinarith
  simp only [PrivateKey.validate, hpublic, ok_bind, hmu, bind_eq_ok, exists_const, rejectIf_eq_ok,
    not_or, not_not, ne_eq]
  exact ⟨hp.ne_zero, hq.ne_zero, hpq.ne, trivial, ⟨hp, hq⟩, trivial, trivial⟩

/-- There are valid keys of any size with Blum factors. -/
theorem exists_blumKey (k : ℕ) : ∃ sk : PrivateKey, sk.validate = .ok () ∧ sk.p % 4 = 3 ∧
    sk.q % 4 = 3 ∧ k < bitLen sk.n := by
  obtain ⟨p, hlarge, hp, hp4⟩ :=
    Nat.forall_exists_prime_gt_and_modEq (2 ^ k + 3) (q := 4) (a := 3) (by decide) (by decide)
  have hp3 : 3 < p := by
    have := Nat.two_pow_pos k
    omega
  -- the second factor is `-1` modulo the first, so that neither divides the other's predecessor
  obtain ⟨q, hpq, hq, hqmod⟩ := Nat.forall_exists_prime_gt_and_modEq p (q := 4 * p)
    (a := 4 * p - 1) (by omega) ((Nat.coprime_self_sub_left (by omega)).mpr (Nat.coprime_one_left _))
  obtain ⟨c, hc⟩ : 4 * p ∣ q + 1 := by
    have hzero := hqmod.add_right 1
    rw [Nat.sub_add_cancel (by omega)] at hzero
    exact (Nat.modEq_zero_iff_dvd.mp (hzero.trans (Nat.modEq_zero_iff_dvd.mpr dvd_rfl)))
  have hp4' : p % 4 = 3 := hp4
  have hq4 : q % 4 = 3 := by
    rw [mul_assoc] at hc
    omega
  have hdvd : ¬ p ∣ q - 1 := by
    intro h
    have hsum : p ∣ q + 1 := ⟨4 * c, by rw [hc]; ring⟩
    have htwo := Nat.dvd_sub hsum h
    rw [show q + 1 - (q - 1) = 2 by omega] at htwo
    have := Nat.le_of_dvd two_pos htwo
    omega
  obtain ⟨sk, hvalid, hskp, hskq, hskn⟩ :=
    exists_validate_of_primes hp hq hp3 hpq hp4' hq4 hdvd
  refine ⟨sk, hvalid, by rw [hskp, hp4'], by rw [hskq, hq4], lt_bitLen.mpr ?_⟩
  rw [hskn]
  nlinarith [hq.pos]

/-- The first message of a Blum modulus exists. -/
theorem PrivateKey.IsBlum.exists_commitment {sk : PrivateKey} (hsk : sk.IsBlum) :
    ∃ w : Bytes, isFixedUnit w sk.n = true ∧ jacobiSym (beNat w) sk.n = -1 := by
  -- a square modulo one factor only: one modulo `p` and minus one modulo `q`
  obtain ⟨v, hvp, hvq⟩ := Nat.chineseRemainder
    ((Nat.coprime_primes hsk.prime_p hsk.prime_q).mpr hsk.ne) 1 (sk.q - 1)
  have hp : jacobiSym v sk.p = 1 := by
    rw [jacobiSym.mod_left' (Int.natCast_modEq_iff.mpr hvp), Nat.cast_one, jacobiSym.one_left]
  have hq : jacobiSym v sk.q = -1 := by
    have hneg : (v : ℤ) ≡ -1 [ZMOD sk.q] := by
      apply (Int.natCast_modEq_iff.mpr hvq).trans
      rw [Int.modEq_iff_dvd, Nat.cast_sub hsk.prime_q.one_le]
      exact ⟨-1, by ring⟩
    rw [jacobiSym.mod_left' hneg, jacobiSym.at_neg_one (Nat.odd_iff.mpr (by have := hsk.q_mod; omega)),
      ZMod.χ₄_nat_three_mod_four hsk.q_mod]
  have hsymbol : jacobiSym ((v % sk.n : ℕ) : ℤ) sk.n = -1 := by
    rw [Int.natCast_mod, ← jacobiSym.mod_left, hsk.n_eq,
      jacobiSym.mul_right' _ hsk.prime_p.ne_zero hsk.prime_q.ne_zero, hp, hq, one_mul]
  have hcop : (v % sk.n).Coprime sk.n := by
    rw [Nat.Coprime, ← Int.gcd_natCast_natCast]
    by_contra hne
    have hzero := jacobiSym.eq_zero_iff.mpr ⟨(n_pos hsk.public_valid).ne', hne⟩
    rw [hsymbol] at hzero
    cases hzero
  obtain ⟨hunit, hback⟩ := isFixedUnit_beBytes (isZNStar_eq_true.mpr
    ⟨pos_of_coprime hsk.one_lt hcop, Nat.mod_lt v (n_pos hsk.public_valid), hcop⟩)
  exact ⟨_, hunit, by rw [hback, hsymbol]⟩

end Tss.Paillier
