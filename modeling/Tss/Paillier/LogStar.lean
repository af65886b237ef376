import Tss.Cggmp21.Challenge
import Tss.Paillier.Proofs
import Tss.Lib.Magnitude

/-!
# The proof of a ciphertext and a point with one logarithm (`internal/zk/paillier/logstar.go`)

`VerifyLogStar` is the check a receiver makes of an encrypted share.
`respondLogStar` is the part of the prover that computes the proof: it works for
every integer that opens the statement. An honest prover checks its witness with
`validateLogStarStatement` before; a dishonest one need not.
-/

namespace Tss.Paillier

open Secp256k1 Fallible Cggmp21

def SecurityParams.encRange (sp : SecurityParams) : ℕ :=
  boundedProofRange sp.ell (max sp.challengeBits sp.epsilon)

/-! ## Exponents with a sign -/

/-- `ExpSignedMod`. `ModInverse` leaves its receiver as it was when there is no inverse. -/
def expSignedMod (base : ℕ) (exp : ℤ) (modulus : ℕ) : Except GoError ℕ := do
  rejectIf (modulus = 0) (.new "invalid ExpSignedMod modulus")
  let b := if exp < 0 then (modInverse base modulus).getD base else base
  pure (expMod b exp.natAbs modulus)

def multiExpSignedMod (base1 : ℕ) (exp1 : ℤ) (base2 : ℕ) (exp2 : ℤ) (modulus : ℕ) :
    Except GoError ℕ := do
  rejectIf (modulus = 0) (.new "invalid MultiExpSignedMod modulus")
  let r1 ← (expSignedMod base1 exp1 modulus).mapError (.wrap "multi-exp first term: %w" [])
  let r2 ← (expSignedMod base2 exp2 modulus).mapError (.wrap "multi-exp second term: %w" [])
  pure (r1 * r2 % modulus)

def rpCommit (params : RingPedersenParams) (x mu : ℤ) : Except GoError ℕ := do
  liftText params.validate
  multiExpSignedMod params.s x params.t mu params.n

def requireZNStar (x n : ℕ) : Except GoError Unit :=
  rejectIf (isZNStar x n = false) (.new "value is not in Z*_N")

def encRandom (pk : PublicKey) (m : ℤ) (rho : ℕ) : Except GoError ℕ := do
  liftText pk.validate
  rejectIf (isZNStar rho pk.n = false) (.new "randomness is not in Z*_N")
  liftText (pk.encryptWithRandomness m rho)

def oMulPublic (pk : PublicKey) (k : ℤ) (c : ℕ) : Except GoError ℕ := do
  liftText pk.validate
  liftText (requireZN2Star c pk.n)
  let base := if k < 0 then (modInverse c pk.nSquared).getD c else c
  pure (expMod base k.natAbs pk.nSquared)

def inMultRange (x : ℤ) (n bits : ℕ) : Bool := 0 < n ∧ -(n * 2 ^ bits) ≤ x ∧ x ≤ n * 2 ^ bits

/-! ### Values -/

theorem isZNStar_eq_true {v n : ℕ} : isZNStar v n = true ↔ 0 < v ∧ v < n ∧ v.Coprime n := by
  simp [isZNStar, Nat.Coprime]

/-- A residue that is a unit is positive. -/
theorem pos_of_coprime {v n : ℕ} (hn : 1 < n) (h : v.Coprime n) : 0 < v := by
  by_contra hzero
  obtain rfl : v = 0 := by omega
  rw [Nat.coprime_zero_left] at h
  omega

/-- A residue that is a unit is in `Z*_N`. -/
theorem isZNStar_of_unit {v n : ℕ} (hn : 1 < n) (hlt : v < n) {u : (ZMod n)ˣ}
    (h : (v : ZMod n) = u) : isZNStar v n = true := by
  have hcoprime : v.Coprime n := (ZMod.isUnit_iff_coprime v n).mp (h ▸ u.isUnit)
  exact isZNStar_eq_true.mpr ⟨pos_of_coprime hn hcoprime, hlt, hcoprime⟩

theorem requireZN2Star_eq_ok {x n : ℕ} :
    requireZN2Star x n = .ok () ↔ 0 < x ∧ x < n * n ∧ x.Coprime (n * n) := by
  rw [requireZN2Star, rejectIf_eq_ok, not_not, Nat.Coprime]

/-- The same for a ciphertext. -/
theorem requireZN2Star_of_unit {v n : ℕ} (hn : 1 < n) (hlt : v < n ^ 2) {u : (ZMod (n ^ 2))ˣ}
    (h : (v : ZMod (n ^ 2)) = u) : requireZN2Star v n = .ok () := by
  have hcoprime : v.Coprime (n ^ 2) := (ZMod.isUnit_iff_coprime v _).mp (h ▸ u.isUnit)
  have hsq : 1 < n ^ 2 := Nat.one_lt_pow two_ne_zero hn
  rw [pow_two] at hlt hcoprime hsq
  exact requireZN2Star_eq_ok.mpr ⟨pos_of_coprime hsq hcoprime, hlt, hcoprime⟩

/-- The power of a unit by an exponent of either sign. -/
theorem expSignedMod_spec {base modulus : ℕ} (hm : 0 < modulus) {u : (ZMod modulus)ˣ}
    (hu : (base : ZMod modulus) = u) (exp : ℤ) :
    ∃ v, expSignedMod base exp modulus = .ok v ∧ v < modulus ∧
      (v : ZMod modulus) = ((u ^ exp : (ZMod modulus)ˣ) : ZMod modulus) := by
  refine ⟨_, by rw [expSignedMod, rejectIf, if_neg hm.ne', ok_bind]; rfl, expMod_lt hm _ _, ?_⟩
  rw [natCast_expMod]
  by_cases hneg : exp < 0
  · have hcoprime : base.Coprime modulus := (ZMod.isUnit_iff_coprime base modulus).mp (hu ▸ u.isUnit)
    obtain ⟨inv, hinv, -, hmul⟩ := modInverse_spec hm hcoprime
    have hunit : ((inv : ℕ) : ZMod modulus) = (u⁻¹ : (ZMod modulus)ˣ) := by
      rw [hu] at hmul
      exact (Units.inv_eq_of_mul_eq_one_right hmul).symm
    have habs : exp = -(exp.natAbs : ℤ) := by omega
    rw [if_pos hneg, hinv, Option.getD_some, hunit, ← Units.val_pow_eq_pow_val]
    conv_rhs => rw [habs, zpow_neg, zpow_natCast, ← inv_pow]
  · have habs : exp = (exp.natAbs : ℤ) := by omega
    rw [if_neg hneg, hu, ← Units.val_pow_eq_pow_val]
    conv_rhs => rw [habs, zpow_natCast]

/-- The multiple of a ciphertext is its power. -/
theorem oMulPublic_of_unit {pk : PublicKey} {c : ℕ} (hpk : pk.validate = .ok ())
    (hc : c < pk.n ^ 2) {u : (ZMod (pk.n ^ 2))ˣ} (hu : (c : ZMod (pk.n ^ 2)) = u) (k : ℤ) :
    ∃ v, oMulPublic pk k c = .ok v ∧ v < pk.n ^ 2 ∧
      (v : ZMod (pk.n ^ 2)) = ((u ^ k : (ZMod (pk.n ^ 2))ˣ) : ZMod (pk.n ^ 2)) := by
  have hpos : 0 < pk.n ^ 2 := pow_pos (n_pos hpk) 2
  obtain ⟨v, hv, hval⟩ := expSignedMod_spec hpos hu k
  rw [expSignedMod, rejectIf, if_neg hpos.ne', ok_bind] at hv
  refine ⟨v, ?_, hval⟩
  rw [oMulPublic, hpk, liftText_ok, ok_bind,
    requireZN2Star_of_unit (validate_eq_ok.mp hpk).2.2.2.1 hc hu, liftText_ok, ok_bind,
    nSquared_eq hpk]
  exact hv

namespace RingPedersenParams

theorem validate_spec {params : RingPedersenParams} (h : params.validate = .ok ()) :
    1 < params.n ∧ params.s.Coprime params.n ∧ params.t.Coprime params.n := by
  simp only [validate, bind_eq_ok, exists_const, rejectIf_eq_ok, not_or, not_not] at h
  obtain ⟨-, ⟨hs, hlt, -⟩, hscop, htcop, -⟩ := h
  exact ⟨by omega, hscop, htcop⟩

end RingPedersenParams

/-- A commitment is the product of the two powers. -/
theorem rpCommit_spec {params : RingPedersenParams} (h : params.validate = .ok ())
    {us ut : (ZMod params.n)ˣ} (hs : (params.s : ZMod params.n) = us)
    (ht : (params.t : ZMod params.n) = ut) (x mu : ℤ) :
    ∃ v, rpCommit params x mu = .ok v ∧ v < params.n ∧
      (v : ZMod params.n) = ((us ^ x * ut ^ mu : (ZMod params.n)ˣ) : ZMod params.n) := by
  have hpos : 0 < params.n := (RingPedersenParams.validate_spec h).1.le
  obtain ⟨r1, h1, -, hr1⟩ := expSignedMod_spec hpos hs x
  obtain ⟨r2, h2, -, hr2⟩ := expSignedMod_spec hpos ht mu
  refine ⟨r1 * r2 % params.n, ?_, Nat.mod_lt _ hpos, ?_⟩
  · rw [rpCommit, h, liftText_ok, ok_bind, multiExpSignedMod, rejectIf, if_neg hpos.ne', ok_bind,
      h1, h2]
    rfl
  · rw [ZMod.natCast_mod, Nat.cast_mul, hr1, hr2, Units.val_mul]

open PaillierGroup

/-- A checked encryption is an encryption. -/
theorem encRandom_eq_ok {pk : PublicKey} {m : ℤ} {rho c : ℕ} :
    encRandom pk m rho = .ok c ↔
      pk.validate = .ok () ∧ isZNStar rho pk.n = true ∧ pk.encryptWithRandomness m rho = .ok c := by
  simp only [encRandom, bind_eq_ok, liftText_eq_ok, rejectIf_eq_ok, Bool.not_eq_false,
    exists_const]
  constructor
  · rintro ⟨⟨⟩, h⟩
    exact h
  · intro h
    exact ⟨⟨⟩, h⟩

/-- The product of randomness modulo `N` may be reduced before the `N`-th power. -/
theorem unit_pow_mod {n : ℕ} {z w : ℕ} (hz : z.Coprime n) (hw : w.Coprime n) (h : z ≡ w [MOD n]) :
    ZMod.unitOfCoprime z (hz.pow_right 2) ^ n = ZMod.unitOfCoprime w (hw.pow_right 2) ^ n := by
  apply pow_eq_pow_of_dvd
  obtain ⟨k, hk⟩ := (Nat.modEq_iff_dvd.mp h.symm)
  refine ⟨(k : ZMod (n ^ 2)), ?_⟩
  rw [ZMod.coe_unitOfCoprime, ZMod.coe_unitOfCoprime]
  have hcast := congrArg (Int.cast : ℤ → ZMod (n ^ 2)) hk
  push_cast at hcast
  exact hcast

/-- A sum of ciphertexts is their product. -/
theorem oAdd_of_units {pk : PublicKey} {a b c : ℕ} (hpk : pk.validate = .ok ())
    (ha : a < pk.n ^ 2) (hb : b < pk.n ^ 2) (hc : c < pk.n ^ 2) {ua ub : (ZMod (pk.n ^ 2))ˣ}
    (hua : (a : ZMod (pk.n ^ 2)) = ua) (hub : (b : ZMod (pk.n ^ 2)) = ub)
    (hval : (c : ZMod (pk.n ^ 2)) = (ua * ub : (ZMod (pk.n ^ 2))ˣ)) : oAdd pk a b = .ok c := by
  have hn := (validate_eq_ok.mp hpk).2.2.2.1
  have hproduct : a * b % pk.n ^ 2 = c := by
    rw [← Nat.mod_eq_of_lt hc, ← ZMod.natCast_eq_natCast_iff', hval, Nat.cast_mul, hua, hub,
      Units.val_mul]
  rw [oAdd, hpk, ok_bind, requireZN2Star_of_unit hn ha hua, ok_bind,
    requireZN2Star_of_unit hn hb hub, ok_bind, nSquared_eq hpk, hproduct]
  rfl

/-- The response to a challenge opens the combination of the two ciphertexts. -/
theorem encrypt_response {pk : PublicKey} {x alpha : ℤ} {rho r c a e : ℕ} (hc : encRandom pk x rho = .ok c)
    (ha : encRandom pk alpha r = .ok a) :
    ∃ v w, oMulPublic pk e c = .ok v ∧ oAdd pk a v = .ok w ∧
      encRandom pk (e * x + alpha) (r * expMod rho e pk.n % pk.n) = .ok w := by
  obtain ⟨hpk, hrho, hc⟩ := encRandom_eq_ok.mp hc
  obtain ⟨-, hr, ha⟩ := encRandom_eq_ok.mp ha
  obtain ⟨-, -, hrho⟩ := isZNStar_eq_true.mp hrho
  obtain ⟨-, -, hr⟩ := isZNStar_eq_true.mp hr
  obtain ⟨hclt, hcval⟩ := encryptWithRandomness_val hc hrho
  obtain ⟨halt, haval⟩ := encryptWithRandomness_val ha hr
  have hn : 1 < pk.n := (validate_eq_ok.mp hpk).2.2.2.1
  -- the randomness of the response is reduced, which its `N`-th power does not see
  have hw : (r * rho ^ e).Coprime pk.n := hr.mul_left (hrho.pow_left e)
  have hmod : r * expMod rho e pk.n % pk.n ≡ r * rho ^ e [MOD pk.n] := by
    rw [expMod_eq]
    exact (Nat.mod_modEq _ _).trans ((Nat.mod_modEq _ _).mul_left r)
  have hz : (r * expMod rho e pk.n % pk.n).Coprime pk.n := hmod.gcd_eq.trans hw
  have hzstar : isZNStar (r * expMod rho e pk.n % pk.n) pk.n = true :=
    isZNStar_eq_true.mpr ⟨pos_of_coprime hn hz, Nat.mod_lt _ (by omega), hz⟩
  obtain ⟨d, hd⟩ := exists_encryptWithRandomness hpk (e * x + alpha) hz
  obtain ⟨hdlt, hdval⟩ := encryptWithRandomness_val hd hz
  obtain ⟨v, hv, hvlt, hvval⟩ := oMulPublic_of_unit hpk hclt hcval e
  refine ⟨v, d, hv, oAdd_of_units hpk halt hvlt hdlt haval hvval ?_,
    encRandom_eq_ok.mpr ⟨hpk, hzstar, hd⟩⟩
  rw [hdval, encrypt_zpow, encrypt_mul, add_comm alpha, encrypt, encrypt, unit_pow_mod hz hw hmod]
  congr 3
  apply Units.val_inj.mp
  rw [Units.val_mul, zpow_natCast, Units.val_pow_eq_pow_val, ZMod.coe_unitOfCoprime,
    ZMod.coe_unitOfCoprime, ZMod.coe_unitOfCoprime, Nat.cast_mul, Nat.cast_pow]

/-- The response to a challenge opens the combination of the two commitments. -/
theorem rpCommit_response {params : RingPedersenParams} (hparams : params.validate = .ok ())
    {x mask alpha gamma : ℤ} {s d : ℕ} (hs : rpCommit params x mask = .ok s)
    (hd : rpCommit params alpha gamma = .ok d) (e : ℕ) :
    isZNStar s params.n = true ∧ isZNStar d params.n = true ∧
      ∃ v, expSignedMod s e params.n = .ok v ∧
        rpCommit params (e * x + alpha) (e * mask + gamma) = .ok (d * v % params.n) := by
  obtain ⟨hn, hscop, htcop⟩ := RingPedersenParams.validate_spec hparams
  have hus := ZMod.coe_unitOfCoprime params.s hscop
  have hut := ZMod.coe_unitOfCoprime params.t htcop
  obtain ⟨s', hs', hslt, hsval⟩ := rpCommit_spec hparams hus.symm hut.symm x mask
  obtain ⟨d', hd', hdlt, hdval⟩ := rpCommit_spec hparams hus.symm hut.symm alpha gamma
  obtain rfl := Except.ok.inj (hs'.symm.trans hs)
  obtain rfl := Except.ok.inj (hd'.symm.trans hd)
  obtain ⟨v, hv, -, hvval⟩ := expSignedMod_spec (by omega) hsval (e : ℤ)
  obtain ⟨w, hw, hwlt, hwval⟩ :=
    rpCommit_spec hparams hus.symm hut.symm (e * x + alpha) (e * mask + gamma)
  refine ⟨isZNStar_of_unit hn hslt hsval, isZNStar_of_unit hn hdlt hdval, v, hv, ?_⟩
  rw [hw]
  congr 1
  have hval : (w : ZMod params.n) = ((d' * v % params.n : ℕ) : ZMod params.n) := by
    rw [hwval, ZMod.natCast_mod, Nat.cast_mul, hdval, hvval, ← Units.val_mul]
    congr 1
    rw [zpow_natCast, mul_pow, zpow_add, zpow_add, mul_comm (e : ℤ) x, mul_comm (e : ℤ) mask,
      zpow_mul, zpow_mul, zpow_natCast, zpow_natCast, mul_mul_mul_comm, mul_comm]
  have hmodval := (ZMod.natCast_eq_natCast_iff' _ _ _).mp hval
  rwa [Nat.mod_eq_of_lt hwlt, Nat.mod_mod] at hmodval

/-! ## The challenge -/

section Challenge

variable [Sha256] [Curve]

def paillierChallengeDerivationLabel : String :=
  "github.com/islishude/tss/internal/zk/paillier/challenge/v1"

def challengeCounterLimit : ℕ := 256

/-- `DeriveNonZeroBits`, of a root that is a digest. -/
def deriveNonZeroBits (domainLabel : String) (root : Bytes) (bits counterLimit : ℕ) :
    Except GoError ℕ :=
  match (List.range counterLimit).findSome? fun counter =>
      let value := beNat (challengeCandidate domainLabel root counter) % 2 ^ bits
      if value = 0 then none else some value with
  | some value => .ok value
  | none => .error (.sentinel .rejectionLimit)

def challengeSigned (t : Transcript.Builder) (bits : ℕ) : Except GoError ℕ := do
  rejectIf (bits = 0 ∨ 256 < bits) (.errorf "challenge bits must be in [1, 256], got %d" [.num bits])
  if bits = 256 then
    let challenge ← deriveCanonicalNonZeroSecp256k1 paillierChallengeDerivationLabel t.sum
      challengeCounterLimit
    pure challenge.val
  else
    deriveNonZeroBits paillierChallengeDerivationLabel t.sum bits challengeCounterLimit

end Challenge

/-! ## The proof -/

section Proof

variable [Curve]

structure LogStarStatement [Curve] where
  paillierN : PublicKey
  c : ℕ
  x : Point
  b : Point
  verifierAux : RingPedersenParams

structure LogStarProof [Curve] where
  s : ℕ
  a : ℕ
  y : Point
  d : ℕ
  z1 : ℤ
  z2 : ℕ
  z3 : ℤ
  transcriptHash : Bytes

def LogStarProof.validate (p : LogStarProof) : Except GoError Unit :=
  rejectIf (p.transcriptHash.length ≠ sha256Size) (.new "invalid LogStarProof transcript hash")

def appendSecurityParams (t : Transcript.Builder) (params : SecurityParams) : Transcript.Builder :=
  ((((t.appendUint32 "ell" (UInt32.ofNat params.ell)).appendUint32 "ell_prime"
    (UInt32.ofNat params.ellPrime)).appendUint32 "epsilon"
    (UInt32.ofNat params.epsilon)).appendUint32 "challenge_bits"
    (UInt32.ofNat params.challengeBits)).appendUint32 "min_paillier_bits"
    (UInt32.ofNat params.minPaillierBits)

def appendPoint (t : Transcript.Builder) (label : String) (P : Point) :
    Except GoError Transcript.Builder := do
  let b ← (liftText (pointBytes P)).mapError (.wrap ("transcript AppendPoint " ++ label ++ ": %w") [])
  pure (t.appendBytes label b)

def fixedModNBytes (x nLen : ℕ) : Except GoError Bytes := do
  rejectIf (nLen = 0) (.new "invalid fixed length")
  rejectIf (nLen < (natBytes x).length)
    (.errorf "integer encoding too long: got %d, want at most %d"
      [.num (natBytes x).length, .num nLen])
  pure (beBytes nLen x)

/-- The part of `buildLogStarTranscript` before the commitments. -/
def logStarStatementTranscript (params : SecurityParams) (state : Bytes) (stmt : LogStarStatement) :
    Except GoError Transcript.Builder := do
  let t := (Transcript.new "cggmp-paillier-zk").appendBytes "curve" (lit "secp256k1")
  let t := (t.appendBytes "proof" (lit "logstar")).appendUint16 "version" 1
  let t := (appendSecurityParams t params).appendBytes "state" state
  let t := t.appendBytes "paillier_N" (natBytes stmt.paillierN.n)
  let njLen := (bitLen stmt.verifierAux.n + 7) / 8
  let verifierN ← (fixedModNBytes stmt.verifierAux.n njLen).mapError
    (.wrap "LogStarProof transcript verifier N: %w" [])
  let verifierS ← (fixedModNBytes stmt.verifierAux.s njLen).mapError
    (.wrap "LogStarProof transcript verifier S: %w" [])
  let verifierT ← (fixedModNBytes stmt.verifierAux.t njLen).mapError
    (.wrap "LogStarProof transcript verifier T: %w" [])
  let t := ((t.appendBytes "verifier_N" verifierN).appendBytes "verifier_S" verifierS).appendBytes
    "verifier_T" verifierT
  let t := t.appendBytes "C" (natBytes stmt.c)
  let t ← if stmt.x = 0 then pure (t.appendBytes "X" []) else appendPoint t "X" stmt.x
  appendPoint t "B" stmt.b

def buildLogStarTranscript (params : SecurityParams) (state : Bytes) (stmt : LogStarStatement)
    (s a : ℕ) (y : Point) (d : ℕ) : Except GoError Transcript.Builder := do
  let t ← logStarStatementTranscript params state stmt
  let t := (t.appendBytes "S" (natBytes s)).appendBytes "A" (natBytes a)
  let t ← appendPoint t "Y" y
  pure (t.appendBytes "D" (natBytes d))

variable [Sha256]

/-- The checks of `VerifyLogStar` on the statement alone. -/
def validateLogStarPublic (params : SecurityParams) (stmt : LogStarStatement) :
    Except GoError Unit := do
  (liftText (stmt.verifierAux.validateForProof params)).mapError
    (.wrap "LogStarProof: invalid verifier aux: %w" [])
  (liftText (stmt.verifierAux.validateDistinct [stmt.paillierN])).mapError
    (.wrap "LogStarProof: invalid verifier aux: %w" [])
  liftText (params.checkPaillierModulus stmt.paillierN)
  (liftText (requireZN2Star stmt.c stmt.paillierN.n)).mapError
    (.wrap "LogStarProof: C not in Z*_N^2: %w" [])

/-- The checks of `VerifyLogStar` on the ranges of a proof's integers. -/
def checkLogStarRanges (params : SecurityParams) (stmt : LogStarStatement) (proof : LogStarProof) :
    Except GoError Unit := do
  (requireZNStar proof.s stmt.verifierAux.n).mapError (.wrap "LogStarProof: S not in Z*_Nj: %w" [])
  (liftText (requireZN2Star proof.a stmt.paillierN.n)).mapError
    (.wrap "LogStarProof: A not in Z*_N^2: %w" [])
  (requireZNStar proof.d stmt.verifierAux.n).mapError (.wrap "LogStarProof: D not in Z*_Nj: %w" [])
  (requireZNStar proof.z2 stmt.paillierN.n).mapError (.wrap "LogStarProof: z2 not in Z*_N: %w" [])
  rejectIf (inSignedPowerOfTwo proof.z1 (params.encRange + 1) = false)
    (.errorf "LogStarProof: z1 out of range ±2^%d" [.num (params.encRange + 1)])
  rejectIf (inMultRange proof.z3 stmt.verifierAux.n (params.encRange + 1) = false)
    (.new "LogStarProof: z3 out of range")

/-- The three equations of `VerifyLogStar`. -/
def checkLogStarEquations (stmt : LogStarStatement) (proof : LogStarProof) (e : ℕ) :
    Except GoError Unit := do
  let eMulC ← (oMulPublic stmt.paillierN e stmt.c).mapError (.wrap "LogStarProof: e ⊙ C: %w" [])
  let left1 ← (liftText (oAdd stmt.paillierN proof.a eMulC)).mapError
    (.wrap "LogStarProof: A ⊕ (e ⊙ C): %w" [])
  let encZ1 ← (encRandom stmt.paillierN proof.z1 proof.z2).mapError
    (.wrap "LogStarProof: Enc(z1; z2): %w" [])
  rejectIf (left1 ≠ encZ1) (.new "LogStarProof: equation 1 failed")
  rejectIf (scalarFromBigInt proof.z1 • stmt.b ≠ proof.y + scalarFromBigInt e • stmt.x)
    (.new "LogStarProof: equation 2 failed")
  let left3 ← (rpCommit stmt.verifierAux proof.z1 proof.z3).mapError
    (.wrap "LogStarProof: RP(z1,z3): %w" [])
  let se ← (expSignedMod proof.s e stmt.verifierAux.n).mapError (.wrap "LogStarProof: S^e: %w" [])
  rejectIf (left3 ≠ proof.d * se % stmt.verifierAux.n) (.new "LogStarProof: equation 3 failed")

def verifyLogStar (params : SecurityParams) (state : Bytes) (stmt : LogStarStatement)
    (proof : LogStarProof) : Except GoError Unit := do
  liftText params.validate
  proof.validate
  validateLogStarPublic params stmt
  checkLogStarRanges params stmt proof
  let t ← buildLogStarTranscript params state stmt proof.s proof.a proof.y proof.d
  rejectIf (t.sum ≠ proof.transcriptHash) (.new "LogStarProof: transcript hash mismatch")
  let e ← challengeSigned t params.challengeBits
  checkLogStarEquations stmt proof e

/-- What `ProveLogStar` samples. -/
structure LogStarCoins where
  alpha : ℤ
  r : ℕ
  mask : ℤ
  gamma : ℤ

/-- The commitments, the challenge and the responses of `proveLogStarOnce`. -/
def respondLogStar (params : SecurityParams) (state : Bytes) (stmt : LogStarStatement) (x : ℤ)
    (rho : ℕ) (coins : LogStarCoins) : Except GoError LogStarProof := do
  let s ← rpCommit stmt.verifierAux x coins.mask
  let a ← encRandom stmt.paillierN coins.alpha coins.r
  let y := scalarFromBigInt coins.alpha • stmt.b
  let d ← rpCommit stmt.verifierAux coins.alpha coins.gamma
  let t ← buildLogStarTranscript params state stmt s a y d
  let e ← challengeSigned t params.challengeBits
  pure {
    s, a, y, d
    z1 := e * x + coins.alpha
    z2 := coins.r * expMod rho e stmt.paillierN.n % stmt.paillierN.n
    z3 := e * coins.mask + coins.gamma
    transcriptHash := t.sum }

/-! ## A proof of an opening is accepted -/

/-- The integer and the randomness open the statement. -/
structure LogStarStatement.Opens (stmt : LogStarStatement) (x : ℤ) (rho : ℕ) : Prop where
  ciphertext : encRandom stmt.paillierN x rho = .ok stmt.c
  point : scalarFromBigInt x • stmt.b = stmt.x

/-- The proof of an integer that opens the statement is accepted, as long as its responses are
in range. Nothing is asked of the integer itself. -/
theorem verifyLogStar_of_opens {params : SecurityParams} {state : Bytes} {stmt : LogStarStatement}
    {x : ℤ} {rho : ℕ} {coins : LogStarCoins} {proof : LogStarProof}
    (hparams : params.validate = .ok ()) (hpublic : validateLogStarPublic params stmt = .ok ())
    (hopens : stmt.Opens x rho) (hproof : respondLogStar params state stmt x rho coins = .ok proof)
    (hz1 : inSignedPowerOfTwo proof.z1 (params.encRange + 1) = true)
    (hz3 : inMultRange proof.z3 stmt.verifierAux.n (params.encRange + 1) = true) :
    verifyLogStar params state stmt proof = .ok () := by
  obtain ⟨s, hs, hproof⟩ := bind_eq_ok.mp hproof
  obtain ⟨a, ha, hproof⟩ := bind_eq_ok.mp hproof
  obtain ⟨d, hd, hproof⟩ := bind_eq_ok.mp hproof
  obtain ⟨t, ht, hproof⟩ := bind_eq_ok.mp hproof
  obtain ⟨e, he, hproof⟩ := bind_eq_ok.mp hproof
  cases hproof
  have haux : stmt.verifierAux.validate = .ok () := by
    have h := mapError_eq_ok.mp (seq_eq_ok.mp hpublic).1
    exact (seq_eq_ok.mp (liftText_eq_ok.mp h)).1
  obtain ⟨hsstar, hdstar, v, hv, hresponse⟩ := rpCommit_response haux hs hd e
  obtain ⟨u, w, hu, hw, hz⟩ := encrypt_response (e := e) hopens.ciphertext ha
  obtain ⟨hpk, hr, henc⟩ := encRandom_eq_ok.mp ha
  obtain ⟨hsize, hval⟩ := encryptWithRandomness_val henc (isZNStar_eq_true.mp hr).2.2
  have hastar : requireZN2Star a stmt.paillierN.n = .ok () :=
    requireZN2Star_of_unit (validate_eq_ok.mp hpk).2.2.2.1 hsize hval
  have hz2 := (encRandom_eq_ok.mp hz).2.1
  have hpoint : scalarFromBigInt (e * x + coins.alpha) • stmt.b =
      scalarFromBigInt coins.alpha • stmt.b + scalarFromBigInt e • stmt.x := by
    rw [← hopens.point, smul_smul, ← add_smul]
    simp only [scalarFromBigInt_eq]
    push_cast
    rw [add_comm]
  dsimp only at hz1 hz3
  simp only [verifyLogStar, hparams, liftText_ok, ok_bind, LogStarProof.validate,
    Transcript.Builder.sum, length_sha256, hpublic, ne_eq, not_true_eq_false, rejectIf, if_false]
  simp only [checkLogStarRanges, requireZNStar, hsstar, hdstar, hastar, hz2, hz1, hz3, rejectIf,
    liftText_ok, mapError_ok, ok_bind, Bool.true_eq_false, if_false, ht, not_true_eq_false, he]
  simp only [checkLogStarEquations, hu, hw, hz, hv, hresponse, hpoint, rejectIf, liftText_ok,
    mapError_ok, ok_bind, ne_eq, not_true_eq_false, if_false]

/-! ## The prover succeeds -/

omit [Curve] [Sha256] in
/-- A residue fits in as many bytes as its modulus. -/
theorem fixedModNBytes_ok {x n : ℕ} (hn : 0 < n) (hx : x ≤ n) :
    fixedModNBytes x ((bitLen n + 7) / 8) = .ok (beBytes ((bitLen n + 7) / 8) x) := by
  have hlen : (natBytes x).length ≤ (bitLen n + 7) / 8 := by
    rw [natBytes, length_beBytes]
    have := bitLen_mono hx
    omega
  have hpos : 0 < bitLen n := lt_bitLen.mpr (by rwa [pow_zero])
  simp only [fixedModNBytes, rejectIf, if_neg (show ¬ (bitLen n + 7) / 8 = 0 by omega),
    if_neg (Nat.not_lt.mpr hlen), ok_bind]
  rfl

omit [Sha256] in
theorem exists_appendPoint (t : Transcript.Builder) (label : String) {P : Point} (hP : P ≠ 0) :
    ∃ t', appendPoint t label P = .ok t' := by
  obtain ⟨b, hb⟩ := pointBytes_isOk.mpr hP
  rw [appendPoint, hb, liftText_ok, mapError_ok, ok_bind]
  exact ⟨_, rfl⟩

omit [Sha256] in
/-- The transcript of a statement with valid auxiliary parameters is always built. -/
theorem exists_buildLogStarTranscript (params : SecurityParams) (state : Bytes)
    {stmt : LogStarStatement} (haux : stmt.verifierAux.validate = .ok ()) (hb : stmt.b ≠ 0)
    (s a : ℕ) {y : Point} (hy : y ≠ 0) (d : ℕ) :
    ∃ t, buildLogStarTranscript params state stmt s a y d = .ok t := by
  have hbounds := haux
  simp only [RingPedersenParams.validate, bind_eq_ok, exists_const, rejectIf_eq_ok, not_or, not_not,
    not_le] at hbounds
  obtain ⟨⟨hn, -, -⟩, ⟨-, hs, -, ht⟩, -⟩ := hbounds
  have hpos : 0 < stmt.verifierAux.n := by omega
  have hstmt : ∃ t, logStarStatementTranscript params state stmt = .ok t := by
    simp only [logStarStatementTranscript, fixedModNBytes_ok hpos le_rfl,
      fixedModNBytes_ok hpos hs.le, fixedModNBytes_ok hpos ht.le, mapError_ok, ok_bind]
    by_cases hx : stmt.x = 0
    · rw [if_pos hx]
      exact exists_appendPoint _ "B" hb
    · rw [if_neg hx]
      obtain ⟨t', ht'⟩ := exists_appendPoint _ "X" hx
      rw [ht', ok_bind]
      exact exists_appendPoint _ "B" hb
  obtain ⟨t, ht⟩ := hstmt
  obtain ⟨t', ht'⟩ := exists_appendPoint
    ((t.appendBytes "S" (natBytes s)).appendBytes "A" (natBytes a)) "Y" hy
  simp only [buildLogStarTranscript, ht, ok_bind, ht']
  exact ⟨_, rfl⟩

/-- With a digest that is always a canonical scalar, the first candidate is the challenge. -/
theorem challengeSigned_of_digest
    (hdigest : ∀ b : Bytes, 0 < beNat (sha256 b) ∧ beNat (sha256 b) < order)
    (t : Transcript.Builder) : ∃ e, challengeSigned t 256 = .ok e ∧ e < order := by
  obtain ⟨hpos, hlt⟩ := hdigest
    ((Transcript.new paillierChallengeDerivationLabel).appendBytes "root" t.sum |>.appendUint32
      "counter" (UInt32.ofNat 0)).written
  have hcandidate : scalarFromBytes (challengeCandidate paillierChallengeDerivationLabel t.sum 0) =
      .ok _ := scalarFromBytes_of_lt (length_sha256 _) hpos hlt
  refine ⟨_, ?_, ZMod.val_lt (((beNat (challengeCandidate paillierChallengeDerivationLabel t.sum 0)
    : ℕ) : Scalar))⟩
  have hrange : List.range challengeCounterLimit = 0 :: (List.range 255).map Nat.succ :=
    List.range_succ_eq_map
  simp only [challengeSigned, rejectIf, deriveCanonicalNonZeroSecp256k1, hrange,
    List.findSome?_cons, hcandidate, Except.toOption]
  rfl

/-- The prover answers for every integer that opens the statement. -/
theorem exists_respondLogStar {params : SecurityParams} (state : Bytes) {stmt : LogStarStatement}
    {x : ℤ} {rho : ℕ} {coins : LogStarCoins} (haux : stmt.verifierAux.validate = .ok ())
    (hopens : stmt.Opens x rho) (hb : stmt.b ≠ 0)
    (hr : isZNStar coins.r stmt.paillierN.n = true)
    (hy : scalarFromBigInt coins.alpha • stmt.b ≠ 0)
    (hchallenge : ∀ t, ∃ e, challengeSigned t params.challengeBits = .ok e ∧ e < order) :
    ∃ proof e, respondLogStar params state stmt x rho coins = .ok proof ∧ e < order ∧
      proof.z1 = e * x + coins.alpha ∧ proof.z3 = e * coins.mask + coins.gamma := by
  obtain ⟨hpk, -, -⟩ := encRandom_eq_ok.mp hopens.ciphertext
  obtain ⟨-, hs, ht⟩ := RingPedersenParams.validate_spec haux
  have hus := (ZMod.coe_unitOfCoprime _ hs).symm
  have hut := (ZMod.coe_unitOfCoprime _ ht).symm
  obtain ⟨s, hs, -⟩ := rpCommit_spec haux hus hut x coins.mask
  obtain ⟨d, hd, -⟩ := rpCommit_spec haux hus hut coins.alpha coins.gamma
  obtain ⟨a, ha⟩ := exists_encryptWithRandomness hpk coins.alpha (isZNStar_eq_true.mp hr).2.2
  obtain ⟨t, ht⟩ := exists_buildLogStarTranscript params state haux hb s a hy d
  obtain ⟨e, he, hlt⟩ := hchallenge t
  have ha' := encRandom_eq_ok.mpr ⟨hpk, hr, ha⟩
  have hproof : respondLogStar params state stmt x rho coins = .ok {
      s, a, y := scalarFromBigInt coins.alpha • stmt.b, d
      z1 := e * x + coins.alpha
      z2 := coins.r * expMod rho e stmt.paillierN.n % stmt.paillierN.n
      z3 := e * coins.mask + coins.gamma
      transcriptHash := t.sum } := by
    rw [respondLogStar, hs, ok_bind, ha', ok_bind, hd, ok_bind, ht, ok_bind, he, ok_bind]
    rfl
  exact ⟨_, e, hproof, hlt, rfl, rfl⟩

end Proof

end Tss.Paillier
