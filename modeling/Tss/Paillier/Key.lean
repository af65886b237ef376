import Mathlib.Tactic.LinearCombination
import Tss.Lib.Fallible
import Tss.Lib.Modular
import Tss.Lib.PaillierGroup

/-!
# Paillier encryption (`internal/paillier`, `internal/zk/paillier/group.go`)

The keys, the encryption and the homomorphic operations on ciphertexts, as
the source computes them on integers. `Encrypts` reads the plaintext of a
ciphertext; the operations add and multiply plaintexts, and decryption with
a valid private key recovers plaintext and randomness.

`ProbablyPrime` is taken to decide primality. Secret integers are numbers:
their fixed widths are not modelled.
-/

namespace Tss.Paillier

open Fallible

structure PublicKey where
  n : ℕ
  g : ℕ
  nSquared : ℕ
deriving DecidableEq

namespace PublicKey

def validate (pk : PublicKey) : Except String Unit := do
  rejectIf (pk.n = 0) "invalid modulus"
  rejectIf (pk.n % 2 = 0) "paillier modulus must be odd"
  rejectIf pk.n.Prime "paillier modulus must be composite"
  rejectIf (pk.n % 4 ≠ 1) "paillier modulus must be ≡ 1 mod 4 for safe primes"
  rejectIf (pk.n % 3 = 0) "paillier modulus must not be divisible by 3"
  rejectIf (pk.nSquared ≠ pk.n * pk.n) "invalid n squared"
  rejectIf (pk.g = 0 ∨ pk.nSquared ≤ pk.g) "invalid generator"
  rejectIf (pk.g ≠ pk.n + 1) "paillier generator must be n+1"

def validateCiphertext (pk : PublicKey) (ciphertext : ℕ) : Except String Unit := do
  pk.validate
  rejectIf (ciphertext = 0 ∨ pk.nSquared ≤ ciphertext) "ciphertext out of range"
  rejectIf (ciphertext.gcd pk.nSquared ≠ 1) "ciphertext is not in Z*_\x7bn^2\x7d"

def encryptWithRandomness (pk : PublicKey) (message : ℤ) (r : ℕ) : Except String ℕ := do
  pk.validate
  rejectIf (r.gcd pk.n ≠ 1) "paillier randomness is not invertible"
  let m := (message % pk.n).toNat
  pure (expMod pk.g m pk.nSquared * expMod r pk.n pk.nSquared % pk.nSquared)

def addCiphertexts (pk : PublicKey) (a b : ℕ) : Except String ℕ := do
  pk.validateCiphertext a
  pk.validateCiphertext b
  pure (a * b % pk.nSquared)

end PublicKey

def isZNStar (x n : ℕ) : Bool := 0 < x ∧ x < n ∧ x.gcd n = 1

def requireZN2Star (x n : ℕ) : Except String Unit :=
  rejectIf (¬ (0 < x ∧ x < n * n ∧ x.gcd (n * n) = 1)) "value is not in Z*_N^2"

def oAdd (pk : PublicKey) (a b : ℕ) : Except String ℕ := do
  pk.validate
  requireZN2Star a pk.n
  requireZN2Star b pk.n
  pure (a * b % pk.nSquared)

structure PrivateKey extends PublicKey where
  lambda : ℕ
  mu : ℕ
  p : ℕ
  q : ℕ
deriving DecidableEq

/-- The signed representative of a residue: the upper half is negative. -/
def centered (n m : ℕ) : ℤ := if n / 2 < m then m - n else m

namespace PrivateKey

def validate (sk : PrivateKey) : Except String Unit := do
  sk.toPublicKey.validate
  rejectIf (sk.p = 0) "invalid p"
  rejectIf (sk.q = 0) "invalid q"
  rejectIf (sk.p = sk.q) "paillier factors must differ"
  rejectIf (sk.p * sk.q ≠ sk.n) "paillier factors do not multiply to modulus"
  rejectIf (¬ sk.p.Prime ∨ ¬ sk.q.Prime) "paillier factors must be prime"
  rejectIf (sk.lambda ≠ (sk.p - 1).lcm (sk.q - 1)) "invalid paillier lambda"
  rejectIf (modInverse sk.lambda sk.n ≠ some sk.mu) "invalid paillier mu"

def decrypt (sk : PrivateKey) (ciphertext : ℕ) : Except String ℕ := do
  sk.toPublicKey.validate
  (sk.validateCiphertext ciphertext).mapError ("invalid ciphertext for decryption: " ++ ·)
  let u := expMod ciphertext sk.lambda sk.nSquared
  let l := (u - 1) / sk.n
  pure (l * sk.mu % sk.n)

/-- `RecoverOpening`: the signed plaintext of a ciphertext, and its randomness. -/
def recoverOpening (sk : PrivateKey) (ciphertext : ℕ) : Except String (ℤ × ℕ) := do
  let plaintext ← sk.decrypt ciphertext
  let gm ← sk.encryptWithRandomness plaintext 1
  match modInverse gm sk.nSquared with
  | none => throw "paillier message component is not invertible"
  | some gmInverse =>
    let z := ciphertext * gmInverse % sk.nSquared
    let base := z % sk.n
    rejectIf (base = 0) "invalid Paillier randomness component"
    match modInverse (sk.n % sk.lambda) sk.lambda with
    | none => throw "paillier randomness recovery exponent unavailable"
    | some recoveryExponent =>
      let randomness := expMod base recoveryExponent sk.n
      match sk.encryptWithRandomness plaintext randomness with
      | .error _ => throw "recovered Paillier opening does not match ciphertext"
      | .ok reencrypted =>
        rejectIf (reencrypted ≠ ciphertext)
          "recovered Paillier opening does not match ciphertext"
        pure (centered sk.n plaintext, randomness)

end PrivateKey

/-! ## Valid keys -/

variable {pk : PublicKey}

/-- What `Validate` establishes. -/
theorem validate_eq_ok : pk.validate = .ok () ↔
    pk.n % 4 = 1 ∧ pk.n % 3 ≠ 0 ∧ ¬ pk.n.Prime ∧ 1 < pk.n ∧ pk.nSquared = pk.n * pk.n ∧
      pk.g = pk.n + 1 := by
  simp only [PublicKey.validate, bind_eq_ok, exists_const, rejectIf_eq_ok, not_or, not_not, not_le]
  constructor
  · rintro ⟨hpos, -, hprime, hfour, hthree, hsq, ⟨-, hlt⟩, hg⟩
    refine ⟨hfour, hthree, hprime, ?_, hsq, hg⟩
    by_contra hle
    obtain h | h : pk.n = 0 ∨ pk.n = 1 := by omega
    · exact hpos h
    · rw [hsq, hg, h] at hlt
      omega
  · rintro ⟨hfour, hthree, hprime, hone, hsq, hg⟩
    have hge : 5 ≤ pk.n := by omega
    have hlt : pk.n + 1 < pk.n * pk.n := by nlinarith
    refine ⟨by omega, by omega, hprime, hfour, hthree, hsq, ⟨by omega, ?_⟩, hg⟩
    rw [hsq, hg]
    exact hlt

theorem nSquared_eq (h : pk.validate = .ok ()) : pk.nSquared = pk.n ^ 2 := by
  rw [(validate_eq_ok.mp h).2.2.2.2.1, pow_two]

theorem n_pos (h : pk.validate = .ok ()) : 0 < pk.n := by
  have := (validate_eq_ok.mp h).2.2.2.1
  omega

theorem validateCiphertext_eq_ok {c : ℕ} : pk.validateCiphertext c = .ok () ↔
    pk.validate = .ok () ∧ 0 < c ∧ c < pk.n ^ 2 ∧ c.Coprime (pk.n ^ 2) := by
  simp only [PublicKey.validateCiphertext, bind_eq_ok, exists_const, rejectIf_eq_ok, not_or,
    not_not, not_le]
  constructor
  · rintro ⟨_, hvalid, ⟨hpos, hlt⟩, hgcd⟩
    rw [nSquared_eq hvalid] at hlt hgcd
    exact ⟨hvalid, by omega, hlt, hgcd⟩
  · rintro ⟨hvalid, hpos, hlt, hgcd⟩
    rw [nSquared_eq hvalid]
    exact ⟨(), hvalid, ⟨by omega, hlt⟩, hgcd⟩

/-! ## Plaintexts -/

open PaillierGroup

/-- The ciphertext is an encryption of `m`. -/
def PublicKey.Encrypts (pk : PublicKey) (c : ℕ) (m : ℤ) : Prop :=
  ∃ r : (ZMod (pk.n ^ 2))ˣ, (c : ZMod (pk.n ^ 2)) = (encrypt m r : (ZMod (pk.n ^ 2))ˣ)

namespace PublicKey.Encrypts

variable {pk : PublicKey} {c d : ℕ} {m m' : ℤ}

theorem mul (h : pk.Encrypts c m) (h' : pk.Encrypts d m') :
    pk.Encrypts (c * d % pk.n ^ 2) (m + m') := by
  obtain ⟨r, hr⟩ := h
  obtain ⟨r', hr'⟩ := h'
  refine ⟨r * r', ?_⟩
  rw [ZMod.natCast_mod, Nat.cast_mul, hr, hr', ← encrypt_mul, Units.val_mul]

theorem pow (h : pk.Encrypts c m) (x : ℕ) : pk.Encrypts (expMod c x (pk.n ^ 2)) (x * m) := by
  obtain ⟨r, hr⟩ := h
  refine ⟨r ^ x, ?_⟩
  rw [natCast_expMod, hr, ← encrypt_pow, Units.val_pow_eq_pow_val]

theorem congr (h : pk.Encrypts c m) (hn : 0 < pk.n) (hdvd : (pk.n : ℤ) ∣ m - m') :
    pk.Encrypts c m' := by
  obtain ⟨r, hr⟩ := h
  exact ⟨r, by rw [hr, encrypt_congr hn hdvd]⟩

theorem unique (hpk : PlaintextUnique pk.n) (h : pk.Encrypts c m) (h' : pk.Encrypts c m') :
    (pk.n : ℤ) ∣ m - m' := by
  obtain ⟨r, hr⟩ := h
  obtain ⟨r', hr'⟩ := h'
  exact hpk m m' r r' (Units.val_inj.mp (hr.symm.trans hr'))

end PublicKey.Encrypts

/-- Encryption succeeds with any invertible randomness. The message is reduced first. -/
theorem encryptWithRandomness_ok (hpk : pk.validate = .ok ()) {t : ℤ} {m r : ℕ} (hm : m < pk.n)
    (hdvd : (pk.n : ℤ) ∣ t - m) (hr : r.Coprime pk.n) :
    ∃ d, pk.encryptWithRandomness t r = .ok d ∧ d < pk.n ^ 2 ∧
      (d : ZMod (pk.n ^ 2)) = (base pk.n ^ m).val * (r : ZMod (pk.n ^ 2)) ^ pk.n := by
  have hpos := n_pos hpk
  have htoNat : (t % pk.n).toNat = m := by
    have hemod : t % pk.n = (m : ℤ) % pk.n := (Int.modEq_iff_dvd.mpr hdvd).symm
    rw [hemod, Int.emod_eq_of_lt (by omega) (by omega), Int.toNat_natCast]
  refine ⟨expMod pk.g m (pk.n ^ 2) * expMod r pk.n (pk.n ^ 2) % pk.n ^ 2, ?_,
    Nat.mod_lt _ (by positivity), ?_⟩
  · rw [Nat.Coprime] at hr
    simp [PublicKey.encryptWithRandomness, hpk, htoNat, nSquared_eq hpk, rejectIf, hr, pure,
      Except.pure]
  · have hbase : (base pk.n ^ m).val = (1 + (pk.n : ZMod (pk.n ^ 2))) ^ m :=
      Units.val_pow_eq_pow_val _ _
    rw [ZMod.natCast_mod, Nat.cast_mul, natCast_expMod, natCast_expMod,
      (validate_eq_ok.mp hpk).2.2.2.2.2, hbase]
    push_cast
    rw [add_comm (pk.n : ZMod (pk.n ^ 2)) 1]

theorem encryptWithRandomness_eq_ok {t : ℤ} {r d : ℕ} (h : pk.encryptWithRandomness t r = .ok d) :
    pk.validate = .ok () ∧ r.Coprime pk.n := by
  simp only [PublicKey.encryptWithRandomness, bind_eq_ok, exists_const, rejectIf_eq_ok,
    not_not] at h
  obtain ⟨_, hpk, hr, -⟩ := h
  exact ⟨hpk, hr⟩

/-- Whatever the message, invertible randomness is enough. -/
theorem exists_encryptWithRandomness (hpk : pk.validate = .ok ()) (t : ℤ) {r : ℕ}
    (hr : r.Coprime pk.n) : ∃ d, pk.encryptWithRandomness t r = .ok d := by
  rw [PublicKey.encryptWithRandomness, hpk, ok_bind, rejectIf, if_neg (not_not.mpr hr), ok_bind]
  exact ⟨_, rfl⟩

/-- The value of a ciphertext. -/
theorem encryptWithRandomness_val {t : ℤ} {r d : ℕ} (h : pk.encryptWithRandomness t r = .ok d)
    (hr : r.Coprime pk.n) :
    d < pk.n ^ 2 ∧ (d : ZMod (pk.n ^ 2)) =
      (encrypt t (ZMod.unitOfCoprime r (hr.pow_right 2)) : (ZMod (pk.n ^ 2))ˣ) := by
  obtain ⟨hpk, -⟩ := encryptWithRandomness_eq_ok h
  have hpos := n_pos hpk
  have hnonneg : 0 ≤ t % pk.n := Int.emod_nonneg _ (by exact_mod_cast hpos.ne')
  have hlt : t % pk.n < pk.n := Int.emod_lt_of_pos _ (by exact_mod_cast hpos)
  have hdvd : (pk.n : ℤ) ∣ t - (t % pk.n).toNat := by
    rw [Int.toNat_of_nonneg hnonneg]
    exact (Int.mod_modEq t pk.n).dvd
  obtain ⟨d', hd', hsize, hval⟩ := encryptWithRandomness_ok hpk (by omega) hdvd hr
  obtain rfl : d' = d := Except.ok.inj (hd'.symm.trans h)
  refine ⟨hsize, ?_⟩
  rw [encrypt_congr hpos hdvd, hval, encrypt, zpow_natCast, Units.val_mul,
    Units.val_pow_eq_pow_val (ZMod.unitOfCoprime r _), ZMod.coe_unitOfCoprime]

theorem encryptWithRandomness_encrypts {t : ℤ} {r d : ℕ} (h : pk.encryptWithRandomness t r = .ok d) :
    pk.Encrypts d t :=
  ⟨_, (encryptWithRandomness_val h (encryptWithRandomness_eq_ok h).2).2⟩

/-! ## Decryption -/

/-- The two representatives of a plaintext are congruent, and the signed one is at most half
of the modulus. -/
theorem centered_spec {n m : ℕ} (h : m < n) :
    (n : ℤ) ∣ centered n m - m ∧ 2 * |centered n m| ≤ n := by
  rw [centered]
  by_cases hhalf : n / 2 < m
  · rw [if_pos hhalf]
    refine ⟨⟨-1, by ring⟩, ?_⟩
    rw [abs_of_neg (by omega)]
    omega
  · rw [if_neg hhalf, sub_self]
    refine ⟨dvd_zero _, ?_⟩
    rw [abs_of_nonneg (by omega)]
    omega

namespace PrivateKey

variable {sk : PrivateKey} {c : ℕ}

/-- What a valid private key provides: `lambda` kills the units and `mu` is its inverse. -/
theorem validate_spec (h : sk.validate = .ok ()) :
    sk.toPublicKey.validate = .ok () ∧ Kills sk.n sk.lambda ∧ sk.lambda.Coprime sk.n ∧
      sk.lambda * sk.mu ≡ 1 [MOD sk.n] ∧ 0 < sk.lambda := by
  simp only [validate, bind_eq_ok, exists_const, rejectIf_eq_ok, not_or, not_not] at h
  obtain ⟨_, hpk, -, -, hne, hmul, ⟨hp, hq⟩, hlambda, hmu⟩ := h
  have hcop : sk.lambda.Coprime sk.n := by
    by_contra hcop
    rw [modInverse_eq_none.mpr hcop] at hmu
    cases hmu
  obtain ⟨b, hb, -, hinv⟩ := modInverse_spec (n_pos hpk) hcop
  obtain rfl : b = sk.mu := Option.some.inj (hb.symm.trans hmu)
  refine ⟨hpk, ?_, hcop, ?_, ?_⟩
  · have hkills := kills_of_primes hp hq hne (Nat.dvd_lcm_left _ _) (Nat.dvd_lcm_right _ _)
    rwa [hmul, ← hlambda] at hkills
  · rw [← ZMod.natCast_eq_natCast_iff]
    push_cast
    exact hinv
  · rw [hlambda]
    exact Nat.lcm_pos (Nat.sub_pos_of_lt hp.one_lt) (Nat.sub_pos_of_lt hq.one_lt)

theorem plaintextUnique (h : sk.validate = .ok ()) : PlaintextUnique sk.n := by
  obtain ⟨hpk, hkills, hcop, -, -⟩ := validate_spec h
  exact hkills.plaintextUnique (n_pos hpk) hcop

/-- A recovery exponent exists. -/
theorem exists_recoveryExponent (h : sk.validate = .ok ()) :
    ∃ e, modInverse (sk.n % sk.lambda) sk.lambda = some e ∧ e * sk.n ≡ 1 [MOD sk.lambda] := by
  obtain ⟨-, -, hcop, -, hpos⟩ := validate_spec h
  have hmod : (sk.n % sk.lambda).Coprime sk.lambda := by
    rw [Nat.Coprime, ← Nat.gcd_rec]
    exact hcop
  obtain ⟨e, he, -, hinv⟩ := modInverse_spec hpos hmod
  refine ⟨e, he, ?_⟩
  rw [← ZMod.natCast_eq_natCast_iff]
  push_cast
  rw [ZMod.natCast_mod] at hinv
  rw [mul_comm]
  exact hinv

/-- Decryption returns the reduced plaintext. What remains of the ciphertext without it is
killed by `lambda`. -/
theorem decrypt_spec (h : sk.validate = .ok ()) (hc : sk.validateCiphertext c = .ok ()) :
    ∃ m z, sk.decrypt c = .ok m ∧ m < sk.n ∧ z ^ sk.lambda = 1 ∧
      (c : ZMod (sk.n ^ 2)) = (base sk.n ^ m * z : (ZMod (sk.n ^ 2))ˣ) := by
  obtain ⟨hpk, hkills, -, hmu, -⟩ := validate_spec h
  obtain ⟨-, -, -, hcop⟩ := validateCiphertext_eq_ok.mp hc
  have hpos := n_pos hpk
  obtain ⟨u, hu⟩ := exists_base_zpow (hkills (ZMod.unitOfCoprime c hcop))
  -- the power of the ciphertext is `1 + u * N`, so that `L` reads off `u`
  have hpow : expMod c sk.lambda sk.nSquared = 1 + u % sk.n * sk.n := by
    have hlt : 1 + u % sk.n * sk.n < sk.n ^ 2 := by
      have := Nat.mod_lt u hpos
      have := (validate_eq_ok.mp hpk).2.2.2.1
      nlinarith
    have hcast : ((expMod c sk.lambda (sk.n ^ 2) : ℕ) : ZMod (sk.n ^ 2)) =
        ((1 + u % sk.n * sk.n : ℕ) : ZMod (sk.n ^ 2)) := by
      have hval := congrArg Units.val hu
      rw [Units.val_pow_eq_pow_val, ZMod.coe_unitOfCoprime, base_pow] at hval
      have hsplit : (u : ZMod (sk.n ^ 2)) = ((u % sk.n + sk.n * (u / sk.n) : ℕ) : ZMod (sk.n ^ 2)) := by
        rw [Nat.mod_add_div]
      rw [natCast_expMod, hval, hsplit]
      push_cast
      linear_combination ((u / sk.n : ℕ) : ZMod (sk.n ^ 2)) * natCast_sq sk.n
    rw [nSquared_eq hpk]
    have hmod := (ZMod.natCast_eq_natCast_iff' _ _ _).mp hcast
    rwa [Nat.mod_eq_of_lt hlt, Nat.mod_eq_of_lt (expMod_lt (by positivity) _ _)] at hmod
  have hl : (1 + u % sk.n * sk.n - 1) / sk.n = u % sk.n := by
    rw [Nat.add_sub_cancel_left, Nat.mul_div_cancel _ hpos]
  have hbase : base sk.n ^ (u * sk.mu) = base sk.n ^ (u % sk.n * sk.mu % sk.n) := by
    have hdvd : (sk.n : ℤ) ∣ ((u * sk.mu : ℕ) : ℤ) - ((u % sk.n * sk.mu % sk.n : ℕ) : ℤ) := by
      apply Nat.modEq_iff_dvd.mp
      exact (Nat.mod_modEq _ _).trans ((Nat.mod_modEq u sk.n).mul_right _)
    have heq := (base_zpow_eq_iff hpos).mpr hdvd
    rwa [zpow_natCast, zpow_natCast] at heq
  refine ⟨u % sk.n * sk.mu % sk.n, ZMod.unitOfCoprime c hcop * (base sk.n ^ (u * sk.mu))⁻¹, ?_,
    Nat.mod_lt _ hpos, residual_pow_eq_one hpos hu hmu, ?_⟩
  · rw [decrypt, hpk, ok_bind, hc, mapError_ok, ok_bind, hpow]
    show Except.ok ((1 + u % sk.n * sk.n - 1) / sk.n * sk.mu % sk.n) = _
    rw [hl]
  · rw [← hbase, mul_comm, inv_mul_cancel_right, ZMod.coe_unitOfCoprime]

/-- Decryption returns the plaintext. -/
theorem decrypt_encrypts (h : sk.validate = .ok ()) (hc : sk.validateCiphertext c = .ok ()) :
    ∃ m, sk.decrypt c = .ok m ∧ m < sk.n ∧ sk.Encrypts c m := by
  obtain ⟨m, z, hm, hlt, hz, hval⟩ := decrypt_spec h hc
  obtain ⟨e, -, he⟩ := exists_recoveryExponent h
  refine ⟨m, hm, hlt, z ^ e, ?_⟩
  rw [encrypt, pow_pow_eq_self hz he, zpow_natCast]
  exact hval

/-- Decryption returns the residue of any integer that the ciphertext encrypts. -/
theorem decrypt_of_encrypts (h : sk.validate = .ok ()) (hc : sk.validateCiphertext c = .ok ())
    {x : ℤ} (hencrypts : sk.Encrypts c x) : sk.decrypt c = .ok (x % sk.n).toNat := by
  obtain ⟨m, hm, hlt, hopens⟩ := decrypt_encrypts h hc
  have hdvd := hencrypts.unique (plaintextUnique h) hopens
  have hmod : x % sk.n = m := by
    rw [Int.emod_eq_emod_iff_emod_sub_eq_zero.mpr (Int.emod_eq_zero_of_dvd hdvd)]
    exact Int.emod_eq_of_lt (by omega) (by omega)
  rw [hm, hmod, Int.toNat_natCast]

/-- Recovery returns the signed plaintext with a randomness that opens the ciphertext. -/
theorem recoverOpening_spec (h : sk.validate = .ok ()) (hc : sk.validateCiphertext c = .ok ()) :
    ∃ m rho, sk.decrypt c = .ok m ∧ m < sk.n ∧
      sk.recoverOpening c = .ok (centered sk.n m, rho) ∧ isZNStar rho sk.n = true ∧
      sk.encryptWithRandomness (centered sk.n m) rho = .ok c := by
  obtain ⟨hpk, -, -, -, -⟩ := validate_spec h
  obtain ⟨-, -, hclt, hcop⟩ := validateCiphertext_eq_ok.mp hc
  obtain ⟨m, z, hm, hlt, hz, hval⟩ := decrypt_spec h hc
  obtain ⟨e, he, hmod⟩ := exists_recoveryExponent h
  have hone := (validate_eq_ok.mp hpk).2.2.2.1
  have hsq := nSquared_eq hpk
  have hpos : 0 < sk.n ^ 2 := pow_pos (n_pos hpk) 2
  have : NeZero (sk.n ^ 2) := ⟨hpos.ne'⟩
  -- the message component is a power of the base, and it can be removed
  obtain ⟨gm, hgm, -, hgmval⟩ :=
    encryptWithRandomness_ok hpk hlt (t := m) (by simp) (Nat.coprime_one_left _)
  rw [Nat.cast_one, one_pow, mul_one] at hgmval
  have hgmcop : gm.Coprime (sk.n ^ 2) := by
    rw [← ZMod.isUnit_iff_coprime, hgmval]
    exact Units.isUnit _
  obtain ⟨gmInverse, hinverse, -, hone'⟩ := modInverse_spec hpos hgmcop
  have hzval : ((c * gmInverse % sk.n ^ 2 : ℕ) : ZMod (sk.n ^ 2)) = z := by
    rw [hgmval] at hone'
    rw [ZMod.natCast_mod, Nat.cast_mul, hval, Units.val_mul]
    linear_combination (z : ZMod (sk.n ^ 2)) * hone'
  generalize hzNat : c * gmInverse % sk.n ^ 2 = zNat at hzval
  have hzcop : zNat.Coprime sk.n := by
    have hunit : zNat.Coprime (sk.n ^ 2) := by
      rw [← ZMod.isUnit_iff_coprime, hzval]
      exact Units.isUnit _
    exact hunit.coprime_dvd_right (dvd_pow_self _ two_ne_zero)
  have hbasecop : (zNat % sk.n).Coprime sk.n := by
    rw [Nat.Coprime, ← Nat.gcd_rec, Nat.gcd_comm]
    exact hzcop
  have hbase0 : zNat % sk.n ≠ 0 := by
    intro hzero
    rw [hzero, Nat.coprime_zero_left] at hbasecop
    omega
  -- the root of the remainder is the randomness
  have hrhoeq : expMod (zNat % sk.n) e sk.n = zNat ^ e % sk.n := by rw [expMod_eq, ← Nat.pow_mod]
  have hrhocop : (zNat ^ e % sk.n).Coprime sk.n := by
    rw [Nat.Coprime, ← Nat.gcd_rec, Nat.gcd_comm]
    exact Nat.Coprime.pow_left e hzcop
  have hrhopow : ((zNat ^ e % sk.n : ℕ) : ZMod (sk.n ^ 2)) ^ sk.n = z := by
    have hcop2 : (zNat ^ e % sk.n).Coprime (sk.n ^ 2) := Nat.Coprime.pow_right 2 hrhocop
    have hdvd : (sk.n : ZMod (sk.n ^ 2)) ∣
        (ZMod.unitOfCoprime (zNat ^ e % sk.n) hcop2).val - (z ^ e).val := by
      refine ⟨-((zNat ^ e / sk.n : ℕ) : ZMod (sk.n ^ 2)), ?_⟩
      have hsplit : ((zNat ^ e : ℕ) : ZMod (sk.n ^ 2)) =
          ((zNat ^ e % sk.n + sk.n * (zNat ^ e / sk.n) : ℕ) : ZMod (sk.n ^ 2)) := by
        rw [Nat.mod_add_div]
      rw [ZMod.coe_unitOfCoprime, Units.val_pow_eq_pow_val, ← hzval, ← Nat.cast_pow, hsplit]
      push_cast
      ring
    have hunit := pow_eq_pow_of_dvd hdvd
    rw [pow_pow_eq_self hz hmod] at hunit
    have := congrArg Units.val hunit
    rwa [Units.val_pow_eq_pow_val, ZMod.coe_unitOfCoprime] at this
  have hreencrypt : ∀ t : ℤ, (sk.n : ℤ) ∣ t - m →
      sk.encryptWithRandomness t (zNat ^ e % sk.n) = .ok c := by
    intro t ht
    obtain ⟨d, hd, hdlt, hdval⟩ := encryptWithRandomness_ok hpk hlt ht hrhocop
    rw [hrhopow, ← Units.val_mul, ← hval] at hdval
    have heq := (ZMod.natCast_eq_natCast_iff' _ _ _).mp hdval
    rw [Nat.mod_eq_of_lt hdlt, Nat.mod_eq_of_lt hclt] at heq
    rw [hd, heq]
  refine ⟨m, zNat ^ e % sk.n, hm, hlt, ?_, ?_, hreencrypt _ (centered_spec hlt).1⟩
  · rw [recoverOpening, hm, ok_bind, hgm, ok_bind, hsq, hinverse]
    simp only [hzNat, he, hrhoeq, hreencrypt m (by simp), rejectIf, if_neg hbase0, ok_bind]
    simp [pure, Except.pure]
  · have hrho0 : zNat ^ e % sk.n ≠ 0 := by
      intro hzero
      rw [hzero, Nat.coprime_zero_left] at hrhocop
      omega
    rw [isZNStar, decide_eq_true_eq]
    exact ⟨Nat.pos_of_ne_zero hrho0, Nat.mod_lt _ (n_pos hpk), hrhocop⟩

end PrivateKey

end Tss.Paillier
