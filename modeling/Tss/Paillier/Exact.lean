import Tss.Paillier.LogStar

/-!
# Paillier is exact (`internal/paillier/crypto.go`, `internal/zk/paillier/group.go`)

With a valid private key every unit modulo `N²` is the encryption of one
plaintext below `N` with one randomness in `Z*_N`. Decryption returns the
plaintext, recovery returns both, and the operations on ciphertexts add and
multiply plaintexts modulo `N`.
-/

namespace Tss.Paillier

open Fallible PaillierGroup Cggmp21

namespace PublicKey

/-- `EncryptWithRandomness` with any integer as the randomness: `Exp` reduces its base. -/
def encryptWithSignedRandomness (pk : PublicKey) (message r : ℤ) : Except String ℕ := do
  pk.validate
  rejectIf (Int.gcd r pk.n ≠ 1) "paillier randomness is not invertible"
  let m := (message % pk.n).toNat
  let rn := expMod (r % pk.nSquared).toNat pk.n pk.nSquared
  pure (expMod pk.g m pk.nSquared * rn % pk.nSquared)

def addPlaintext (pk : PublicKey) (ciphertext : ℕ) (plaintext : ℤ) : Except String ℕ := do
  pk.validateCiphertext ciphertext
  let p := (plaintext % pk.n).toNat
  pure (ciphertext * expMod pk.g p pk.nSquared % pk.nSquared)

def mulPlaintext (pk : PublicKey) (ciphertext : ℕ) (plaintext : ℤ) : Except String ℕ := do
  pk.validateCiphertext ciphertext
  let p := (plaintext % pk.n).toNat
  pure (expMod ciphertext p pk.nSquared)

/-- The ciphertext encrypts the reduced plaintext with the reduced randomness. -/
def IsOpening (pk : PublicKey) (c m r : ℕ) : Prop :=
  m < pk.n ∧ isZNStar r pk.n = true ∧ pk.encryptWithRandomness m r = .ok c

end PublicKey

variable {pk : PublicKey} {c : ℕ} {m : ℤ}

/-! ## Ciphertexts and their plaintexts -/

theorem gcd_toNat_emod (r : ℤ) {n : ℕ} (hn : 0 < n) :
    (r % (n ^ 2 : ℕ)).toNat.gcd n = Int.gcd r n := by
  have hnonneg : 0 ≤ r % (n ^ 2 : ℕ) := Int.emod_nonneg _ (by positivity)
  have hdvd : (n : ℤ) ∣ (n ^ 2 : ℕ) := by
    exact_mod_cast dvd_pow_self n two_ne_zero
  rw [← Int.gcd_natCast_natCast, Int.toNat_of_nonneg hnonneg, ← Int.gcd_emod (r % _),
    Int.emod_emod_of_dvd r hdvd, Int.gcd_emod]

/-- Only the residue of the randomness matters. -/
theorem encryptWithSignedRandomness_eq (hpk : pk.validate = .ok ()) (r : ℤ) :
    pk.encryptWithSignedRandomness m r =
      pk.encryptWithRandomness m (r % (pk.n ^ 2 : ℕ)).toNat := by
  simp only [PublicKey.encryptWithSignedRandomness, PublicKey.encryptWithRandomness,
    nSquared_eq hpk, gcd_toNat_emod r (n_pos hpk)]

theorem validateCiphertext_of_coprime (hpk : pk.validate = .ok ()) (hlt : c < pk.n ^ 2)
    (hcop : c.Coprime (pk.n ^ 2)) : pk.validateCiphertext c = .ok () := by
  have hsq : 1 < pk.n ^ 2 := Nat.one_lt_pow two_ne_zero (validate_eq_ok.mp hpk).2.2.2.1
  exact validateCiphertext_eq_ok.mpr ⟨hpk, pos_of_coprime hsq hcop, hlt, hcop⟩

theorem PublicKey.Encrypts.validateCiphertext (hencrypts : pk.Encrypts c m)
    (hpk : pk.validate = .ok ()) (hlt : c < pk.n ^ 2) : pk.validateCiphertext c = .ok () := by
  obtain ⟨r, hr⟩ := hencrypts
  apply validateCiphertext_of_coprime hpk hlt
  rw [← ZMod.isUnit_iff_coprime, hr]
  exact Units.isUnit _

/-- A power of the generator encrypts its exponent. -/
theorem encrypts_generator_pow (hpk : pk.validate = .ok ()) (k : ℤ) :
    pk.Encrypts (expMod pk.g (k % pk.n).toNat (pk.n ^ 2)) k := by
  have hnonneg : 0 ≤ k % pk.n := Int.emod_nonneg _ (by exact_mod_cast (n_pos hpk).ne')
  have hresidue : pk.Encrypts (expMod pk.g (k % pk.n).toNat (pk.n ^ 2)) (k % pk.n).toNat := by
    refine ⟨1, ?_⟩
    rw [natCast_expMod, (validate_eq_ok.mp hpk).2.2.2.2.2, encrypt, one_pow, mul_one, zpow_natCast,
      Units.val_pow_eq_pow_val, Nat.cast_add, Nat.cast_one, add_comm]
    rfl
  apply hresidue.congr (n_pos hpk)
  rw [Int.toNat_of_nonneg hnonneg]
  exact (Int.mod_modEq k pk.n).symm.dvd

/-- The residue of a factor gives the same product of plaintexts. -/
theorem PublicKey.Encrypts.mul_residue (hencrypts : pk.Encrypts c m) (hpk : pk.validate = .ok ())
    (k : ℤ) : pk.Encrypts (expMod c (k % pk.n).toNat (pk.n ^ 2)) (k * m) := by
  have hnonneg : 0 ≤ k % pk.n := Int.emod_nonneg _ (by exact_mod_cast (n_pos hpk).ne')
  apply (hencrypts.pow _).congr (n_pos hpk)
  rw [Int.toNat_of_nonneg hnonneg, ← sub_mul]
  exact (Int.mod_modEq k pk.n).symm.dvd.mul_right m

/-- The public scalar of either sign. -/
theorem oMulPublic_encrypts (hvalid : pk.validateCiphertext c = .ok ()) (hencrypts : pk.Encrypts c m)
    (k : ℤ) : ∃ d, oMulPublic pk k c = .ok d ∧ d < pk.n ^ 2 ∧ pk.Encrypts d (k * m) := by
  obtain ⟨hpk, -, hlt, -⟩ := validateCiphertext_eq_ok.mp hvalid
  obtain ⟨r, hr⟩ := hencrypts
  obtain ⟨d, hd, hdlt, hval⟩ := oMulPublic_of_unit hpk hlt hr k
  exact ⟨d, hd, hdlt, r ^ k, by rw [hval, encrypt_zpow]⟩

/-! ## Decryption and recovery -/

namespace PrivateKey

variable {sk : PrivateKey}

theorem decrypt_of_lt (h : sk.validate = .ok ()) (hlt : c < sk.n ^ 2) (hencrypts : sk.Encrypts c m) :
    sk.decrypt c = .ok (m % sk.n).toNat :=
  decrypt_of_encrypts h (hencrypts.validateCiphertext (validate_spec h).1 hlt) hencrypts

/-- What is decrypted is a ciphertext of its plaintext. -/
theorem encrypts_of_decrypt (h : sk.validate = .ok ()) {x : ℕ} (hx : sk.decrypt c = .ok x) :
    sk.validateCiphertext c = .ok () ∧ sk.Encrypts c x := by
  have hvalid : sk.validateCiphertext c = .ok () := by
    simp only [decrypt, bind_eq_ok, mapError_eq_ok] at hx
    obtain ⟨_, -, _, hvalid, -⟩ := hx
    exact hvalid
  obtain ⟨x', hx', -, hencrypts⟩ := decrypt_encrypts h hvalid
  obtain rfl : x' = x := Except.ok.inj (hx'.symm.trans hx)
  exact ⟨hvalid, hencrypts⟩

/-- Two openings of a ciphertext are the same. -/
theorem opening_unique (h : sk.validate = .ok ()) {m r m' r' : ℕ} (ho : sk.IsOpening c m r)
    (ho' : sk.IsOpening c m' r') : m = m' ∧ r = r' := by
  obtain ⟨hm, hr, henc⟩ := ho
  obtain ⟨hm', hr', henc'⟩ := ho'
  obtain ⟨hpk, hkills, hcop, -, -⟩ := validate_spec h
  rw [isZNStar_eq_true] at hr hr'
  obtain ⟨-, hval⟩ := encryptWithRandomness_val henc hr.2.2
  obtain ⟨-, hval'⟩ := encryptWithRandomness_val henc' hr'.2.2
  have hunits := Units.val_inj.mp (hval.symm.trans hval')
  have hplain : m = m' := by
    have hdvd := plaintextUnique h _ _ _ _ hunits
    have hzero := Int.eq_zero_of_abs_lt_dvd hdvd (by rw [abs_lt]; omega)
    omega
  subst hplain
  rw [encrypt, encrypt, mul_right_inj] at hunits
  have hdvd := hkills.dvd_sub_of_pow_eq hcop hunits
  rw [ZMod.coe_unitOfCoprime, ZMod.coe_unitOfCoprime] at hdvd
  exact ⟨rfl, natCast_injOn_lt hr.2.1 hr'.2.1 hdvd⟩

/-- Recovery finds an opening. -/
theorem exists_isOpening (h : sk.validate = .ok ()) (hvalid : sk.validateCiphertext c = .ok ()) :
    ∃ m r, sk.IsOpening c m r ∧ sk.recoverOpening c = .ok (centered sk.n m, r) := by
  obtain ⟨m, r, -, hm, hrecover, hr, henc⟩ := recoverOpening_spec h hvalid
  refine ⟨m, r, ⟨hm, hr, ?_⟩, hrecover⟩
  -- the signed plaintext and the reduced one are encrypted alike
  rw [← henc, PublicKey.encryptWithRandomness, PublicKey.encryptWithRandomness,
    Int.emod_eq_emod_iff_emod_sub_eq_zero.mpr (Int.emod_eq_zero_of_dvd (centered_spec hm).1)]

theorem recoverOpening_of_isOpening (h : sk.validate = .ok ())
    (hvalid : sk.validateCiphertext c = .ok ()) {m r : ℕ} (ho : sk.IsOpening c m r) :
    sk.recoverOpening c = .ok (centered sk.n m, r) := by
  obtain ⟨m', r', ho', hrecover⟩ := exists_isOpening h hvalid
  obtain ⟨rfl, rfl⟩ := opening_unique h ho ho'
  exact hrecover

theorem existsUnique_opening (h : sk.validate = .ok ()) (hvalid : sk.validateCiphertext c = .ok ()) :
    ∃! o : ℕ × ℕ, sk.IsOpening c o.1 o.2 := by
  obtain ⟨m, r, ho, -⟩ := exists_isOpening h hvalid
  refine ⟨(m, r), ho, ?_⟩
  intro o ho'
  obtain ⟨h1, h2⟩ := opening_unique h ho' ho
  exact Prod.ext h1 h2

/-- Encryption followed by decryption. -/
theorem decrypt_encryptWithSignedRandomness (h : sk.validate = .ok ()) (m : ℤ) {r : ℤ}
    (hr : Int.gcd r sk.n = 1) :
    ∃ c, sk.encryptWithSignedRandomness m r = .ok c ∧ sk.decrypt c = .ok (m % sk.n).toNat := by
  obtain ⟨hpk, -⟩ := validate_spec h
  have hcop : (r % (sk.n ^ 2 : ℕ)).toNat.Coprime sk.n := by
    rw [Nat.Coprime, gcd_toNat_emod r (n_pos hpk), hr]
  obtain ⟨c, hc⟩ := exists_encryptWithRandomness hpk m hcop
  refine ⟨c, (encryptWithSignedRandomness_eq hpk r).trans hc, ?_⟩
  exact decrypt_of_lt h (encryptWithRandomness_val hc hcop).1 (encryptWithRandomness_encrypts hc)

/-- The operations add and multiply plaintexts. -/
theorem decrypt_addCiphertexts (h : sk.validate = .ok ()) {a b x y : ℕ} (ha : sk.decrypt a = .ok x)
    (hb : sk.decrypt b = .ok y) :
    ∃ c, sk.addCiphertexts a b = .ok c ∧ sk.decrypt c = .ok ((x + y) % sk.n) := by
  obtain ⟨hpk, -⟩ := validate_spec h
  obtain ⟨hvalid, hx⟩ := encrypts_of_decrypt h ha
  obtain ⟨hvalid', hy⟩ := encrypts_of_decrypt h hb
  refine ⟨a * b % sk.n ^ 2, ?_, ?_⟩
  · rw [PublicKey.addCiphertexts, hvalid, ok_bind, hvalid', ok_bind, nSquared_eq hpk]
    rfl
  · have hlt : a * b % sk.n ^ 2 < sk.n ^ 2 := Nat.mod_lt _ (pow_pos (n_pos hpk) 2)
    rw [decrypt_of_lt h hlt (hx.mul hy), ← Nat.cast_add, ← Int.natCast_mod, Int.toNat_natCast]

theorem decrypt_addPlaintext (h : sk.validate = .ok ()) {a x : ℕ} (ha : sk.decrypt a = .ok x)
    (k : ℤ) : ∃ c, sk.addPlaintext a k = .ok c ∧ sk.decrypt c = .ok ((x + k) % sk.n).toNat := by
  obtain ⟨hpk, -⟩ := validate_spec h
  obtain ⟨hvalid, hx⟩ := encrypts_of_decrypt h ha
  rw [PublicKey.addPlaintext, hvalid, ok_bind, nSquared_eq hpk]
  have hlt := Nat.mod_lt (a * expMod sk.g (k % sk.n).toNat (sk.n ^ 2)) (pow_pos (n_pos hpk) 2)
  exact ⟨_, rfl, decrypt_of_lt h hlt (hx.mul (encrypts_generator_pow hpk k))⟩

theorem decrypt_mulPlaintext (h : sk.validate = .ok ()) {a x : ℕ} (ha : sk.decrypt a = .ok x)
    (k : ℤ) : ∃ c, sk.mulPlaintext a k = .ok c ∧ sk.decrypt c = .ok ((k * x) % sk.n).toNat := by
  obtain ⟨hpk, -⟩ := validate_spec h
  obtain ⟨hvalid, hx⟩ := encrypts_of_decrypt h ha
  rw [PublicKey.mulPlaintext, hvalid, ok_bind, nSquared_eq hpk]
  have hlt := expMod_lt (pow_pos (n_pos hpk) 2) a (k % sk.n).toNat
  exact ⟨_, rfl, decrypt_of_lt h hlt (hx.mul_residue hpk k)⟩

theorem decrypt_oMulPublic (h : sk.validate = .ok ()) {a x : ℕ} (ha : sk.decrypt a = .ok x)
    (k : ℤ) :
    ∃ c, oMulPublic sk.toPublicKey k a = .ok c ∧ sk.decrypt c = .ok ((k * x) % sk.n).toNat := by
  obtain ⟨hvalid, hx⟩ := encrypts_of_decrypt h ha
  obtain ⟨c, hc, hlt, hencrypts⟩ := oMulPublic_encrypts hvalid hx k
  exact ⟨c, hc, decrypt_of_lt h hlt hencrypts⟩

/-- Paillier is exact. -/
theorem paillier_exact (h : sk.validate = .ok ()) :
    (∀ m r : ℤ, Int.gcd r sk.n = 1 →
      ∃ c, sk.encryptWithSignedRandomness m r = .ok c ∧
        sk.decrypt c = .ok (m % sk.n).toNat) ∧
    (∀ c, c < sk.n ^ 2 → c.Coprime (sk.n ^ 2) →
      (∃! o : ℕ × ℕ, sk.IsOpening c o.1 o.2) ∧
      ∀ m r, sk.IsOpening c m r → sk.recoverOpening c = .ok (centered sk.n m, r) ∧
        (sk.n : ℤ) ∣ centered sk.n m - m ∧ -(sk.n : ℤ) < 2 * centered sk.n m ∧
          2 * centered sk.n m ≤ sk.n) ∧
    ∀ a x, sk.decrypt a = .ok x →
      (∀ b y, sk.decrypt b = .ok y →
        ∃ c, sk.addCiphertexts a b = .ok c ∧ sk.decrypt c = .ok ((x + y) % sk.n)) ∧
      ∀ k : ℤ,
        (∃ c, sk.addPlaintext a k = .ok c ∧ sk.decrypt c = .ok ((x + k) % sk.n).toNat) ∧
        (∃ c, sk.mulPlaintext a k = .ok c ∧ sk.decrypt c = .ok ((k * x) % sk.n).toNat) ∧
        ∃ c, oMulPublic sk.toPublicKey k a = .ok c ∧
          sk.decrypt c = .ok ((k * x) % sk.n).toNat := by
  obtain ⟨hpk, -⟩ := validate_spec h
  refine ⟨fun m r hr => decrypt_encryptWithSignedRandomness h m hr, ?_, ?_⟩
  · intro c hlt hcop
    have hvalid := validateCiphertext_of_coprime hpk hlt hcop
    refine ⟨existsUnique_opening h hvalid, ?_⟩
    intro m r ho
    refine ⟨recoverOpening_of_isOpening h hvalid ho, (centered_spec ho.1).1, ?_⟩
    have hm := ho.1
    rw [centered]
    split <;> omega
  · intro a x ha
    refine ⟨fun b y hb => decrypt_addCiphertexts h ha hb, ?_⟩
    intro k
    exact ⟨decrypt_addPlaintext h ha k, decrypt_mulPlaintext h ha k, decrypt_oMulPublic h ha k⟩

end PrivateKey

/-- The key of the primes 5 and 13. -/
def PrivateKey.fiveThirteen : PrivateKey :=
  { n := 65, g := 66, nSquared := 4225, lambda := 12, mu := 38, p := 5, q := 13 }

/-- A negative message and a negative randomness. -/
theorem paillier_exact_fiveThirteen :
    PrivateKey.fiveThirteen.validate = .ok () ∧
      ∃ c, PrivateKey.fiveThirteen.encryptWithSignedRandomness (-3) (-7) = .ok c ∧
        PrivateKey.fiveThirteen.decrypt c = .ok 62 := by
  have hvalid : PrivateKey.fiveThirteen.validate = .ok () := by decide +kernel
  exact ⟨hvalid, (PrivateKey.paillier_exact hvalid).1 (-3) (-7) (by decide)⟩

end Tss.Paillier
