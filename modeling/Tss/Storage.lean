import Mathlib.Data.List.Basic
import Tss.Errors
import Tss.Lib.Fallible

/-!
# Passphrase storage records (`storage.go`)

A record is a header, a nonce and a ciphertext that is sealed with the header
as associated data. The header has the key ID in its middle, so the offsets
after it depend on a byte of the input. An index or a slice bound outside the
input is an outcome of its own, `StorageError.outOfRange`: in Go it panics.
-/

namespace Tss.Storage

open Fallible

/-- How a storage function ends without a result. -/
inductive StorageError where
  | err (e : GoError)
  /-- An index or a slice bound is outside the input. -/
  | outOfRange
deriving DecidableEq

abbrev StorageM := Except StorageError

/-- `encoded[pos]` and `pos++`, on what is left from `pos` on. -/
def next : Bytes → StorageM (UInt8 × Bytes)
  | [] => .error .outOfRange
  | b :: rest => .ok (b, rest)

/-- `encoded[pos : pos+n]` and `pos += n`, on what is left from `pos` on. -/
def nextN (n : ℕ) (rest : Bytes) : StorageM (Bytes × Bytes) :=
  if n ≤ rest.length then .ok (rest.take n, rest.drop n) else .error .outOfRange

/-! ## Constants and parameters -/

def storageVersion : UInt8 := 1
def kdfArgon2id : UInt8 := 0
def recordTypeKeyShare : UInt8 := 0
def recordTypePresign : UInt8 := 1
def recordTypeSignAttempt : UInt8 := 2
def saltLen : ℕ := 32
def nonceLen : ℕ := 12
def keyLen : ℕ := 32
def minHeaderLen : ℕ := 46
def maxKeyIDLen : ℕ := 255
def maxKDFTime : UInt32 := 4
def maxKDFMemory : UInt32 := 128 * 1024
def maxKDFThreads : UInt8 := 8

structure PassphraseParams where
  time : UInt32
  memory : UInt32
  threads : UInt8
deriving DecidableEq

def defaultPassphraseParams : PassphraseParams := ⟨3, 64 * 1024, 4⟩

/-- `argon2.IDKey` and the AEAD of `chacha20poly1305`, with what is assumed of the AEAD: it opens
what it sealed, and a ciphertext is `Overhead` bytes longer than its plaintext. -/
class StorageCrypto where
  idKey : (passphrase salt : Bytes) → (time memory : UInt32) → (threads : UInt8) →
    (keyLen : ℕ) → Vector UInt8 keyLen
  sealWith : (key nonce plaintext additional : Bytes) → Bytes
  openWith : (key nonce ciphertext additional : Bytes) → Option Bytes
  openWith_sealWith : ∀ key nonce plaintext additional,
    openWith key nonce (sealWith key nonce plaintext additional) additional = some plaintext
  length_of_openWith : ∀ {key nonce ciphertext additional plaintext},
    openWith key nonce ciphertext additional = some plaintext →
      ciphertext.length = plaintext.length + 16

def requirePassphrase (passphrase : Bytes) (operation : String) : StorageM Unit :=
  rejectIf (passphrase.length = 0)
    (.err (.new ("tss " ++ operation ++ ": passphrase must not be empty")))

def validateKDFParams (p : PassphraseParams) : Except GoError Unit := do
  rejectIf (p.time = 0 ∨ p.memory = 0 ∨ p.threads = 0)
    (.new "tss: invalid argon2id parameters: zero value")
  rejectIf (p.time > maxKDFTime) (.errorf "tss: argon2id time %d exceeds maximum %d"
    [.num p.time.toNat, .num maxKDFTime.toNat])
  rejectIf (p.memory > maxKDFMemory)
    (.errorf "tss: argon2id memory %d KiB exceeds maximum %d KiB"
      [.num p.memory.toNat, .num maxKDFMemory.toNat])
  rejectIf (p.threads > maxKDFThreads) (.errorf "tss: argon2id threads %d exceeds maximum %d"
    [.num p.threads.toNat, .num maxKDFThreads.toNat])

section Records

variable [StorageCrypto]

def deriveKeyArgon2id (passphrase salt : Bytes) (p : PassphraseParams) : Except GoError Bytes := do
  validateKDFParams p
  return (StorageCrypto.idKey passphrase salt p.time p.memory p.threads keyLen).toList

/-- `chacha20poly1305.New`: the key, once its length is checked. -/
def newAead (key : Bytes) : Except GoError Bytes := do
  rejectIf (key.length ≠ 32) (.new "chacha20poly1305: bad key length")
  return key

/-- The error of a step of `encrypt` or `decrypt`, with its context. -/
def wrapError {α : Type} (format : String) (x : Except GoError α) : StorageM α :=
  x.mapError fun e => .err (.wrap format [] e)

/-! ## Header -/

structure Header where
  version : UInt8
  kdfAlgorithm : UInt8
  params : PassphraseParams
  recordType : UInt8
  keyID : GoString
  salt : Bytes
  payloadStart : ℕ

/-- `parseHeader`: the position is what has been read of the input. -/
def parseHeader (encoded : Bytes) : StorageM Header := do
  rejectIf (encoded.length < minHeaderLen)
    (.err (.new "tss decrypt: encoded data too short for header"))
  let (version, rest) ← next encoded
  let (kdfAlgorithm, rest) ← next rest
  let (time, rest) ← nextN 4 rest
  let (memory, rest) ← nextN 4 rest
  let (threads, rest) ← next rest
  let (recordType, rest) ← next rest
  let (keyIDLen, rest) ← next rest
  rejectIf (keyIDLen.toNat > 0 ∧ rest.length < keyIDLen.toNat)
    (.err (.new "tss decrypt: encoded data too short for key_id"))
  let (keyID, rest) ← nextN keyIDLen.toNat rest
  let (saltLenByte, rest) ← next rest
  rejectIf (saltLenByte.toNat ≠ saltLen)
    (.err (.errorf "tss decrypt: unexpected salt length %d (expected %d)"
      [.num saltLenByte.toNat, .num saltLen]))
  rejectIf (rest.length < saltLen) (.err (.new "tss decrypt: encoded data too short for salt"))
  let (salt, rest) ← nextN saltLen rest
  return { version, kdfAlgorithm, recordType, keyID, salt
           params := ⟨UInt32.ofNat (beNat time), UInt32.ofNat (beNat memory), threads⟩
           payloadStart := encoded.length - rest.length }

/-- The bytes of a header. -/
def Header.encode (h : Header) : Bytes :=
  [h.version, h.kdfAlgorithm] ++ be32 h.params.time.toNat ++ be32 h.params.memory.toNat ++
    [h.params.threads, h.recordType, UInt8.ofNat h.keyID.length] ++ h.keyID ++
    [UInt8.ofNat saltLen] ++ h.salt

def buildAAD (recordType : UInt8) (keyID : GoString) (salt : Bytes) (params : PassphraseParams) :
    Bytes :=
  [storageVersion, kdfArgon2id] ++ be32 params.time.toNat ++ be32 params.memory.toNat ++
    [params.threads, recordType, UInt8.ofNat keyID.length] ++ keyID ++ [UInt8.ofNat saltLen] ++ salt

/-! ## Records -/

/-- `encrypt`, with what it reads from the random source. -/
def encrypt (plaintext passphrase : Bytes) (recordType : UInt8) (keyID : GoString)
    (params : Option PassphraseParams) (salt : Except GoError (Vector UInt8 saltLen))
    (nonce : Except GoError (Vector UInt8 nonceLen)) : StorageM Bytes := do
  requirePassphrase passphrase "encrypt"
  let params := params.getD defaultPassphraseParams
  (validateKDFParams params).mapError .err
  rejectIf (keyID.length > maxKeyIDLen) (.err (.errorf "tss encrypt: keyID too long (%d > %d)"
    [.num keyID.length, .num maxKeyIDLen]))
  let salt ← wrapError "tss encrypt: salt: %w" salt
  let derived ← wrapError "tss encrypt: %w" (deriveKeyArgon2id passphrase salt.toList params)
  let key ← wrapError "tss encrypt: %w" (newAead derived)
  let nonce ← wrapError "tss encrypt: nonce: %w" nonce
  let aad := buildAAD recordType keyID salt.toList params
  return aad ++ nonce.toList ++ StorageCrypto.sealWith key nonce.toList plaintext aad

/-- `EncryptKeyShareWithPassphrase`, `EncryptPresignWithPassphrase` and
`EncryptSignAttemptWithPassphrase`. -/
def encryptKeyShareWithPassphrase (plaintext passphrase : Bytes) (keyID : GoString)
    (params : Option PassphraseParams) (salt : Except GoError (Vector UInt8 saltLen))
    (nonce : Except GoError (Vector UInt8 nonceLen)) : StorageM Bytes :=
  encrypt plaintext passphrase recordTypeKeyShare keyID params salt nonce

@[inherit_doc encryptKeyShareWithPassphrase]
def encryptPresignWithPassphrase (plaintext passphrase : Bytes) (keyID : GoString)
    (params : Option PassphraseParams) (salt : Except GoError (Vector UInt8 saltLen))
    (nonce : Except GoError (Vector UInt8 nonceLen)) : StorageM Bytes :=
  encrypt plaintext passphrase recordTypePresign keyID params salt nonce

@[inherit_doc encryptKeyShareWithPassphrase]
def encryptSignAttemptWithPassphrase (plaintext passphrase : Bytes) (keyID : GoString)
    (params : Option PassphraseParams) (salt : Except GoError (Vector UInt8 saltLen))
    (nonce : Except GoError (Vector UInt8 nonceLen)) : StorageM Bytes :=
  encrypt plaintext passphrase recordTypeSignAttempt keyID params salt nonce

def decrypt (encoded passphrase : Bytes) (expectedRecordType : UInt8) : StorageM Bytes := do
  requirePassphrase passphrase "decrypt"
  rejectIf (encoded.length < minHeaderLen + nonceLen + 16)
    (.err (.new "tss decrypt: encoded data too short"))
  let hdr ← parseHeader encoded
  rejectIf (hdr.version ≠ storageVersion)
    (.err (.errorf "tss decrypt: unknown version %d" [.num hdr.version.toNat]))
  rejectIf (hdr.kdfAlgorithm ≠ kdfArgon2id)
    (.err (.errorf "tss decrypt: unknown KDF algorithm %d" [.num hdr.kdfAlgorithm.toNat]))
  rejectIf (hdr.recordType ≠ expectedRecordType)
    (.err (.errorf "tss decrypt: unexpected record type %d (expected %d)"
      [.num hdr.recordType.toNat, .num expectedRecordType.toNat]))
  let nonceStart := hdr.payloadStart
  rejectIf (encoded.length < nonceStart + nonceLen)
    (.err (.new "tss decrypt: encoded data too short for nonce"))
  let (aad, payload) ← nextN nonceStart encoded
  let (nonce, ciphertext) ← nextN nonceLen payload
  let derived ← wrapError "tss decrypt: %w" (deriveKeyArgon2id passphrase hdr.salt hdr.params)
  let key ← wrapError "tss decrypt: %w" (newAead derived)
  match StorageCrypto.openWith key nonce ciphertext aad with
  | some plaintext => return plaintext
  | none => throw (.err (.wrap "tss decrypt: %w" []
      (.new "chacha20poly1305: message authentication failed")))

def decryptExpectedKeyID (encoded passphrase : Bytes) (recordType : UInt8)
    (expectedKeyID : GoString) : StorageM Bytes := do
  requirePassphrase passphrase "decrypt"
  let hdr ← parseHeader encoded
  let plaintext ← decrypt encoded passphrase recordType
  rejectIf (hdr.keyID ≠ expectedKeyID) (.err (.wrap "%w: got %q, want %q"
    [.text hdr.keyID, .text expectedKeyID] (.new "storage key id mismatch")))
  return plaintext

def decryptKeyShareWithPassphrase (encoded passphrase : Bytes) (expectedKeyID : GoString) :
    StorageM Bytes :=
  decryptExpectedKeyID encoded passphrase recordTypeKeyShare expectedKeyID

def decryptPresignWithPassphrase (encoded passphrase : Bytes) (expectedKeyID : GoString) :
    StorageM Bytes :=
  decryptExpectedKeyID encoded passphrase recordTypePresign expectedKeyID

def decryptSignAttemptWithPassphrase (encoded passphrase : Bytes) (expectedKeyID : GoString) :
    StorageM Bytes :=
  decryptExpectedKeyID encoded passphrase recordTypeSignAttempt expectedKeyID

def decryptSignAttemptWithPassphraseAndKeyID (encoded passphrase : Bytes) :
    StorageM (Bytes × GoString) := do
  requirePassphrase passphrase "decrypt"
  let hdr ← parseHeader encoded
  let plaintext ← decrypt encoded passphrase recordTypeSignAttempt
  return (plaintext, hdr.keyID)

/-! ## Reading a header -/

omit [StorageCrypto] in
theorem next_eq_ok {b rest : Bytes} {x : UInt8} : next b = .ok (x, rest) ↔ b = x :: rest := by
  cases b <;> simp [next]

omit [StorageCrypto] in
theorem nextN_eq_ok {b x rest : Bytes} {n : ℕ} :
    nextN n b = .ok (x, rest) ↔ x.length = n ∧ b = x ++ rest := by
  rw [nextN]
  constructor
  · intro h
    split at h
    · next hlong =>
      cases h
      exact ⟨List.length_take_of_le hlong, (List.take_append_drop n b).symm⟩
    · cases h
  · rintro ⟨rfl, rfl⟩
    simp

/-- What `parseHeader` guarantees of the header it returns. -/
structure Header.Valid (h : Header) : Prop where
  keyID : h.keyID.length ≤ maxKeyIDLen
  salt : h.salt.length = saltLen
  payloadStart : h.payloadStart = minHeaderLen + h.keyID.length

omit [StorageCrypto] in
theorem Header.Valid.length_encode {h : Header} (hvalid : h.Valid) :
    h.encode.length = h.payloadStart := by
  simp only [Header.encode, be32, List.length_append, List.length_cons, List.length_nil,
    hvalid.salt, hvalid.payloadStart, saltLen, minHeaderLen]
  omega

omit [StorageCrypto] in
theorem be32_of_beNat {b : Bytes} (h : b.length = 4) : be32 (UInt32.ofNat (beNat b)).toNat = b := by
  have hlt := beNat_lt b
  rw [h] at hlt
  rw [UInt32.toNat_ofNat_of_lt' hlt, be32_beNat h]

variable {encoded : Bytes}

omit [StorageCrypto] in
theorem parseHeader_eq_ok {h : Header} :
    parseHeader encoded = .ok h ↔ h.Valid ∧ ∃ after, encoded = h.encode ++ after := by
  simp only [parseHeader, bind_eq_ok, rejectIf_eq_ok, Prod.exists, next_eq_ok, nextN_eq_ok]
  constructor
  · rintro ⟨_, -, version, _, rfl, algorithm, _, rfl, time, _, ⟨htime, rfl⟩, memory, _,
      ⟨hmemory, rfl⟩, threads, _, rfl, recordType, _, rfl, keyIDLen, _, rfl, _, -, keyID, _,
      ⟨hkeyID, rfl⟩, saltLenByte, _, rfl, _, hbyte, _, -, salt, after, ⟨hsalt, rfl⟩, hreturn⟩
    cases hreturn
    have hlt := keyIDLen.toNat_lt
    have hsaltLen : UInt8.ofNat saltLen = saltLenByte := by
      rw [← not_not.mp hbyte, UInt8.ofNat_toNat]
    refine ⟨⟨?_, hsalt, ?_⟩, after, ?_⟩
    · show keyID.length ≤ 255
      omega
    · simp only [List.length_cons, List.length_append, htime, hmemory, hsalt, minHeaderLen, saltLen]
      omega
    · simp only [Header.encode, be32_of_beNat htime, be32_of_beNat hmemory, hkeyID, hsaltLen,
        UInt8.ofNat_toNat, List.append_assoc, List.cons_append, List.nil_append]
  · rintro ⟨hvalid, after, rfl⟩
    have hlength := hvalid.length_encode
    have hkeyID : (UInt8.ofNat h.keyID.length).toNat = h.keyID.length :=
      UInt8.toNat_ofNat_of_lt' (Nat.lt_succ_of_le hvalid.keyID)
    have htime := beNat_be32 h.params.time.toNat_lt
    have hmemory := beNat_be32 h.params.memory.toNat_lt
    refine ⟨(), ?_, h.version, _, rfl, h.kdfAlgorithm, _, rfl, be32 h.params.time.toNat, _,
      ⟨rfl, rfl⟩, be32 h.params.memory.toNat, _, ⟨rfl, rfl⟩, h.params.threads, _, rfl,
      h.recordType, _, rfl, UInt8.ofNat h.keyID.length,
      h.keyID ++ UInt8.ofNat saltLen :: (h.salt ++ after), ?_, (), ?_, h.keyID, _,
      ⟨hkeyID.symm, rfl⟩, UInt8.ofNat saltLen, h.salt ++ after, rfl, (), by decide, (), ?_, h.salt,
      after, ⟨hvalid.salt, rfl⟩, ?_⟩
    · rw [List.length_append, hlength, hvalid.payloadStart]
      omega
    · simp
    · rw [hkeyID, List.length_append]
      omega
    · rw [List.length_append, hvalid.salt]
      omega
    · rw [List.length_append, hlength, Nat.add_sub_cancel, htime, hmemory, UInt32.ofNat_toNat,
        UInt32.ofNat_toNat]
      rfl

/-- The outcome is a result or an error. -/
def InRange {α : Type} (x : StorageM α) : Prop := x ≠ .error .outOfRange

omit [StorageCrypto] in
theorem InRange.bind {α β : Type} {x : StorageM α} {f : α → StorageM β} (hx : InRange x)
    (hf : ∀ a, x = .ok a → InRange (f a)) : InRange (x >>= f) := by
  intro h
  rcases bind_eq_error.mp h with h | ⟨a, ha, h⟩
  · exact hx h
  · exact hf a ha h

omit [StorageCrypto] in
theorem inRange_rejectIf {bad : Prop} [Decidable bad] {e : GoError} :
    InRange (rejectIf bad (StorageError.err e)) := by
  intro h
  cases (rejectIf_eq_error.mp h).2

/-! ## Reading a record -/

omit [StorageCrypto] in
theorem wrapError_eq_ok {α : Type} {format : String} {x : Except GoError α} {a : α} :
    wrapError format x = .ok a ↔ x = .ok a :=
  mapError_eq_ok

variable {passphrase : Bytes}

omit [StorageCrypto] in
theorem requirePassphrase_eq_ok {operation : String} {u : Unit} :
    requirePassphrase passphrase operation = .ok u ↔ passphrase ≠ [] := by
  rw [requirePassphrase, rejectIf_eq_ok, List.length_eq_zero_iff]

/-- The key of a record. -/
def recordKey (passphrase salt : Bytes) (params : PassphraseParams) : Bytes :=
  (StorageCrypto.idKey passphrase salt params.time params.memory params.threads keyLen).toList

/-- `deriveKeyArgon2id` with `chacha20poly1305.New`: the derived key has the right length. -/
theorem derive_eq_ok {salt key : Bytes} {params : PassphraseParams} :
    (∃ derived, deriveKeyArgon2id passphrase salt params = .ok derived ∧ newAead derived = .ok key) ↔
      validateKDFParams params = .ok () ∧ key = recordKey passphrase salt params := by
  simp only [deriveKeyArgon2id, newAead, seq_eq_ok, rejectIf_eq_ok]
  constructor
  · rintro ⟨derived, ⟨hparams, hderived⟩, -, hkey⟩
    cases hderived
    cases hkey
    exact ⟨hparams, rfl⟩
  · rintro ⟨hparams, rfl⟩
    exact ⟨_, ⟨hparams, rfl⟩, by simp [keyLen], rfl⟩

/-- The input is the record of `plaintext` under a key ID that fits its length byte. -/
def IsRecord (recordType : UInt8) (passphrase : Bytes) (keyID : GoString)
    (encoded plaintext : Bytes) : Prop :=
  keyID.length ≤ maxKeyIDLen ∧
  ∃ (salt nonce ciphertext : Bytes) (params : PassphraseParams),
    salt.length = saltLen ∧ nonce.length = nonceLen ∧ validateKDFParams params = .ok () ∧
    encoded = buildAAD recordType keyID salt params ++ nonce ++ ciphertext ∧
    StorageCrypto.openWith (recordKey passphrase salt params) nonce ciphertext
      (buildAAD recordType keyID salt params) = some plaintext

omit [StorageCrypto] in
theorem parseHeader_buildAAD {keyID : GoString} (hkeyID : keyID.length ≤ maxKeyIDLen) {salt : Bytes}
    (hsalt : salt.length = saltLen) (recordType : UInt8) (params : PassphraseParams)
    (nonce ciphertext : Bytes) :
    parseHeader (buildAAD recordType keyID salt params ++ nonce ++ ciphertext) =
      .ok ⟨storageVersion, kdfArgon2id, params, recordType, keyID, salt,
        minHeaderLen + keyID.length⟩ :=
  parseHeader_eq_ok.mpr ⟨⟨hkeyID, hsalt, rfl⟩, nonce ++ ciphertext, List.append_assoc _ _ _⟩

variable {plaintext : Bytes} {recordType : UInt8}

/-- `decrypt` returns exactly the plaintext of a record. -/
theorem decrypt_eq_ok (hpassphrase : passphrase ≠ []) {h : Header}
    (hparse : parseHeader encoded = .ok h) :
    decrypt encoded passphrase recordType = .ok plaintext ↔
      IsRecord recordType passphrase h.keyID encoded plaintext := by
  obtain ⟨hvalid, after, hencoded⟩ := parseHeader_eq_ok.mp hparse
  have hlength := hvalid.length_encode
  simp only [decrypt, bind_eq_ok, requirePassphrase_eq_ok, rejectIf_eq_ok, hparse, Except.ok.injEq,
    exists_eq_left', exists_const, Prod.exists, nextN_eq_ok, wrapError_eq_ok, not_not]
  constructor
  · rintro ⟨-, -, hversion, halgorithm, htype, -, aad, payload, ⟨haad, hsplit⟩, nonce, ciphertext,
      ⟨hnonce, rfl⟩, derived, hderived, key, hkey, hopen⟩
    obtain ⟨hparams, rfl⟩ := derive_eq_ok.mp ⟨derived, hderived, hkey⟩
    have hbuild : h.encode = buildAAD recordType h.keyID h.salt h.params := by
      rw [Header.encode, hversion, halgorithm, htype]
      rfl
    obtain ⟨rfl, -⟩ := List.append_inj (hencoded.symm.trans hsplit) (by omega)
    rw [hbuild] at hsplit hopen
    refine ⟨hvalid.keyID, h.salt, nonce, ciphertext, h.params, hvalid.salt, hnonce, hparams, ?_, ?_⟩
    · rw [List.append_assoc]
      exact hsplit
    · split at hopen
      · next hopens =>
        cases hopen
        exact hopens
      · cases hopen
  · rintro ⟨hkeyID, salt, nonce, ciphertext, params, hsalt, hnonce, hparams, hbuild, hopen⟩
    -- the header is the one the record was built with
    have hrecord := parseHeader_buildAAD hkeyID hsalt recordType params nonce ciphertext
    rw [← hbuild, hparse] at hrecord
    generalize h.keyID = keyID at hkeyID hbuild hopen hrecord
    cases hrecord
    obtain ⟨derived, hderived, hkey⟩ := derive_eq_ok.mpr ⟨hparams, rfl⟩
    have hlong := StorageCrypto.length_of_openWith hopen
    have htotal : encoded.length = minHeaderLen + keyID.length + nonceLen + ciphertext.length := by
      rw [hbuild, List.length_append, List.length_append, hnonce]
      exact congrArg (· + nonceLen + ciphertext.length) hlength
    refine ⟨hpassphrase, by omega, rfl, rfl, rfl, by dsimp only; omega, buildAAD recordType keyID
      salt params, nonce ++ ciphertext, ⟨hlength, ?_⟩, nonce, ciphertext, ⟨hnonce, rfl⟩, derived,
      hderived, _, hkey, ?_⟩
    · rw [hbuild, List.append_assoc]
    · rw [hopen]
      rfl

/-- The header of a record is read, and then the record is. -/
theorem exists_header (hpassphrase : passphrase ≠ []) {keyID : GoString}
    (h : IsRecord recordType passphrase keyID encoded plaintext) :
    ∃ hdr, parseHeader encoded = .ok hdr ∧ hdr.keyID = keyID ∧
      decrypt encoded passphrase recordType = .ok plaintext := by
  obtain ⟨hkeyID, salt, nonce, ciphertext, params, hsalt, -, -, hencoded, -⟩ := id h
  have hparse := parseHeader_buildAAD hkeyID hsalt recordType params nonce ciphertext
  rw [← hencoded] at hparse
  exact ⟨_, hparse, rfl, (decrypt_eq_ok hpassphrase hparse).mpr h⟩

/-! ## Indices -/

omit [StorageCrypto] in
theorem inRange_wrapError {α : Type} {format : String} {x : Except GoError α} :
    InRange (wrapError format x) := by
  intro h
  cases x <;> cases h

omit [StorageCrypto] in
theorem inRange_nextN {n : ℕ} {rest : Bytes} (h : n ≤ rest.length) : InRange (nextN n rest) := by
  rw [InRange, nextN, if_pos h]
  intro hok
  cases hok

omit [StorageCrypto] in
/-- The length of the salt is looked for past the end of an input that ends after its key ID. -/
theorem inRange_parseHeader_iff :
    InRange (parseHeader encoded) ↔
      ¬ (minHeaderLen ≤ encoded.length ∧ encoded.length = 13 + (encoded.getD 12 0).toNat) := by
  by_cases hshort : encoded.length < minHeaderLen
  · rw [InRange, parseHeader, rejectIf, if_pos hshort]
    exact ⟨fun _ h => by omega, fun _ h => by cases h⟩
  have hlong : 46 ≤ encoded.length := Nat.le_of_not_lt hshort
  have hnext : ∀ {b : Bytes}, 0 < b.length → ∃ x rest, b = x :: rest ∧ b.length = rest.length + 1 := by
    intro b hb
    obtain ⟨x, rest, rfl⟩ := List.exists_cons_of_length_pos hb
    exact ⟨x, rest, rfl, rfl⟩
  have hnextN : ∀ {n : ℕ} {b : Bytes}, n ≤ b.length →
      ∃ x rest, x.length = n ∧ b = x ++ rest ∧ b.length = rest.length + n := by
    intro n b hb
    refine ⟨b.take n, b.drop n, List.length_take_of_le hb, (List.take_append_drop n b).symm, ?_⟩
    rw [List.length_drop]
    omega
  obtain ⟨v, r₁, rfl, h₁⟩ := hnext (b := encoded) (by omega)
  obtain ⟨a, r₂, rfl, h₂⟩ := hnext (b := r₁) (by omega)
  obtain ⟨time, r₃, htime, rfl, h₃⟩ := hnextN (n := 4) (b := r₂) (by omega)
  obtain ⟨memory, r₄, hmemory, rfl, h₄⟩ := hnextN (n := 4) (b := r₃) (by omega)
  obtain ⟨th, r₅, rfl, h₅⟩ := hnext (b := r₄) (by omega)
  obtain ⟨rt, r₆, rfl, h₆⟩ := hnext (b := r₅) (by omega)
  obtain ⟨k, r₇, rfl, h₇⟩ := hnext (b := r₆) (by omega)
  have hk : (v :: a :: (time ++ (memory ++ th :: rt :: k :: r₇))).getD 12 0 = k := by
    match time, memory, htime, hmemory with
    | [_, _, _, _], [_, _, _, _], _, _ => rfl
  have hreads := nextN_eq_ok.mpr ⟨htime, (rfl : time ++ (memory ++ th :: rt :: k :: r₇) = _)⟩
  have hreads' := nextN_eq_ok.mpr ⟨hmemory, (rfl : memory ++ th :: rt :: k :: r₇ = _)⟩
  have hlen : minHeaderLen ≤ 13 + r₇.length := by
    show 46 ≤ _
    omega
  rw [hk, show (v :: a :: (time ++ (memory ++ th :: rt :: k :: r₇))).length = 13 + r₇.length by
    omega, parseHeader, rejectIf, if_neg hshort]
  simp only [next, hreads, hreads', ok_bind]
  by_cases hkey : r₇.length < k.toNat
  · refine ⟨fun _ h => by omega, fun _ => inRange_rejectIf.bind ?_⟩
    intro _ hok
    exact absurd ⟨by omega, hkey⟩ (rejectIf_eq_ok.mp hok)
  · rw [rejectIf, if_neg (by omega), ok_bind]
    obtain ⟨keyID, r₈, hkeyID, rfl, h₈⟩ := hnextN (n := k.toNat) (b := r₇) (by omega)
    rw [nextN_eq_ok.mpr ⟨hkeyID, rfl⟩, ok_bind]
    cases r₈ with
    | nil => exact ⟨fun h => absurd rfl h, fun h => absurd ⟨hlen, by simpa using hkeyID⟩ h⟩
    | cons b r₉ =>
      refine ⟨fun _ h => by simp only [List.length_cons] at h₈; omega,
        fun _ => inRange_rejectIf.bind ?_⟩
      intro _ _
      apply inRange_rejectIf.bind
      intro _ hsalt
      exact (inRange_nextN (Nat.le_of_not_lt (rejectIf_eq_ok.mp hsalt))).bind
        fun _ _ h => by cases h

/-- Once the header is read, `decrypt` takes no index outside the input. -/
theorem inRange_decrypt (hparse : InRange (parseHeader encoded)) :
    InRange (decrypt encoded passphrase recordType) := by
  apply inRange_rejectIf.bind
  intro _ _
  apply inRange_rejectIf.bind
  intro _ _
  apply hparse.bind
  intro h _
  apply inRange_rejectIf.bind
  intro _ _
  apply inRange_rejectIf.bind
  intro _ _
  apply inRange_rejectIf.bind
  intro _ _
  apply inRange_rejectIf.bind
  intro _ hroom
  have hroom := rejectIf_eq_ok.mp hroom
  apply (inRange_nextN (by omega)).bind
  rintro ⟨aad, payload⟩ hsplit
  obtain ⟨haad, rfl⟩ := nextN_eq_ok.mp hsplit
  rw [List.length_append] at hroom
  apply (inRange_nextN (by omega)).bind
  intro _ _
  apply inRange_wrapError.bind
  intro _ _
  apply inRange_wrapError.bind
  intro _ _
  split <;> intro h <;> cases h

/-- A function that parses the header and then decrypts takes an index outside the input exactly
when the input ends right after its key ID. -/
theorem inRange_parse_decrypt_iff {α : Type} (hpassphrase : passphrase ≠ [])
    {f : Header → Bytes → StorageM α} (hf : ∀ h plaintext, InRange (f h plaintext)) :
    InRange (do
        requirePassphrase passphrase "decrypt"
        let hdr ← parseHeader encoded
        let plaintext ← decrypt encoded passphrase recordType
        f hdr plaintext) ↔
      ¬ (minHeaderLen ≤ encoded.length ∧ encoded.length = 13 + (encoded.getD 12 0).toNat) := by
  have hrequire : requirePassphrase passphrase "decrypt" = .ok () :=
    requirePassphrase_eq_ok.mpr hpassphrase
  rw [hrequire, ok_bind, ← inRange_parseHeader_iff]
  constructor
  · intro h hparse
    apply h
    rw [hparse]
    rfl
  · intro hparse
    apply InRange.bind hparse
    intro h _
    apply (inRange_decrypt hparse).bind
    intro plaintext _
    exact hf h plaintext

theorem decryptExpectedKeyID_eq_ok (hpassphrase : passphrase ≠ []) {expectedKeyID : GoString} :
    decryptExpectedKeyID encoded passphrase recordType expectedKeyID = .ok plaintext ↔
      IsRecord recordType passphrase expectedKeyID encoded plaintext := by
  constructor
  · intro hdecrypt
    simp only [decryptExpectedKeyID, bind_eq_ok, rejectIf_eq_ok] at hdecrypt
    obtain ⟨_, -, h, hparse, plaintext', hplain, _, hkeyID, hreturn⟩ := hdecrypt
    cases hreturn
    obtain rfl := not_not.mp hkeyID
    exact (decrypt_eq_ok hpassphrase hparse).mp hplain
  · intro hrecord
    obtain ⟨h, hparse, hkeyID, hplain⟩ := exists_header hpassphrase hrecord
    simp only [decryptExpectedKeyID, bind_eq_ok, requirePassphrase_eq_ok, rejectIf_eq_ok]
    exact ⟨(), hpassphrase, h, hparse, plaintext, hplain, (), not_not.mpr hkeyID, rfl⟩

theorem decryptAndKeyID_eq_ok (hpassphrase : passphrase ≠ []) {keyID : GoString} :
    decryptSignAttemptWithPassphraseAndKeyID encoded passphrase = .ok (plaintext, keyID) ↔
      IsRecord recordTypeSignAttempt passphrase keyID encoded plaintext := by
  constructor
  · intro hdecrypt
    simp only [decryptSignAttemptWithPassphraseAndKeyID, bind_eq_ok] at hdecrypt
    obtain ⟨_, -, h, hparse, plaintext', hplain, hreturn⟩ := hdecrypt
    cases hreturn
    exact (decrypt_eq_ok hpassphrase hparse).mp hplain
  · intro hrecord
    obtain ⟨h, hparse, rfl, hplain⟩ := exists_header hpassphrase hrecord
    simp only [decryptSignAttemptWithPassphraseAndKeyID, bind_eq_ok, requirePassphrase_eq_ok]
    exact ⟨(), hpassphrase, h, hparse, plaintext, hplain, rfl⟩

/-- What is encrypted is a record. -/
theorem encrypt_isRecord {out : Bytes} {keyID : GoString} {params : Option PassphraseParams}
    {salt : Except GoError (Vector UInt8 saltLen)} {nonce : Except GoError (Vector UInt8 nonceLen)}
    (h : encrypt plaintext passphrase recordType keyID params salt nonce = .ok out) :
    IsRecord recordType passphrase keyID out plaintext := by
  simp only [encrypt, bind_eq_ok, rejectIf_eq_ok, wrapError_eq_ok, mapError_eq_ok] at h
  obtain ⟨_, -, _, hparams, _, hkeyID, saltBytes, -, derived, hderived, key, hkey, nonceBytes, -,
    hreturn⟩ := h
  cases hreturn
  obtain ⟨-, rfl⟩ := derive_eq_ok.mp ⟨derived, hderived, hkey⟩
  exact ⟨Nat.le_of_not_lt hkeyID, saltBytes.toList, nonceBytes.toList, _, _, Vector.length_toList,
    Vector.length_toList, hparams, rfl, StorageCrypto.openWith_sealWith _ _ _ _⟩

/-- What the decrypting functions owe on one input: a result or an error, the plaintext exactly of
a record, and that of every record an encrypting function made. -/
structure DecodesExactly (encoded passphrase : Bytes) (expectedKeyID : GoString) : Prop where
  keyShare : InRange (decryptKeyShareWithPassphrase encoded passphrase expectedKeyID) ∧
    ∀ plaintext, decryptKeyShareWithPassphrase encoded passphrase expectedKeyID = .ok plaintext ↔
      IsRecord recordTypeKeyShare passphrase expectedKeyID encoded plaintext
  presign : InRange (decryptPresignWithPassphrase encoded passphrase expectedKeyID) ∧
    ∀ plaintext, decryptPresignWithPassphrase encoded passphrase expectedKeyID = .ok plaintext ↔
      IsRecord recordTypePresign passphrase expectedKeyID encoded plaintext
  signAttempt : InRange (decryptSignAttemptWithPassphrase encoded passphrase expectedKeyID) ∧
    ∀ plaintext,
      decryptSignAttemptWithPassphrase encoded passphrase expectedKeyID = .ok plaintext ↔
        IsRecord recordTypeSignAttempt passphrase expectedKeyID encoded plaintext
  signAttemptAndKeyID : InRange (decryptSignAttemptWithPassphraseAndKeyID encoded passphrase) ∧
    ∀ plaintext keyID,
      decryptSignAttemptWithPassphraseAndKeyID encoded passphrase = .ok (plaintext, keyID) ↔
        IsRecord recordTypeSignAttempt passphrase keyID encoded plaintext
  roundTrip : ∀ plaintext params salt nonce,
    (encryptKeyShareWithPassphrase plaintext passphrase expectedKeyID params salt nonce =
        .ok encoded →
      decryptKeyShareWithPassphrase encoded passphrase expectedKeyID = .ok plaintext) ∧
    (encryptPresignWithPassphrase plaintext passphrase expectedKeyID params salt nonce =
        .ok encoded →
      decryptPresignWithPassphrase encoded passphrase expectedKeyID = .ok plaintext) ∧
    (encryptSignAttemptWithPassphrase plaintext passphrase expectedKeyID params salt nonce =
        .ok encoded →
      decryptSignAttemptWithPassphrase encoded passphrase expectedKeyID = .ok plaintext ∧
      decryptSignAttemptWithPassphraseAndKeyID encoded passphrase =
        .ok (plaintext, expectedKeyID))

/-- Records decode safely and exactly, except for an input of at least `minHeaderLen` bytes that
ends right after its key ID. -/
theorem decodesExactly_iff {passphrase : Bytes} (hpassphrase : passphrase ≠ []) (encoded : Bytes)
    (expectedKeyID : GoString) :
    DecodesExactly encoded passphrase expectedKeyID ↔
      ¬ (minHeaderLen ≤ encoded.length ∧ encoded.length = 13 + (encoded.getD 12 0).toNat) := by
  have hexpected : ∀ recordType,
      InRange (decryptExpectedKeyID encoded passphrase recordType expectedKeyID) ↔
        ¬ (minHeaderLen ≤ encoded.length ∧ encoded.length = 13 + (encoded.getD 12 0).toNat) := by
    intro recordType
    apply inRange_parse_decrypt_iff hpassphrase
    intro h plaintext
    apply inRange_rejectIf.bind
    intro _ _ hreturn
    cases hreturn
  have hkeyID : InRange (decryptSignAttemptWithPassphraseAndKeyID encoded passphrase) ↔
      ¬ (minHeaderLen ≤ encoded.length ∧ encoded.length = 13 + (encoded.getD 12 0).toNat) := by
    apply inRange_parse_decrypt_iff hpassphrase
    intro h plaintext hreturn
    cases hreturn
  constructor
  · intro h
    exact (hexpected recordTypeKeyShare).mp h.keyShare.1
  · intro h
    refine ⟨⟨(hexpected _).mpr h, ?_⟩, ⟨(hexpected _).mpr h, ?_⟩, ⟨(hexpected _).mpr h, ?_⟩,
      ⟨hkeyID.mpr h, ?_⟩, ?_⟩
    · exact fun _ => decryptExpectedKeyID_eq_ok hpassphrase
    · exact fun _ => decryptExpectedKeyID_eq_ok hpassphrase
    · exact fun _ => decryptExpectedKeyID_eq_ok hpassphrase
    · exact fun _ _ => decryptAndKeyID_eq_ok hpassphrase
    · intro plaintext params salt nonce
      refine ⟨fun hout => ?_, fun hout => ?_, fun hout => ⟨?_, ?_⟩⟩
      · exact (decryptExpectedKeyID_eq_ok hpassphrase).mpr (encrypt_isRecord hout)
      · exact (decryptExpectedKeyID_eq_ok hpassphrase).mpr (encrypt_isRecord hout)
      · exact (decryptExpectedKeyID_eq_ok hpassphrase).mpr (encrypt_isRecord hout)
      · exact (decryptAndKeyID_eq_ok hpassphrase).mpr (encrypt_isRecord hout)

end Records

/-! ## An input that ends after its key ID -/

/-- A constant key and an AEAD that appends a tag of zeros. -/
@[reducible] def plainStorageCrypto : StorageCrypto where
  idKey _ _ _ _ _ keyLen := Vector.replicate keyLen 0
  sealWith _ _ plaintext _ := plaintext ++ List.replicate 16 0
  openWith _ _ ciphertext _ :=
    if 16 ≤ ciphertext.length then some (ciphertext.take (ciphertext.length - 16)) else none
  openWith_sealWith := by
    intro _ _ plaintext _
    simp
  length_of_openWith := by
    intro _ _ ciphertext _ plaintext h
    split at h
    · cases h
      rw [List.length_take_of_le (by omega)]
      omega
    · cases h

/-- The 46 bytes of a header that announces a key ID of 33 bytes. -/
def truncatedRecord : Bytes := [1, 0, 0, 0, 0, 3, 0, 1, 0, 0, 4, 0, 33] ++ List.replicate 33 7

/-- The byte after the key ID is read past the end of the input. -/
theorem decrypt_truncatedRecord :
    letI := plainStorageCrypto
    decryptKeyShareWithPassphrase truncatedRecord [1] [] = .error .outOfRange := by
  decide

/-- The record of an empty plaintext decodes exactly. -/
theorem decodesExactly_emptyRecord :
    letI := plainStorageCrypto
    DecodesExactly (buildAAD recordTypeKeyShare [] (List.replicate 32 0) defaultPassphraseParams ++
      List.replicate 28 0) [1] [] := by
  let := plainStorageCrypto
  exact (decodesExactly_iff (by decide) _ _).mpr (by decide)

end Tss.Storage
