import Tss.Curve.Ecdsa

/-!
# Recoverable signatures (`cggmp21/secp256k1/recovery.go`, `types.go`)

The signature that online signing returns, its verification and its
recovery identifier. Recovery parses the point that the identifier
describes and solves for the key; `recovers_iff` says that the identifier
selects the key exactly when it describes the nonce point of the signature,
and `recoveryID_unique` that at most one does.
-/

namespace Tss.Cggmp21

open Secp256k1 Fallible

structure Signature where
  R : Bytes
  S : Bytes
  recoveryID : UInt8
deriving DecidableEq

variable [Curve]

def verifyDigest (publicKey digest : Bytes) (sig : Signature) : Bool :=
  match pointFromBytes publicKey, scalarFromBytes sig.R, scalarFromBytes sig.S with
  | .ok X, .ok r, .ok s => isLowS s && verifyECDSA X digest r s
  | _, _, _ => false

def recoveryIDFromPresignR (rPointBytes : Bytes) (sWasNegated : Bool) : Except String UInt8 :=
  match rPointBytes with
  | [] => .error "invalid presign R point: must be 33-byte compressed SEC1"
  | tag :: x => do
    rejectIf (x.length + 1 ≠ pubkeyLength ∨ (tag ≠ 0x02 ∧ tag ≠ 0x03))
      "invalid presign R point: must be 33-byte compressed SEC1"
    let recid : UInt8 := if tag = 0x03 then 1 else 0
    let recid := if order ≤ beNat x then recid ||| 2 else recid
    pure (if sWasNegated then recid ^^^ 1 else recid)

/-- The `x`-coordinate that a recovery identifier selects: bit 1 adds the order. -/
def recoveryX (r : Nat) (recoveryID : UInt8) : Nat :=
  if recoveryID &&& 2 ≠ 0 then r + order else r

/-- The encoding of the recovery point: bit 0 is the parity of `y`. -/
def compressedR (r : Nat) (recoveryID : UInt8) : Bytes :=
  (0x02 ||| (recoveryID &&& 1)) :: beBytes 32 (recoveryX r recoveryID)

/-- The key that a recoverable signature selects. -/
def recoverPublicKey (digest : Bytes) (sig : Signature) : Except String Bytes := do
  rejectIf (3 < sig.recoveryID ∨ digest.length ≠ 32) "invalid recoverable signature"
  let r ← scalarFromBytes sig.R
  let s ← scalarFromBytes sig.S
  rejectIf (2 ^ 256 ≤ recoveryX (beNat sig.R) sig.recoveryID) "invalid recoverable signature"
  let recoveryPoint ← pointFromBytes (compressedR (beNat sig.R) sig.recoveryID)
  let z ← scalarFromBytesModOrder digest
  let rInv ← scalarInvert r
  pointBytes (rInv • (s • recoveryPoint + scalarBaseMult (-z)))

def signatureRecoveryIDMatchesPublicKey (publicKey digest : Bytes) (sig : Signature) : Bool :=
  match recoverPublicKey digest sig with
  | .ok candidate => candidate == publicKey
  | .error _ => false

theorem verifyDigest_of_nonce {publicKey digest : Bytes} {X R : Point} {r s : Scalar}
    {x y : FieldElement} {recoveryID : UInt8} (hpublic : pointFromBytes publicKey = .ok X)
    (hdigest : digest.length = 32) (hr : r ≠ 0) (hs : s ≠ 0) (hlow : isLowS s = true)
    (hR : coordinates R = some (x, y)) (hx : scalarFromFieldElement x = r)
    (hnonce : s • R = scalarBaseMult (beNat digest : Scalar) + r • X) :
    verifyDigest publicKey digest ⟨scalarBytes r, scalarBytes s, recoveryID⟩ = true := by
  have hparse : ∀ a : Scalar, a ≠ 0 → scalarFromBytes (scalarBytes a) = .ok a :=
    fun a ha => scalarFromBytes_eq_ok.mpr ⟨rfl, ha⟩
  have hverify := verifyECDSA_of_nonce hdigest (pointFromBytes_ne_zero hpublic) hr hs hR hx hnonce
  simp only [verifyDigest, hpublic, hparse r hr, hparse s hs, hlow, hverify, Bool.and_self]

/-- The candidate key is `X` exactly when the recovery point is the nonce point. -/
theorem candidate_eq_iff {X R Q : Point} {r s z : Scalar} (hr : r ≠ 0) (hs : s ≠ 0)
    (hnonce : s • R = scalarBaseMult z + r • X) :
    r⁻¹ • (s • Q + scalarBaseMult (-z)) = X ↔ Q = R := by
  have hneg : scalarBaseMult (-z) = -scalarBaseMult z := neg_smul z generator
  rw [hneg, ← sub_eq_add_neg, inv_smul_eq_iff₀ hr, sub_eq_iff_eq_add, add_comm, ← hnonce]
  exact smul_right_inj hs

/-- An identifier selects the key exactly when it describes the nonce point. -/
theorem recovers_iff {publicKey digest : Bytes} {X R : Point} {r s : Scalar}
    {recoveryID : UInt8} (hpublic : pointFromBytes publicKey = .ok X)
    (hdigest : digest.length = 32) (hr : r ≠ 0) (hs : s ≠ 0)
    (hnonce : s • R = scalarBaseMult (beNat digest : Scalar) + r • X) :
    signatureRecoveryIDMatchesPublicKey publicKey digest
        ⟨scalarBytes r, scalarBytes s, recoveryID⟩ = true ↔
      recoveryID ≤ 3 ∧ recoveryX r.val recoveryID < 2 ^ 256 ∧
        pointBytes R = .ok (compressedR r.val recoveryID) := by
  have hbytes : pointBytes X = .ok publicKey := pointFromBytes_eq_ok.mp hpublic
  have hmatch : ∀ sig : Signature,
      signatureRecoveryIDMatchesPublicKey publicKey digest sig = true ↔
        recoverPublicKey digest sig = .ok publicKey := by
    intro sig
    rw [signatureRecoveryIDMatchesPublicKey]
    cases recoverPublicKey digest sig <;> simp
  rw [hmatch]
  simp only [recoverPublicKey, bind_eq_ok, rejectIf_eq_ok, exists_const, beNat_scalarBytes,
    scalarFromBytes_eq_ok, scalarFromBytesModOrder_eq_ok, scalarInvert_eq_ok, not_or,
    UInt8.not_lt, not_le, not_not]
  constructor
  · rintro ⟨⟨hid, -⟩, r', ⟨hr', -⟩, s', ⟨hs', -⟩, hx, Q, hQ, z, ⟨-, rfl⟩, rInv, ⟨-, rfl⟩, hkey⟩
    obtain rfl := scalarBytes_injective hr'
    obtain rfl := scalarBytes_injective hs'
    have hX : _ = X := Except.ok.inj ((pointFromBytes_eq_ok.mpr hkey).symm.trans hpublic)
    obtain rfl := (candidate_eq_iff hr hs hnonce).mp hX
    exact ⟨hid, hx, pointFromBytes_eq_ok.mp hQ⟩
  · rintro ⟨hid, hx, hR⟩
    have hX := (candidate_eq_iff hr hs hnonce).mpr rfl
    exact ⟨⟨hid, hdigest⟩, r, ⟨rfl, hr⟩, s, ⟨rfl, hs⟩, hx, R, pointFromBytes_eq_ok.mpr hR, _,
      ⟨hdigest, rfl⟩, _, ⟨hr, rfl⟩, hX ▸ hbytes⟩

omit [Curve] in
theorem recoveryID_cases {a : UInt8} (h : a ≤ 3) : a = 0 ∨ a = 1 ∨ a = 2 ∨ a = 3 := by
  have hle : a.toNat ≤ 3 := UInt8.le_iff_toNat_le.mp h
  simp only [← UInt8.toNat_inj, UInt8.reduceToNat]
  omega

/-- At most one identifier describes a point. -/
theorem recoveryID_unique {r : Nat} {a b : UInt8} (ha : a ≤ 3) (hb : b ≤ 3)
    (hxa : recoveryX r a < 2 ^ 256) (hxb : recoveryX r b < 2 ^ 256)
    (h : compressedR r a = compressedR r b) : a = b := by
  obtain ⟨htag, hbytes⟩ := List.cons.inj h
  have hpow : 256 ^ 32 = 2 ^ 256 := by norm_num
  have hx : recoveryX r a = recoveryX r b := by
    have hnat := congrArg beNat hbytes
    rwa [beNat_beBytes (hpow ▸ hxa), beNat_beBytes (hpow ▸ hxb)] at hnat
  have hhigh : a &&& 2 ≠ 0 ↔ b &&& 2 ≠ 0 := by
    have hpos := order_pos
    rw [recoveryX, recoveryX] at hx
    split_ifs at hx with h1 h2 h2 <;> first | tauto | omega
  obtain rfl | rfl | rfl | rfl := recoveryID_cases ha <;>
    obtain rfl | rfl | rfl | rfl := recoveryID_cases hb <;>
      first | rfl | exact absurd htag (by decide) | exact absurd hhigh (by decide)

/-- The identifier with the given bits. -/
def recoveryIDOfBits (odd high : Bool) : UInt8 :=
  (if odd then 1 else 0) ||| (if high then 2 else 0)

omit [Curve] in
theorem recoveryIDOfBits_le (odd high : Bool) : recoveryIDOfBits odd high ≤ 3 := by
  cases odd <;> cases high <;> decide

theorem recoveryIDFromPresignR_eq (odd sWasNegated : Bool) (x : FieldElement) :
    recoveryIDFromPresignR ((if odd then 0x03 else 0x02) :: fieldBytes x) sWasNegated =
      .ok (recoveryIDOfBits (xor odd sWasNegated) (order ≤ x.val)) := by
  have hinput : rejectIf ((fieldBytes x).length + 1 ≠ pubkeyLength ∨
      ((if odd then 0x03 else 0x02 : UInt8) ≠ 0x02 ∧ (if odd then 0x03 else 0x02 : UInt8) ≠ 0x03))
      "invalid presign R point: must be 33-byte compressed SEC1" = .ok () := by
    rw [rejectIf_eq_ok, length_fieldBytes]
    cases odd <;> decide
  refine seq_eq_ok.mpr ⟨hinput, ?_⟩
  by_cases hhigh : order ≤ x.val <;>
    cases odd <;> cases sWasNegated <;> simp [hhigh, beNat_fieldBytes, recoveryIDOfBits] <;> rfl

theorem compressedR_recoveryIDOfBits (r : Nat) (odd high : Bool) :
    compressedR r (recoveryIDOfBits odd high) =
      (if odd then 0x03 else 0x02) :: beBytes 32 (if high then r + order else r) := by
  cases odd <;> cases high <;> rfl

theorem recoveryX_recoveryIDOfBits (r : Nat) (odd high : Bool) :
    recoveryX r (recoveryIDOfBits odd high) = if high then r + order else r := by
  cases odd <;> cases high <;> rfl

/-- Bit 1 undoes the reduction of the `x`-coordinate. -/
theorem add_order_eq_val (x : FieldElement) :
    (if decide (order ≤ x.val) then (scalarFromFieldElement x).val + order
      else (scalarFromFieldElement x).val) = x.val := by
  have hlt : x.val < 2 * order :=
    (ZMod.val_lt x).trans (Curve.fieldModulus_lt.trans Curve.lt_two_mul_order)
  rw [scalarFromFieldElement_eq, ZMod.val_natCast]
  by_cases h : order ≤ x.val
  · rw [if_pos (decide_eq_true h), Nat.mod_eq_sub_mod h, Nat.mod_eq_of_lt (by omega)]
    omega
  · rw [if_neg (by simpa using h), Nat.mod_eq_of_lt (not_le.mp h)]

/-- The identifier computed from the nonce point of the presignature describes the nonce
point of the published signature: the negation when `s` was negated. -/
theorem recoveryIDFromPresignR_spec {gamma : Point} {b : Bytes} {x y : FieldElement}
    (hgamma : coordinates gamma = some (x, y)) (hb : pointBytes gamma = .ok b)
    (sWasNegated : Bool) :
    ∃ recoveryID, recoveryIDFromPresignR b sWasNegated = .ok recoveryID ∧ recoveryID ≤ 3 ∧
      recoveryX (scalarFromFieldElement x).val recoveryID < 2 ^ 256 ∧
      pointBytes (if sWasNegated then -gamma else gamma) =
        .ok (compressedR (scalarFromFieldElement x).val recoveryID) := by
  obtain ⟨x', y', hxy, rfl⟩ := pointBytes_eq_ok.mp hb
  obtain ⟨rfl, rfl⟩ := Prod.mk.inj (Option.some.inj (hgamma.symm.trans hxy))
  refine ⟨_, recoveryIDFromPresignR_eq (isOdd y) sWasNegated x, recoveryIDOfBits_le _ _, ?_, ?_⟩
  · rw [recoveryX_recoveryIDOfBits, add_order_eq_val]
    exact (ZMod.val_lt x).trans Curve.fieldModulus_lt
  · rw [compressedR_recoveryIDOfBits, add_order_eq_val, pointBytes_eq_ok]
    cases sWasNegated with
    | false => exact ⟨x, y, hgamma, by rw [Bool.xor_false]; rfl⟩
    | true =>
      refine ⟨x, -y, Curve.coordinates_neg gamma x y hgamma, ?_⟩
      rw [isOdd_neg (coordinates_y_ne_zero hgamma), Bool.xor_true]
      rfl

end Tss.Cggmp21
