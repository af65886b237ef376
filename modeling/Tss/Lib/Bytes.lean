import Mathlib.Algebra.Group.Nat.Defs
import Mathlib.Tactic.Common

/-!
# Bytes, strings and digests

The standard-library vocabulary the stores are written in. A Go `string`
is an arbitrary byte sequence, so it is modelled as one; being UTF-8 is a
property a caller may or may not have (`utf8Runes`).

`Sha256` and `Sha512` stand for `crypto/sha256` and `crypto/sha512`.
Nothing is assumed of them beyond their types: functions from byte
strings to arrays of the digest size.
-/

namespace Tss

/-- `[]byte`. `nil` and the empty slice are one value here: no modelled
function tells them apart. -/
abbrev Bytes := List UInt8

/-- `string`: any bytes, not only UTF-8. Ordered bytewise, as Go orders strings. -/
abbrev GoString := List UInt8

/-- The bytes of a string constant of the source. -/
def lit (s : String) : GoString := s.toUTF8.data.toList

/-- `[32]byte`. -/
abbrev Array32 := Vector UInt8 32

/-- The zero value of `[32]byte`. -/
def zero32 : Array32 := Vector.replicate 32 0

/-- `crypto/sha256`. -/
class Sha256 where
  sum256 : Bytes → Array32

/-- `sha256.Size`. -/
def sha256Size : Nat := 32

/-- `sha256.Sum256(b)`, sliced. -/
def sha256 [Sha256] (b : Bytes) : Bytes := (Sha256.sum256 b).toList

@[simp] theorem length_sha256 [Sha256] (b : Bytes) : (sha256 b).length = sha256Size := by
  simp [sha256, sha256Size]

/-- The first 32 bytes, zero-padded: a digest that concrete runs are evaluated with. -/
@[reducible] def Sha256.firstBytes : Sha256 :=
  ⟨fun b => Vector.ofFn fun i : Fin 32 => b.getD i 0⟩

/-- A one and the last 31 bytes: a digest that is never zero and below every group order. -/
@[reducible] def Sha256.lastBytes : Sha256 :=
  ⟨fun b => Vector.ofFn fun i : Fin 32 => if i = 0 then 1 else b.reverse.getD (31 - i) 0⟩

/-- `crypto/sha512`. -/
class Sha512 where
  sum512 : Bytes → Vector UInt8 64

/-- `sha512.Sum512(b)`, sliced. -/
def sha512 [Sha512] (b : Bytes) : Bytes := (Sha512.sum512 b).toList

/-! ## UTF-8 -/

/-- A continuation byte inside the inclusive bounds `lo`, `hi`. -/
def utf8Cont (lo hi b : UInt8) : Bool := lo ≤ b && b ≤ hi

/-- Fold one continuation byte into a rune. -/
def utf8Push (r : Nat) (b : UInt8) : Nat := r * 64 + (b.toNat - 0x80)

/-- The runes of a byte string, `none` when it is not UTF-8 (overlong forms,
surrogates and values past U+10FFFF are not): what `range` over a string
yields once `utf8.ValidString` has accepted it. -/
def utf8Runes : GoString → Option (List Nat)
  | [] => some []
  | b0 :: rest =>
    if b0 < 0x80 then (utf8Runes rest).map (b0.toNat :: ·)
    else match rest with
      | [] => none
      | b1 :: rest =>
        if 0xC2 ≤ b0 ∧ b0 ≤ 0xDF then
          if utf8Cont 0x80 0xBF b1 then
            (utf8Runes rest).map (utf8Push (b0.toNat - 0xC0) b1 :: ·)
          else none
        else match rest with
          | [] => none
          | b2 :: rest =>
            if 0xE0 ≤ b0 ∧ b0 ≤ 0xEF then
              if utf8Cont (if b0 = 0xE0 then 0xA0 else 0x80) (if b0 = 0xED then 0x9F else 0xBF) b1
                  && utf8Cont 0x80 0xBF b2 then
                (utf8Runes rest).map (utf8Push (utf8Push (b0.toNat - 0xE0) b1) b2 :: ·)
              else none
            else match rest with
              | [] => none
              | b3 :: rest =>
                if 0xF0 ≤ b0 ∧ b0 ≤ 0xF4
                    ∧ utf8Cont (if b0 = 0xF0 then 0x90 else 0x80) (if b0 = 0xF4 then 0x8F else 0xBF) b1
                    ∧ utf8Cont 0x80 0xBF b2 ∧ utf8Cont 0x80 0xBF b3 then
                  (utf8Runes rest).map
                    (utf8Push (utf8Push (utf8Push (b0.toNat - 0xF0) b1) b2) b3 :: ·)
                else none

example : utf8Runes (lit "é€") = some [0xE9, 0x20AC] := by decide

example : utf8Runes [0xED, 0xA0, 0x80] = none := by decide

/-! ## Encodings -/

/-- One lower-case hexadecimal digit. -/
def hexDigit (n : Nat) : UInt8 :=
  if n < 10 then UInt8.ofNat (0x30 + n) else UInt8.ofNat (0x57 + n)

/-- `hex.EncodeToString`. -/
def hexEncode : Bytes → GoString
  | [] => []
  | b :: bs => hexDigit (b.toNat / 16) :: hexDigit (b.toNat % 16) :: hexEncode bs

/-- `binary.BigEndian.PutUint16`. -/
def be16 (n : Nat) : Bytes := [UInt8.ofNat (n / 2 ^ 8), UInt8.ofNat n]

/-- `binary.BigEndian.PutUint32`. -/
def be32 (n : Nat) : Bytes :=
  [UInt8.ofNat (n / 2 ^ 24), UInt8.ofNat (n / 2 ^ 16), UInt8.ofNat (n / 2 ^ 8), UInt8.ofNat n]

/-- `binary.BigEndian.PutUint64`. -/
def be64 (n : Nat) : Bytes := be32 (n / 2 ^ 32) ++ be32 n

/-- The low `k` bytes of `n`, least significant first. -/
def leBytes : Nat → Nat → Bytes
  | 0, _ => []
  | k + 1, n => UInt8.ofNat n :: leBytes k (n / 256)

/-- The number with the given bytes, least significant first. -/
def leNat : Bytes → Nat
  | [] => 0
  | b :: bs => b.toNat + 256 * leNat bs

@[simp] theorem length_leBytes (k n : Nat) : (leBytes k n).length = k := by
  induction k generalizing n with
  | zero => rfl
  | succ k ih => rw [leBytes, List.length_cons, ih]

theorem leNat_leBytes {k n : Nat} (h : n < 256 ^ k) : leNat (leBytes k n) = n := by
  induction k generalizing n with
  | zero => simp at h; simp [leBytes, leNat, h]
  | succ k ih =>
    have hdiv : n / 256 < 256 ^ k := Nat.div_lt_of_lt_mul (by rw [Nat.pow_succ'] at h; exact h)
    rw [leBytes, leNat, ih hdiv, UInt8.toNat_ofNat']
    omega

theorem leNat_lt (b : Bytes) : leNat b < 256 ^ b.length := by
  induction b with
  | nil => simp [leNat]
  | cons x b ih =>
    have hx := x.toNat_lt
    rw [leNat, List.length_cons, Nat.pow_succ]
    omega

theorem leBytes_leNat (b : Bytes) : leBytes b.length (leNat b) = b := by
  induction b with
  | nil => rfl
  | cons x b ih =>
    have hx := x.toNat_lt
    have hdiv : (x.toNat + 256 * leNat b) / 256 = leNat b := by omega
    have hbyte : UInt8.ofNat (x.toNat + 256 * leNat b) = x := by
      apply UInt8.toNat_inj.mp
      rw [UInt8.toNat_ofNat']
      omega
    rw [List.length_cons, leNat, leBytes, hdiv, ih, hbyte]

/-- `big.Int.FillBytes` of a `k`-byte buffer: big-endian, padded with zeros. -/
def beBytes (k n : Nat) : Bytes := (leBytes k n).reverse

/-- `big.Int.SetBytes`: the number with the given bytes, most significant first. -/
def beNat (b : Bytes) : Nat := leNat b.reverse

@[simp] theorem length_beBytes (k n : Nat) : (beBytes k n).length = k := by
  rw [beBytes, List.length_reverse, length_leBytes]

theorem beNat_beBytes {k n : Nat} (h : n < 256 ^ k) : beNat (beBytes k n) = n := by
  rw [beNat, beBytes, List.reverse_reverse, leNat_leBytes h]

theorem beNat_lt (b : Bytes) : beNat b < 256 ^ b.length := by
  have h := leNat_lt b.reverse
  rwa [List.length_reverse] at h

theorem beBytes_beNat {k : Nat} {b : Bytes} (h : b.length = k) : beBytes k (beNat b) = b := by
  subst h
  have hbytes := leBytes_leNat b.reverse
  rw [List.length_reverse] at hbytes
  rw [beBytes, beNat, hbytes, List.reverse_reverse]

theorem beNat_be16 {n : Nat} (h : n < 2 ^ 16) : beNat (be16 n) = n := by
  simp only [beNat, be16, List.reverse_cons, List.reverse_nil, List.nil_append, List.cons_append,
    leNat, UInt8.toNat_ofNat']
  omega

theorem beNat_be32 {n : Nat} (h : n < 2 ^ 32) : beNat (be32 n) = n := by
  simp only [beNat, be32, List.reverse_cons, List.reverse_nil, List.nil_append, List.cons_append,
    leNat, UInt8.toNat_ofNat']
  omega

theorem be16_eq_beBytes (n : Nat) : be16 n = beBytes 2 n := rfl

theorem be32_eq_beBytes (n : Nat) : be32 n = beBytes 4 n := by
  simp only [be32, beBytes, leBytes, Nat.div_div_eq_div_mul]
  rfl

theorem be16_beNat {b : Bytes} (h : b.length = 2) : be16 (beNat b) = b := by
  rw [be16_eq_beBytes, beBytes_beNat h]

theorem be32_beNat {b : Bytes} (h : b.length = 4) : be32 (beNat b) = b := by
  rw [be32_eq_beBytes, beBytes_beNat h]

theorem be32_inj {m n : Nat} (hm : m < 2 ^ 32) (hn : n < 2 ^ 32) (h : be32 m = be32 n) : m = n := by
  rw [← beNat_be32 hm, h, beNat_be32 hn]

/-- A byte string after its length is cut off from what follows in one way. -/
theorem be32_length_append_inj {v v' rest rest' : Bytes} (hv : v.length < 2 ^ 32)
    (hv' : v'.length < 2 ^ 32)
    (h : be32 v.length ++ (v ++ rest) = be32 v'.length ++ (v' ++ rest')) :
    v = v' ∧ rest = rest' := by
  obtain ⟨hlength, htail⟩ := List.append_inj h rfl
  exact List.append_inj htail (be32_inj hv hv' hlength)

/-- Items that can be cut off one after the other are read back from their concatenation. -/
theorem flatMap_inj {α : Type} {enc : α → Bytes} {P : α → Prop}
    (hcut : ∀ {a b rest rest'}, P a → P b → enc a ++ rest = enc b ++ rest' → a = b ∧ rest = rest')
    (hne : ∀ a, enc a ≠ []) {xs ys : List α} (hxs : ∀ a ∈ xs, P a) (hys : ∀ a ∈ ys, P a)
    (h : xs.flatMap enc = ys.flatMap enc) : xs = ys := by
  induction xs generalizing ys with
  | nil =>
    cases ys with
    | nil => rfl
    | cons b ys => exact absurd (List.append_eq_nil_iff.mp h.symm).1 (hne b)
  | cons a xs ih =>
    cases ys with
    | nil => exact absurd (List.append_eq_nil_iff.mp h).1 (hne a)
    | cons b ys =>
      obtain ⟨ha, htail⟩ := List.forall_mem_cons.mp hxs
      obtain ⟨hb, htail'⟩ := List.forall_mem_cons.mp hys
      rw [List.flatMap_cons, List.flatMap_cons] at h
      obtain ⟨rfl, hrest⟩ := hcut ha hb h
      rw [ih htail htail' hrest]

end Tss
