import Mathlib.Data.List.TakeWhile
import Tss.Lib.Bytes
import Tss.Lib.Modular

/-!
# Magnitudes without leading zeros

The big-endian bytes of a natural number, as few as possible. A byte string
is such a magnitude exactly when it does not begin with a zero byte. `Numerals`
is what two ways to write a number have in common that a program converts
between, and `padded` the strings it converts.
-/

namespace Tss

theorem leNat_append (a b : Bytes) : leNat (a ++ b) = leNat a + 256 ^ a.length * leNat b := by
  induction a with
  | nil => simp [leNat]
  | cons x a ih =>
    rw [List.cons_append, leNat, leNat, ih, List.length_cons, Nat.pow_succ', Nat.mul_add,
      Nat.mul_assoc, Nat.add_assoc]

theorem beNat_cons (b : UInt8) (bs : Bytes) :
    beNat (b :: bs) = beNat bs + 256 ^ bs.length * b.toNat := by
  rw [beNat, List.reverse_cons, leNat_append, List.length_reverse]
  simp [leNat, beNat]

/-- `big.Int.Bytes`: the magnitude without leading zeros. -/
def natBytes (n : Nat) : Bytes := beBytes ((bitLen n + 7) / 8) n

theorem pow256_le {k n : Nat} : 256 ^ k ≤ n ↔ 8 * k < bitLen n := by
  rw [lt_bitLen, Nat.pow_mul]

theorem natBytes_beNat {b : UInt8} (hb : b ≠ 0) (bs : Bytes) :
    natBytes (beNat (b :: bs)) = b :: bs := by
  have hpos : 1 ≤ b.toNat := by
    have : b.toNat ≠ 0 := fun h => hb (UInt8.toNat_inj.mp h)
    omega
  have hle : 256 ^ bs.length ≤ beNat (b :: bs) := by
    rw [beNat_cons]
    have := Nat.mul_le_mul_left (256 ^ bs.length) hpos
    omega
  have hlt : ¬ 256 ^ (bs.length + 1) ≤ beNat (b :: bs) := Nat.not_le.mpr (beNat_lt (b :: bs))
  rw [pow256_le] at hle hlt
  apply beBytes_beNat
  rw [List.length_cons]
  omega

theorem beNat_natBytes (n : Nat) : beNat (natBytes n) = n := by
  apply beNat_beBytes
  rw [← Nat.not_le, pow256_le]
  omega

theorem natBytes_zero : natBytes 0 = [] := rfl

/-- The first byte of the magnitude of a number that is not zero. -/
theorem exists_natBytes {n : Nat} (hn : n ≠ 0) : ∃ b bs, natBytes n = b :: bs ∧ b ≠ 0 := by
  have hlen : (natBytes n).length = (bitLen n + 7) / 8 := length_beBytes _ _
  have hbits : 8 * 0 < bitLen n := pow256_le.mp (by omega)
  cases hbytes : natBytes n with
  | nil =>
    rw [hbytes, List.length_nil] at hlen
    omega
  | cons b bs =>
    refine ⟨b, bs, rfl, ?_⟩
    intro hzero
    have hvalue := beNat_natBytes n
    rw [hbytes, beNat_cons, hzero, UInt8.toNat_zero, Nat.mul_zero, Nat.add_zero] at hvalue
    have hlt : ¬ 256 ^ bs.length ≤ n := Nat.not_le.mpr (hvalue ▸ beNat_lt bs)
    rw [pow256_le] at hlt
    rw [hbytes, List.length_cons] at hlen
    omega

/-! ## Numerals -/

/-- A way to write numbers: without leading zeros each number has one numeral. -/
structure Numerals (δ : Type) where
  digit : δ → Prop
  zero : δ
  value : List δ → ℕ
  numeral : ℕ → List δ
  digit_zero : digit zero
  digit_numeral : ∀ n, ∀ d ∈ numeral n, digit d
  numeral_zero : numeral 0 = []
  value_numeral : ∀ n, value (numeral n) = n
  value_zero_cons : ∀ l, value (zero :: l) = value l
  numeral_value : ∀ d l, d ≠ zero → (∀ x ∈ d :: l, digit x) → numeral (value (d :: l)) = d :: l

namespace Numerals

variable {δ : Type} (N : Numerals δ)

/-- The numeral of a number after that many zeros. -/
def padded (k n : ℕ) : List δ := List.replicate k N.zero ++ N.numeral n

theorem value_padded (k n : ℕ) : N.value (N.padded k n) = n := by
  induction k with
  | zero => exact N.value_numeral n
  | succ k ih =>
    rw [padded, List.replicate_succ, List.cons_append, N.value_zero_cons]
    exact ih

theorem digit_padded (k n : ℕ) : ∀ d ∈ N.padded k n, N.digit d := by
  intro d hd
  rcases List.mem_append.mp hd with hd | hd
  · rw [List.eq_of_mem_replicate hd]
    exact N.digit_zero
  · exact N.digit_numeral n d hd

variable [DecidableEq δ]

/-- How many zeros a string begins with. -/
def leading (l : List δ) : ℕ := (l.takeWhile (· = N.zero)).length

theorem numeral_value_eq {l : List δ} (hl : ∀ d ∈ l, N.digit d) :
    N.numeral (N.value l) = l.dropWhile (· = N.zero) := by
  induction l with
  | nil =>
    have hnil := N.value_numeral 0
    rw [N.numeral_zero] at hnil
    rw [hnil, N.numeral_zero, List.dropWhile_nil]
  | cons d l ih =>
    by_cases hd : d = N.zero
    · rw [List.dropWhile_cons_of_pos (by simpa using hd), hd, N.value_zero_cons,
        ih (List.forall_mem_cons.mp hl).2]
    · rw [List.dropWhile_cons_of_neg (by simpa using hd), N.numeral_value d l hd hl]

theorem padded_leading {l : List δ} (hl : ∀ d ∈ l, N.digit d) :
    N.padded (N.leading l) (N.value l) = l := by
  have hzeros : l.takeWhile (· = N.zero) = List.replicate (N.leading l) N.zero :=
    List.eq_replicate_iff.mpr ⟨rfl, fun d hd => by simpa using List.mem_takeWhile_imp hd⟩
  rw [padded, N.numeral_value_eq hl, ← hzeros, List.takeWhile_append_dropWhile]

theorem leading_padded (k n : ℕ) : N.leading (N.padded k n) = k := by
  induction k with
  | zero =>
    -- the numeral is what is left of it without leading zeros
    have hdrop := N.numeral_value_eq (N.digit_numeral n)
    rw [N.value_numeral] at hdrop
    have hsplit := congrArg List.length
      (List.takeWhile_append_dropWhile (l := N.numeral n) (p := (· = N.zero)))
    rw [List.length_append, ← hdrop] at hsplit
    exact Nat.add_eq_right.mp hsplit
  | succ k ih =>
    rw [leading, padded, List.replicate_succ, List.cons_append,
      List.takeWhile_cons_of_pos (by simp), List.length_cons]
    exact congrArg (· + 1) ih

end Numerals

/-- The bytes of a magnitude. -/
def byteNumerals : Numerals UInt8 where
  digit _ := True
  zero := 0
  value := beNat
  numeral := natBytes
  digit_zero := trivial
  digit_numeral _ _ _ := trivial
  numeral_zero := natBytes_zero
  value_numeral := beNat_natBytes
  value_zero_cons l := by simp [beNat_cons]
  numeral_value _ l hd _ := natBytes_beNat hd l

end Tss
