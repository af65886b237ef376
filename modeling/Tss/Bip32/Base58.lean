import Mathlib.Data.Nat.Digits.Lemmas
import Tss.Lib.Fallible
import Tss.Lib.Magnitude

/-!
# Base58Check (`internal/bip32util/base58.go`)

The text form of an extended key: the payload and four bytes of its double
SHA-256, as one number written with the 58 characters of an alphabet. A zero
byte in front adds nothing to the number, and becomes a `1` of its own.
-/

namespace Tss.Bip32util

open Fallible

def base58Alphabet : GoString := lit "123456789ABCDEFGHJKLMNPQRSTUVWXYZabcdefghijkmnopqrstuvwxyz"

def base58Radix : Nat := 58

/-- `base58DecodeMap`: the index of a character of the alphabet. -/
def base58DecodeMap (c : UInt8) : Option Nat :=
  if c ∈ base58Alphabet then some (base58Alphabet.idxOf c) else none

def checksum4 [Sha256] (payload : Bytes) : Bytes := (sha256 (sha256 payload)).take 4

def countLeadingZeroBytes (data : Bytes) : Nat := (data.takeWhile (· = 0)).length

def countLeadingBase58Zeros (s : GoString) : Nat :=
  (s.takeWhile (· = base58Alphabet.headD 0)).length

/-- `Base58CheckEncode`. The characters are the remainders of a division by the radix until
nothing is left, in reverse. -/
def base58CheckEncode [Sha256] (payload : Bytes) : GoString :=
  let data := payload ++ checksum4 payload
  let chars := (Nat.digits base58Radix (beNat data)).map (base58Alphabet.getD · 0)
  List.replicate (countLeadingZeroBytes data) (base58Alphabet.headD 0) ++ chars.reverse

/-- One character in `Base58CheckDecode`. -/
def base58Push (n : Nat) (c : UInt8) : Except String Nat :=
  match base58DecodeMap c with
  | none => .error "invalid base58 character"
  | some idx => .ok (n * base58Radix + idx)

def base58CheckDecode [Sha256] (s : GoString) : Except String Bytes := do
  let n ← s.foldlM base58Push 0
  let decoded := List.replicate (countLeadingBase58Zeros s) 0 ++ natBytes n
  rejectIf (decoded.length < 4) "decoded data too short for checksum"
  let payloadLen := decoded.length - 4
  rejectIf (checksum4 (decoded.take payloadLen) ≠ decoded.drop payloadLen)
    "base58 checksum mismatch"
  pure (decoded.take payloadLen)

/-! ## The characters as digits -/

theorem base58Alphabet_getD : ∀ d < base58Radix,
    base58Alphabet.getD d 0 ∈ base58Alphabet ∧ base58Alphabet.idxOf (base58Alphabet.getD d 0) = d := by
  decide +kernel

theorem getD_idxOf : ∀ c ∈ base58Alphabet,
    base58Alphabet.idxOf c < base58Radix ∧ base58Alphabet.getD (base58Alphabet.idxOf c) 0 = c := by
  decide +kernel

/-- The number that a string of the alphabet writes. -/
def base58Value (s : GoString) : Nat :=
  Nat.ofDigits base58Radix (s.reverse.map base58Alphabet.idxOf)

theorem base58Value_numeral (n : ℕ) :
    base58Value ((Nat.digits base58Radix n).map (base58Alphabet.getD · 0)).reverse = n := by
  have hdigits : ((Nat.digits base58Radix n).map (base58Alphabet.getD · 0)).map
      base58Alphabet.idxOf = Nat.digits base58Radix n := by
    rw [List.map_map]
    refine (List.map_congr_left fun d hd => ?_).trans (List.map_id _)
    exact (base58Alphabet_getD d (Nat.digits_lt_base (by decide) hd)).2
  rw [base58Value, List.reverse_reverse, hdigits, Nat.ofDigits_digits]

/-- The characters of the alphabet as digits. -/
def base58Numerals : Numerals UInt8 where
  digit c := c ∈ base58Alphabet
  zero := base58Alphabet.headD 0
  value := base58Value
  numeral n := ((Nat.digits base58Radix n).map (base58Alphabet.getD · 0)).reverse
  digit_zero := by decide +kernel
  digit_numeral n d hd := by
    obtain ⟨i, hi, rfl⟩ := List.mem_map.mp (List.mem_reverse.mp hd)
    exact (base58Alphabet_getD i (Nat.digits_lt_base (by decide) hi)).1
  numeral_zero := by simp
  value_numeral := base58Value_numeral
  value_zero_cons l := by
    have hzero : base58Alphabet.idxOf (base58Alphabet.headD 0) = 0 := by decide +kernel
    rw [base58Value, List.reverse_cons, List.map_append, List.map_singleton, hzero,
      Nat.ofDigits_append_zero, base58Value]
  numeral_value d l hd hl := by
    have hlast : base58Alphabet.idxOf d ≠ 0 := by
      intro hzero
      have hchar := (getD_idxOf d (hl d List.mem_cons_self)).2
      rw [hzero] at hchar
      exact hd hchar.symm
    have hdigits := Nat.digits_ofDigits base58Radix (by decide)
      ((d :: l).reverse.map base58Alphabet.idxOf) (fun i hi => by
        obtain ⟨c, hc, rfl⟩ := List.mem_map.mp hi
        exact (getD_idxOf c (hl c (List.mem_reverse.mp hc))).1)
      (fun _ => by simpa using hlast)
    rw [base58Value, hdigits, List.map_map, ← List.map_reverse, List.reverse_reverse]
    refine (List.map_congr_left fun c hc => ?_).trans (List.map_id _)
    exact (getD_idxOf c (hl c hc)).2

/-- The loop over the characters succeeds on the strings of the alphabet. -/
theorem foldlM_base58Push {s : GoString} {n : Nat} :
    s.foldlM base58Push 0 = .ok n ↔ (∀ c ∈ s, c ∈ base58Alphabet) ∧ n = base58Value s := by
  induction s using List.reverseRecOn generalizing n with
  | nil => simp [base58Value, pure, Except.pure, eq_comm]
  | append_singleton s c ih =>
    rw [List.foldlM_append, bind_eq_ok]
    simp only [ih, List.foldlM_cons, List.foldlM_nil, bind_pure, base58Push, base58DecodeMap]
    by_cases hc : c ∈ base58Alphabet
    · simp [hc, base58Value, Nat.ofDigits_cons, or_imp, forall_and, eq_comm, mul_comm, add_comm]
    · simp [hc, or_imp, forall_and]

variable [Sha256]

theorem base58CheckEncode_eq (payload : Bytes) :
    base58CheckEncode payload = base58Numerals.padded
      (byteNumerals.leading (payload ++ checksum4 payload))
      (byteNumerals.value (payload ++ checksum4 payload)) := rfl

theorem length_checksum4 (payload : Bytes) : (checksum4 payload).length = 4 := by
  simp [checksum4, sha256Size]

/-- A string is accepted exactly when it is a padded numeral of a payload and its checksum. -/
theorem base58CheckDecode_eq_ok {s : GoString} {payload : Bytes} :
    base58CheckDecode s = .ok payload ↔ (∀ c ∈ s, c ∈ base58Alphabet) ∧
      byteNumerals.padded (base58Numerals.leading s) (base58Value s) =
        payload ++ checksum4 payload := by
  have hdecoded : ∀ n, List.replicate (countLeadingBase58Zeros s) 0 ++ natBytes n =
      byteNumerals.padded (base58Numerals.leading s) n := fun _ => rfl
  rw [base58CheckDecode, bind_eq_ok]
  simp only [hdecoded, foldlM_base58Push, seq_eq_ok, rejectIf_eq_ok, not_lt, not_not, pure,
    Except.pure, Except.ok.injEq]
  constructor
  · rintro ⟨n, ⟨hs, rfl⟩, -, hchecksum, rfl⟩
    rw [hchecksum, List.take_append_drop]
    exact ⟨hs, rfl⟩
  · rintro ⟨hs, hdata⟩
    refine ⟨_, ⟨hs, rfl⟩, ?_⟩
    rw [hdata, List.length_append, length_checksum4, Nat.add_sub_cancel, List.take_left,
      List.drop_left]
    exact ⟨Nat.le_add_left 4 _, rfl, rfl⟩

/-- Payloads and accepted strings correspond one to one, and so do the zero bytes and the `1`
characters in front. -/
theorem base58Check_bijective :
    (∀ payload, base58CheckDecode (base58CheckEncode payload) = .ok payload) ∧
    (∀ s payload, base58CheckDecode s = .ok payload → base58CheckEncode payload = s) ∧
    ∀ payload, countLeadingBase58Zeros (base58CheckEncode payload) =
      countLeadingZeroBytes (payload ++ checksum4 payload) := by
  have hleading : ∀ payload, base58Numerals.leading (base58CheckEncode payload) =
      byteNumerals.leading (payload ++ checksum4 payload) :=
    fun payload => base58Numerals.leading_padded _ _
  refine ⟨fun payload => ?_, fun s payload h => ?_, hleading⟩
  · have hvalue : base58Value (base58CheckEncode payload) = beNat (payload ++ checksum4 payload) :=
      base58Numerals.value_padded _ _
    rw [base58CheckDecode_eq_ok, hleading, hvalue]
    exact ⟨base58Numerals.digit_padded _ _, byteNumerals.padded_leading fun _ _ => trivial⟩
  · obtain ⟨hs, hdata⟩ := base58CheckDecode_eq_ok.mp h
    rw [base58CheckEncode_eq, ← hdata, byteNumerals.leading_padded, byteNumerals.value_padded]
    exact base58Numerals.padded_leading hs

end Tss.Bip32util
