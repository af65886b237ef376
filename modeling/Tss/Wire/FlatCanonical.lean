import Tss.Wire.Codec
import Tss.Wire.Frame

/-!
# Flat fields are written back as they were read

For the kinds that hold no struct and no map: whatever bytes the decoder of a
field accepts, its encoder makes of the decoded value.
-/

namespace Tss.Wire
open Fallible

/-! ## Lists -/

theorem readBytes_eq_ok {max : Nat} {raw b rest : Bytes} (h : readBytes max raw = .ok (b, rest)) :
    raw = be32 b.length ++ (b ++ rest) ∧ b.length < 2 ^ 32 ∧ ¬ (0 < max ∧ max < b.length) := by
  simp only [readBytes, bind_eq_ok, rejectIf_eq_ok] at h
  obtain ⟨⟨length, tail⟩, hlength, _, hmax, _, hlong, h⟩ := h
  dsimp only at hmax hlong h
  cases h
  have hlt := length.toNat_lt
  have htake : (tail.take length.toNat).length = length.toNat := by
    rw [List.length_take]
    omega
  rw [htake, List.take_append_drop]
  exact ⟨readUint32_eq_ok hlength, by omega, hmax⟩

theorem appendBytes_of_lt {b : Bytes} (h : b.length < 2 ^ 32) :
    appendBytes b = .ok (be32 b.length ++ b) := by
  have hshort : ¬ 2 ^ 32 ≤ b.length := by omega
  simp only [appendBytes, rejectIf, hshort, if_false, ok_bind]
  rfl

section Loops

variable {α : Type} (encode : Nat → α → Result Bytes) {decode : Nat → Bytes → Result (α × Bytes)}

/-- The items a loop of the decoder returns are written back to the bytes it consumed. -/
theorem encodeItems_of_decodeItems_mem {Q : α → Prop}
    (hitem : ∀ i raw a rest, Q a → decode i raw = .ok (a, rest) →
      ∃ out, encode i a = .ok out ∧ raw = out ++ rest)
    {i count : Nat} {raw rest : Bytes} {items : List α} (hQ : ∀ a ∈ items, Q a)
    (h : decodeItems decode i count raw = .ok (items, rest)) :
    items.length = count ∧ ∃ out, encodeItems encode i items = .ok out ∧ raw = out ++ rest := by
  induction count generalizing i raw items with
  | zero =>
    cases h
    exact ⟨rfl, [], rfl, rfl⟩
  | succ count ih =>
    simp only [decodeItems, bind_eq_ok] at h
    obtain ⟨⟨a, tail⟩, hhead, ⟨as, rest'⟩, htail, h⟩ := h
    dsimp only at htail h
    cases h
    obtain ⟨hQa, hQ⟩ := List.forall_mem_cons.mp hQ
    obtain ⟨out, hout, rfl⟩ := hitem _ _ _ _ hQa hhead
    obtain ⟨hlength, outs, houts, rfl⟩ := ih hQ htail
    refine ⟨by rw [List.length_cons, hlength], out ++ outs, ?_, by rw [List.append_assoc]⟩
    rw [encodeItems, hout, ok_bind, houts, ok_bind]
    rfl

theorem encodeItems_of_decodeItems
    (hitem : ∀ i raw a rest, decode i raw = .ok (a, rest) →
      ∃ out, encode i a = .ok out ∧ raw = out ++ rest)
    {i count : Nat} {raw rest : Bytes} {items : List α}
    (h : decodeItems decode i count raw = .ok (items, rest)) :
    items.length = count ∧ ∃ out, encodeItems encode i items = .ok out ∧ raw = out ++ rest :=
  encodeItems_of_decodeItems_mem encode (fun i raw a rest (_ : True) => hitem i raw a rest)
    (fun _ _ => trivial) h

end Loops

theorem toInt_ofNat_of_lt {k : Nat} (h : k < 2 ^ 63) : (Int64.ofNat k).toInt = k := by
  show (BitVec.ofNat 64 k).toInt = k
  rw [BitVec.toInt_ofNat', Int.bmod]
  omega

theorem toNat_toUInt64_ofNat (n : UInt32) : (Int64.ofNat n.toNat).toUInt64.toNat = n.toNat := by
  show (UInt64.ofNat n.toNat).toNat = n.toNat
  rw [UInt64.toNat_ofNat_of_lt']
  have := n.toNat_lt
  simp [UInt64.size]
  omega

theorem ofNat_toUInt64 {n : Int64} (h : n.toUInt64.toNat < 2 ^ 32) : Int64.ofNat (UInt32.ofNat n.toUInt64.toNat).toNat = n := by
  rw [UInt32.toNat_ofNat_of_lt' h]
  show (⟨UInt64.ofNat n.toUInt64.toNat⟩ : Int64) = n
  rw [UInt64.ofNat_toNat]

theorem ofNat_toInt {n : Int64} (h : ¬ (n.toInt < 0 ∨ 2 ^ 32 ≤ n.toInt)) : Int64.ofNat (UInt32.ofNat n.toInt.toNat).toNat = n := by
  have hlt : n.toInt.toNat < 2 ^ 32 := by omega
  rw [UInt32.toNat_ofNat_of_lt' hlt]
  apply Int64.toInt_inj.mp
  rw [toInt_ofNat_of_lt (by omega)]
  omega
section Sizes

variable {α : Type} {encode : Nat → α → Result Bytes} {decode : Nat → Bytes → Result (α × Bytes)}

theorem length_le_of_encodeItems {i : Nat} {items : List α} {out : Bytes}
    (h : encodeItems encode i items = .ok out) :
    ∀ a ∈ items, ∃ i item, encode i a = .ok item ∧ item.length ≤ out.length := by
  induction items generalizing i out with
  | nil => simp
  | cons a items ih =>
    simp only [encodeItems, bind_eq_ok] at h
    obtain ⟨head, hhead, tail, htail, h⟩ := h
    cases h
    rw [List.length_append]
    intro b hb
    rcases List.mem_cons.mp hb with rfl | hb
    · exact ⟨i, head, hhead, by omega⟩
    · obtain ⟨j, item, hitem, hle⟩ := ih htail b hb
      exact ⟨j, item, hitem, by omega⟩

theorem length_encodeItems {size : Nat}
    (hitem : ∀ i a out, encode i a = .ok out → out.length = size)
    {i : Nat} {items : List α} {out : Bytes} (h : encodeItems encode i items = .ok out) :
    out.length = items.length * size := by
  induction items generalizing i out with
  | nil =>
    cases h
    simp
  | cons a items ih =>
    simp only [encodeItems, bind_eq_ok] at h
    obtain ⟨head, hhead, tail, htail, h⟩ := h
    cases h
    rw [List.length_append, hitem _ _ _ hhead, ih htail, List.length_cons, Nat.succ_mul, Nat.add_comm]

theorem length_decodeItems {i count : Nat} {raw rest : Bytes} {items : List α}
    (h : decodeItems decode i count raw = .ok (items, rest)) : items.length = count := by
  induction count generalizing i raw items with
  | zero =>
    cases h
    rfl
  | succ count ih =>
    simp only [decodeItems, bind_eq_ok] at h
    obtain ⟨⟨a, tail⟩, -, ⟨as, rest'⟩, htail, h⟩ := h
    dsimp only at htail h
    cases h
    rw [List.length_cons, ih htail]

end Sizes

section Flat

variable {ν γ : Type} {env : Env ν γ} {limitSet : FieldLimits} {fs : FieldSchema ν} {raw : Bytes}
  {v : Value γ}

theorem limit_checked {what : String} {n max : Nat}
    (hlimit : fs.limitOf limitSet fs.maxItems = .ok max) (hmax : ¬ (0 < max ∧ max < n)) :
    fs.checkMaxItems limitSet what n = .ok () := by
  rw [FieldSchema.checkMaxItems, hlimit, ok_bind, rejectIf_eq_ok]
  exact hmax

theorem encodeBigIntSigned_of_decode {x : Int} (h : decodeBigIntSigned raw = .ok x) :
    encodeBigIntSigned x = raw := by
  cases raw with
  | nil => cases h
  | cons sign mag =>
    cases mag with
    | nil =>
      rw [decodeBigIntSigned, seq_eq_ok, seq_eq_ok, rejectIf_eq_ok, rejectIf_eq_ok, not_not] at h
      obtain ⟨-, rfl, h⟩ := h
      cases h
      rfl
    | cons b bs =>
      rw [decodeBigIntSigned, seq_eq_ok, seq_eq_ok, rejectIf_eq_ok, rejectIf_eq_ok] at h
      obtain ⟨hsign, hb, h⟩ := h
      cases h
      have hbytes := natBytes_beNat hb bs
      have hne : beNat (b :: bs) ≠ 0 := by
        intro hzero
        rw [hzero, natBytes_zero] at hbytes
        cases hbytes
      by_cases hneg : sign = 0x01
      · subst hneg
        have hnonzero : -(beNat (b :: bs) : Int) ≠ 0 := by omega
        have hlt : -(beNat (b :: bs) : Int) < 0 := by omega
        rw [if_pos rfl, encodeBigIntSigned, if_neg hnonzero, if_pos hlt, Int.natAbs_neg,
          Int.natAbs_natCast, hbytes]
      · have hzero : sign = 0x00 := by
          by_contra hne
          exact hsign ⟨hne, hneg⟩
        subst hzero
        have hnonzero : (beNat (b :: bs) : Int) ≠ 0 := by omega
        have hlt : ¬ (beNat (b :: bs) : Int) < 0 := by omega
        rw [if_neg hneg, encodeBigIntSigned, if_neg hnonzero, if_neg hlt, Int.natAbs_natCast, hbytes]

theorem encodeBigUint_of_decode {x : Int} (h : decodeBigUint raw = .ok x) :
    encodeBigUint x = .ok raw := by
  cases raw with
  | nil =>
    cases h
    rfl
  | cons b bs =>
    rw [decodeBigUint, seq_eq_ok, rejectIf_eq_ok] at h
    obtain ⟨hb, h⟩ := h
    cases h
    have hlt : ¬ (beNat (b :: bs) : Int) < 0 := by omega
    rw [encodeBigUint, seq_eq_ok, rejectIf_eq_ok, Int.natAbs_natCast, natBytes_beNat hb]
    exact ⟨hlt, rfl⟩

theorem encodeBigPos_of_decode {x : Int} (h : decodeBigPos raw = .ok x) :
    encodeBigPos x = .ok raw := by
  cases raw with
  | nil => cases h
  | cons b bs =>
    rw [decodeBigPos, seq_eq_ok, rejectIf_eq_ok, seq_eq_ok, rejectIf_eq_ok] at h
    obtain ⟨hb, hpos, h⟩ := h
    cases h
    have hlt : ¬ (beNat (b :: bs) : Int) ≤ 0 := by omega
    rw [encodeBigPos, seq_eq_ok, rejectIf_eq_ok, Int.natAbs_natCast, natBytes_beNat hb]
    exact ⟨hlt, rfl⟩

/-- A big integer that was read is written back. -/
theorem encodeBigDispatch_of_decode {encode : Int → Except GoError Bytes}
    {decode : Bytes → Except GoError Int}
    (hcodec : ∀ x, decode raw = .ok x → encode x = .ok raw)
    (h : fs.decodeBigDispatch limitSet decode raw = .ok v) :
    v ≠ .nilPointer ∧ fs.encodeBigDispatch limitSet encode v = .ok raw := by
  simp only [FieldSchema.decodeBigDispatch, bind_eq_ok, call_eq_ok, mapError_eq_ok] at h
  obtain ⟨_, hbytes, x, hx, _, hbits, h⟩ := h
  have hbig : fs.encodeBig limitSet (kindName fs.kind) encode x = .ok raw := by
    rw [FieldSchema.encodeBig, hbits, ok_bind, hcodec x hx, mapError_ok, ok_bind, hbytes]
    rfl
  split at h
  next htyp =>
    cases h
    refine ⟨by simp, ?_⟩
    simp only [FieldSchema.encodeBigDispatch, htyp, hbig]
    rfl
  next htyp =>
    cases h
    refine ⟨by simp, ?_⟩
    simp only [FieldSchema.encodeBigDispatch, htyp, hbig]
    rfl
  next => cases h

theorem encodeU32_of_decode (h : (do
      let n ← call (decodeUint32 raw)
      env.setUint fs.typ n) = .ok v) :
    v ≠ .nilPointer ∧ env.encodeU32 fs.typ v = .ok raw := by
  rw [bind_eq_ok] at h
  obtain ⟨n, hn, h⟩ := h
  rw [call_eq_ok, decodeUint32, seq_eq_ok, rejectIf_eq_ok, not_not] at hn
  obtain ⟨hlength, hn⟩ := hn
  have hraw : be32 n.toNat = raw := by
    cases hn
    have hlt := beNat_lt raw
    rw [hlength] at hlt
    rw [UInt32.toNat_ofNat_of_lt' hlt, be32_beNat hlength]
  rw [Env.setUint] at h
  split at h
  next htyp =>
    cases h
    exact ⟨by simp, by simp only [Env.encodeU32, htyp, hraw]⟩
  next htyp =>
    cases h
    have hlt := n.toNat_lt
    have hfits : ¬ 2 ^ 32 ≤ n.toNat := by omega
    refine ⟨by simp, ?_⟩
    simp only [Env.encodeU32, htyp, toNat_toUInt64_ofNat, rejectIf, hfits, if_false, hraw]
    rfl
  next => cases h

theorem encodeBytes_of_set (h : env.setBytesValue fs.typ raw = .ok v) :
    v ≠ .nilPointer ∧ env.encodeBytes fs.typ v = .ok raw := by
  rw [Env.setBytesValue] at h
  split at h
  next htyp =>
    rw [seq_eq_ok] at h
    obtain ⟨-, h⟩ := h
    cases h
    exact ⟨nofun, by simp only [Env.encodeBytes, htyp]⟩
  next e htyp =>
    split at h
    next hbyte =>
      cases h
      exact ⟨nofun, by simp only [Env.encodeBytes, htyp, hbyte, if_true, Option.getD_some]⟩
    next => cases h
  next => cases h

theorem encodeString_of_decode (h : env.decodeString limitSet fs raw = .ok v) :
    v ≠ .nilPointer ∧ env.encodeString limitSet fs v = .ok raw := by
  simp only [Env.decodeString, seq_eq_ok, call_eq_ok] at h
  obtain ⟨hbytes, hutf8, h⟩ := h
  split at h
  next htyp =>
    cases h
    refine ⟨nofun, ?_⟩
    simp only [Env.encodeString, Env.stringOf, htyp, ok_bind, hutf8, hbytes]
    rfl
  next => cases h

theorem makeSlice_eq_ok {t elem : GoType ν} (h : env.makeSlice t = .ok elem) (items : List (Value γ)) :
    env.sliceItems t (.slice items) = .ok (elem, items) := by
  rw [Env.makeSlice] at h
  split at h
  next e htyp =>
    cases h
    simp only [Env.sliceItems, htyp]
  next => cases h

theorem checkCount_of_le {what overflow : String} {count : Nat} (h : count ≤ maxRecordCount) :
    checkCount what overflow count = .ok () := by
  rw [checkCount, rejectIf_eq_ok]
  have : maxRecordCount < 2 ^ 32 := by decide
  omega

theorem encodeU32Item_of_set {elem : GoType ν} {n : UInt32} (h : env.setUint elem n = .ok v)
    (i : Nat) : env.encodeU32Item elem i v = .ok (be32 n.toNat) := by
  rw [Env.setUint] at h
  split at h
  next htyp =>
    cases h
    simp only [Env.encodeU32Item, htyp]
  next htyp =>
    cases h
    have hlt := n.toNat_lt
    have hvalue : (Int64.ofNat n.toNat).toInt = n.toNat := toInt_ofNat_of_lt (by omega)
    have hrange : ¬ ((n.toNat : Int) < 0 ∨ (2 : Int) ^ 32 ≤ n.toNat) := by omega
    simp only [Env.encodeU32Item, htyp, hvalue, rejectIf, hrange, if_false, Int.toNat_natCast]
    rfl
  next => cases h

theorem length_encodeU32Item {elem : GoType ν} {i : Nat} {out : Bytes}
    (h : env.encodeU32Item elem i v = .ok out) : out.length = 4 := by
  unfold Env.encodeU32Item at h
  split at h
  · rw [seq_eq_ok] at h
    obtain rfl := Except.ok.inj h.2
    rfl
  · cases h
    rfl
  all_goals cases h

/-- An item of `decodeU32List` is written back. -/
theorem encodeU32Item_of_decode {elem : GoType ν} {i : Nat} {rest : Bytes} {raw : Bytes}
    (h : (do
      let (n, raw) ← call (readUint32 raw)
      let item ← env.setUint elem n
      pure (item, raw)) = .ok (v, rest)) :
    ∃ out, env.encodeU32Item elem i v = .ok out ∧ raw = out ++ rest := by
  simp only [bind_eq_ok, call_eq_ok] at h
  obtain ⟨⟨n, rest'⟩, hn, a, ha, h⟩ := h
  cases h
  exact ⟨be32 n.toNat, encodeU32Item_of_set ha i, readUint32_eq_ok hn⟩

theorem encodeU32List_of_decode (h : env.decodeU32List limitSet fs raw = .ok v) :
    v ≠ .nilPointer ∧ env.encodeU32List limitSet fs v = .ok raw := by
  simp only [Env.decodeU32List, bind_eq_ok, call_eq_ok, rejectIf_eq_ok] at h
  obtain ⟨max, hlimit, ⟨count, tail⟩, hcount, _, hmany, _, hmax, _, hlength, elem, helem,
    ⟨items, rest⟩, hitems, h⟩ := h
  dsimp only at hmany hmax hlength hitems h
  cases h
  obtain ⟨hitemCount, out, hout, rfl⟩ := encodeItems_of_decodeItems
    (env.encodeU32Item elem) (fun i raw a rest => encodeU32Item_of_decode) hitems
  -- the input has four bytes for every item, so nothing is left
  have hsize := length_encodeItems (fun i a out => length_encodeU32Item) hout
  rw [not_not, List.length_append, hsize, hitemCount] at hlength
  have hrest : rest = [] := List.length_eq_zero_iff.mp (by omega)
  refine ⟨by simp, ?_⟩
  rw [Env.encodeU32List, makeSlice_eq_ok helem, ok_bind]
  simp only [hitemCount, checkCount_of_le (Nat.not_lt.mp hmany), limit_checked hlimit hmax, hout,
    call_ok, ok_bind]
  rw [readUint32_eq_ok hcount, hrest, List.append_nil]
  rfl

/-! ## Lists of byte strings -/

theorem encodeLimitedBytes_of_read {max : Nat} {b rest : Bytes} {tooLong : Nat → GoError}
    {wrap : GoError → GoError} (h : readBytes max raw = .ok (b, rest)) :
    ∃ out, encodeLimitedBytes max tooLong wrap b = .ok out ∧ raw = out ++ rest := by
  obtain ⟨hraw, hlt, hmax⟩ := readBytes_eq_ok h
  refine ⟨be32 b.length ++ b, ?_, by rw [hraw, List.append_assoc]⟩
  simp only [encodeLimitedBytes, rejectIf, hmax, if_false, appendBytes_of_lt hlt]
  rfl

theorem encodeBytesItem_of_decode {elem : GoType ν} {max i : Nat} {rest : Bytes}
    (h : env.decodeBytesItem elem max raw = .ok (v, rest)) :
    ∃ out, env.encodeBytesItem elem max i v = .ok out ∧ raw = out ++ rest := by
  simp only [Env.decodeBytesItem, bind_eq_ok, call_eq_ok] at h
  obtain ⟨⟨b, tail⟩, hb, h⟩ := h
  split at h
  next hbytes =>
    cases h
    simp only [Env.encodeBytesItem, hbytes, if_true, byteSlice, Option.getD_some, ok_bind]
    exact encodeLimitedBytes_of_read hb
  next => cases h

theorem encodePartyBytesItem_of_decode {max i : Nat} {rest : Bytes}
    (h : decodePartyBytesItem max raw = .ok (v, rest)) :
    ∃ out, encodePartyBytesItem max i v = .ok out ∧ raw = out ++ rest := by
  simp only [decodePartyBytesItem, bind_eq_ok, call_eq_ok] at h
  obtain ⟨⟨party, afterParty⟩, hparty, ⟨b, tail⟩, hb, h⟩ := h
  dsimp only at hb h
  cases h
  obtain ⟨out, hout, hraw⟩ := encodeLimitedBytes_of_read hb
  refine ⟨be32 party.toNat ++ out, ?_, ?_⟩
  · simp only [encodePartyBytesItem, byteSlice, Option.getD_some, ok_bind]
    rw [hout]
    rfl
  · rw [readUint32_eq_ok hparty, hraw, List.append_assoc]

theorem encodePartyBytePairsItem_of_decode {max i : Nat} {rest : Bytes}
    (h : decodePartyBytePairsItem max raw = .ok (v, rest)) :
    ∃ out, encodePartyBytePairsItem max i v = .ok out ∧ raw = out ++ rest := by
  simp only [decodePartyBytePairsItem, bind_eq_ok, call_eq_ok] at h
  obtain ⟨⟨party, afterParty⟩, hparty, ⟨first, afterFirst⟩, hfirst, ⟨second, tail⟩, hsecond, h⟩ := h
  dsimp only at hfirst hsecond h
  cases h
  obtain ⟨hrawFirst, hltFirst, hmaxFirst⟩ := readBytes_eq_ok hfirst
  obtain ⟨hrawSecond, hltSecond, hmaxSecond⟩ := readBytes_eq_ok hsecond
  refine ⟨be32 party.toNat ++ (be32 first.length ++ first ++ (be32 second.length ++ second)),
    ?_, ?_⟩
  · simp only [encodePartyBytePairsItem, byteSlice, Option.getD_some, ok_bind, rejectIf, hmaxFirst,
      hmaxSecond, if_false, appendBytes_of_lt hltFirst, appendBytes_of_lt hltSecond]
    rfl
  · rw [readUint32_eq_ok hparty, hrawFirst, hrawSecond]
    simp only [List.append_assoc]

/-- What a list decoder has read before its items. -/
theorem decodeByteItems_eq_ok {minRecordLen : Nat}
    {decode : GoType ν → Nat → Nat → Bytes → Result (Value γ × Bytes)}
    (h : env.decodeByteItems limitSet fs minRecordLen decode raw = .ok v) :
    ∃ elem max items tail, v = .slice items ∧ env.makeSlice fs.typ = .ok elem ∧
      fs.limitOf limitSet fs.maxBytes = .ok max ∧ items.length ≤ maxRecordCount ∧
      (∀ what, fs.checkMaxItems limitSet what items.length = .ok ()) ∧
      decodeItems (decode elem max) 0 items.length tail = .ok (items, []) ∧
      raw = be32 items.length ++ tail := by
  simp only [Env.decodeByteItems, bind_eq_ok, call_eq_ok, rejectIf_eq_ok, not_not] at h
  obtain ⟨maxItems, hlimit, max, hmax, ⟨count, tail⟩, hcount, _, hvalid, elem, helem, ⟨items, rest⟩,
    hitems, _, hrest, h⟩ := h
  dsimp only at hvalid hitems hrest h
  simp only [validateRecordCount, seq_eq_ok, rejectIf_eq_ok] at hvalid
  cases h
  subst hrest
  have hlength : items.length = count.toNat := length_decodeItems hitems
  rw [← hlength] at hvalid hitems
  refine ⟨elem, max, items, tail, rfl, helem, hmax, Nat.not_lt.mp hvalid.2.1, ?_, hitems, ?_⟩
  · intro what
    exact limit_checked hlimit hvalid.1
  · rw [hlength]
    exact readUint32_eq_ok hcount

theorem encodeByteItems_of_decode {minRecordLen : Nat}
    {decode : GoType ν → Nat → Nat → Bytes → Result (Value γ × Bytes)}
    (encode : GoType ν → Nat → Nat → Value γ → Result Bytes)
    (hitem : ∀ elem max i raw a rest, decode elem max i raw = .ok (a, rest) →
      ∃ out, encode elem max i a = .ok out ∧ raw = out ++ rest)
    (h : env.decodeByteItems limitSet fs minRecordLen decode raw = .ok v) :
    v ≠ .nilPointer ∧ env.encodeByteItems limitSet fs encode v = .ok raw := by
  obtain ⟨elem, max, items, tail, rfl, helem, hmax, hmany, hlimit, hitems, rfl⟩ :=
    decodeByteItems_eq_ok h
  obtain ⟨-, out, hout, rfl⟩ := encodeItems_of_decodeItems (encode elem max)
    (hitem elem max) hitems
  refine ⟨nofun, ?_⟩
  rw [Env.encodeByteItems, makeSlice_eq_ok helem, ok_bind]
  simp only [checkCount_of_le hmany, hmax, hlimit, hout, List.append_nil, call_ok, ok_bind]
  rfl

/-! ## Custom values -/

theorem unmarshalComplete_eq_ok {unmarshal : Bytes → Except GoError (γ × Int)} {c : γ}
    (h : unmarshalCompleteCustomValue unmarshal raw = .ok c) :
    unmarshal raw = .ok (c, raw.length) := by
  simp only [unmarshalCompleteCustomValue, bind_eq_ok, rejectIf_eq_ok, not_not] at h
  obtain ⟨⟨c', consumed⟩, hc, _, -, _, hall, h⟩ := h
  dsimp only at hall h
  cases h
  rw [hc, hall]

/-- The custom codecs of the program are canonical: what `UnmarshalWireValue` reads completely,
`MarshalWireValue` writes back. -/
def Env.CodecsCanonical (env : Env ν γ) : Prop :=
  ∀ n unmarshal raw c, (env n).unmarshaler = some unmarshal → unmarshal raw = .ok (c, raw.length) →
    ∃ m, (env n).marshaler = some m ∧ m.marshal c = .ok (some raw)

/-- A custom value that was read is written back where its method is found. -/
theorem marshalWireValue_of_unmarshal (hcodecs : env.CodecsCanonical) {t : GoType ν}
    {missing missing' empty : GoError} {failed failed' : GoError → GoError}
    (h : env.unmarshalWireValue t missing failed raw = .ok v) :
    v ≠ .nilPointer ∧ (env.valueMarshaler t true).isSome ∧ ∀ c,
      (env.marshalWireValue t c missing' empty failed' v = .ok raw ↔
        (env.valueMarshaler t c).isSome) := by
  unfold Env.unmarshalWireValue at h
  split at h
  next n =>
    split at h
    next unmarshal hunmarshal =>
      simp only [bind_eq_ok, call_eq_ok, mapError_eq_ok] at h
      obtain ⟨c, hc, h⟩ := h
      cases h
      obtain ⟨m, hm, hout⟩ := hcodecs n unmarshal raw c hunmarshal (unmarshalComplete_eq_ok hc)
      refine ⟨by simp, by simp [Env.valueMarshaler, hm], ?_⟩
      intro addr
      cases hfind : env.valueMarshaler (.named n) addr with
      | none => simp [Env.marshalWireValue, customValue, hfind, fail]
      | some marshal =>
        have hmarshal : marshal = m.marshal := by
          simp only [Env.valueMarshaler, hm, Option.map_eq_some_iff, Option.filter_eq_some_iff] at hfind
          obtain ⟨m', ⟨hm', -⟩, rfl⟩ := hfind
          rw [Option.some.inj hm']
        subst hmarshal
        simp only [Env.marshalWireValue, customValue, hfind, ok_bind, hout, mapError_ok, call,
          Option.isSome_some, iff_true]
        rfl
    next => cases h
  next n =>
    split at h
    next unmarshal hunmarshal =>
      simp only [bind_eq_ok, call_eq_ok, mapError_eq_ok] at h
      obtain ⟨c, hc, h⟩ := h
      cases h
      obtain ⟨m, hm, hout⟩ := hcodecs n unmarshal raw c hunmarshal (unmarshalComplete_eq_ok hc)
      refine ⟨by simp, by simp [Env.valueMarshaler, hm], ?_⟩
      intro addr
      simp only [Env.marshalWireValue, customValue, Env.valueMarshaler, hm, Option.map_some, ok_bind,
        hout, mapError_ok, call, Option.isSome_some, iff_true]
      rfl
    next => cases h
  next => cases h

end Flat
section Custom

variable {ν γ : Type} {env : Env ν γ} {limitSet : FieldLimits} {fs : FieldSchema ν} {raw : Bytes}
  {v : Value γ}

theorem encodeCustom_of_ne_nil (hnil : v ≠ .nilPointer) (canAddr : Bool) :
    env.encodeCustom limitSet fs canAddr v = (do
      let out ← env.marshalWireValue fs.typ canAddr
        (.errorf "wire: field %s does not implement MarshalWireValue" [.text (lit fs.name)])
        (.errorf "wire: custom field %s returned nil" [.text (lit fs.name)])
        (.wrap "wire: field %s tag %d custom marshal: %w"
          [.text (lit fs.name), .num fs.tag.toNat]) v
      call (fs.checkByteLimits limitSet out)
      call (fs.checkItemLimit limitSet out)
      pure out) := by
  unfold Env.encodeCustom
  split
  · contradiction
  · rfl

theorem encodeCustomItem_of_ne_nil (hnil : v ≠ .nilPointer) (elem : GoType ν) (i : Nat) :
    env.encodeCustomItem limitSet fs elem i v = (do
      let item ← env.marshalWireValue elem true
        (.errorf "customlist item %d does not implement MarshalWireValue" [.num i])
        (.errorf "customlist item %d returned nil" [.num i])
        (.wrap "customlist item %d marshal: %w" [.num i]) v
      call ((fs.checkByteLimits limitSet item).mapError (.wrap "customlist item %d: %w" [.num i]))
      call ((appendBytes item).mapError (.wrap "customlist item %d: %w" [.num i]))) := by
  unfold Env.encodeCustomItem
  split
  · contradiction
  · rfl

theorem encodeCustom_of_decode (hcodecs : env.CodecsCanonical)
    (h : env.decodeCustom limitSet fs raw = .ok v) :
    v ≠ .nilPointer ∧ (env.valueMarshaler fs.typ true).isSome ∧
      ∀ c, (env.valueMarshaler fs.typ c).isSome → env.encodeCustom limitSet fs c v = .ok raw := by
  simp only [Env.decodeCustom, seq_eq_ok, call_eq_ok] at h
  obtain ⟨hbytes, hitems, h⟩ := h
  obtain ⟨hnil, hfound, hmarshal⟩ := marshalWireValue_of_unmarshal hcodecs h
  refine ⟨hnil, hfound, ?_⟩
  intro c hc
  rw [encodeCustom_of_ne_nil hnil, (hmarshal c).mpr hc, ok_bind, hbytes, hitems]
  rfl

theorem encodeCustomItem_of_decode (hcodecs : env.CodecsCanonical) {elem : GoType ν} {max i : Nat}
    {rest : Bytes} (hmax : fs.limitOf limitSet fs.maxBytes = .ok max)
    (h : env.decodeCustomItem fs elem max i raw = .ok (v, rest)) :
    ∃ out, env.encodeCustomItem limitSet fs elem i v = .ok out ∧ raw = out ++ rest := by
  simp only [Env.decodeCustomItem, bind_eq_ok, call_eq_ok, mapError_eq_ok] at h
  obtain ⟨⟨item, tail⟩, hitem, _, hfixed, v', hv, h⟩ := h
  dsimp only at hfixed hv h
  cases h
  obtain ⟨hnil, hfound, hmarshal⟩ := marshalWireValue_of_unmarshal hcodecs hv
  obtain ⟨hraw, hlt, hlimit⟩ := readBytes_eq_ok hitem
  have hbytes : fs.checkByteLimits limitSet item = .ok () := by
    rw [FieldSchema.checkByteLimits, hfixed, ok_bind, hmax, ok_bind, rejectIf_eq_ok]
    exact hlimit
  refine ⟨be32 item.length ++ item, ?_, by rw [hraw, List.append_assoc]⟩
  rw [encodeCustomItem_of_ne_nil hnil, (hmarshal true).mpr hfound, ok_bind, hbytes,
    appendBytes_of_lt hlt]
  rfl

theorem encodeCustomList_of_decode (hcodecs : env.CodecsCanonical)
    (h : env.decodeByteItems limitSet fs 4 (env.decodeCustomItem fs) raw = .ok v) :
    v ≠ .nilPointer ∧ env.encodeCustomList limitSet fs v = .ok raw := by
  obtain ⟨elem, max, items, tail, rfl, helem, hmax, hmany, hlimit, hitems, rfl⟩ :=
    decodeByteItems_eq_ok h
  obtain ⟨-, out, hout, rfl⟩ := encodeItems_of_decodeItems (env.encodeCustomItem limitSet fs elem)
    (fun i raw a rest => encodeCustomItem_of_decode hcodecs hmax) hitems
  refine ⟨nofun, ?_⟩
  rw [Env.encodeCustomList, makeSlice_eq_ok helem, ok_bind]
  simp only [checkCount_of_le hmany, hlimit, hout, List.append_nil, call_ok, ok_bind]
  rfl

/-- The kinds whose values hold no fields of their own. -/
def WireKind.isFlat : WireKind → Bool
  | .nested | .record | .recordList | .map => false
  | _ => true

/-- What a codec of a flat kind has read, it writes back, a custom value where its method is
found. -/
theorem encodeFlat_of_decode (hcodecs : env.CodecsCanonical)
    (h : env.decodeFlat limitSet fs raw = .ok v) :
    v ≠ .nilPointer ∧ (fs.kind = .custom → (env.valueMarshaler fs.typ true).isSome) ∧
      ∀ c, (fs.kind = .custom → (env.valueMarshaler fs.typ c).isSome) →
        env.encodeFlat limitSet fs c v = .ok raw := by
  cases hkind : fs.kind <;> simp only [Env.decodeFlat, hkind] at h <;>
    simp only [Env.encodeFlat, hkind]
  case u8 =>
    split at h
    next htyp =>
      cases h
      exact ⟨by simp, by simp, fun _ _ => by simp only [Env.encodeU8, htyp]⟩
    all_goals cases h
  case u16 =>
    rw [seq_eq_ok, call_eq_ok, rejectIf_eq_ok, not_not] at h
    obtain ⟨hlength, h⟩ := h
    split at h
    next htyp =>
      cases h
      have hlt := beNat_lt raw
      rw [hlength] at hlt
      refine ⟨by simp, by simp, fun _ _ => ?_⟩
      simp only [Env.encodeU16, htyp, UInt16.toNat_ofNat_of_lt' hlt, be16_beNat hlength]
    next => cases h
  case bool =>
    rw [seq_eq_ok, seq_eq_ok, call_eq_ok, call_eq_ok, rejectIf_eq_ok, rejectIf_eq_ok] at h
    obtain ⟨-, hvalue, h⟩ := h
    split at h
    next htyp =>
      cases h
      refine ⟨by simp, by simp, fun _ _ => ?_⟩
      by_cases hone : raw = [1]
      · simp [Env.encodeBool, htyp, hone]
      · have hzero : raw = [0] := by
          by_contra hzero
          exact hvalue ⟨hzero, hone⟩
        simp [Env.encodeBool, htyp, hzero]
    next => cases h
  case bytes =>
    rw [seq_eq_ok, seq_eq_ok, call_eq_ok, call_eq_ok] at h
    obtain ⟨hbytes, hbits, h⟩ := h
    obtain ⟨hnil, hout⟩ := encodeBytes_of_set h
    refine ⟨hnil, by simp, fun _ _ => ?_⟩
    rw [hout, ok_bind, hbytes, hbits]
    rfl
  case custom =>
    obtain ⟨hnil, hfound, hout⟩ := encodeCustom_of_decode hcodecs h
    exact ⟨hnil, fun _ => hfound, fun c hc => hout c (hc trivial)⟩
  case u32 =>
    obtain ⟨hnil, hout⟩ := encodeU32_of_decode h
    exact ⟨hnil, by simp, fun _ _ => hout⟩
  case string =>
    obtain ⟨hnil, hout⟩ := encodeString_of_decode h
    exact ⟨hnil, by simp, fun _ _ => hout⟩
  case u32List =>
    obtain ⟨hnil, hout⟩ := encodeU32List_of_decode h
    exact ⟨hnil, by simp, fun _ _ => hout⟩
  case bytesList =>
    obtain ⟨hnil, hout⟩ := encodeByteItems_of_decode env.encodeBytesItem
      (fun elem max i raw a rest => encodeBytesItem_of_decode) h
    exact ⟨hnil, by simp, fun _ _ => hout⟩
  case partyBytes =>
    obtain ⟨hnil, hout⟩ := encodeByteItems_of_decode (fun _ => encodePartyBytesItem)
      (fun elem max i raw a rest => encodePartyBytesItem_of_decode) h
    exact ⟨hnil, by simp, fun _ _ => hout⟩
  case partyBytePairs =>
    obtain ⟨hnil, hout⟩ := encodeByteItems_of_decode (fun _ => encodePartyBytePairsItem)
      (fun elem max i raw a rest => encodePartyBytePairsItem_of_decode) h
    exact ⟨hnil, by simp, fun _ _ => hout⟩
  case customList =>
    obtain ⟨hnil, hout⟩ := encodeCustomList_of_decode hcodecs h
    exact ⟨hnil, by simp, fun _ _ => hout⟩
  case bigInt =>
    obtain ⟨hnil, hout⟩ := encodeBigDispatch_of_decode
      (fun x hx => congrArg Except.ok (encodeBigIntSigned_of_decode hx)) h
    exact ⟨hnil, by simp, fun _ _ => hout⟩
  case bigUint =>
    obtain ⟨hnil, hout⟩ := encodeBigDispatch_of_decode (fun x => encodeBigUint_of_decode) h
    exact ⟨hnil, by simp, fun _ _ => hout⟩
  case bigPos =>
    obtain ⟨hnil, hout⟩ := encodeBigDispatch_of_decode (fun x => encodeBigPos_of_decode) h
    exact ⟨hnil, by simp, fun _ _ => hout⟩
  all_goals cases h

end Custom
end Tss.Wire
