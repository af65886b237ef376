import Tss.Wire.Parts
import Tss.Wire.Schema
import Tss.Wire.Normal

/-!
# What the encoder writes is read back: fields without fields of their own

The decoder gives a field back as it was written, with `nil` byte strings,
lists and maps as empty ones, under a condition for each kind. The codecs of
integers and byte strings need none. Lists need as many items as the decoder
allows, which the encoder does not check.
-/

namespace Tss.Wire

open Fallible

/-! ## Reading lists back -/

theorem appendBytes_eq_ok {b out : Bytes} (h : appendBytes b = .ok out) :
    b.length < 2 ^ 32 ∧ out = be32 b.length ++ b := by
  rw [appendBytes, seq_eq_ok, rejectIf_eq_ok] at h
  exact ⟨by omega, (Except.ok.inj h.2).symm⟩

theorem readBytes_append {max : Nat} {b : Bytes} (hlt : b.length < 2 ^ 32)
    (hmax : ¬ (0 < max ∧ max < b.length)) (rest : Bytes) :
    readBytes max (be32 b.length ++ b ++ rest) = .ok (b, rest) := by
  have hlength : (UInt32.ofNat b.length).toNat = b.length := UInt32.toNat_ofNat_of_lt' hlt
  have hlong : ¬ (b ++ rest).length < b.length := by
    rw [List.length_append]
    omega
  rw [List.append_assoc, readBytes, readUint32_be32 hlt, ok_bind]
  simp only [hlength, rejectIf, hmax, hlong, if_false, ok_bind, List.take_left, List.drop_left]
  rfl

section Loops

variable {α β : Type} {encode : Nat → α → Result Bytes} {decode : Nat → Bytes → Result (β × Bytes)}

variable (decode) in
/-- The bytes of a list of items are read as the items, each changed by `norm`, when each item on
its own is. -/
theorem decodeItems_iff {C : α → Prop} (norm : α → β) {size : Nat} {items : List α}
    (hitem : ∀ i, ∀ a ∈ items, ∀ out rest, out.length ≤ size → encode i a = .ok out →
      (∀ b rest', decode i (out ++ rest) = .ok (b, rest') → rest' = rest) ∧
      (decode i (out ++ rest) = .ok (norm a, rest) ↔ C a))
    {i : Nat} {out : Bytes} (h : encodeItems encode i items = .ok out) (hsize : out.length ≤ size)
    (rest : Bytes) :
    (∀ values rest', decodeItems decode i items.length (out ++ rest) = .ok (values, rest') →
      rest' = rest) ∧
    (decodeItems decode i items.length (out ++ rest) = .ok (items.map norm, rest) ↔
      ∀ a ∈ items, C a) := by
  induction items generalizing i out with
  | nil =>
    cases h
    constructor
    · intro values rest' hread
      exact (Prod.mk.inj (Except.ok.inj hread)).2.symm
    · simp [decodeItems]
  | cons a items ih =>
    simp only [encodeItems, bind_eq_ok] at h
    obtain ⟨head, hhead, tail, htail, h⟩ := h
    cases h
    rw [List.length_append] at hsize
    obtain ⟨hafter, hread⟩ :=
      hitem i a List.mem_cons_self head (tail ++ rest) (by omega) hhead
    obtain ⟨hrest, htailRead⟩ :=
      ih (fun i b hb => hitem i b (List.mem_cons_of_mem _ hb)) htail (by omega)
    rw [List.length_cons, List.append_assoc, List.forall_mem_cons, ← hread, ← htailRead]
    simp only [decodeItems, bind_eq_ok, List.map_cons]
    refine ⟨?_, ?_, ?_⟩
    · rintro values rest' ⟨⟨b, afterHead⟩, hb, ⟨bs, rest''⟩, hbs, h⟩
      obtain rfl := hafter b afterHead hb
      obtain ⟨-, rfl⟩ := Prod.mk.inj (Except.ok.inj h)
      exact hrest bs rest'' hbs
    · rintro ⟨⟨b, afterHead⟩, hb, ⟨bs, rest'⟩, hbs, h⟩
      obtain rfl := hafter b afterHead hb
      obtain ⟨hlist, rfl⟩ := Prod.mk.inj (Except.ok.inj h)
      obtain ⟨rfl, rfl⟩ := List.cons.inj hlist
      exact ⟨hb, hbs⟩
    · rintro ⟨hb, hbs⟩
      exact ⟨_, hb, _, hbs, rfl⟩

/-- Items that are read back without a condition. -/
theorem decodeItems_encodeItems (norm : α → β)
    (hitem : ∀ i a out rest, encode i a = .ok out → decode i (out ++ rest) = .ok (norm a, rest))
    {i : Nat} {items : List α} {out : Bytes} (h : encodeItems encode i items = .ok out)
    (rest : Bytes) :
    decodeItems decode i items.length (out ++ rest) = .ok (items.map norm, rest) := by
  refine (decodeItems_iff decode (C := fun _ => True) norm ?_ h le_rfl rest).2.mpr fun _ _ => trivial
  intro i a _ out rest _ hout
  have hread := hitem i a out rest hout
  refine ⟨?_, iff_of_true hread trivial⟩
  intro b rest' hb
  rw [hread] at hb
  exact (Prod.mk.inj (Except.ok.inj hb)).2.symm

end Loops

/-! ## Integers -/

theorem decodeBigIntSigned_encode (x : Int) : decodeBigIntSigned (encodeBigIntSigned x) = .ok x := by
  unfold encodeBigIntSigned
  by_cases hzero : x = 0
  · subst hzero
    rfl
  · have hne : x.natAbs ≠ 0 := Int.natAbs_ne_zero.mpr hzero
    obtain ⟨b, bs, hbytes, hb⟩ := exists_natBytes hne
    have hvalue := beNat_natBytes x.natAbs
    rw [hbytes] at hvalue
    rw [if_neg hzero, hbytes]
    by_cases hneg : x < 0
    · rw [if_pos hneg, decodeBigIntSigned]
      simp only [rejectIf, hb, hvalue, if_false, if_true, ok_bind]
      show Except.ok (-(x.natAbs : Int)) = .ok x
      congr 1
      omega
    · rw [if_neg hneg, decodeBigIntSigned]
      simp only [rejectIf, hb, hvalue, if_false, ok_bind]
      show Except.ok (x.natAbs : Int) = .ok x
      congr 1
      omega

theorem decodeBigUint_encode {x : Int} {raw : Bytes} (h : encodeBigUint x = .ok raw) :
    decodeBigUint raw = .ok x := by
  rw [encodeBigUint, seq_eq_ok, rejectIf_eq_ok] at h
  obtain ⟨hneg, h⟩ := h
  cases h
  by_cases hzero : x = 0
  · subst hzero
    rfl
  · obtain ⟨b, bs, hbytes, hb⟩ := exists_natBytes (Int.natAbs_ne_zero.mpr hzero)
    have hvalue := beNat_natBytes x.natAbs
    rw [hbytes] at hvalue
    rw [hbytes, decodeBigUint]
    simp only [rejectIf, hb, hvalue, if_false, ok_bind]
    show Except.ok (x.natAbs : Int) = .ok x
    congr 1
    omega

theorem decodeBigPos_encode {x : Int} {raw : Bytes} (h : encodeBigPos x = .ok raw) :
    decodeBigPos raw = .ok x := by
  rw [encodeBigPos, seq_eq_ok, rejectIf_eq_ok] at h
  obtain ⟨hpos, h⟩ := h
  cases h
  have hne : x.natAbs ≠ 0 := by omega
  obtain ⟨b, bs, hbytes, hb⟩ := exists_natBytes hne
  have hvalue := beNat_natBytes x.natAbs
  rw [hbytes] at hvalue
  rw [hbytes, decodeBigPos]
  simp only [rejectIf, hb, hvalue, hne, if_false, ok_bind]
  show Except.ok (x.natAbs : Int) = .ok x
  congr 1
  omega

/-! ## Flat fields -/

section Flat

variable {ν γ : Type} {env : Env ν γ} {limitSet : FieldLimits} {fs : FieldSchema ν} {raw : Bytes}
  {v : Value γ}

theorem decodeBigDispatch_encode {encode : Int → Except GoError Bytes}
    {decode : Bytes → Except GoError Int}
    (hcodec : ∀ x, encode x = .ok raw → decode raw = .ok x)
    (h : fs.encodeBigDispatch limitSet encode v = .ok raw) :
    fs.decodeBigDispatch limitSet decode raw = .ok v.normal := by
  have hread : ∀ x, call (fs.encodeBig limitSet (kindName fs.kind) encode x) = .ok raw →
      fs.checkByteLimits limitSet raw = .ok () ∧ decode raw = .ok x ∧
        fs.checkBitsLimit limitSet (bitLen x.natAbs) = .ok () := by
    intro x hx
    simp only [call_eq_ok, FieldSchema.encodeBig, bind_eq_ok, mapError_eq_ok] at hx
    obtain ⟨_, hbits, out, hout, _, hbytes, hx⟩ := hx
    cases hx
    exact ⟨hbytes, hcodec x hout, hbits⟩
  unfold FieldSchema.encodeBigDispatch at h
  split at h
  next x htyp =>
    obtain ⟨hbytes, hx, hbits⟩ := hread x h
    simp only [FieldSchema.decodeBigDispatch, hbytes, hx, hbits, htyp, mapError_ok, call_ok, ok_bind]
    rfl
  next x htyp =>
    obtain ⟨hbytes, hx, hbits⟩ := hread x h
    simp only [FieldSchema.decodeBigDispatch, hbytes, hx, hbits, htyp, mapError_ok, call_ok, ok_bind]
    rfl
  next =>
    rw [call_eq_ok, FieldSchema.encodeNilBig] at h
    split at h
    · obtain ⟨-, h⟩ := seq_eq_ok.mp h
      cases h
    · cases h
  next => cases h

theorem decodeU32_encode (h : env.encodeU32 fs.typ v = .ok raw) :
    (do
      let n ← call (decodeUint32 raw)
      env.setUint fs.typ n) = .ok v.normal := by
  unfold Env.encodeU32 at h
  split at h
  next n htyp =>
    cases h
    rw [decodeUint32_be32 n.toNat_lt, call_ok, ok_bind, UInt32.ofNat_toNat, Env.setUint, htyp]
    rfl
  next n htyp =>
    simp only [seq_eq_ok, call_eq_ok, rejectIf_eq_ok, Nat.not_le] at h
    obtain ⟨hlt, h⟩ := h
    cases h
    rw [decodeUint32_be32 hlt, call_ok, ok_bind, Env.setUint, htyp]
    simp only [ofNat_toUInt64 hlt]
    rfl
  all_goals cases h

theorem checkFixedLen_of_checkByteLimits (h : fs.checkByteLimits limitSet raw = .ok ()) :
    fs.checkFixedLen raw = .ok () := (seq_eq_ok.mp h).1

theorem setBytesValue_encode (hkind : fs.kind = .bytes) (harray : env.FixesArray fs)
    (h : env.encodeBytes fs.typ v = .ok raw) (hbytes : fs.checkByteLimits limitSet raw = .ok ()) :
    env.setBytesValue fs.typ raw = .ok v.normal := by
  have hfixed := checkFixedLen_of_checkByteLimits hbytes
  unfold Env.encodeBytes at h
  split at h
  next size elem b htyp =>
    obtain rfl := Except.ok.inj h
    rw [FieldSchema.checkFixedLen, harray hkind size elem htyp, rejectIf_eq_ok] at hfixed
    have hlength : ¬ b.length ≠ size := by
      intro hne
      exact hfixed (by simpa using hne.symm)
    simp only [Env.setBytesValue, htyp, rejectIf, hlength, if_false]
    rfl
  next => cases h
  next elem b htyp =>
    split at h
    next hbyte =>
      cases h
      simp only [Env.setBytesValue, htyp, hbyte, if_true]
      rfl
    next => cases h
  next => cases h

/-- A string field is read back when its type is a string; `Marshal` also writes a field of a
pointer type, as the description of its type. -/
theorem decodeString_iff (h : env.encodeString limitSet fs v = .ok raw) :
    env.decodeString limitSet fs raw = .ok v.normal ↔ env.underlying fs.typ = .string := by
  simp only [Env.encodeString, bind_eq_ok, call_eq_ok] at h
  obtain ⟨s, hs, _, hutf8, _, hbytes, h⟩ := h
  cases h
  simp only [Env.decodeString, hutf8, hbytes, call_ok, ok_bind]
  constructor
  · intro hread
    split at hread
    next htyp => exact htyp
    next => cases hread
  · intro htyp
    rw [htyp]
    unfold Env.stringOf at hs
    split at hs
    next =>
      cases hs
      rfl
    next => cases hs
    next hother _ => exact absurd htyp hother

/-! ## Lists of integers and byte strings -/

variable {t elem : GoType ν} {items : List (Value γ)}

theorem sliceItems_eq_ok (h : env.sliceItems t v = .ok (elem, items)) :
    env.makeSlice t = .ok elem ∧ v.normal = .slice (items.map Value.normal) ∧
      (v = .slice items ∨ v = .nilSlice ∧ items = []) := by
  unfold Env.sliceItems at h
  split at h
  next e htyp =>
    cases h
    exact ⟨by simp only [Env.makeSlice, htyp], rfl, .inr ⟨rfl, rfl⟩⟩
  next e items' htyp =>
    cases h
    exact ⟨by simp only [Env.makeSlice, htyp], Value.normal_slice _, .inl rfl⟩
  all_goals cases h

/-- The number of items in a list or a map. -/
def Value.itemCount : Value γ → Nat
  | .slice items => items.length
  | .map entries => entries.length
  | _ => 0

theorem itemCount_of_sliceItems (h : env.sliceItems t v = .ok (elem, items)) :
    v.itemCount = items.length := by
  obtain ⟨-, -, rfl | ⟨rfl, rfl⟩⟩ := sliceItems_eq_ok h
  · rfl
  · rfl

theorem ne_nilMap_of_sliceItems (h : env.sliceItems t v = .ok (elem, items)) : v ≠ .nilMap := by
  obtain ⟨-, -, rfl | ⟨rfl, -⟩⟩ := sliceItems_eq_ok h
  · nofun
  · nofun

theorem lt_of_checkCount {what overflow : String} {n : Nat} (h : checkCount what overflow n = .ok ()) :
    n < 2 ^ 32 := by
  rw [checkCount, rejectIf_eq_ok] at h
  omega

/-- The check of `max_items` of the encoder is the one of the decoder. -/
theorem checkMaxItems_eq_ok {what : String} {n : Nat}
    (h : fs.checkMaxItems limitSet what n = .ok ()) :
    ∃ max, fs.limitOf limitSet fs.maxItems = .ok max ∧ ¬ (0 < max ∧ max < n) := by
  simp only [FieldSchema.checkMaxItems, bind_eq_ok, rejectIf_eq_ok] at h
  exact h

theorem decodeU32Item_encode {i : Nat} {v : Value γ} {out : Bytes}
    (h : env.encodeU32Item elem i v = .ok out) (rest : Bytes) :
    (do
      let (n, raw) ← call (readUint32 (out ++ rest))
      let item ← env.setUint elem n
      pure (item, raw)) = .ok (v.normal, rest) := by
  unfold Env.encodeU32Item at h
  split at h
  next n htyp =>
    simp only [seq_eq_ok, call_eq_ok, rejectIf_eq_ok] at h
    obtain ⟨hrange, h⟩ := h
    cases h
    have hlt : n.toInt.toNat < 2 ^ 32 := by omega
    rw [readUint32_be32 hlt]
    simp only [call_ok, ok_bind, Env.setUint, htyp, ofNat_toInt hrange]
    rfl
  next n htyp =>
    cases h
    rw [readUint32_be32 n.toNat_lt]
    simp only [call_ok, ok_bind, Env.setUint, htyp, UInt32.ofNat_toNat]
    rfl
  all_goals cases h

theorem decodeU32List_iff (h : env.encodeU32List limitSet fs v = .ok raw) :
    v ≠ .nilMap ∧
      (env.decodeU32List limitSet fs raw = .ok v.normal ↔ v.itemCount ≤ maxRecordCount) := by
  simp only [Env.encodeU32List, bind_eq_ok, call_eq_ok] at h
  obtain ⟨⟨elem, items⟩, hitems, _, hcount, _, hlimit, out, hout, h⟩ := h
  dsimp only at hcount hlimit hout h
  cases h
  obtain ⟨helem, hnormal, -⟩ := sliceItems_eq_ok hitems
  obtain ⟨max, hmax, hfits⟩ := checkMaxItems_eq_ok hlimit
  have hlt := lt_of_checkCount hcount
  have hlength : (UInt32.ofNat items.length).toNat = items.length := UInt32.toNat_ofNat_of_lt' hlt
  have hsize : ¬ out.length ≠ items.length * 4 :=
    not_not.mpr (length_encodeItems (fun i a out => length_encodeU32Item) hout)
  have hread : decodeItems (fun _ raw => do
      let (n, raw) ← call (readUint32 raw)
      let item ← env.setUint elem n
      pure (item, raw)) 0 items.length out = .ok (items.map Value.normal, []) := by
    rw [← List.append_nil out]
    exact decodeItems_encodeItems Value.normal
      (fun i a out rest hout => decodeU32Item_encode hout rest) hout []
  refine ⟨ne_nilMap_of_sliceItems hitems, ?_⟩
  rw [itemCount_of_sliceItems hitems, hnormal]
  simp only [Env.decodeU32List, hmax, readUint32_be32 hlt, hlength, helem, rejectIf, hsize, hfits,
    if_false, call_ok, ok_bind]
  by_cases hmany : maxRecordCount < items.length
  · rw [if_pos hmany]
    exact iff_of_false error_ne_ok (Nat.not_le.mpr hmany)
  · rw [if_neg hmany, call_ok, ok_bind, hread]
    exact iff_of_true rfl (Nat.not_lt.mp hmany)


/-- A list of items of `size` bytes or more. -/
theorem le_length_encodeItems {α : Type} {encode : Nat → α → Result Bytes} {size : Nat}
    (hitem : ∀ i a out, encode i a = .ok out → size ≤ out.length)
    {i : Nat} {items : List α} {out : Bytes} (h : encodeItems encode i items = .ok out) :
    items.length * size ≤ out.length := by
  induction items generalizing i out with
  | nil => simp
  | cons a items ih =>
    simp only [encodeItems, bind_eq_ok] at h
    obtain ⟨head, hhead, tail, htail, h⟩ := h
    cases h
    have hsize := hitem _ _ _ hhead
    have hrest := ih htail
    rw [List.length_append, List.length_cons, Nat.succ_mul]
    omega

/-- What a list decoder makes of a list that was written within its limits: the items, when there
are not too many of them and its loop reads them back. -/
theorem decodeByteItems_iff {minRecordLen max maxItems : Nat} {out : Bytes} {C : Prop}
    {decode : GoType ν → Nat → Nat → Bytes → Result (Value γ × Bytes)}
    (hitems : env.sliceItems fs.typ v = .ok (elem, items)) (hlt : items.length < 2 ^ 32)
    (hmaxItems : fs.limitOf limitSet fs.maxItems = .ok maxItems)
    (hfits : ¬ (0 < maxItems ∧ maxItems < items.length))
    (hmax : fs.limitOf limitSet fs.maxBytes = .ok max)
    (hsize : items.length * minRecordLen ≤ out.length) (hread : (∀ values rest, decodeItems (decode
    elem max) 0 items.length (out ++ []) = .ok (values, rest) → rest = []) ∧ (decodeItems (decode
    elem max) 0 items.length (out ++ []) = .ok (items.map Value.normal, []) ↔ C)) :
    env.decodeByteItems limitSet fs minRecordLen decode (be32 items.length ++ out) = .ok v.normal ↔
      v.itemCount ≤ maxRecordCount ∧ C := by
  obtain ⟨helem, hnormal, -⟩ := sliceItems_eq_ok hitems
  have hlength : (UInt32.ofNat items.length).toNat = items.length := UInt32.toNat_ofNat_of_lt' hlt
  have hlong : ¬ out.length < items.length * minRecordLen := Nat.not_lt.mpr hsize
  obtain ⟨hrest, hread⟩ := hread
  rw [List.append_nil] at hrest hread
  rw [itemCount_of_sliceItems hitems, hnormal, ← hread]
  simp only [Env.decodeByteItems, validateRecordCount, hmaxItems, hmax, readUint32_be32 hlt, hlength,
    helem, rejectIf, hfits, hlong, if_false, call_ok, ok_bind]
  by_cases hmany : maxRecordCount < items.length
  · rw [if_pos hmany]
    exact iff_of_false error_ne_ok (fun h => Nat.not_le.mpr hmany h.1)
  · rw [if_neg hmany, ok_bind, call_ok, ok_bind]
    have hle : items.length ≤ maxRecordCount := Nat.not_lt.mp hmany
    constructor
    · intro h
      obtain ⟨⟨values, rest⟩, hvalues, h⟩ := bind_eq_ok.mp h
      obtain ⟨-, h⟩ := seq_eq_ok.mp h
      obtain rfl := hrest values rest hvalues
      obtain rfl := Value.slice.inj (Except.ok.inj h)
      exact ⟨hle, hvalues⟩
    · rintro ⟨-, h⟩
      rw [h]
      rfl

theorem encodeLimitedBytes_eq_ok {max : Nat} {tooLong : Nat → GoError} {wrap : GoError → GoError}
    {b out : Bytes} (h : encodeLimitedBytes max tooLong wrap b = .ok out) :
    b.length < 2 ^ 32 ∧ ¬ (0 < max ∧ max < b.length) ∧ out = be32 b.length ++ b := by
  simp only [encodeLimitedBytes, seq_eq_ok, call_eq_ok, rejectIf_eq_ok, mapError_eq_ok] at h
  obtain ⟨hmax, h⟩ := h
  obtain ⟨hlt, rfl⟩ := appendBytes_eq_ok h
  exact ⟨hlt, hmax, rfl⟩

theorem byteSlice_eq_ok {b : Bytes} (h : byteSlice v = .ok b) : v.normal = .bytes (some b) := by
  unfold byteSlice at h
  split at h
  next b' =>
    cases h
    rfl
  next => cases h

/-- An item of a list is written in `size` bytes or more and read back as it was. -/
structure ReadsItem (size : Nat) (encode : Nat → Value γ → Result Bytes)
    (decode : Nat → Bytes → Result (Value γ × Bytes)) : Prop where
  size : ∀ i a out, encode i a = .ok out → size ≤ out.length
  read : ∀ i a out rest, encode i a = .ok out → decode i (out ++ rest) = .ok (a.normal, rest)

theorem ReadsItem.of {size : Nat} {encode : Nat → Value γ → Result Bytes}
    {decode : Nat → Bytes → Result (Value γ × Bytes)}
    (h : ∀ i a out, encode i a = .ok out →
      size ≤ out.length ∧ ∀ rest, decode i (out ++ rest) = .ok (a.normal, rest)) :
    ReadsItem size encode decode :=
  ⟨fun i a out hout => (h i a out hout).1, fun i a out rest hout => (h i a out hout).2 rest⟩

theorem readsItem_bytes (elem : GoType ν) (max : Nat) :
    ReadsItem 4 (env.encodeBytesItem elem max) (fun _ => env.decodeBytesItem elem max) := by
  apply ReadsItem.of
  intro i a out h
  unfold Env.encodeBytesItem at h
  split at h
  next hslice =>
    obtain ⟨b, hb, h⟩ := bind_eq_ok.mp h
    obtain ⟨hlt, hmax, rfl⟩ := encodeLimitedBytes_eq_ok h
    refine ⟨by simp [be32], fun rest => ?_⟩
    rw [Env.decodeBytesItem, readBytes_append hlt hmax, byteSlice_eq_ok hb]
    simp only [call_ok, ok_bind, hslice, if_true]
    rfl
  next => cases h

theorem readsItem_partyBytes (max : Nat) :
    ReadsItem (γ := γ) 8 (encodePartyBytesItem max) (fun _ => decodePartyBytesItem max) := by
  apply ReadsItem.of
  intro i a out h
  unfold encodePartyBytesItem at h
  split at h
  next party bytes =>
    simp only [bind_eq_ok] at h
    obtain ⟨b, hb, out', hout, h⟩ := h
    obtain ⟨hlt, hmax, rfl⟩ := encodeLimitedBytes_eq_ok hout
    cases h
    refine ⟨by simp [be32], fun rest => ?_⟩
    rw [decodePartyBytesItem, List.append_assoc, readUint32_be32 party.toNat_lt,
      Value.normal_struct, List.map_cons, List.map_cons, byteSlice_eq_ok hb]
    simp only [call_ok, ok_bind, readBytes_append hlt hmax, UInt32.ofNat_toNat]
    rfl
  next => cases h

theorem readsItem_partyBytePairs (max : Nat) :
    ReadsItem (γ := γ) 12 (encodePartyBytePairsItem max) (fun _ => decodePartyBytePairsItem max) := by
  apply ReadsItem.of
  intro i a out h
  unfold encodePartyBytePairsItem at h
  split at h
  next party first second =>
    simp only [bind_eq_ok, call_eq_ok, rejectIf_eq_ok, mapError_eq_ok] at h
    obtain ⟨b, hb, b', hb', _, hmax, _, hmax', out, hout, out', hout', h⟩ := h
    obtain ⟨hlt, rfl⟩ := appendBytes_eq_ok hout
    obtain ⟨hlt', rfl⟩ := appendBytes_eq_ok hout'
    cases h
    constructor
    · simp [be32]
      omega
    · intro rest
      rw [decodePartyBytePairsItem, List.append_assoc, readUint32_be32 party.toNat_lt,
        Value.normal_struct, List.map_cons, List.map_cons, List.map_cons, byteSlice_eq_ok hb,
        byteSlice_eq_ok hb']
      simp only [call_ok, ok_bind, List.append_assoc (be32 b.length ++ b),
        readBytes_append hlt hmax, readBytes_append hlt' hmax', UInt32.ofNat_toNat]
      rfl
  next => cases h

theorem decodeByteItems_encode {size : Nat}
    {encode : GoType ν → Nat → Nat → Value γ → Result Bytes}
    {decode : GoType ν → Nat → Nat → Bytes → Result (Value γ × Bytes)}
    (hitem : ∀ elem max, ReadsItem size (encode elem max) (decode elem max))
    (h : env.encodeByteItems limitSet fs encode v = .ok raw) :
    v ≠ .nilMap ∧ (env.decodeByteItems limitSet fs size decode raw = .ok v.normal ↔
      v.itemCount ≤ maxRecordCount) := by
  simp only [Env.encodeByteItems, bind_eq_ok, call_eq_ok] at h
  obtain ⟨⟨elem, items⟩, hitems, _, hcount, max, hmax, _, hlimit, out, hout, h⟩ := h
  dsimp only at hcount hlimit hout h
  cases h
  obtain ⟨maxItems, hmaxItems, hfits⟩ := checkMaxItems_eq_ok hlimit
  have hread := decodeItems_encodeItems Value.normal (hitem elem max).read hout []
  have hiff := decodeByteItems_iff (C := True) hitems (lt_of_checkCount hcount) hmaxItems hfits hmax
    (le_length_encodeItems (hitem elem max).size hout)
    ⟨by
      intro values rest hvalues
      rw [hread] at hvalues
      exact (Prod.mk.inj (Except.ok.inj hvalues)).2.symm,
    iff_of_true hread trivial⟩
  rw [and_true] at hiff
  exact ⟨ne_nilMap_of_sliceItems hitems, hiff⟩

/-! ## Custom values -/

theorem unmarshalComplete_iff {unmarshal : Bytes → Except GoError (γ × Int)} {c : γ} :
    unmarshalCompleteCustomValue unmarshal raw = .ok c ↔ unmarshal raw = .ok (c, raw.length) := by
  constructor
  · exact unmarshalComplete_eq_ok
  · intro h
    have hrange : ¬ ((raw.length : Int) < 0 ∨ raw.length < (raw.length : Int)) := by omega
    simp only [unmarshalCompleteCustomValue, h, rejectIf, hrange, ne_eq, not_true, if_false, ok_bind]
    rfl

/-- The codec of a custom type reads the value back that it wrote. -/
def Env.CodecReadsBack (env : Env ν γ) (p : GoType ν × Value γ) : Prop :=
  ∀ n c, customValue p.1 p.2 = .ok (some (n, c)) →
    ∀ m out, (env n).marshaler = some m → m.marshal c = .ok (some out) →
      ∃ unmarshal, (env n).unmarshaler = some unmarshal ∧ unmarshal out = .ok (c, out.length)

/-- What `MarshalWireValue` was called on. -/
theorem marshalWireValue_eq_ok {canAddr : Bool} {missing empty : GoError}
    {failed : GoError → GoError}
    (h : env.marshalWireValue t canAddr missing empty failed v = .ok raw) :
    ∃ n c m, customValue t v = .ok (some (n, c)) ∧ (env n).marshaler = some m ∧
      m.marshal c = .ok (some raw) := by
  simp only [Env.marshalWireValue, bind_eq_ok] at h
  obtain ⟨value, hvalue, h⟩ := h
  split at h
  next n c marshal hmarshal =>
    simp only [bind_eq_ok, call_eq_ok, mapError_eq_ok] at h
    obtain ⟨out, hout, h⟩ := h
    split at h
    next => cases h
    next out =>
      cases h
      have hm : ∃ m, (env n).marshaler = some m ∧ m.marshal = marshal := by
        unfold customValue at hvalue
        split at hvalue
        next n' c' =>
          cases hvalue
          simp only [Env.valueMarshaler, Option.map_eq_some_iff, Option.filter_eq_some_iff] at hmarshal
          obtain ⟨m, ⟨hm, -⟩, hsame⟩ := hmarshal
          exact ⟨m, hm, hsame⟩
        next n' c' =>
          cases hvalue
          simp only [Env.valueMarshaler, Option.map_eq_some_iff] at hmarshal
          exact hmarshal
        all_goals cases hvalue
      obtain ⟨m, hm, rfl⟩ := hm
      exact ⟨n, c, m, hvalue, hm, hout⟩
  next => cases h

theorem unmarshalWireValue_iff {canAddr : Bool} {missing missing' empty : GoError}
    {failed failed' : GoError → GoError}
    (h : env.marshalWireValue t canAddr missing empty failed v = .ok raw) :
    env.unmarshalWireValue t missing' failed' raw = .ok v.normal ↔ env.CodecReadsBack (t, v) := by
  obtain ⟨n, c, m, hvalue, hm, hout⟩ := marshalWireValue_eq_ok h
  have hreads : env.CodecReadsBack (t, v) ↔
      ∃ unmarshal, (env n).unmarshaler = some unmarshal ∧ unmarshal raw = .ok (c, raw.length) := by
    constructor
    · intro hread
      exact hread n c hvalue m raw hm hout
    · intro hread n' c' hvalue' m' out' hm' hout'
      obtain ⟨rfl, rfl⟩ := Prod.mk.inj (Option.some.inj (Except.ok.inj (hvalue.symm.trans hvalue')))
      obtain rfl := Option.some.inj (hm.symm.trans hm')
      obtain rfl := Option.some.inj (Except.ok.inj (hout.symm.trans hout'))
      exact hread
  rw [hreads]
  unfold customValue at hvalue
  split at hvalue <;> cases hvalue
  all_goals
    simp only [Env.unmarshalWireValue, Value.normal]
    cases hunmarshal : (env n).unmarshaler with
    | none => exact iff_of_false error_ne_ok (by simp)
    | some unmarshal =>
      simp only [Option.some.injEq, exists_eq_left']
      rw [← unmarshalComplete_iff, ← mapError_eq_ok (g := failed'), ← call_eq_ok]
      exact bind_pure_eq_ok fun h => by simpa using h

theorem decodeCustom_iff {canAddr : Bool} (h : env.encodeCustom limitSet fs canAddr v = .ok raw) :
    env.decodeCustom limitSet fs raw = .ok v.normal ↔ env.CodecReadsBack (fs.typ, v) := by
  unfold Env.encodeCustom at h
  split at h
  next => cases h
  next =>
    simp only [bind_eq_ok, call_eq_ok] at h
    obtain ⟨out, hout, _, hbytes, _, hitems, h⟩ := h
    cases h
    simp only [Env.decodeCustom, hbytes, hitems, call_ok, ok_bind]
    exact unmarshalWireValue_iff hout

/-- What an item of a list of custom values consists of. -/
theorem encodeCustomItem_eq_ok {i : Nat} {out : Bytes}
    (h : env.encodeCustomItem limitSet fs elem i v = .ok out) :
    ∃ item, (∃ missing empty failed, env.marshalWireValue elem true missing empty failed v = .ok item) ∧
      fs.checkByteLimits limitSet item = .ok () ∧ item.length < 2 ^ 32 ∧
      out = be32 item.length ++ item := by
  unfold Env.encodeCustomItem at h
  split at h
  next => cases h
  next =>
    simp only [bind_eq_ok, call_eq_ok, mapError_eq_ok] at h
    obtain ⟨item, hitem, _, hbytes, h⟩ := h
    obtain ⟨hlt, rfl⟩ := appendBytes_eq_ok h
    exact ⟨item, ⟨_, _, _, hitem⟩, hbytes, hlt, rfl⟩

theorem checkByteLimits_eq_ok {max : Nat} (hmax : fs.limitOf limitSet fs.maxBytes = .ok max)
    (h : fs.checkByteLimits limitSet raw = .ok ()) : ¬ (0 < max ∧ max < raw.length) := by
  rw [FieldSchema.checkByteLimits, seq_eq_ok, hmax, ok_bind, rejectIf_eq_ok] at h
  exact h.2

theorem decodeCustomItem_iff {max i : Nat} {out : Bytes}
    (hmax : fs.limitOf limitSet fs.maxBytes = .ok max)
    (h : env.encodeCustomItem limitSet fs elem i v = .ok out) (rest : Bytes) :
    (∀ b rest', env.decodeCustomItem fs elem max i (out ++ rest) = .ok (b, rest') → rest' = rest) ∧
    (env.decodeCustomItem fs elem max i (out ++ rest) = .ok (v.normal, rest) ↔
      env.CodecReadsBack (elem, v)) := by
  obtain ⟨item, ⟨missing, empty, failed, hitem⟩, hbytes, hlt, rfl⟩ := encodeCustomItem_eq_ok h
  simp only [Env.decodeCustomItem, readBytes_append hlt (checkByteLimits_eq_ok hmax hbytes),
    checkFixedLen_of_checkByteLimits hbytes, mapError_ok, call_ok, ok_bind, bind_eq_ok]
  constructor
  · rintro b rest' ⟨b', -, h⟩
    exact (Prod.mk.inj (Except.ok.inj h)).2.symm
  · rw [← unmarshalWireValue_iff hitem, ← bind_eq_ok]
    exact bind_pure_eq_ok fun h => (Prod.mk.inj h).1

/-- The items of a slice, with their type. -/
def Env.itemsOf (env : Env ν γ) (t : GoType ν) (v : Value γ) : List (GoType ν × Value γ) :=
  match env.underlying t, v with
  | .slice elem, .slice items => items.map fun item => (elem, item)
  | _, _ => []

theorem itemsOf_eq (h : env.sliceItems t v = .ok (elem, items)) :
    env.itemsOf t v = items.map fun item => (elem, item) := by
  unfold Env.sliceItems at h
  split at h
  next htyp =>
    cases h
    simp [Env.itemsOf]
  next htyp =>
    cases h
    simp only [Env.itemsOf, htyp]
  all_goals cases h

theorem decodeCustomList_iff (h : env.encodeCustomList limitSet fs v = .ok raw) :
    env.decodeByteItems limitSet fs 4 (env.decodeCustomItem fs) raw = .ok v.normal ↔
      v.itemCount ≤ maxRecordCount ∧ (∃ max, fs.limitOf limitSet fs.maxBytes = .ok max) ∧
        ∀ p ∈ env.itemsOf fs.typ v, env.CodecReadsBack p := by
  simp only [Env.encodeCustomList, bind_eq_ok, call_eq_ok] at h
  obtain ⟨⟨elem, items⟩, hitems, _, hcount, _, hlimit, out, hout, h⟩ := h
  dsimp only at hcount hlimit hout h
  cases h
  obtain ⟨maxItems, hmaxItems, hfits⟩ := checkMaxItems_eq_ok hlimit
  have hsize : items.length * 4 ≤ out.length := by
    apply le_length_encodeItems _ hout
    intro i a out h
    obtain ⟨item, -, -, -, rfl⟩ := encodeCustomItem_eq_ok h
    simp [be32]
  rw [itemsOf_eq hitems]
  cases hmax : fs.limitOf limitSet fs.maxBytes with
  | error err =>
    -- the decoder looks the limit up before it reads the count
    refine iff_of_false ?_ (by simp)
    simp only [Env.decodeByteItems, hmaxItems, hmax, call_ok, ok_bind]
    exact error_ne_ok
  | ok max =>
    have hread := decodeItems_iff (env.decodeCustomItem fs elem max) Value.normal
      (fun i a _ out rest _ h => decodeCustomItem_iff hmax h rest) hout le_rfl []
    rw [decodeByteItems_iff hitems (lt_of_checkCount hcount) hmaxItems hfits hmax hsize hread]
    simp

/-! ## What the decoder needs of a field -/

/-- The custom values of a field, with their type. -/
def Env.customs (env : Env ν γ) (p : FieldSchema ν × Value γ) : List (GoType ν × Value γ) :=
  match p.1.kind with
  | .custom => [(p.1.typ, p.2)]
  | .customList => env.itemsOf p.1.typ p.2
  | _ => []

/-- The structs of a field, with their type. -/
def Env.structs (env : Env ν γ) (p : FieldSchema ν × Value γ) : List (GoType ν × Value γ) :=
  match p.1.kind with
  | .record | .nested => [(p.1.typ, p.2)]
  | .recordList => env.itemsOf p.1.typ p.2
  | _ => []

/-- `Validate` of a struct accepts its fields with `nil` replaced by empty. -/
def Env.ValidNormal (env : Env ν γ) (p : GoType ν × Value γ) : Prop :=
  ∀ t values n, structValue p.1 p.2 = some (t, values) → env.recordType t = .struct n →
    (env n).validate (values.map Value.normal) = .ok ()

/-- What the decoder checks of a field and the encoder does not. -/
structure Env.Readable (env : Env ν γ) (limitSet : FieldLimits) (p : FieldSchema ν × Value γ) :
    Prop where
  /-- A list or a map has at most 65535 items. -/
  count : p.2.itemCount ≤ maxRecordCount
  /-- The `max_items` limit of a `nil` map exists. -/
  nilMap : p.2 = .nilMap → ∃ max, p.1.limitOf limitSet p.1.maxItems = .ok max
  /-- The `max_bytes` limit of a list of custom values exists. -/
  customList : p.1.kind = .customList → ∃ max, p.1.limitOf limitSet p.1.maxBytes = .ok max
  /-- A string field is a string, not a pointer to one. -/
  string : p.1.kind = .string → env.underlying p.1.typ = .string
  /-- The codecs of custom values read back what they write. -/
  codecs : ∀ q ∈ env.customs p, env.CodecReadsBack q
  /-- `Validate` does not tell `nil` from empty. -/
  valid : ∀ q ∈ env.structs p, env.ValidNormal q

/-- A field without custom values. -/
theorem Env.Readable.of_valid
    (hkind : fs.kind ≠ .string ∧ fs.kind ≠ .custom ∧ fs.kind ≠ .customList)
    (hcount : v.itemCount ≤ maxRecordCount)
    (hnil : v = .nilMap → ∃ max, fs.limitOf limitSet fs.maxItems = .ok max)
    (hvalid : ∀ q ∈ env.structs (fs, v), env.ValidNormal q) : env.Readable limitSet (fs, v) where
  count := hcount
  nilMap := hnil
  customList := fun h => absurd h hkind.2.2
  string := fun h => absurd h hkind.1
  codecs := by
    unfold Env.customs
    split <;> simp_all
  valid := hvalid

/-- A field of a kind without checks of its own. -/
theorem Env.Readable.of_count (hkind : fs.kind.isFlat = true ∧ fs.kind ≠ .string ∧
    fs.kind ≠ .custom ∧ fs.kind ≠ .customList) (hnil : v ≠ .nilMap)
    (hcount : v.itemCount ≤ maxRecordCount) : env.Readable limitSet (fs, v) := by
  apply Env.Readable.of_valid hkind.2 hcount (fun h => absurd h hnil)
  unfold Env.structs
  split <;> simp_all [WireKind.isFlat]

/-- The integers and byte strings of a field are no list and no map. -/
theorem plain_of_encodeBigDispatch {encode : Int → Except GoError Bytes}
    (h : fs.encodeBigDispatch limitSet encode v = .ok raw) : v.itemCount = 0 ∧ v ≠ .nilMap := by
  unfold FieldSchema.encodeBigDispatch at h
  split at h
  · exact ⟨rfl, nofun⟩
  · exact ⟨rfl, nofun⟩
  · exact ⟨rfl, nofun⟩
  · cases h

theorem plain_of_encodeU32 (h : env.encodeU32 fs.typ v = .ok raw) : v.itemCount = 0 ∧ v ≠ .nilMap := by
  unfold Env.encodeU32 at h
  split at h
  · exact ⟨rfl, nofun⟩
  · exact ⟨rfl, nofun⟩
  all_goals cases h

theorem plain_of_encodeBytes (h : env.encodeBytes fs.typ v = .ok raw) :
    v.itemCount = 0 ∧ v ≠ .nilMap := by
  unfold Env.encodeBytes at h
  split at h
  · exact ⟨rfl, nofun⟩
  · cases h
  · exact ⟨rfl, nofun⟩
  · cases h

theorem plain_of_customValue {n : ν} {c : γ} (h : customValue t v = .ok (some (n, c))) :
    v.itemCount = 0 ∧ v ≠ .nilMap := by
  unfold customValue at h
  split at h
  · exact ⟨rfl, nofun⟩
  · exact ⟨rfl, nofun⟩
  all_goals cases h

/-- A field without fields of its own is read back exactly when it passes the checks only the
decoder makes. -/
theorem decodeFlat_iff {canAddr : Bool} (harray : env.FixesArray fs)
    (h : env.encodeFlat limitSet fs canAddr v = .ok raw) :
    env.decodeFlat limitSet fs raw = .ok v.normal ↔ env.Readable limitSet (fs, v) := by
  have hlist : fs.kind.isFlat = true ∧ fs.kind ≠ .string ∧ fs.kind ≠ .custom ∧
        fs.kind ≠ .customList →
      v ≠ .nilMap ∧ (env.decodeFlat limitSet fs raw = .ok v.normal ↔
        v.itemCount ≤ maxRecordCount) →
      (env.decodeFlat limitSet fs raw = .ok v.normal ↔ env.Readable limitSet (fs, v)) := by
    intro hkind hread
    rw [hread.2]
    exact ⟨.of_count hkind hread.1, fun hreadable => hreadable.count⟩
  have hplain : fs.kind.isFlat = true ∧ fs.kind ≠ .string ∧ fs.kind ≠ .custom ∧
        fs.kind ≠ .customList →
      v.itemCount = 0 ∧ v ≠ .nilMap → env.decodeFlat limitSet fs raw = .ok v.normal →
      (env.decodeFlat limitSet fs raw = .ok v.normal ↔ env.Readable limitSet (fs, v)) := by
    intro hkind hv hread
    exact hlist hkind ⟨hv.2, iff_of_true hread (hv.1 ▸ Nat.zero_le _)⟩
  cases hkind : fs.kind <;> simp only [Env.encodeFlat, hkind] at h
  case u8 =>
    unfold Env.encodeU8 at h
    split at h
    next n htyp =>
      cases h
      apply hplain (by simp [hkind, WireKind.isFlat]) ⟨rfl, by simp⟩
      simp only [Env.decodeFlat, hkind, htyp]
      rfl
    all_goals cases h
  case u16 =>
    unfold Env.encodeU16 at h
    split at h
    next n htyp =>
      cases h
      apply hplain (by simp [hkind, WireKind.isFlat]) ⟨rfl, by simp⟩
      have hlength : ¬ (be16 n.toNat).length ≠ 2 := by simp [be16]
      simp only [Env.decodeFlat, hkind, rejectIf, hlength, if_false, call_ok, ok_bind, htyp,
        beNat_be16 n.toNat_lt, UInt16.ofNat_toNat]
      rfl
    all_goals cases h
  case u32 =>
    apply hplain (by simp [hkind, WireKind.isFlat]) (plain_of_encodeU32 h)
    simp only [Env.decodeFlat, hkind]
    exact decodeU32_encode h
  case bool =>
    unfold Env.encodeBool at h
    split at h
    next b htyp =>
      cases h
      apply hplain (by simp [hkind, WireKind.isFlat]) ⟨rfl, by simp⟩
      simp only [Env.decodeFlat, hkind, htyp]
      cases b <;> rfl
    all_goals cases h
  case bytes =>
    simp only [bind_eq_ok, call_eq_ok] at h
    obtain ⟨out, hout, _, hbytes, _, hbits, h⟩ := h
    cases h
    apply hplain (by simp [hkind, WireKind.isFlat]) (plain_of_encodeBytes hout)
    simp only [Env.decodeFlat, hkind, hbytes, hbits, call_ok, ok_bind]
    exact setBytesValue_encode hkind harray hout hbytes
  case string =>
    simp only [Env.decodeFlat, hkind]
    rw [decodeString_iff h]
    constructor
    · intro htyp
      simp only [Env.encodeString, Env.stringOf, htyp, bind_eq_ok] at h
      obtain ⟨s, hs, -⟩ := h
      split at hs
      next =>
        exact { count := Nat.zero_le _, nilMap := by simp, customList := by simp [hkind]
                string := fun _ => htyp, codecs := by simp [Env.customs, hkind]
                valid := by simp [Env.structs, hkind] }
      next => cases hs
      next hother _ => exact absurd rfl hother
    · intro hreadable
      exact hreadable.string hkind
  case u32List =>
    apply hlist (by simp [hkind, WireKind.isFlat])
    simp only [Env.decodeFlat, hkind]
    exact decodeU32List_iff h
  case bytesList =>
    apply hlist (by simp [hkind, WireKind.isFlat])
    simp only [Env.decodeFlat, hkind]
    exact decodeByteItems_encode readsItem_bytes h
  case partyBytes =>
    apply hlist (by simp [hkind, WireKind.isFlat])
    simp only [Env.decodeFlat, hkind]
    exact decodeByteItems_encode (fun _ => readsItem_partyBytes) h
  case partyBytePairs =>
    apply hlist (by simp [hkind, WireKind.isFlat])
    simp only [Env.decodeFlat, hkind]
    exact decodeByteItems_encode (fun _ => readsItem_partyBytePairs) h
  case custom =>
    simp only [Env.decodeFlat, hkind]
    rw [decodeCustom_iff h]
    constructor
    · intro hread
      have hv : v.itemCount = 0 ∧ v ≠ .nilMap := by
        unfold Env.encodeCustom at h
        split at h
        next => cases h
        next =>
          obtain ⟨out, hout, -⟩ := bind_eq_ok.mp h
          obtain ⟨n, c, m, hvalue, -⟩ := marshalWireValue_eq_ok hout
          exact plain_of_customValue hvalue
      exact { count := hv.1 ▸ Nat.zero_le _, nilMap := fun h => absurd h hv.2
              customList := by simp [hkind], string := by simp [hkind]
              codecs := by simpa [Env.customs, hkind] using hread
              valid := by simp [Env.structs, hkind] }
    · intro hreadable
      exact hreadable.codecs _ (by simp [Env.customs, hkind])
  case customList =>
    simp only [Env.decodeFlat, hkind]
    rw [decodeCustomList_iff h]
    constructor
    · rintro ⟨hcount, hmax, hread⟩
      simp only [Env.encodeCustomList, bind_eq_ok] at h
      obtain ⟨_, hitems, -⟩ := h
      exact { count := hcount, nilMap := fun h => absurd h (ne_nilMap_of_sliceItems hitems)
              customList := fun _ => hmax, string := by simp [hkind]
              codecs := by simpa only [Env.customs, hkind] using hread
              valid := by simp [Env.structs, hkind] }
    · intro hreadable
      exact ⟨hreadable.count, hreadable.customList hkind,
        by simpa only [Env.customs, hkind] using hreadable.codecs⟩
  case bigInt =>
    apply hplain (by simp [hkind, WireKind.isFlat]) (plain_of_encodeBigDispatch h)
    simp only [Env.decodeFlat, hkind]
    apply decodeBigDispatch_encode _ h
    intro x hx
    cases hx
    exact decodeBigIntSigned_encode x
  case bigUint =>
    apply hplain (by simp [hkind, WireKind.isFlat]) (plain_of_encodeBigDispatch h)
    simp only [Env.decodeFlat, hkind]
    exact decodeBigDispatch_encode (fun x => decodeBigUint_encode) h
  case bigPos =>
    apply hplain (by simp [hkind, WireKind.isFlat]) (plain_of_encodeBigDispatch h)
    simp only [Env.decodeFlat, hkind]
    exact decodeBigDispatch_encode (fun x => decodeBigPos_encode) h
  all_goals cases h

end Flat

end Tss.Wire
