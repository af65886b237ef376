import Tss.Wire.FlatCanonical

/-!
# Values up to `nil`

The wire does not tell a `nil` byte string, list or map from an empty one, and
a map has no order. `normal` is the form the decoder returns: what is decoded
is empty where it could be `nil`, and lists maps by increasing key.
-/

namespace Tss.Wire

open Fallible

section Normal

variable {γ : Type}

/-- The entries of a map by increasing key. -/
def sortKeys (entries : List (UInt32 × Value γ)) : List (UInt32 × Value γ) :=
  entries.insertionSort fun a b => be32 a.1.toNat ≤ be32 b.1.toNat

mutual

/-- The value with `nil` byte strings, lists and maps replaced by empty ones. A map has no order;
its entries are listed by increasing key. -/
def Value.normal : Value γ → Value γ
  | .bytes b => .bytes (some (b.getD []))
  | .pointer v => .pointer v.normal
  | .nilSlice => .slice []
  | .slice items => .slice (Value.normalList items)
  | .nilMap => .map []
  | .map entries => .map (sortKeys (Value.normalEntries entries))
  | .struct fields => .struct (Value.normalList fields)
  | v => v

def Value.normalList : List (Value γ) → List (Value γ)
  | [] => []
  | v :: values => v.normal :: Value.normalList values

def Value.normalEntries : List (UInt32 × Value γ) → List (UInt32 × Value γ)
  | [] => []
  | (key, v) :: entries => (key, v.normal) :: Value.normalEntries entries

end

theorem Value.normalList_eq (values : List (Value γ)) :
    Value.normalList values = values.map Value.normal := by
  induction values with
  | nil => rfl
  | cons v values ih => rw [Value.normalList, ih, List.map_cons]

theorem Value.normalEntries_eq (entries : List (UInt32 × Value γ)) :
    Value.normalEntries entries = entries.map fun e => (e.1, e.2.normal) := by
  induction entries with
  | nil => rfl
  | cons e entries ih => rw [Value.normalEntries, ih, List.map_cons]

@[simp] theorem Value.normal_slice (items : List (Value γ)) :
    (Value.slice items).normal = .slice (items.map Value.normal) := by
  rw [Value.normal, Value.normalList_eq]

@[simp] theorem Value.normal_struct (fields : List (Value γ)) :
    (Value.struct fields).normal = .struct (fields.map Value.normal) := by
  rw [Value.normal, Value.normalList_eq]

@[simp] theorem Value.normal_map (entries : List (UInt32 × Value γ)) :
    (Value.map entries).normal = .map (sortKeys (entries.map fun e => (e.1, e.2.normal))) := by
  rw [Value.normal, Value.normalEntries_eq]

/-- A value without `nil` inside, its maps in order. -/
def Value.IsNormal (v : Value γ) : Prop := v.normal = v

theorem isNormal_slice {items : List (Value γ)} (h : ∀ v ∈ items, v.IsNormal) :
    (Value.slice items).IsNormal := by
  rw [Value.IsNormal, Value.normal_slice, List.map_congr_left h, List.map_id']

theorem isNormal_struct {fields : List (Value γ)} (h : ∀ v ∈ fields, v.IsNormal) :
    (Value.struct fields).IsNormal := by
  rw [Value.IsNormal, Value.normal_struct, List.map_congr_left h, List.map_id']

theorem isNormal_pointer {v : Value γ} (h : v.IsNormal) : (Value.pointer v).IsNormal := by
  rw [Value.IsNormal, Value.normal, h]

theorem isNormal_map {entries : List (UInt32 × Value γ)} (h : ∀ e ∈ entries, e.2.IsNormal)
    (hsorted : entries.Pairwise fun a b => be32 a.1.toNat < be32 b.1.toNat) :
    (Value.map entries).IsNormal := by
  have hvalues : entries.map (fun e => (e.1, e.2.normal)) = entries := by
    have hid : entries.map (fun e => (e.1, e.2.normal)) = entries.map id :=
      List.map_congr_left fun e he => by rw [h e he]; rfl
    rw [hid, List.map_id]
  rw [Value.IsNormal, Value.normal_map, hvalues, sortKeys,
    List.Pairwise.insertionSort_eq (hsorted.imp fun hlt => le_of_lt hlt)]

end Normal

/-! ## What a decoder returns -/

section Decode

variable {ν γ : Type} {env : Env ν γ} {limitSet : FieldLimits} {fs : FieldSchema ν} {raw : Bytes}
  {v : Value γ}

theorem isNormal_decodeItems {decode : Nat → Bytes → Result (Value γ × Bytes)}
    (hitem : ∀ i raw a rest, decode i raw = .ok (a, rest) → a.IsNormal) {i count : Nat}
    {rest : Bytes} {items : List (Value γ)} (h : decodeItems decode i count raw = .ok (items, rest)) :
    ∀ a ∈ items, a.IsNormal := by
  induction count generalizing i raw items with
  | zero =>
    cases h
    simp
  | succ count ih =>
    simp only [decodeItems, bind_eq_ok] at h
    obtain ⟨⟨a, tail⟩, ha, ⟨as, rest'⟩, has, h⟩ := h
    dsimp only at has h
    cases h
    exact List.forall_mem_cons.mpr ⟨hitem i raw a tail ha, ih has⟩

theorem isNormal_setUint {t : GoType ν} {n : UInt32} (h : env.setUint t n = .ok v) : v.IsNormal := by
  unfold Env.setUint at h
  split at h
  · cases h
    rfl
  · cases h
    rfl
  · cases h

theorem isNormal_decodeBigDispatch {decode : Bytes → Except GoError Int}
    (h : fs.decodeBigDispatch limitSet decode raw = .ok v) : v.IsNormal := by
  simp only [FieldSchema.decodeBigDispatch, bind_eq_ok] at h
  obtain ⟨_, -, x, -, _, -, h⟩ := h
  split at h
  · cases h
    rfl
  · cases h
    rfl
  · cases h

theorem isNormal_unmarshalWireValue {t : GoType ν} {missing : GoError} {failed : GoError → GoError}
    (h : env.unmarshalWireValue t missing failed raw = .ok v) : v.IsNormal := by
  unfold Env.unmarshalWireValue at h
  split at h
  next =>
    split at h
    next =>
      obtain ⟨c, -, h⟩ := bind_eq_ok.mp h
      cases h
      rfl
    next => cases h
  next =>
    split at h
    next =>
      obtain ⟨c, -, h⟩ := bind_eq_ok.mp h
      cases h
      rfl
    next => cases h
  next => cases h

theorem isNormal_decodeByteItems {minRecordLen : Nat}
    {item : GoType ν → Nat → Nat → Bytes → Result (Value γ × Bytes)}
    (hitem : ∀ elem max i raw a rest, item elem max i raw = .ok (a, rest) → a.IsNormal)
    (h : env.decodeByteItems limitSet fs minRecordLen item raw = .ok v) : v.IsNormal := by
  obtain ⟨elem, max, items, tail, rfl, -, -, -, -, hitems, -⟩ := decodeByteItems_eq_ok h
  exact isNormal_slice (isNormal_decodeItems (hitem elem max) hitems)

theorem isNormal_decodeFlat (h : env.decodeFlat limitSet fs raw = .ok v) : v.IsNormal := by
  cases hkind : fs.kind <;> simp only [Env.decodeFlat, hkind] at h
  case u8 =>
    split at h
    · cases h
      rfl
    all_goals cases h
  case u16 =>
    obtain ⟨-, h⟩ := seq_eq_ok.mp h
    split at h
    · cases h
      rfl
    · cases h
  case u32 =>
    obtain ⟨n, -, h⟩ := bind_eq_ok.mp h
    exact isNormal_setUint h
  case bool =>
    iterate 2 obtain ⟨-, h⟩ := seq_eq_ok.mp h
    split at h
    · cases h
      rfl
    · cases h
  case bytes =>
    iterate 2 obtain ⟨-, h⟩ := seq_eq_ok.mp h
    unfold Env.setBytesValue at h
    split at h
    · obtain ⟨-, h⟩ := seq_eq_ok.mp h
      cases h
      rfl
    · split at h
      · cases h
        rfl
      · cases h
    · cases h
  case string =>
    iterate 2 obtain ⟨-, h⟩ := seq_eq_ok.mp h
    split at h
    · cases h
      rfl
    · cases h
  case u32List =>
    simp only [Env.decodeU32List, bind_eq_ok] at h
    obtain ⟨_, -, _, -, _, -, _, -, _, -, elem, -, ⟨items, rest⟩, hitems, h⟩ := h
    cases h
    refine isNormal_slice (isNormal_decodeItems ?_ hitems)
    intro i raw a rest ha
    simp only [bind_eq_ok] at ha
    obtain ⟨_, -, item, hitem, ha⟩ := ha
    cases ha
    exact isNormal_setUint hitem
  case bytesList =>
    refine isNormal_decodeByteItems ?_ h
    intro elem max i raw a rest ha
    simp only [Env.decodeBytesItem, bind_eq_ok] at ha
    obtain ⟨_, -, ha⟩ := ha
    split at ha
    · cases ha
      rfl
    · cases ha
  case partyBytes =>
    refine isNormal_decodeByteItems ?_ h
    intro elem max i raw a rest ha
    simp only [decodePartyBytesItem, bind_eq_ok] at ha
    obtain ⟨_, -, _, -, ha⟩ := ha
    cases ha
    rfl
  case partyBytePairs =>
    refine isNormal_decodeByteItems ?_ h
    intro elem max i raw a rest ha
    simp only [decodePartyBytePairsItem, bind_eq_ok] at ha
    obtain ⟨_, -, _, -, _, -, ha⟩ := ha
    cases ha
    rfl
  case custom =>
    iterate 2 obtain ⟨-, h⟩ := seq_eq_ok.mp h
    exact isNormal_unmarshalWireValue h
  case customList =>
    refine isNormal_decodeByteItems ?_ h
    intro elem max i raw a rest ha
    simp only [Env.decodeCustomItem, bind_eq_ok] at ha
    obtain ⟨_, -, _, -, item, hitem, ha⟩ := ha
    cases ha
    exact isNormal_unmarshalWireValue hitem
  case bigInt => exact isNormal_decodeBigDispatch h
  case bigUint => exact isNormal_decodeBigDispatch h
  case bigPos => exact isNormal_decodeBigDispatch h
  all_goals cases h

/-! ## Structs, lists and maps -/

variable {decode : FieldSchema ν → Bytes → Result (Value γ)} {frameLimits : FrameLimits}

theorem isNormal_decodeFields (hdecode : ∀ fs raw v, decode fs raw = .ok v → v.IsNormal)
    {what goName : String} {schema : List (FieldSchema ν)} {matched : List (Option Field)}
    {values : List (Value γ)} (h : decodeFields decode what goName schema matched = .ok values) :
    ∀ v ∈ values, v.IsNormal := by
  induction schema generalizing matched values with
  | nil =>
    cases h
    simp
  | cons fs schema ih =>
    cases matched with
    | nil =>
      cases h
      simp
    | cons m matched =>
      cases m with
      | none =>
        rw [decodeFields, bind_eq_ok] at h
        obtain ⟨rest, hrest, h⟩ := h
        cases h
        exact List.forall_mem_cons.mpr ⟨rfl, ih hrest⟩
      | some field =>
        simp only [decodeFields, bind_eq_ok, mapError_eq_ok] at h
        obtain ⟨v, hv, rest, hrest, h⟩ := h
        cases h
        exact List.forall_mem_cons.mpr ⟨hdecode fs field.value v hv, ih hrest⟩

theorem isNormal_unmarshalRecordValue (hdecode : ∀ fs raw v, decode fs raw = .ok v → v.IsNormal)
    {t : GoType ν} (h : env.unmarshalRecordValue frameLimits decode t raw = .ok v) : v.IsNormal := by
  have hrecord : ∀ {t values}, env.unmarshalRecord frameLimits decode t raw = .ok values →
      (Value.struct values).IsNormal := by
    intro t values hvalues
    simp only [Env.unmarshalRecord, bind_eq_ok] at hvalues
    obtain ⟨_, -, _, -, _, -, _, -, values', hfields, _, -, hvalues⟩ := hvalues
    cases hvalues
    exact isNormal_struct (isNormal_decodeFields hdecode hfields)
  unfold Env.unmarshalRecordValue at h
  split at h
  · obtain ⟨values, hvalues, h⟩ := bind_eq_ok.mp h
    cases h
    exact isNormal_pointer (hrecord hvalues)
  · obtain ⟨values, hvalues, h⟩ := bind_eq_ok.mp h
    cases h
    exact hrecord hvalues

theorem isNormal_unmarshalMessage (hdecode : ∀ fs raw v, decode fs raw = .ok v → v.IsNormal)
    {n : ν} {values : List (Value γ)} (h : env.unmarshalMessage frameLimits decode n raw = .ok values) :
    ∀ v ∈ values, v.IsNormal := by
  unfold Env.unmarshalMessage at h
  split at h
  next => cases h
  next => cases h
  next =>
    simp only [bind_eq_ok] at h
    obtain ⟨_, -, _, -, _, -, _, -, values', hfields, _, -, h⟩ := h
    cases h
    exact isNormal_decodeFields hdecode hfields

/-- The entries of a map are read by increasing key. -/
theorem isNormal_decodeEntries (hdecode : ∀ fs raw v, decode fs raw = .ok v → v.IsNormal)
    {i count : Nat} {prev : Option Bytes} {seen : List UInt32} {entries : List (UInt32 × Value γ)}
    {rest : Bytes}
    (h : fs.decodeEntries limitSet frameLimits decode i prev seen count raw = .ok (entries, rest)) :
    (∀ e ∈ entries, e.2.IsNormal) ∧ (∀ last ∈ prev, ∀ e ∈ entries, last < be32 e.1.toNat) ∧
      entries.Pairwise fun a b => be32 a.1.toNat < be32 b.1.toNat := by
  induction count generalizing i prev seen raw entries with
  | zero =>
    cases h
    exact ⟨by simp, by simp, .nil⟩
  | succ count ih =>
    simp only [FieldSchema.decodeEntries, bind_eq_ok, call_eq_ok, rejectIf_eq_ok, not_not] at h
    obtain ⟨⟨keyBytes, afterKey⟩, -, _, hsize, _, hsorted, max, -, ⟨valueBytes, afterValue⟩, -, key,
      hkey, value, hvalue, _, -, ⟨tail, rest'⟩, htail, h⟩ := h
    dsimp only at hsize hsorted hkey hvalue htail h
    cases h
    obtain ⟨hnormal, hafter, hpairs⟩ := ih htail
    have hkeyBytes : be32 key.toNat = keyBytes := by
      rw [decodeUint32, seq_eq_ok] at hkey
      obtain rfl := Except.ok.inj hkey.2
      have hlt := beNat_lt keyBytes
      rw [hsize] at hlt
      rw [UInt32.toNat_ofNat_of_lt' hlt, be32_beNat hsize]
    have hlater : ∀ e ∈ tail, be32 key.toNat < be32 e.1.toNat := by
      rw [hkeyBytes]
      exact hafter keyBytes rfl
    refine ⟨List.forall_mem_cons.mpr ⟨hdecode _ _ _ hvalue, hnormal⟩, ?_,
      List.pairwise_cons.mpr ⟨hlater, hpairs⟩⟩
    intro last hlast
    obtain rfl : prev = some last := hlast
    have hlt : last < be32 key.toNat := by
      rw [hkeyBytes]
      simpa using hsorted
    exact List.forall_mem_cons.mpr ⟨hlt, fun e he => hlt.trans (hlater e he)⟩

theorem isNormal_decodeStep (hdecode : ∀ fs raw v, decode fs raw = .ok v → v.IsNormal)
    (h : env.decodeStep limitSet frameLimits decode fs raw = .ok v) : v.IsNormal := by
  unfold Env.decodeStep at h
  split at h
  next =>
    obtain ⟨-, h⟩ := seq_eq_ok.mp h
    unfold Env.decodeNested at h
    split at h
    · obtain ⟨values, hvalues, h⟩ := bind_eq_ok.mp h
      cases h
      exact isNormal_struct (isNormal_unmarshalMessage hdecode hvalues)
    · obtain ⟨values, hvalues, h⟩ := bind_eq_ok.mp h
      cases h
      exact isNormal_pointer (isNormal_struct (isNormal_unmarshalMessage hdecode hvalues))
    · cases h
  next => exact isNormal_unmarshalRecordValue hdecode h
  next =>
    simp only [Env.decodeRecordList, bind_eq_ok] at h
    obtain ⟨_, -, _, -, _, -, _, -, elem, -, ⟨items, rest⟩, hitems, _, -, h⟩ := h
    cases h
    refine isNormal_slice (isNormal_decodeItems ?_ hitems)
    intro i raw a rest ha
    simp only [Env.decodeRecordItem, bind_eq_ok, mapError_eq_ok] at ha
    obtain ⟨_, -, _, -, item, hitem, ha⟩ := ha
    cases ha
    exact isNormal_unmarshalRecordValue hdecode hitem
  next =>
    simp only [Env.decodeMap, bind_eq_ok] at h
    obtain ⟨_, -, _, -, _, -, h⟩ := h
    split at h
    next =>
      simp only [bind_eq_ok] at h
      obtain ⟨⟨entries, rest⟩, hentries, _, -, h⟩ := h
      cases h
      obtain ⟨hnormal, -, hpairs⟩ := isNormal_decodeEntries hdecode hentries
      exact isNormal_map hnormal hpairs
    next => cases h
  next => exact isNormal_decodeFlat h

/-- What the decoder returns is normal, at every depth. -/
theorem isNormal_decode (depth : Nat) :
    ∀ fs raw v, env.decode limitSet frameLimits depth fs raw = .ok v → v.IsNormal := by
  induction depth with
  | zero =>
    intro fs raw v h
    cases h
  | succ depth ih => exact fun fs raw v => isNormal_decodeStep ih

end Decode

end Tss.Wire
