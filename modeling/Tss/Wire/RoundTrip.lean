import Tss.Wire.StructRoundTrip

/-!
# A message that was marshalled is unmarshalled

`Unmarshal` gives a message back from the bytes `Marshal` made of it exactly
when every field in it, at any depth, passes the checks that only the decoder
makes. The bytes of a field are longer than those of the fields in it, so the
depth the decoder is given suffices.
-/

namespace Tss.Wire

open Fallible

section RoundTrip

variable {ν γ : Type} {env : Env ν γ} {limitSet : FieldLimits} {mapAddr : Bool}
  {frameLimits : FrameLimits}

section Levels

variable {what goName : String} {schema : List (FieldSchema ν)} {values : List (Value γ)}
  {fields : List Field} {raw : Bytes} {fs : FieldSchema ν} {v : Value γ}

/-! ## Every level of the decoder -/

/-- A field directly inside another: well formed, and encoded in fewer bytes. -/
def Env.SmallerPart (env : Env ν γ) (limitSet : FieldLimits) (mapAddr canAddr : Bool) (size : Nat)
    (q : FieldSchema ν × Value γ) : Prop :=
  env.WellFormed q.1 ∧
    ∃ raw, env.encode limitSet mapAddr q.1 canAddr q.2 = .ok raw ∧ raw.length < size

theorem smallerPart_of_marshalRecordValue {t : GoType ν}
    (h : env.marshalRecordValue limitSet mapAddr t v = .ok raw) :
    ∀ q ∈ env.recordParts t v, env.SmallerPart limitSet mapAddr true raw.length q := by
  obtain ⟨t', values, n, schema, fields, hvalue, htype, hschema, -, hfields, hbody⟩ :=
    marshalRecordValue_eq_ok h
  rw [Env.recordParts, hvalue]
  dsimp only
  rw [fieldsOf_eq htype hschema]
  intro q hq
  obtain ⟨f, hf, -, hencode⟩ := exists_mem_of_forall₂ (forall₂_of_encodeFields hfields) hq
  exact ⟨(getSchema_eq_ok hschema).1 _ (mem_schema_of_structParts hq), f.value, hencode,
    length_lt_of_marshalFieldBody hbody f hf⟩

theorem length_lt_of_encodeSortedEntries {prev : Option Bytes} {i : Nat}
    {entries : List (Bytes × Bytes)} {out : Bytes} (h : encodeSortedEntries prev i entries = .ok out) :
    ∀ e ∈ entries, e.2.length ≤ out.length := by
  induction entries generalizing prev i out with
  | nil => simp
  | cons e entries ih =>
    obtain ⟨key, value⟩ := e
    simp only [encodeSortedEntries, bind_eq_ok, mapError_eq_ok] at h
    obtain ⟨_, -, k, -, v, hv, rest, hrest, h⟩ := h
    cases h
    obtain ⟨-, rfl⟩ := appendBytes_eq_ok hv
    simp only [List.length_append]
    intro e he
    rcases List.mem_cons.mp he with rfl | he
    · show value.length ≤ _
      omega
    · have := ih hrest e he
      omega

/-- The fields directly inside a field that was encoded. -/
theorem smallerPart_of_encode {canAddr : Bool} (hwf : env.WellFormed fs)
    (h : env.encode limitSet mapAddr fs canAddr v = .ok raw) :
    ∀ q ∈ env.parts fs v, env.SmallerPart limitSet mapAddr (fs.partAddr mapAddr) raw.length q := by
  cases hkind : fs.kind
  case record =>
    rw [encode_record hkind] at h
    simp only [Env.parts, hkind, FieldSchema.partAddr]
    exact smallerPart_of_marshalRecordValue h
  case nested =>
    obtain ⟨n, values, hvalue, hmessage, -⟩ := encode_nested_eq_ok hkind h
    obtain ⟨message, schema, fields, htype, -, hschema, -, hfields, hraw⟩ :=
      marshalMessage_eq_ok hmessage
    simp only [Env.parts, hkind, Env.recordParts, hvalue, fieldsOf_eq htype hschema,
      FieldSchema.partAddr]
    intro q hq
    obtain ⟨f, hf, -, hencode⟩ := exists_mem_of_forall₂ (forall₂_of_encodeFields hfields) hq
    exact ⟨(getSchema_eq_ok hschema).1 _ (mem_schema_of_structParts hq), f.value, hencode,
      length_lt_of_marshalFields hraw f hf⟩
  case recordList =>
    rw [encode_recordList hkind] at h
    obtain ⟨⟨elem, items⟩, hitems, h⟩ := bind_eq_ok.mp h
    simp only [FieldSchema.encodeRecordList, bind_eq_ok] at h
    obtain ⟨_, -, _, -, out, hout, h⟩ := h
    cases h
    intro q hq
    obtain ⟨item, hitem, hq⟩ : ∃ item ∈ items, q ∈ env.recordParts elem item := by
      obtain ⟨helem, -, rfl | ⟨rfl, rfl⟩⟩ := sliceItems_eq_ok hitems
      · unfold Env.makeSlice at helem
        split at helem
        next htyp =>
          cases helem
          simp only [Env.parts, hkind, htyp] at hq
          exact List.mem_flatMap.mp hq
        next => cases helem
      · simp [Env.parts, hkind] at hq
    obtain ⟨i, bytes, hbytes, hle⟩ := length_le_of_encodeItems hout item hitem
    obtain ⟨record, hrecord, -, rfl⟩ := encodeRecordItem_eq_ok hbytes
    obtain ⟨hwf, raw', hraw', hlt⟩ := smallerPart_of_marshalRecordValue hrecord q hq
    have haddr : fs.partAddr mapAddr = true := by simp [FieldSchema.partAddr, hkind]
    rw [haddr]
    simp only [List.length_append] at hle ⊢
    exact ⟨hwf, raw', hraw', by omega⟩
  case map =>
    have haddr : fs.partAddr mapAddr = mapAddr := by simp [FieldSchema.partAddr, hkind]
    rw [haddr]
    rcases encode_map_eq_ok hkind h with ⟨rfl, -⟩ | ⟨entries, rfl⟩
    · simp [Env.parts, hkind]
    · rw [encode_map hkind] at h
      simp only [FieldSchema.encodeMap, bind_eq_ok, call_eq_ok] at h
      obtain ⟨_, -, _, -, encoded, hencoded, out, hout, h⟩ := h
      cases h
      obtain ⟨rfl, hvalues⟩ := encodeEntries_eq_ok hencoded
      obtain ⟨harray, hne⟩ := hwf.mapValue hkind
      have hvalueWf : env.WellFormed fs.mapValue :=
        ⟨harray, fun h => absurd h hne, fun h => absurd h hne, fun h => absurd h hne⟩
      simp only [Env.parts, hkind, List.forall_mem_map]
      intro e he
      refine ⟨hvalueWf, _, hvalues e he, ?_⟩
      have hmem : (be32 e.1.toNat, env.entryBytes limitSet mapAddr fs.mapValue e.2) ∈
          sortEntries (entries.map fun e =>
            (be32 e.1.toNat, env.entryBytes limitSet mapAddr fs.mapValue e.2)) :=
        (List.perm_insertionSort _ _).mem_iff.mpr (List.mem_map_of_mem he)
      have hle := length_lt_of_encodeSortedEntries hout _ hmem
      have hfour : ∀ n, (be32 n).length = 4 := fun _ => rfl
      rw [List.length_append, hfour]
      dsimp only at hle
      omega
  all_goals simp [Env.parts, hkind]

theorem Env.inside_singleton {p q : FieldSchema ν × Value γ} :
    env.Inside p [q] ↔ p = q ∨ env.Inside p (env.parts q.1 q.2) := by
  constructor
  · intro h
    cases h with
    | field hp => exact .inl (List.mem_singleton.mp hp)
    | part hq hp =>
      obtain rfl := List.mem_singleton.mp hq
      exact .inr hp
  · rintro (rfl | hp)
    · exact .field (List.mem_singleton.mpr rfl)
    · exact .part (List.mem_singleton.mpr rfl) hp

theorem Env.inside_iff_exists {p : FieldSchema ν × Value γ} {parts : List (FieldSchema ν × Value γ)} :
    env.Inside p parts ↔ ∃ q ∈ parts, env.Inside p [q] := by
  constructor
  · intro h
    cases h with
    | field hp => exact ⟨p, hp, .field (List.mem_singleton.mpr rfl)⟩
    | part hq hp => exact ⟨_, hq, .part (List.mem_singleton.mpr rfl) hp⟩
  · rintro ⟨q, hq, hp⟩
    exact hp.mono (by simpa using hq)

/-- The structs inside some fields have no more fields than a frame may have. -/
def Env.FewFields (env : Env ν γ) (maxFields : Int) (parts : List (FieldSchema ν × Value γ)) : Prop :=
  ∀ p, env.Inside p parts → ∀ s ∈ env.structs p, ((env.recordParts s.1 s.2).length : Int) ≤ maxFields

theorem Env.FewFields.mono {maxFields : Int} {parts parts' : List (FieldSchema ν × Value γ)}
    (h : env.FewFields maxFields parts) (hsub : ∀ p, env.Inside p parts' → env.Inside p parts) :
    env.FewFields maxFields parts' :=
  fun p hp => h p (hsub p hp)

/-- A field is read back exactly when every field in it, at any depth, passes the checks only the
decoder makes. -/
theorem decode_iff (depth : Nat) {fs : FieldSchema ν} {canAddr : Bool} {v : Value γ} {raw : Bytes}
    (hwf : env.WellFormed fs) (h : env.encode limitSet mapAddr fs canAddr v = .ok raw)
    (hdepth : raw.length < depth) (hholds : frameLimits.Holds raw.length)
    (hfew : env.FewFields frameLimits.maxFields [(fs, v)]) :
    env.decode limitSet frameLimits depth fs raw = .ok v.normal ↔
      ∀ p, env.Inside p [(fs, v)] → env.Readable limitSet p := by
  induction depth generalizing fs canAddr v raw with
  | zero => exact absurd hdepth (Nat.not_lt_zero _)
  | succ depth ih =>
    have hsmaller := smallerPart_of_encode hwf h
    have hparts : ∀ q ∈ env.parts fs v,
        (env.ReadsBack limitSet mapAddr (fs.partAddr mapAddr) (env.decode limitSet frameLimits depth) q ↔
          ∀ p, env.Inside p [q] → env.Readable limitSet p) := by
      intro q hq
      obtain ⟨hwf', raw', hraw', hlt⟩ := hsmaller q hq
      have hinside : ∀ p, env.Inside p [q] → env.Inside p [(fs, v)] := fun p hp =>
        Env.inside_singleton.mpr (.inr (Env.inside_iff_exists.mpr ⟨q, hq, hp⟩))
      have hiff := ih hwf' hraw' (by omega) (hholds.mono (by omega)) (hfew.mono hinside)
      rw [← hiff]
      constructor
      · intro hread
        exact hread raw' hraw'
      · intro hread raw'' hraw''
        obtain rfl := Except.ok.inj (hraw'.symm.trans hraw'')
        exact hread
    have hcount := hfew (fs, v) (.field (List.mem_singleton.mpr rfl))
    rw [Env.decode, decodeStep_iff hwf h hholds hcount]
    constructor
    · rintro ⟨hreadable, hread⟩ p hp
      rcases Env.inside_singleton.mp hp with rfl | hp
      · exact hreadable
      · obtain ⟨q, hq, hp⟩ := Env.inside_iff_exists.mp hp
        exact (hparts q hq).mp (hread q hq) p hp
    · intro hall
      refine ⟨hall _ (.field (List.mem_singleton.mpr rfl)), ?_⟩
      intro q hq
      apply (hparts q hq).mpr
      intro p hp
      exact hall p (Env.inside_singleton.mpr (.inr (Env.inside_iff_exists.mpr ⟨q, hq, hp⟩)))

end Levels

end RoundTrip

/-! ## Messages -/

section Messages

variable {ν γ : Type} (env : Env ν γ) (limitSet : FieldLimits)

/-- Frame limits that hold a marshalled message: its size, the size of each of its fields, and the
number of fields of the message and of every struct in it. -/
structure Env.Covers (frameLimits : FrameLimits) (n : ν) (x : List (Value γ)) (raw : Bytes) :
    Prop where
  valid : frameLimits.withDefaults.validate = .ok ()
  total : (raw.length : Int) ≤ frameLimits.withDefaults.maxTotalBytes
  field : ∀ q ∈ env.messageParts n x, ∀ out, env.encode limitSet false q.1 true q.2 = .ok out →
    (out.length : Int) ≤ frameLimits.withDefaults.maxFieldBytes
  count : ((env.messageParts n x).length : Int) ≤ frameLimits.withDefaults.maxFields
  inside : env.FewFields frameLimits.withDefaults.maxFields (env.messageParts n x)

variable {env limitSet} {frameLimits : FrameLimits} {n : ν} {x : List (Value γ)} {raw : Bytes}

/-- The decoder returns normal values only. -/
theorem exists_unmarshal_iff :
    (∃ x', env.unmarshal limitSet frameLimits n raw = .ok x' ∧
        x'.map Value.normal = x.map Value.normal) ↔
      env.unmarshal limitSet frameLimits n raw = .ok (x.map Value.normal) := by
  constructor
  · rintro ⟨x', hx', hsame⟩
    have hall := isNormal_unmarshalMessage (isNormal_decode _) hx'
    rw [hx', ← hsame, List.map_congr_left hall, List.map_id']
  · intro hx
    have hall := isNormal_unmarshalMessage (isNormal_decode _) hx
    exact ⟨_, hx, by rw [List.map_congr_left hall, List.map_id']⟩

/-- The frame limits that cover a message admit its frame. -/
theorem Env.Covers.within {what goName : String} {schema : List (FieldSchema ν)} {fields : List Field}
    (h : env.Covers limitSet frameLimits n x raw)
    (hparts : env.messageParts n x = structParts schema x)
    (hfields : env.encodeFields limitSet false what goName schema x = .ok fields) :
    frameLimits.withDefaults.Within raw fields := by
  have hcount := h.count
  rw [hparts, (forall₂_of_encodeFields hfields).length_eq] at hcount
  have hdefaults := FrameLimits.withDefaults_of_valid h.valid
  constructor
  · rw [hdefaults]
    exact h.valid
  · rw [hdefaults]
    exact h.total
  · rw [hdefaults]
    exact hcount
  · rw [hdefaults]
    intro f hf
    obtain ⟨q, hq, -, hencode⟩ :=
      exists_mem_of_forall₂ (List.Forall₂.flip (forall₂_of_encodeFields hfields)) hf
    exact h.field q (hparts ▸ hq) f.value hencode

/-- A field of a message that was marshalled. -/
theorem readsBack_messageField {what goName : String} {schema : List (FieldSchema ν)}
    {fields : List Field} {version : UInt16} {typeID : GoString}
    (hcovers : env.Covers limitSet frameLimits n x raw)
    (hparts : env.messageParts n x = structParts schema x) (hschema : env.getSchema n = .ok schema)
    (hfields : env.encodeFields limitSet false what goName schema x = .ok fields)
    (hraw : marshalFields version typeID fields = .ok raw) {q : FieldSchema ν × Value γ}
    (hq : q ∈ structParts schema x) :
    env.ReadsBack limitSet false true (env.decode limitSet frameLimits.withDefaults raw.length) q ↔
      ∀ p, env.Inside p [q] → env.Readable limitSet p := by
  obtain ⟨f, hf, -, hencode⟩ := exists_mem_of_forall₂ (forall₂_of_encodeFields hfields) hq
  have hlt := length_lt_of_marshalFields hraw f hf
  have htotal := hcovers.total
  have hholds : frameLimits.withDefaults.Holds f.value.length :=
    ⟨hcovers.valid, by omega, hcovers.field q (hparts ▸ hq) f.value hencode⟩
  have hfew : env.FewFields frameLimits.withDefaults.maxFields [q] :=
    hcovers.inside.mono fun p hp => Env.inside_iff_exists.mpr ⟨q, hparts ▸ hq, hp⟩
  have hiff := decode_iff raw.length
    ((getSchema_eq_ok hschema).1 _ (mem_schema_of_structParts hq)) hencode hlt hholds hfew
  rw [← hiff]
  constructor
  · intro hback
    exact hback f.value hencode
  · intro hback raw' hraw'
    obtain rfl := Except.ok.inj (hencode.symm.trans hraw')
    exact hback

end Messages

/-! ### A list with more items than the decoder allows -/

/-- A message with one list of integers. -/
def listSample : Env Unit Unit := fun _ =>
  { pkg := "sample"
    goName := "Message"
    underlying := .struct [⟨"Items", true, .slice .uint32, some (lit "1,u32list")⟩]
    message := some ⟨lit "sample.message", 1⟩
    marshaler := none
    unmarshaler := none
    validate := fun _ => .ok () }

/-- The field of the message. -/
def listField : FieldSchema Unit :=
  { tag := 1, name := "Items", kind := .u32List, typ := .slice .uint32 }

/-- The message with a list of zeros, and its fields on the wire. -/
def zeros (count : Nat) : List (Value Unit) := [.slice (List.replicate count (.uint32 0))]

def zeroFields (count : Nat) : List Field :=
  [⟨1, be32 count ++ List.replicate (4 * count) 0⟩]

theorem encodeItems_zeros (i count : Nat) :
    encodeItems (listSample.encodeU32Item .uint32) i (List.replicate count (.uint32 0)) =
      .ok (List.replicate (4 * count) 0) := by
  induction count generalizing i with
  | zero => rfl
  | succ count ih =>
    rw [List.replicate_succ, encodeItems, ih]
    show Except.ok (be32 0 ++ List.replicate (4 * count) 0) = _
    rw [Nat.mul_succ, Nat.add_comm, List.replicate_add]
    rfl

theorem encode_zeros {count : Nat} (h : count < 2 ^ 32) :
    listSample.encode (fun _ => none) false listField true
        (.slice (List.replicate count (.uint32 0))) =
      .ok (be32 count ++ List.replicate (4 * count) 0) := by
  have hlt : ¬ 2 ^ 32 ≤ count := by omega
  have hflat : listField.kind.isFlat = true := rfl
  have hitems : listSample.sliceItems listField.typ (.slice (List.replicate count (.uint32 0))) =
      .ok (.uint32, List.replicate count (.uint32 0)) := rfl
  have hlimit : ∀ what, listField.checkMaxItems (fun _ => none) what count = .ok () := fun _ => rfl
  rw [encode_flat hflat]
  show listSample.encodeU32List _ listField _ = _
  simp only [Env.encodeU32List, hitems, checkCount, rejectIf, List.length_replicate, hlt, if_false,
    hlimit, encodeItems_zeros, call_ok, ok_bind]
  rfl

theorem listSample_schema : listSample.getSchema () = .ok [listField] := rfl

theorem encodeFields_zeros {count : Nat} (h : count < 2 ^ 32) (what goName : String) :
    listSample.encodeFields (fun _ => none) false what goName [listField] (zeros count) =
      .ok (zeroFields count) := by
  rw [zeros, Env.encodeFields, if_neg (by exact Bool.false_ne_true), encode_zeros h, mapError_ok,
    ok_bind, Env.encodeFields, ok_bind]
  rfl

theorem marshalFields_zeros {count : Nat} (h : 4 * count + 4 < 2 ^ 32) :
    ∃ raw, marshalFields 1 (lit "sample.message") (zeroFields count) = .ok raw ∧
      raw.length = 4 * count + 34 := by
  have hlength : (be32 count ++ List.replicate (4 * count) (0 : UInt8)).length = 4 * count + 4 := by
    rw [List.length_append, List.length_replicate]
    exact Nat.add_comm _ _
  have hshort : ¬ 2 ^ 32 ≤ (be32 count ++ List.replicate (4 * count) (0 : UInt8)).length := by
    rw [hlength]
    omega
  have hbody : marshalFieldBody (zeroFields count) =
      .ok (be16 1 ++ (zeroFields count).flatMap Field.encode) := by
    simp only [marshalFieldBody, zeroFields, checkFieldBody, rejectIf, hshort, if_false]
    rfl
  have hframe : marshalFields 1 (lit "sample.message") (zeroFields count) =
      .ok (magic ++ (be16 14 ++ (lit "sample.message" ++ (be16 1 ++
        (be16 1 ++ (zeroFields count).flatMap Field.encode))))) := by
    rw [marshalFields, hbody]
    rfl
  refine ⟨_, hframe, ?_⟩
  rw [length_marshalFields hframe]
  show 10 + 14 + ((6 + (be32 count ++ List.replicate (4 * count) (0 : UInt8)).length) + 0) = _
  rw [hlength]
  omega

theorem marshal_zeros {count : Nat} (h : 4 * count + 4 < 2 ^ 32) {raw : Bytes}
    (hraw : marshalFields 1 (lit "sample.message") (zeroFields count) = .ok raw) :
    listSample.marshal (fun _ => none) () (zeros count) = .ok raw := by
  have hmessage : (listSample ()).message = some ⟨lit "sample.message", 1⟩ := rfl
  exact marshalMessage_of_fields hmessage listSample_schema rfl
    (encodeFields_zeros (by omega) "wire" "Message") hraw

theorem listSample_parts (count : Nat) :
    listSample.messageParts () (zeros count) = structParts [listField] (zeros count) := by
  rw [Env.messageParts, fieldsOf_eq rfl listSample_schema]

theorem structParts_zeros (count : Nat) :
    structParts [listField] (zeros count) =
      [(listField, .slice (List.replicate count (.uint32 0)))] := rfl

theorem covers_zeros {count : Nat} (h : 4 * count + 34 ≤ 2 ^ 20) {raw : Bytes}
    (hraw : raw.length = 4 * count + 34) :
    listSample.Covers (fun _ => none) ⟨0, 0, 0⟩ () (zeros count) raw := by
  constructor
  · rfl
  · show (raw.length : Int) ≤ 2 ^ 20
    omega
  · rw [listSample_parts, structParts_zeros]
    intro q hq out hout
    obtain rfl := List.mem_singleton.mp hq
    rw [encode_zeros (by omega)] at hout
    cases hout
    rw [List.length_append, List.length_replicate]
    show ((4 + 4 * count : Nat) : Int) ≤ 2 ^ 20
    omega
  · rw [listSample_parts, structParts_zeros]
    show (1 : Int) ≤ 256
    decide
  · rw [listSample_parts, structParts_zeros]
    intro p hp s hs
    -- a list of integers holds no struct
    rcases Env.inside_singleton.mp hp with rfl | hp
    · exact absurd hs (List.not_mem_nil)
    · obtain ⟨q, hq, -⟩ := Env.inside_iff_exists.mp hp
      exact absurd hq (List.not_mem_nil)

end Tss.Wire
