import Tss.Wire.Canonical
import Tss.Wire.FlatRoundTrip

/-!
# What the encoder writes is read back: structs, lists of records and maps

One level of the decoder reads the value of a field back when the value
passes the checks that only the decoder makes and the fields directly inside
it are read back.
-/

namespace Tss.Wire

open Fallible

section RoundTrip

variable {ν γ : Type} {env : Env ν γ} {limitSet : FieldLimits} {mapAddr : Bool}

/-- A decoder reads back what the encoder makes of a field. -/
def Env.ReadsBack (env : Env ν γ) (limitSet : FieldLimits) (mapAddr canAddr : Bool)
    (decode : FieldSchema ν → Bytes → Result (Value γ)) (q : FieldSchema ν × Value γ) : Prop :=
  ∀ raw, env.encode limitSet mapAddr q.1 canAddr q.2 = .ok raw → decode q.1 raw = .ok q.2.normal

theorem readsBack_iff {canAddr : Bool} {decode : FieldSchema ν → Bytes → Result (Value γ)}
    {fs : FieldSchema ν} {v : Value γ} {raw : Bytes}
    (h : env.encode limitSet mapAddr fs canAddr v = .ok raw) :
    env.ReadsBack limitSet mapAddr canAddr decode (fs, v) ↔ decode fs raw = .ok v.normal := by
  constructor
  · intro hread
    exact hread raw h
  · intro hread raw' h'
    cases h.symm.trans h'
    exact hread

/-! ## The fields of a struct -/

section Struct

variable {what goName : String} {schema : List (FieldSchema ν)} {values : List (Value γ)}
  {fields : List Field} {raw : Bytes}

theorem mem_schema_of_structParts {q : FieldSchema ν × Value γ}
    (hq : q ∈ structParts schema values) : q.1 ∈ schema :=
  (List.of_mem_zip (List.mem_of_mem_filter hq)).1

/-- The fields a struct is written as are matched with its schema, and decoded to its values when
each part is read back. -/
theorem decodeFields_iff (decode : FieldSchema ν → Bytes → Result (Value γ))
    (htags : schema.Pairwise (·.tag < ·.tag))
    (h : env.encodeFields limitSet mapAddr what goName schema values = .ok fields)
    (context what' goName' : String) (i j : Nat) :
    ∃ matched, FieldSchema.matchFields context i j schema fields = .ok matched ∧
      (decodeFields decode what' goName' schema matched = .ok (values.map Value.normal) ↔
        ∀ q ∈ structParts schema values, env.ReadsBack limitSet mapAddr true decode q) := by
  induction schema generalizing values fields i j with
  | nil =>
    cases values with
    | nil =>
      simp only [Env.encodeFields] at h
      cases h
      exact ⟨[], rfl, by simp [decodeFields, structParts]⟩
    | cons => cases h
  | cons fs schema ih =>
    obtain ⟨hbefore, htags⟩ := List.pairwise_cons.mp htags
    cases values with
    | nil => cases h
    | cons v values =>
      rw [Env.encodeFields] at h
      by_cases homit : fs.shouldOmit v
      · -- the field is absent: it is optional, and the next field has a larger tag
        rw [if_pos homit] at h
        rw [structParts_omit homit]
        obtain ⟨hnil, hoptional⟩ : v = .nilPointer ∧ fs.optional = true := by
          cases v <;> simp_all [FieldSchema.shouldOmit]
        have habsent : ∀ matched, decodeFields decode what' goName' (fs :: schema) (none :: matched) =
            .ok ((v :: values).map Value.normal) ↔
            decodeFields decode what' goName' schema matched = .ok (values.map Value.normal) := by
          intro matched
          subst hnil
          exact bind_pure_eq_ok fun h => (List.cons.inj h).2
        cases fields with
        | nil =>
          obtain ⟨matched, hmatch, hiff⟩ := ih htags h (i + 1) j
          refine ⟨none :: matched, ?_, (habsent matched).trans hiff⟩
          rw [FieldSchema.matchFields, if_pos hoptional, hmatch]
          rfl
        | cons field fields =>
          have hlater : fs.tag < field.tag := by
            obtain ⟨q, rest, ⟨htag, -⟩, -, hparts⟩ :=
              List.forall₂_cons_right_iff.mp (forall₂_of_encodeFields h)
            have hmem : q ∈ structParts schema values := hparts ▸ List.mem_cons_self
            rw [htag]
            exact hbefore q.1 (mem_schema_of_structParts hmem)
          obtain ⟨matched, hmatch, hiff⟩ := ih htags h (i + 1) j
          refine ⟨none :: matched, ?_, (habsent matched).trans hiff⟩
          rw [FieldSchema.matchFields, if_neg (UInt16.ne_of_lt hlater).symm, if_pos ⟨hlater, hoptional⟩,
            hmatch]
          rfl
      · rw [if_neg homit] at h
        rw [structParts_keep homit, List.forall_mem_cons]
        simp only [bind_eq_ok, mapError_eq_ok] at h
        obtain ⟨raw, hraw, rest, hrest, h⟩ := h
        cases h
        obtain ⟨matched, hmatch, hiff⟩ := ih htags hrest (i + 1) (j + 1)
        refine ⟨some ⟨fs.tag, raw⟩ :: matched, ?_, ?_⟩
        · rw [FieldSchema.matchFields, if_pos rfl, hmatch]
          rfl
        · rw [← hiff, readsBack_iff hraw]
          simp only [decodeFields, bind_eq_ok, mapError_eq_ok, List.map_cons]
          constructor
          · rintro ⟨v', hv', rest', hrest', heq⟩
            obtain ⟨rfl, rfl⟩ := List.cons.inj (Except.ok.inj heq)
            exact ⟨hv', hrest'⟩
          · rintro ⟨hv, hrest⟩
            exact ⟨_, hv, _, hrest, rfl⟩

theorem length_lt_of_marshalFieldBody (h : marshalFieldBody fields = .ok raw) :
    ∀ f ∈ fields, f.value.length < raw.length := by
  simp only [marshalFieldBody, seq_eq_ok] at h
  obtain ⟨-, -, h⟩ := h
  cases h
  intro f hf
  have hsub := (List.sublist_flatten_of_mem (List.mem_map_of_mem hf) : 
    (Field.encode f).Sublist (fields.map Field.encode).flatten).length_le
  rw [List.length_append, List.flatMap_def]
  simp only [Field.encode, List.length_append, be16, be32] at hsub ⊢
  simp only [List.length_cons, List.length_nil] at hsub ⊢
  omega

theorem length_lt_of_marshalFields {version : UInt16} {typeID : GoString}
    (h : marshalFields version typeID fields = .ok raw) :
    ∀ f ∈ fields, f.value.length < raw.length := by
  simp only [marshalFields, bind_eq_ok] at h
  obtain ⟨_, -, _, -, _, -, body, hbody, h⟩ := h
  cases h
  intro f hf
  have hlt := length_lt_of_marshalFieldBody hbody f hf
  simp only [List.length_append]
  omega

/-- Frame limits, their defaults filled in, that hold a value of the given size. -/
structure FrameLimits.Holds (l : FrameLimits) (size : Nat) : Prop where
  valid : l.validate = .ok ()
  total : (size : Int) ≤ l.maxTotalBytes
  field : (size : Int) ≤ l.maxFieldBytes

theorem FrameLimits.Holds.mono {l : FrameLimits} {size size' : Nat} (h : l.Holds size)
    (hle : size' ≤ size) : l.Holds size' := by
  obtain ⟨hvalid, htotal, hfield⟩ := h
  exact ⟨hvalid, by omega, by omega⟩

theorem FrameLimits.withDefaults_of_valid {l : FrameLimits} (h : l.validate = .ok ()) :
    l.withDefaults = l := by
  obtain ⟨htotal, hfields, hbytes⟩ := FrameLimits.validate_eq_ok.mp h
  rw [FrameLimits.withDefaults, if_neg (by omega), if_neg (by omega), if_neg (by omega)]

variable {decode : FieldSchema ν → Bytes → Result (Value γ)} {frameLimits : FrameLimits}

/-- `Unmarshal`, once the frame is read and its fields are matched. -/
theorem unmarshalMessage_of_matched {n : ν} {message : MessageType} {matched : List (Option Field)}
    (hmessage : (env n).message = some message) (hschema : env.getSchema n = .ok schema)
    (hframe : unmarshalFields raw message.wireType frameLimits = .ok (message.wireVersion, fields))
    (hmatch : FieldSchema.matchFields ("wire " ++ (env n).goName) 0 0 schema fields = .ok matched) :
    env.unmarshalMessage frameLimits decode n raw = (do
      let values ← decodeFields decode "wire" (env n).goName schema matched
      call (((env n).validate values).mapError
        (.wrap "wire.Unmarshal %s: %w" [.text (lit (env n).goName)]))
      pure values) := by
  have hstruct : ∃ structFields, (env n).underlying = .struct structFields := by
    unfold Env.getSchema at hschema
    split at hschema
    next structFields hstruct => exact ⟨structFields, hstruct⟩
    next => cases hschema
  obtain ⟨structFields, hstruct⟩ := hstruct
  unfold Env.unmarshalMessage
  simp only [hstruct, hmessage, hframe, hschema, hmatch, rejectIf, ne_eq, not_true, if_false,
    mapError_ok, call_ok, ok_bind]

/-- A struct that was framed as a message is read back when `Validate` accepts what is read and
its fields are read back. -/
theorem unmarshalMessage_iff {n : ν} {message : MessageType}
    (hmessage : (env n).message = some message) (hschema : env.getSchema n = .ok schema)
    (hfields : env.encodeFields limitSet mapAddr what goName schema values = .ok fields)
    (hraw : marshalFields message.wireVersion message.wireType fields = .ok raw)
    (hwithin : frameLimits.Within raw fields) :
    env.unmarshalMessage frameLimits decode n raw = .ok (values.map Value.normal) ↔
      (env n).validate (values.map Value.normal) = .ok () ∧
        ∀ q ∈ structParts schema values, env.ReadsBack limitSet mapAddr true decode q := by
  have hframe := unmarshalFields_marshalFields hraw (hwithin.admits hraw)
  obtain ⟨matched, hmatch, hiff⟩ := decodeFields_iff decode (getSchema_eq_ok hschema).2
    hfields ("wire " ++ (env n).goName) "wire" (env n).goName 0 0
  rw [← hiff, unmarshalMessage_of_matched hmessage hschema hframe hmatch]
  simp only [bind_eq_ok, call_eq_ok, mapError_eq_ok]
  constructor
  · rintro ⟨values', hvalues, _, hvalid, h⟩
    cases h
    exact ⟨hvalid, hvalues⟩
  · rintro ⟨hvalid, hvalues⟩
    exact ⟨_, hvalues, (), hvalid, rfl⟩

/-- A struct that was written as a record. -/
theorem unmarshalRecord_iff {t : GoType ν} {n : ν}
    (htype : env.recordType t = .struct n) (hschema : env.getSchema n = .ok schema)
    (hfields : env.encodeFields limitSet mapAddr what goName schema values = .ok fields)
    (hbody : marshalFieldBody fields = .ok raw) (hholds : frameLimits.Holds raw.length)
    (hcount : (fields.length : Int) ≤ frameLimits.maxFields) :
    env.unmarshalRecord frameLimits decode t raw = .ok (values.map Value.normal) ↔
      (env n).validate (values.map Value.normal) = .ok () ∧
        ∀ q ∈ structParts schema values, env.ReadsBack limitSet mapAddr true decode q := by
  have hread : decodeFieldBody frameLimits (lit (env n).goName) raw = .ok (fields, []) := by
    have hsmall := length_lt_of_marshalFieldBody hbody
    simp only [marshalFieldBody, bind_eq_ok, rejectIf_eq_ok] at hbody
    obtain ⟨_, hmany, _, hcheck, hbody⟩ := hbody
    cases hbody
    apply decodeFieldBody_encode _ _ (by omega) hcheck hcount
    intro f hf
    have hlt := hsmall f hf
    have hfield := hholds.field
    omega
  obtain ⟨matched, hmatch, hiff⟩ := decodeFields_iff decode (getSchema_eq_ok hschema).2
    hfields ("record " ++ (env n).goName) "record" (env n).goName 0 0
  have hrecord : env.recordSchema t = .ok (n, schema) := by
    simp only [Env.recordSchema, htype, hschema, mapError_ok, ok_bind]
    rfl
  rw [← hiff]
  unfold Env.unmarshalRecord
  simp only [hrecord, hread, hmatch, rejectIf, ne_eq, not_true, if_false,
    call_ok, ok_bind, bind_eq_ok, call_eq_ok, mapError_eq_ok]
  constructor
  · rintro ⟨values', hvalues, _, hvalid, h⟩
    cases h
    exact ⟨hvalid, hvalues⟩
  · rintro ⟨hvalid, hvalues⟩
    exact ⟨_, hvalues, (), hvalid, rfl⟩

/-! ## Records -/

theorem validNormal_iff {t t' : GoType ν} {v : Value γ} {n : ν}
    (hvalue : structValue t v = some (t', values)) (htype : env.recordType t' = .struct n) :
    env.ValidNormal (t, v) ↔ (env n).validate (values.map Value.normal) = .ok () := by
  constructor
  · intro hnormal
    exact hnormal t' values n hvalue htype
  · intro hnormal t'' values' n' hvalue' htype'
    cases hvalue.symm.trans hvalue'
    cases htype.symm.trans htype'
    exact hnormal

/-- A record is read back when `Validate` accepts what is read and its fields are read back. -/
theorem unmarshalRecordValue_iff {t : GoType ν} {v : Value γ}
    (h : env.marshalRecordValue limitSet mapAddr t v = .ok raw) (hholds : frameLimits.Holds raw.length)
    (hcount : ((env.recordParts t v).length : Int) ≤ frameLimits.maxFields) :
    env.unmarshalRecordValue frameLimits decode t raw = .ok v.normal ↔
      env.ValidNormal (t, v) ∧
        ∀ q ∈ env.recordParts t v, env.ReadsBack limitSet mapAddr true decode q := by
  obtain ⟨t', values, n, schema, fields, hvalue, htype, hschema, -, hfields, hbody⟩ :=
    marshalRecordValue_eq_ok h
  have hparts : env.recordParts t v = structParts schema values := by
    rw [Env.recordParts, hvalue]
    exact congrArg (structParts · values) (fieldsOf_eq htype hschema)
  rw [hparts, (forall₂_of_encodeFields hfields).length_eq] at hcount
  rw [hparts, validNormal_iff hvalue htype, ← unmarshalRecord_iff htype hschema hfields hbody hholds hcount]
  unfold structValue at hvalue
  split at hvalue
  next inner values =>
    cases hvalue
    have hnormal : (Value.pointer (.struct values)).normal =
        .pointer (.struct (values.map Value.normal)) := by
      rw [Value.normal, Value.normal_struct]
    rw [Env.unmarshalRecordValue, hnormal]
    exact bind_pure_eq_ok fun h => Value.struct.inj (Value.pointer.inj h)
  next =>
    cases hvalue
    have hdirect : env.unmarshalRecordValue frameLimits decode t raw = (do
        let values ← env.unmarshalRecord frameLimits decode t raw
        pure (.struct values)) := by
      unfold Env.unmarshalRecordValue
      split
      next => cases htype
      next => rfl
    rw [hdirect, Value.normal_struct]
    exact bind_pure_eq_ok Value.struct.inj
  next => cases hvalue

theorem encodeRecordItem_eq_ok {i : Nat} {encoded : Result Bytes} {out : Bytes}
    (h : encodeRecordItem i encoded = .ok out) :
    ∃ record, encoded = .ok record ∧ record.length < 2 ^ 32 ∧ out = be32 record.length ++ record := by
  simp only [encodeRecordItem, bind_eq_ok, call_eq_ok, mapError_eq_ok, rejectIf_eq_ok] at h
  obtain ⟨record, hrecord, _, hlt, h⟩ := h
  exact ⟨record, hrecord, by omega, (Except.ok.inj h).symm⟩

theorem decodeRecordItem_iff {elem : GoType ν} {i : Nat} {v : Value γ} {out : Bytes}
    (h : encodeRecordItem i (env.marshalRecordValue limitSet mapAddr elem v) = .ok out)
    (hholds : frameLimits.Holds out.length)
    (hcount : ((env.recordParts elem v).length : Int) ≤ frameLimits.maxFields) (rest : Bytes) :
    (∀ b rest', env.decodeRecordItem frameLimits decode elem i (out ++ rest) = .ok (b, rest') →
      rest' = rest) ∧
    (env.decodeRecordItem frameLimits decode elem i (out ++ rest) = .ok (v.normal, rest) ↔
      env.ValidNormal (elem, v) ∧
        ∀ q ∈ env.recordParts elem v, env.ReadsBack limitSet mapAddr true decode q) := by
  obtain ⟨record, hrecord, hlt, rfl⟩ := encodeRecordItem_eq_ok h
  have hlength : (UInt32.ofNat record.length).toNat = record.length := UInt32.toNat_ofNat_of_lt' hlt
  have hlong : ¬ (record ++ rest).length < record.length := by
    rw [List.length_append]
    omega
  rw [List.length_append] at hholds
  rw [← unmarshalRecordValue_iff hrecord (hholds.mono (by omega)) hcount]
  simp only [Env.decodeRecordItem, List.append_assoc, readUint32_be32 hlt, hlength, rejectIf, hlong,
    if_false, call_ok, ok_bind, List.take_left, List.drop_left, bind_eq_ok]
  constructor
  · rintro b rest' ⟨b', -, h⟩
    exact (Prod.mk.inj (Except.ok.inj h)).2.symm
  · rw [← bind_eq_ok, bind_pure_eq_ok fun h => (Prod.mk.inj h).1, mapError_eq_ok]

variable {fs : FieldSchema ν} {v : Value γ}

variable (decode) in
theorem decodeRecordList_iff {elem : GoType ν} {items : List (Value γ)} {out : Bytes}
    (hitems : env.sliceItems fs.typ v = .ok (elem, items))
    (hsize : items.length < 2 ^ 32)
    (hlimit : ∃ max, fs.limitOf limitSet fs.maxItems = .ok max ∧ ¬ (0 < max ∧ max < items.length))
    (hout : encodeItems
      (fun i v => encodeRecordItem i (env.marshalRecordValue limitSet mapAddr elem v)) 0 items = .ok out)
    (hholds : frameLimits.Holds out.length)
    (hcount : ∀ v ∈ items, ((env.recordParts elem v).length : Int) ≤ frameLimits.maxFields) :
    env.decodeRecordList limitSet frameLimits decode fs (be32 items.length ++ out) = .ok v.normal ↔
      v.itemCount ≤ maxRecordCount ∧ ∀ v ∈ items, env.ValidNormal (elem, v) ∧
        ∀ q ∈ env.recordParts elem v, env.ReadsBack limitSet mapAddr true decode q := by
  obtain ⟨helem, hnormal, -⟩ := sliceItems_eq_ok hitems
  obtain ⟨max, hmax, hfits⟩ := hlimit
  have hlength : (UInt32.ofNat items.length).toNat = items.length := UInt32.toNat_ofNat_of_lt' hsize
  have hlong : ¬ (be32 items.length ++ out).length < 4 := by simp [be32]
  obtain ⟨hrest, hread⟩ := decodeItems_iff (env.decodeRecordItem frameLimits decode elem) Value.normal
    (fun i a ha out rest hle h => decodeRecordItem_iff h (hholds.mono hle) (hcount a ha) rest)
    hout le_rfl []
  rw [List.append_nil] at hrest hread
  rw [itemCount_of_sliceItems hitems, hnormal, ← hread]
  simp only [Env.decodeRecordList, readUint32_be32 hsize, hlength, helem, rejectIf, hlong, if_false,
    limit_checked hmax hfits, call_ok, ok_bind]
  by_cases hmany : maxRecordCount < items.length
  · rw [if_pos hmany]
    exact iff_of_false error_ne_ok (fun h => Nat.not_le.mpr hmany h.1)
  · rw [if_neg hmany, call_ok, ok_bind]
    constructor
    · intro h
      obtain ⟨⟨values, rest⟩, hvalues, h⟩ := bind_eq_ok.mp h
      obtain ⟨-, h⟩ := seq_eq_ok.mp h
      obtain rfl := hrest values rest hvalues
      obtain rfl := Value.slice.inj (Except.ok.inj h)
      exact ⟨Nat.not_lt.mp hmany, hvalues⟩
    · rintro ⟨-, h⟩
      rw [h]
      rfl

/-! ## Maps -/

/-- Sorting the encoded entries is encoding the sorted ones. -/
theorem sortEntries_map (bytes : Value γ → Bytes) (entries : List (UInt32 × Value γ)) :
    sortEntries (entries.map fun e => (be32 e.1.toNat, bytes e.2)) =
      (sortKeys entries).map fun e => (be32 e.1.toNat, bytes e.2) := by
  unfold sortEntries sortKeys
  rw [← List.map_insertionSort (fun a b => be32 a.1.toNat ≤ be32 b.1.toNat)]
  intro a _ b _
  exact Iff.rfl

theorem sortKeys_map (f : Value γ → Value γ) (entries : List (UInt32 × Value γ)) :
    sortKeys (entries.map fun e => (e.1, f e.2)) = (sortKeys entries).map fun e => (e.1, f e.2) := by
  unfold sortKeys
  rw [← List.map_insertionSort (fun a b => be32 a.1.toNat ≤ be32 b.1.toNat)]
  intro a _ b _
  exact Iff.rfl

theorem length_encodeSortedEntries {prev : Option Bytes} {i : Nat} {entries : List (Bytes × Bytes)}
    {out : Bytes} (hkeys : ∀ e ∈ entries, e.1.length = 4)
    (h : encodeSortedEntries prev i entries = .ok out) : entries.length * 12 ≤ out.length := by
  induction entries generalizing prev i out with
  | nil => simp
  | cons e entries ih =>
    obtain ⟨key, value⟩ := e
    obtain ⟨hkey, hkeys⟩ := List.forall_mem_cons.mp hkeys
    simp only [encodeSortedEntries, bind_eq_ok, mapError_eq_ok] at h
    obtain ⟨_, -, k, hk, v, hv, rest, hrest, h⟩ := h
    cases h
    obtain ⟨-, rfl⟩ := appendBytes_eq_ok hk
    obtain ⟨-, rfl⟩ := appendBytes_eq_ok hv
    have hlong := ih hkeys hrest
    have hsize : ∀ n, (be32 n).length = 4 := fun _ => rfl
    simp only [List.length_append, hsize, List.length_cons] at hkey ⊢
    omega

/-- The name of a field shows in the errors about its limits only. -/
theorem limitOf_of_mapValue {name : Option GoString} {max : Nat}
    (h : fs.mapValue.limitOf limitSet name = .ok max) : fs.limitOf limitSet name = .ok max := by
  cases name with
  | none => exact h
  | some name =>
    simp only [FieldSchema.limitOf, FieldSchema.getLimit] at h ⊢
    split at h
    next => cases h
    next =>
      split at h
      next => cases h
      next hpos => rw [if_neg hpos]; exact h

/-- A map value within its own limits and those of the frame is read. -/
theorem mapValueByteLimit_eq_ok {value : Bytes}
    (hbytes : fs.mapValue.checkByteLimits limitSet value = .ok ()) (hlt : value.length < 2 ^ 32)
    (hholds : frameLimits.Holds value.length) (i : Nat) (rest : Bytes) :
    ∃ max, fs.mapValueByteLimit limitSet frameLimits i (be32 value.length ++ rest) = .ok max ∧
      ¬ (0 < max ∧ max < value.length) := by
  simp only [FieldSchema.checkByteLimits, FieldSchema.checkFixedLen, bind_eq_ok, rejectIf_eq_ok] at hbytes
  obtain ⟨_, hfixed, semanticMax, hsemantic, hfits⟩ := hbytes
  have hlimit := limitOf_of_mapValue (show fs.mapValue.limitOf limitSet fs.maxBytes = _ from hsemantic)
  have hframe : value.length ≤ frameLimits.maxFieldBytes.toNat := by
    have := hholds.field
    omega
  have hlength : (UInt32.ofNat value.length).toNat = value.length := UInt32.toNat_ofNat_of_lt' hlt
  unfold FieldSchema.mapValueByteLimit
  cases hlen : fs.fixedLen with
  | none =>
    simp only [hlimit, ok_bind]
    refine ⟨_, rfl, ?_⟩
    split <;> omega
  | some n =>
    have hsame : value.length = n := by
      simp only [FieldSchema.mapValue, hlen, Option.any_some, ne_eq, decide_not, Bool.not_eq_eq_eq_not,
        Bool.not_true, decide_eq_false_iff_not, not_not] at hfixed
      exact hfixed.symm
    subst hsame
    simp only [readUint32_be32 hlt, ok_bind, hlength, rejectIf, ne_eq, not_true, if_false, hlimit]
    refine ⟨_, rfl, ?_⟩
    split <;> split <;> omega

variable (decode) in
/-- The entries of a map that were written in the order of their keys are read back when their
values are. -/
theorem decodeEntries_iff {entries : List (UInt32 × Value γ)} {bytes : Value γ → Bytes}
    (hvalues : ∀ e ∈ entries, fs.mapValue.checkByteLimits limitSet (bytes e.2) = .ok ())
    {prev : Option Bytes} {i : Nat} {seen : List UInt32} {out : Bytes}
    (hseen : ∀ key ∈ seen, ∃ last ∈ prev, be32 key.toNat ≤ last)
    (h : encodeSortedEntries prev i (entries.map fun e => (be32 e.1.toNat, bytes e.2)) = .ok out)
    (hholds : frameLimits.Holds out.length) (rest : Bytes) :
    (∀ found rest', fs.decodeEntries limitSet frameLimits decode i prev seen entries.length
        (out ++ rest) = .ok (found, rest') → rest' = rest) ∧
    (fs.decodeEntries limitSet frameLimits decode i prev seen entries.length (out ++ rest) =
        .ok (entries.map (fun e => (e.1, e.2.normal)), rest) ↔
      ∀ e ∈ entries, decode fs.mapValue (bytes e.2) = .ok e.2.normal) := by
  induction entries generalizing prev i seen out with
  | nil =>
    cases h
    constructor
    · intro found rest' hread
      exact (Prod.mk.inj (Except.ok.inj hread)).2.symm
    · simp [FieldSchema.decodeEntries]
  | cons e entries ih =>
    obtain ⟨key, value⟩ := e
    obtain ⟨hvalue, hvalues⟩ := List.forall_mem_cons.mp hvalues
    dsimp only at hvalue
    simp only [List.map_cons, encodeSortedEntries, bind_eq_ok, mapError_eq_ok, rejectIf_eq_ok] at h
    obtain ⟨_, hsorted, k, hk, v, hv, tail, htail, h⟩ := h
    cases h
    obtain ⟨hltKey, rfl⟩ := appendBytes_eq_ok hk
    obtain ⟨hltValue, rfl⟩ := appendBytes_eq_ok hv
    simp only [List.length_append] at hholds
    obtain ⟨max, hlimit, hfits⟩ := mapValueByteLimit_eq_ok hvalue hltValue
      (hholds.mono (by omega)) i (bytes value ++ (tail ++ rest))
    -- the key is larger than all before it, so it was not seen
    have hprev : ∀ last ∈ prev, last < be32 key.toNat := by
      intro last hlast
      obtain rfl : prev = some last := hlast
      simpa using hsorted
    have hnew : ¬ key ∈ seen := by
      intro hmem
      obtain ⟨last, hlast, hle⟩ := hseen key hmem
      exact absurd (hprev last hlast) (not_lt.mpr hle)
    have hseen' : ∀ k ∈ key :: seen, ∃ last ∈ some (be32 key.toNat), be32 k.toNat ≤ last := by
      intro k hk
      refine ⟨_, rfl, ?_⟩
      rcases List.mem_cons.mp hk with rfl | hk
      · exact le_rfl
      · obtain ⟨last, hlast, hle⟩ := hseen k hk
        exact hle.trans (hprev last hlast).le
    obtain ⟨hrest, hiff⟩ := ih hvalues hseen' htail (hholds.mono (by omega))
    have hkeyMax : ¬ (0 < 4 ∧ 4 < (be32 key.toNat).length) := by simp [be32]
    have hkeyLength : ¬ (be32 key.toNat).length ≠ 4 := by simp [be32]
    have hread : fs.decodeEntries limitSet frameLimits decode i prev seen (entries.length + 1)
        (be32 (be32 key.toNat).length ++ be32 key.toNat ++
          (be32 (bytes value).length ++ bytes value ++ tail) ++ rest) = (do
        let v ← decode fs.mapValue (bytes value)
        let more ← fs.decodeEntries limitSet frameLimits decode (i + 1)
          (some (be32 key.toNat)) (key :: seen) entries.length (tail ++ rest)
        pure ((key, v) :: more.1, more.2)) := by
      rw [FieldSchema.decodeEntries, List.append_assoc _ _ rest, readBytes_append hltKey hkeyMax]
      simp only [call_ok, ok_bind, rejectIf, hkeyLength, hsorted, if_false, List.append_assoc, hlimit,
        Bool.false_eq_true]
      rw [← List.append_assoc (be32 (bytes value).length), readBytes_append hltValue hfits]
      simp only [call_ok, ok_bind, decodeUint32_be32 key.toNat_lt, UInt32.ofNat_toNat, hnew, if_false]
    rw [List.length_cons, hread, List.forall_mem_cons, ← hiff]
    simp only [bind_eq_ok, List.map_cons]
    refine ⟨?_, ?_, ?_⟩
    · rintro found rest' ⟨v, -, ⟨found', rest''⟩, hfound, h⟩
      obtain ⟨-, rfl⟩ := Prod.mk.inj (Except.ok.inj h)
      exact hrest found' rest'' hfound
    · rintro ⟨v, hv, ⟨found', rest'⟩, hfound, h⟩
      obtain ⟨hlist, rfl⟩ := Prod.mk.inj (Except.ok.inj h)
      obtain ⟨hentry, rfl⟩ := List.cons.inj hlist
      obtain ⟨-, rfl⟩ := Prod.mk.inj hentry
      exact ⟨hv, hfound⟩
    · rintro ⟨hv, hfound⟩
      exact ⟨_, hv, _, hfound, rfl⟩

/-- A kind with length options writes values within them. -/
theorem checkByteLimits_of_encodeFlat {canAddr : Bool} (hkind : kindConsumesLength fs.kind = true)
    (h : env.encodeFlat limitSet fs canAddr v = .ok raw) : fs.checkByteLimits limitSet raw = .ok () := by
  have hbig : ∀ encode : Int → Except GoError Bytes,
      fs.encodeBigDispatch limitSet encode v = .ok raw → fs.checkByteLimits limitSet raw = .ok () := by
    intro encode hbig
    have hread : ∀ x, call (fs.encodeBig limitSet (kindName fs.kind) encode x) = .ok raw →
        fs.checkByteLimits limitSet raw = .ok () := by
      intro x hx
      simp only [call_eq_ok, FieldSchema.encodeBig, bind_eq_ok] at hx
      obtain ⟨_, -, out, -, _, hbytes, hx⟩ := hx
      cases hx
      exact hbytes
    unfold FieldSchema.encodeBigDispatch at hbig
    split at hbig
    next x _ => exact hread x hbig
    next x _ => exact hread x hbig
    next =>
      rw [call_eq_ok, FieldSchema.encodeNilBig] at hbig
      split at hbig
      · cases (seq_eq_ok.mp hbig).2
      · cases hbig
    next => cases hbig
  cases hfs : fs.kind <;> simp only [hfs, kindConsumesLength, Bool.false_eq_true] at hkind <;>
    simp only [Env.encodeFlat, hfs] at h
  case bytes =>
    simp only [bind_eq_ok, call_eq_ok] at h
    obtain ⟨out, -, _, hbytes, _, -, h⟩ := h
    cases h
    exact hbytes
  case string =>
    simp only [Env.encodeString, bind_eq_ok, call_eq_ok] at h
    obtain ⟨out, -, _, -, _, hbytes, h⟩ := h
    cases h
    exact hbytes
  case custom =>
    unfold Env.encodeCustom at h
    split at h
    next => cases h
    next =>
      simp only [bind_eq_ok, call_eq_ok] at h
      obtain ⟨out, -, _, hbytes, _, -, h⟩ := h
      cases h
      exact hbytes
  case bigInt => exact hbig _ h
  case bigUint => exact hbig _ h
  case bigPos => exact hbig _ h

/-- The values of a map are within the length options of its field. -/
theorem checkByteLimits_of_mapValue {canAddr : Bool} (hwf : env.WellFormed fs) (hkind : fs.kind = .map)
    (h : env.encode limitSet mapAddr fs.mapValue canAddr v = .ok raw) :
    fs.mapValue.checkByteLimits limitSet raw = .ok () := by
  by_cases hconsumes : kindConsumesLength fs.mapValueKind = true
  · have hflat : fs.mapValue.kind.isFlat = true := by
      show fs.mapValueKind.isFlat = true
      cases hvalue : fs.mapValueKind <;> simp_all [kindConsumesLength, WireKind.isFlat]
    rw [encode_flat hflat] at h
    exact checkByteLimits_of_encodeFlat hconsumes h
  · obtain ⟨hlen, hbytes⟩ := hwf.lengths hkind (Bool.eq_false_iff.mpr hconsumes)
    simp only [FieldSchema.checkByteLimits, FieldSchema.checkFixedLen, FieldSchema.mapValue, hlen, hbytes]
    rfl

/-- A map is read back when it has few enough entries, its values are read back and, for a `nil`
map, its limit exists. -/
theorem decodeMap_iff {canAddr : Bool} (hwf : env.WellFormed fs) (hkind : fs.kind = .map)
    (h : env.encode limitSet mapAddr fs canAddr v = .ok raw) (hholds : frameLimits.Holds raw.length) :
    env.decodeMap limitSet frameLimits decode fs raw = .ok v.normal ↔
      (v.itemCount ≤ maxRecordCount ∧
        (v = .nilMap → ∃ max, fs.limitOf limitSet fs.maxItems = .ok max)) ∧
        ∀ q ∈ env.parts fs v, env.ReadsBack limitSet mapAddr mapAddr decode q := by
  obtain ⟨keyType, valueType, htyp⟩ := hwf.map hkind
  rcases encode_map_eq_ok hkind h with ⟨rfl, rfl⟩ | ⟨entries, rfl⟩
  · have hparts : env.parts fs (.nilMap : Value γ) = [] := by simp only [Env.parts, hkind]
    rw [hparts]
    cases hmax : fs.limitOf limitSet fs.maxItems with
    | error err =>
      refine iff_of_false ?_ (by simp)
      simp only [Env.decodeMap, hmax]
      exact error_ne_ok
    | ok max =>
      refine iff_of_true ?_ ⟨⟨Nat.zero_le _, fun _ => ⟨max, rfl⟩⟩, by simp⟩
      have hzero : (UInt32.ofNat 0).toNat = 0 := rfl
      have hread := readUint32_be32 (n := 0) (by omega) []
      rw [List.append_nil] at hread
      simp only [Env.decodeMap, hmax, hread, call_ok, ok_bind, htyp, validateRecordCount, hzero,
        Nat.not_lt_zero, and_false, Nat.zero_mul, rejectIf, if_false, FieldSchema.decodeEntries, ne_eq,
        not_true]
      rfl
  · rw [encode_map hkind] at h
    simp only [FieldSchema.encodeMap, bind_eq_ok, call_eq_ok] at h
    obtain ⟨_, hcount, _, hlimit, encoded, hencoded, out, hout, h⟩ := h
    cases h
    obtain ⟨rfl, hvalues⟩ := encodeEntries_eq_ok hencoded
    obtain ⟨max, hmax, hfits⟩ := checkMaxItems_eq_ok hlimit
    let bytes := env.entryBytes limitSet mapAddr fs.mapValue
    have hnormal : (Value.map entries).normal =
        .map ((sortKeys entries).map fun e => (e.1, e.2.normal)) := by
      rw [Value.normal_map, sortKeys_map]
    have hperm : (sortKeys entries).Perm entries := List.perm_insertionSort _ _
    have hlength : (sortKeys entries).length = entries.length := hperm.length_eq
    have hbytes : ∀ e ∈ sortKeys entries, fs.mapValue.checkByteLimits limitSet (bytes e.2) = .ok () :=
      fun e he => checkByteLimits_of_mapValue hwf hkind (hvalues e (hperm.mem_iff.mp he))
    rw [sortEntries_map bytes] at hout
    have hkeys : ∀ e ∈ (sortKeys entries).map fun e => (be32 e.1.toNat, bytes e.2), e.1.length = 4 := by
      intro e he
      obtain ⟨e', -, rfl⟩ := List.mem_map.mp he
      rfl
    have hlong := length_encodeSortedEntries hkeys hout
    have hseen : ∀ key ∈ ([] : List UInt32), ∃ last ∈ (none : Option Bytes), be32 key.toNat ≤ last := by
      simp
    rw [List.length_append] at hholds
    obtain ⟨hrest, hread⟩ := decodeEntries_iff decode hbytes hseen hout (hholds.mono (by omega)) []
    rw [List.append_nil, hlength] at hrest hread
    rw [List.length_map, hlength] at hlong
    have hparts : (∀ q ∈ env.parts fs (.map entries), env.ReadsBack limitSet mapAddr mapAddr decode q) ↔
        ∀ e ∈ sortKeys entries, decode fs.mapValue (bytes e.2) = .ok e.2.normal := by
      simp only [Env.parts, hkind, List.forall_mem_map]
      constructor
      · intro hall e he
        have hmem := hperm.mem_iff.mp he
        exact hall e hmem _ (hvalues e hmem)
      · intro hall e he
        exact (readsBack_iff (hvalues e he)).mpr (hall e (hperm.mem_iff.mpr he))
    have hlt := lt_of_checkCount hcount
    have hcount' : (UInt32.ofNat entries.length).toNat = entries.length := UInt32.toNat_ofNat_of_lt' hlt
    have hshort : ¬ out.length < entries.length * 12 := by omega
    rw [hparts, ← hread, hnormal, List.length_map]
    simp only [Env.decodeMap, hmax, readUint32_be32 hlt, hcount', call_ok, ok_bind, htyp,
      validateRecordCount, rejectIf, hfits, hshort, if_false]
    by_cases hmany : maxRecordCount < entries.length
    · rw [if_pos hmany]
      exact iff_of_false error_ne_ok fun h => Nat.not_le.mpr hmany h.1.1
    · rw [if_neg hmany, ok_bind, call_ok, ok_bind]
      constructor
      · intro h
        obtain ⟨⟨found, rest⟩, hfound, h⟩ := bind_eq_ok.mp h
        obtain ⟨-, h⟩ := seq_eq_ok.mp h
        obtain rfl := hrest found rest hfound
        obtain rfl := Value.map.inj (Except.ok.inj h)
        exact ⟨⟨Nat.not_lt.mp hmany, by simp⟩, hfound⟩
      · rintro ⟨-, h⟩
        rw [h]
        rfl

/-! ## One level of the decoder -/

/-- Whether the values directly inside a field are addressable. -/
def FieldSchema.partAddr (mapAddr : Bool) (fs : FieldSchema ν) : Bool :=
  if fs.kind = .map then mapAddr else true

theorem plain_of_structValue {t t' : GoType ν} {values : List (Value γ)}
    (h : structValue t v = some (t', values)) : v.itemCount = 0 ∧ v ≠ .nilMap := by
  unfold structValue at h
  split at h
  · exact ⟨rfl, nofun⟩
  · exact ⟨rfl, nofun⟩
  · cases h

/-- What the decoder needs of a struct is that `Validate` accepts what it reads. -/
theorem readable_struct_iff {t' : GoType ν} {values : List (Value γ)}
    (hkind : fs.kind = .record ∨ fs.kind = .nested)
    (hvalue : structValue fs.typ v = some (t', values)) :
    env.Readable limitSet (fs, v) ↔ env.ValidNormal (fs.typ, v) := by
  obtain ⟨hcount, hnil⟩ := plain_of_structValue hvalue
  have hstructs : env.structs (fs, v) = [(fs.typ, v)] := by
    rcases hkind with hkind | hkind <;> simp only [Env.structs, hkind]
  constructor
  · intro hreadable
    exact hreadable.valid _ (hstructs ▸ List.mem_singleton.mpr rfl)
  · intro hvalid
    apply Env.Readable.of_valid _ (hcount ▸ Nat.zero_le _) (fun h => absurd h hnil)
    · rw [hstructs]
      simpa using hvalid
    · rcases hkind with hkind | hkind <;> simp [hkind]

/-- One level of the decoder reads a field back exactly when the field passes the checks only the
decoder makes and the fields directly inside it are read back. -/
theorem decodeStep_iff {canAddr : Bool} (hwf : env.WellFormed fs)
    (h : env.encode limitSet mapAddr fs canAddr v = .ok raw) (hholds : frameLimits.Holds raw.length)
    (hcount : ∀ s ∈ env.structs (fs, v),
      ((env.recordParts s.1 s.2).length : Int) ≤ frameLimits.maxFields) :
    env.decodeStep limitSet frameLimits decode fs raw = .ok v.normal ↔
      env.Readable limitSet (fs, v) ∧
        ∀ q ∈ env.parts fs v, env.ReadsBack limitSet mapAddr (fs.partAddr mapAddr) decode q := by
  cases hkind : fs.kind
  case nested =>
    have haddr : fs.partAddr mapAddr = true := by simp [FieldSchema.partAddr, hkind]
    obtain ⟨n, values, hvalue, hmessage, hlimits⟩ := encode_nested_eq_ok hkind h
    obtain ⟨message, schema, fields, htype, hsome, hschema, -, hfields, hraw⟩ :=
      marshalMessage_eq_ok hmessage
    have hparts : env.parts fs v = structParts schema values := by
      simp only [Env.parts, hkind, Env.recordParts, hvalue, fieldsOf_eq htype hschema]
    have hfew : (fields.length : Int) ≤ frameLimits.maxFields := by
      have := hcount (fs.typ, v) (by simp [Env.structs, hkind])
      rwa [show env.recordParts fs.typ v = env.parts fs v by simp only [Env.parts, hkind], hparts,
        (forall₂_of_encodeFields hfields).length_eq] at this
    have hdefaults := FrameLimits.withDefaults_of_valid hholds.valid
    have hwithin : frameLimits.Within raw fields := by
      constructor
      · rw [hdefaults]
        exact hholds.valid
      · rw [hdefaults]
        exact hholds.total
      · rw [hdefaults]
        exact hfew
      · rw [hdefaults]
        intro f hf
        have hlt := length_lt_of_marshalFields hraw f hf
        have hfield := hholds.field
        omega
    rw [readable_struct_iff (.inr hkind) hvalue, validNormal_iff hvalue htype, hparts, haddr,
      ← unmarshalMessage_iff hsome hschema hfields hraw hwithin]
    simp only [Env.decodeStep, hkind, hlimits, call_ok, ok_bind]
    unfold structValue at hvalue
    split at hvalue
    next htyp =>
      cases hvalue
      simp only [Env.decodeNested, htyp, Value.normal, Value.normalList_eq]
      exact bind_pure_eq_ok fun h => Value.struct.inj (Value.pointer.inj h)
    next =>
      obtain ⟨htyp, rfl⟩ := Prod.mk.inj (Option.some.inj hvalue)
      simp only [Env.decodeNested, htyp, Value.normal, Value.normalList_eq]
      exact bind_pure_eq_ok Value.struct.inj
    next => cases hvalue
  case record =>
    have haddr : fs.partAddr mapAddr = true := by simp [FieldSchema.partAddr, hkind]
    rw [encode_record hkind] at h
    obtain ⟨t', values, -, -, -, hvalue, -⟩ := marshalRecordValue_eq_ok h
    have hparts : env.parts fs v = env.recordParts fs.typ v := by simp only [Env.parts, hkind]
    rw [readable_struct_iff (.inl hkind) hvalue, hparts, haddr,
      ← unmarshalRecordValue_iff h hholds (hcount (fs.typ, v) (by simp [Env.structs, hkind]))]
    simp only [Env.decodeStep, hkind]
  case recordList =>
    have haddr : fs.partAddr mapAddr = true := by simp [FieldSchema.partAddr, hkind]
    rw [encode_recordList hkind] at h
    obtain ⟨⟨elem, items⟩, hitems, h⟩ := bind_eq_ok.mp h
    simp only [FieldSchema.encodeRecordList, bind_eq_ok, call_eq_ok] at h
    obtain ⟨_, hsize, _, hlimit, out, hout, h⟩ := h
    cases h
    have hstructs : env.structs (fs, v) = items.map fun item => (elem, item) := by
      simp only [Env.structs, hkind]
      exact itemsOf_eq hitems
    have hparts : env.parts fs v = items.flatMap (env.recordParts elem) := by
      obtain ⟨helem, -, rfl | ⟨rfl, rfl⟩⟩ := sliceItems_eq_ok hitems
      · unfold Env.makeSlice at helem
        split at helem
        next htyp =>
          cases helem
          simp only [Env.parts, hkind, htyp]
        next => cases helem
      · simp only [Env.parts, hkind, List.flatMap_nil]
    rw [hstructs] at hcount
    rw [List.length_append] at hholds
    have hiff := decodeRecordList_iff decode hitems (lt_of_checkCount hsize)
      (checkMaxItems_eq_ok hlimit) hout (hholds.mono (by omega))
      (fun item hitem => hcount (elem, item) (List.mem_map_of_mem hitem))
    simp only [Env.decodeStep, hkind]
    rw [hiff, hparts, haddr]
    constructor
    · rintro ⟨hmany, hall⟩
      constructor
      · apply Env.Readable.of_valid (by simp [hkind]) hmany
          (fun h => absurd h (ne_nilMap_of_sliceItems hitems))
        rw [hstructs, List.forall_mem_map]
        exact fun item hitem => (hall item hitem).1
      · intro q hq
        obtain ⟨item, hitem, hq⟩ := List.mem_flatMap.mp hq
        exact (hall item hitem).2 q hq
    · rintro ⟨hreadable, hread⟩
      have hvalid := hreadable.valid
      rw [hstructs, List.forall_mem_map] at hvalid
      exact ⟨hreadable.count, fun item hitem => ⟨hvalid item hitem,
        fun q hq => hread q (List.mem_flatMap.mpr ⟨item, hitem, hq⟩)⟩⟩
  case map =>
    have haddr : fs.partAddr mapAddr = mapAddr := by simp [FieldSchema.partAddr, hkind]
    simp only [Env.decodeStep, hkind]
    rw [decodeMap_iff hwf hkind h hholds, haddr]
    apply and_congr_left
    intro _
    constructor
    · rintro ⟨hmany, hnil⟩
      exact .of_valid (by simp [hkind]) hmany hnil (by simp [Env.structs, hkind])
    · intro hreadable
      exact ⟨hreadable.count, hreadable.nilMap⟩
  all_goals
    have hflat : fs.kind.isFlat = true := by rw [hkind]; rfl
    rw [encode_flat hflat] at h
    have hstep : env.decodeStep limitSet frameLimits decode fs raw = env.decodeFlat limitSet fs raw := by
      simp only [Env.decodeStep, hkind]
    have hparts : env.parts fs v = [] := by simp only [Env.parts, hkind]
    rw [hstep, hparts, decodeFlat_iff hwf.array h]
    simp

end Struct

end RoundTrip

end Tss.Wire
