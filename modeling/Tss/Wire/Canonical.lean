import Tss.Wire.Parts

/-!
# A decoded message is marshalled to the bytes it was read from

Every kind accepts one encoding of a value only: integers without leading
zeros, map keys in order, counts and lengths that use up the input, absent
fields for `nil`. So the encoder makes the bytes the decoder accepted, unless
it refuses the value: a map whose values are of a type with its codec on the
pointer is decoded, but `MapIndex` returns values whose address cannot be
taken, and the encoder does not find their method.
-/

namespace Tss.Wire

open Fallible

section Canonical

variable {ν γ : Type} {env : Env ν γ} {limitSet : FieldLimits} {mapAddr : Bool}

/-! ## What is encoded has encoded parts -/

theorem exists_mem_of_forall₂ {α β : Type} {R : α → β → Prop} {as : List α} {bs : List β}
    (h : List.Forall₂ R as bs) {a : α} (ha : a ∈ as) : ∃ b ∈ bs, R a b := by
  induction h with
  | nil => cases ha
  | cons hab _ ih =>
    rcases List.mem_cons.mp ha with rfl | ha
    · exact ⟨_, List.mem_cons_self, hab⟩
    · obtain ⟨b, hb, hab⟩ := ih ha
      exact ⟨b, List.mem_cons_of_mem _ hb, hab⟩

/-- The fields a struct is written as are those of its parts. -/
theorem forall₂_of_encodeFields {what goName : String} {schema : List (FieldSchema ν)}
    {values : List (Value γ)} {fields : List Field}
    (h : env.encodeFields limitSet mapAddr what goName schema values = .ok fields) :
    List.Forall₂ (fun q f => f.tag = q.1.tag ∧
        env.encode limitSet mapAddr q.1 true q.2 = .ok f.value)
      (structParts schema values) fields := by
  induction schema generalizing values fields with
  | nil =>
    cases values with
    | nil =>
      simp only [Env.encodeFields] at h
      cases h
      exact .nil
    | cons => cases h
  | cons fs schema ih =>
    cases values with
    | nil => cases h
    | cons v values =>
      rw [Env.encodeFields] at h
      by_cases homit : fs.shouldOmit v
      · rw [if_pos homit] at h
        rw [structParts_omit homit]
        exact ih h
      · rw [if_neg homit] at h
        rw [structParts_keep homit]
        simp only [bind_eq_ok, mapError_eq_ok] at h
        obtain ⟨raw, hraw, rest, hrest, h⟩ := h
        cases h
        exact .cons ⟨rfl, hraw⟩ (ih hrest)

theorem exists_of_encodeFields {what goName : String} {schema : List (FieldSchema ν)}
    {values : List (Value γ)} {fields : List Field}
    (h : env.encodeFields limitSet mapAddr what goName schema values = .ok fields) :
    ∀ q ∈ structParts schema values, ∃ raw, env.encode limitSet mapAddr q.1 true q.2 = .ok raw := by
  intro q hq
  obtain ⟨f, -, -, hraw⟩ := exists_mem_of_forall₂ (forall₂_of_encodeFields h) hq
  exact ⟨f.value, hraw⟩

theorem fieldsOf_eq {t : GoType ν} {n : ν} {schema : List (FieldSchema ν)}
    (htype : env.recordType t = .struct n) (hschema : env.getSchema n = .ok schema) :
    env.fieldsOf t = schema := by
  simp only [Env.fieldsOf, htype, hschema]
  rfl

theorem exists_of_marshalRecordValue {t : GoType ν} {v : Value γ} {raw : Bytes}
    (h : env.marshalRecordValue limitSet mapAddr t v = .ok raw) :
    ∀ q ∈ env.recordParts t v, ∃ raw, env.encode limitSet mapAddr q.1 true q.2 = .ok raw := by
  obtain ⟨t', values, n, schema, fields, hvalue, htype, hschema, -, hfields, -⟩ :=
    marshalRecordValue_eq_ok h
  rw [Env.recordParts, hvalue]
  dsimp only
  rw [fieldsOf_eq htype hschema]
  exact exists_of_encodeFields hfields

/-- The bytes of a map value. -/
def Env.entryBytes (env : Env ν γ) (limitSet : FieldLimits) (mapAddr : Bool) (valueFS : FieldSchema ν)
    (v : Value γ) : Bytes :=
  (env.encode limitSet mapAddr valueFS mapAddr v).toOption.getD []

theorem encodeEntries_eq_ok {valueFS : FieldSchema ν} {entries : List (UInt32 × Value γ)}
    {encoded : List (Bytes × Bytes)}
    (h : env.encodeEntries limitSet mapAddr valueFS entries = .ok encoded) :
    encoded = entries.map (fun e => (be32 e.1.toNat, env.entryBytes limitSet mapAddr valueFS e.2)) ∧
      ∀ e ∈ entries, env.encode limitSet mapAddr valueFS mapAddr e.2 =
        .ok (env.entryBytes limitSet mapAddr valueFS e.2) := by
  induction entries generalizing encoded with
  | nil =>
    simp only [Env.encodeEntries] at h
    cases h
    exact ⟨rfl, by simp⟩
  | cons e entries ih =>
    simp only [Env.encodeEntries, bind_eq_ok] at h
    obtain ⟨raw, hraw, rest, hrest, h⟩ := h
    cases h
    obtain ⟨rfl, hall⟩ := ih hrest
    have hbytes : env.entryBytes limitSet mapAddr valueFS e.2 = raw := by
      rw [Env.entryBytes, hraw]
      rfl
    refine ⟨by rw [List.map_cons, hbytes], List.forall_mem_cons.mpr ⟨?_, hall⟩⟩
    rw [hbytes]
    exact hraw

/-- A field that is encoded. -/
def Env.Encodes (env : Env ν γ) (limitSet : FieldLimits) (mapAddr : Bool)
    (p : FieldSchema ν × Value γ) : Prop :=
  ∃ canAddr raw, env.encode limitSet mapAddr p.1 canAddr p.2 = .ok raw

theorem Env.Encodes.parts {fs : FieldSchema ν} {v : Value γ}
    (h : env.Encodes limitSet mapAddr (fs, v)) :
    ∀ q ∈ env.parts fs v, env.Encodes limitSet mapAddr q := by
  obtain ⟨canAddr, raw, h⟩ := h
  unfold Env.parts
  split
  next hkind =>
    intro q hq
    rw [encode_record hkind] at h
    exact ⟨true, exists_of_marshalRecordValue h q hq⟩
  next hkind =>
    obtain ⟨n, values, hvalue, hmessage, -⟩ := encode_nested_eq_ok hkind h
    obtain ⟨message, schema, fields, htype, -, hschema, -, hfields, -⟩ :=
      marshalMessage_eq_ok hmessage
    rw [Env.recordParts, hvalue]
    dsimp only
    rw [fieldsOf_eq htype hschema]
    intro q hq
    exact ⟨true, exists_of_encodeFields hfields q hq⟩
  next items hkind =>
    split
    next elem htyp =>
      rw [encode_recordList hkind] at h
      simp only [Env.sliceItems, htyp, ok_bind, FieldSchema.encodeRecordList, bind_eq_ok] at h
      obtain ⟨_, -, _, -, out, hout, -⟩ := h
      intro q hq
      obtain ⟨v, hv, hq⟩ := List.mem_flatMap.mp hq
      obtain ⟨i, raw, hraw, -⟩ := length_le_of_encodeItems hout v hv
      simp only [encodeRecordItem, bind_eq_ok, mapError_eq_ok] at hraw
      obtain ⟨record, hrecord, -⟩ := hraw
      exact ⟨true, exists_of_marshalRecordValue hrecord q hq⟩
    next => simp
  next entries hkind =>
    rw [encode_map hkind] at h
    simp only [FieldSchema.encodeMap, bind_eq_ok] at h
    obtain ⟨_, -, _, -, encoded, hencoded, -⟩ := h
    intro q hq
    obtain ⟨entry, hentry, rfl⟩ := List.mem_map.mp hq
    exact ⟨mapAddr, _, (encodeEntries_eq_ok hencoded).2 entry hentry⟩
  next => simp

theorem Env.Encodes.inside {p : FieldSchema ν × Value γ} {fields : List (FieldSchema ν × Value γ)}
    (hp : env.Inside p fields) (h : ∀ q ∈ fields, env.Encodes limitSet mapAddr q) :
    env.Encodes limitSet mapAddr p := by
  induction hp with
  | field hp => exact h p hp
  | part hq _ ih => exact ih (h _ hq).parts

/-- A map of custom values that is encoded has found their method. -/
theorem Env.Encodes.mapWritten {p : FieldSchema ν × Value γ} (h : env.Encodes limitSet false p) :
    env.MapWritten p := by
  intro hkind hvalue entries hentries hne
  obtain ⟨fs, v⟩ := p
  obtain rfl : v = .map entries := hentries
  obtain ⟨canAddr, raw, h⟩ := h
  rw [encode_map hkind] at h
  simp only [FieldSchema.encodeMap, bind_eq_ok] at h
  obtain ⟨_, -, _, -, encoded, hencoded, -⟩ := h
  obtain ⟨entry, hentry⟩ := List.exists_mem_of_ne_nil _ hne
  have hraw := (encodeEntries_eq_ok hencoded).2 entry hentry
  have hcustom : fs.mapValue.kind = .custom := hvalue
  rw [encode_flat (by rw [hcustom]; rfl)] at hraw
  simp only [Env.encodeFlat, hcustom] at hraw
  show (env.valueMarshaler fs.mapValue.typ false).isSome
  unfold Env.encodeCustom at hraw
  split at hraw
  next => cases hraw
  next =>
    simp only [Env.marshalWireValue, bind_eq_ok] at hraw
    obtain ⟨out, ⟨c, -, hout⟩, -⟩ := hraw
    split at hout
    next hmarshal => rw [hmarshal]; rfl
    next => cases hout

/-! ## What is decoded is written back -/

/-- The encoder makes of the value of a field the bytes it was decoded from, where the maps inside
it are written. -/
structure Env.WrittenBack (env : Env ν γ) (limitSet : FieldLimits) (fs : FieldSchema ν) (raw : Bytes)
    (v : Value γ) : Prop where
  ne_nil : v ≠ .nilPointer
  addressable : fs.kind = .custom → (env.valueMarshaler fs.typ true).isSome
  encode : ∀ mapAddr canAddr, (fs.kind = .custom → (env.valueMarshaler fs.typ canAddr).isSome) →
    env.Written mapAddr [(fs, v)] → env.encode limitSet mapAddr fs canAddr v = .ok raw

/-- A decoder of which every result is written back. -/
def Env.Canonical (env : Env ν γ) (limitSet : FieldLimits)
    (decode : FieldSchema ν → Bytes → Result (Value γ)) : Prop :=
  ∀ fs raw v, decode fs raw = .ok v → env.WrittenBack limitSet fs raw v

section Step

variable {frameLimits : FrameLimits} {decode : FieldSchema ν → Bytes → Result (Value γ)}
  {fs : FieldSchema ν} {raw : Bytes}

theorem FieldSchema.shouldOmit_of_ne_nil (fs : FieldSchema ν) {v : Value γ} (h : v ≠ .nilPointer) :
    ¬ fs.shouldOmit v = true := by
  cases v <;> simp_all [FieldSchema.shouldOmit]

variable {values : List (Value γ)}

/-- The fields that were matched and decoded are encoded to the fields received. -/
theorem encodeFields_of_decode (hdecode : env.Canonical limitSet decode)
    {context what goName what' goName' : String} {i j : Nat} {schema : List (FieldSchema ν)}
    {fields : List Field} {matched : List (Option Field)}
    (hmatch : FieldSchema.matchFields context i j schema fields = .ok matched)
    (hvalues : decodeFields decode what goName schema matched = .ok values)
    (hwritten : env.Written mapAddr (structParts schema values)) :
    env.encodeFields limitSet mapAddr what' goName' schema values = .ok fields := by
  induction schema generalizing i j fields matched values with
  | nil =>
    cases fields with
    | nil =>
      cases hmatch
      cases hvalues
      simp only [Env.encodeFields]
    | cons => cases hmatch
  | cons fs schema ih =>
    -- a field that is absent is optional and was left `nil`
    have absent : ∀ {rest : List (Option Field)} {i j}, fs.optional = true →
        FieldSchema.matchFields context i j schema fields = .ok rest → matched = none :: rest →
        env.encodeFields limitSet mapAddr what' goName' (fs :: schema) values = .ok fields := by
      rintro rest i j hoptional hrest rfl
      rw [decodeFields, bind_eq_ok] at hvalues
      obtain ⟨values', hvalues', h⟩ := hvalues
      cases h
      have homit : fs.shouldOmit (.nilPointer : Value γ) = true := hoptional
      rw [structParts_omit homit] at hwritten
      rw [Env.encodeFields, if_pos homit]
      exact ih hrest hvalues' hwritten
    cases fields with
    | nil =>
      rw [FieldSchema.matchFields] at hmatch
      split at hmatch
      next hoptional =>
        obtain ⟨rest, hrest, h⟩ := bind_eq_ok.mp hmatch
        exact absent hoptional hrest (Except.ok.inj h).symm
      next => cases hmatch
    | cons field fields =>
      rw [FieldSchema.matchFields] at hmatch
      split at hmatch
      next htag =>
        obtain ⟨rest, hrest, h⟩ := bind_eq_ok.mp hmatch
        cases h
        simp only [decodeFields, bind_eq_ok, mapError_eq_ok] at hvalues
        obtain ⟨v, hv, values', hvalues', h⟩ := hvalues
        cases h
        have hback := hdecode fs field.value v hv
        have hkeep := fs.shouldOmit_of_ne_nil hback.ne_nil
        rw [structParts_keep hkeep] at hwritten
        have hfield := hback.encode mapAddr true hback.addressable
          (hwritten.field List.mem_cons_self)
        have hrest := ih hrest hvalues' (hwritten.mono fun q => List.mem_cons_of_mem _)
        rw [Env.encodeFields, if_neg hkeep, hfield, mapError_ok, ok_bind, hrest, ok_bind, ← htag]
        rfl
      next =>
        split at hmatch
        next hoptional =>
          obtain ⟨rest, hrest, h⟩ := bind_eq_ok.mp hmatch
          exact absent hoptional.2 hrest (Except.ok.inj h).symm
        next => split at hmatch <;> cases hmatch

theorem marshalFieldBody_of_decode {limits : FrameLimits} {name : GoString} {fields : List Field}
    (h : decodeFieldBody limits name raw = .ok (fields, [])) : marshalFieldBody fields = .ok raw := by
  obtain ⟨hcount, -, hcheck, -, hraw⟩ := decodeFieldBody_eq_ok h
  rw [List.append_nil] at hraw
  have hfew : ¬ 2 ^ 16 ≤ fields.length := by omega
  rw [marshalFieldBody, hcheck, hraw]
  simp only [rejectIf, hfew, if_false]
  rfl

theorem unmarshalRecord_eq_ok {t : GoType ν}
    (h : env.unmarshalRecord frameLimits decode t raw = .ok values) :
    ∃ n schema fields matched, env.recordType t = .struct n ∧ env.getSchema n = .ok schema ∧
      decodeFieldBody frameLimits (lit (env n).goName) raw = .ok (fields, []) ∧
      FieldSchema.matchFields ("record " ++ (env n).goName) 0 0 schema fields = .ok matched ∧
      decodeFields decode "record" (env n).goName schema matched = .ok values ∧
      (env n).validate values = .ok () := by
  simp only [Env.unmarshalRecord, bind_eq_ok, call_eq_ok, mapError_eq_ok, rejectIf_eq_ok, not_not] at h
  obtain ⟨⟨n, schema⟩, hschema, ⟨fields, rest⟩, hbody, _, hrest, matched, hmatch, values', hvalues, _,
    hvalid, h⟩ := h
  dsimp only at hbody hrest hmatch hvalues hvalid
  cases h
  subst hrest
  unfold Env.recordSchema at hschema
  split at hschema
  next n' htype =>
    simp only [bind_eq_ok, mapError_eq_ok] at hschema
    obtain ⟨schema', hschema', hsame⟩ := hschema
    cases hsame
    exact ⟨_, _, fields, matched, htype, hschema', hbody, hmatch, hvalues, hvalid⟩
  all_goals cases hschema

theorem unmarshalRecordValue_eq_ok {t : GoType ν} {v : Value γ}
    (h : env.unmarshalRecordValue frameLimits decode t raw = .ok v) :
    ∃ t' values, v ≠ .nilPointer ∧ structValue t v = some (t', values) ∧
      env.unmarshalRecord frameLimits decode t' raw = .ok values := by
  unfold Env.unmarshalRecordValue at h
  split at h
  next t' =>
    obtain ⟨values, hvalues, h⟩ := bind_eq_ok.mp h
    cases h
    exact ⟨t', values, nofun, rfl, hvalues⟩
  next hpointer =>
    obtain ⟨values, hvalues, h⟩ := bind_eq_ok.mp h
    cases h
    refine ⟨t, values, nofun, ?_, hvalues⟩
    cases t <;> rfl

theorem marshalRecordValue_of_unmarshal (hdecode : env.Canonical limitSet decode) {t : GoType ν}
    {v : Value γ} (h : env.unmarshalRecordValue frameLimits decode t raw = .ok v)
    (hwritten : env.Written mapAddr (env.recordParts t v)) :
    env.marshalRecordValue limitSet mapAddr t v = .ok raw := by
  obtain ⟨t', values, -, hvalue, hvalues⟩ := unmarshalRecordValue_eq_ok h
  obtain ⟨n, schema, fields, matched, htype, hschema, hbody, hmatch, hfields, hvalid⟩ :=
    unmarshalRecord_eq_ok hvalues
  rw [Env.recordParts, hvalue] at hwritten
  dsimp only at hwritten
  rw [fieldsOf_eq htype hschema] at hwritten
  exact marshalRecordValue_of_fields hvalue htype hschema hvalid
    (encodeFields_of_decode hdecode hmatch hfields hwritten) (marshalFieldBody_of_decode hbody)

theorem unmarshalMessage_eq_ok {n : ν}
    (h : env.unmarshalMessage frameLimits decode n raw = .ok values) :
    ∃ message schema fields matched, env.recordType (.named n) = .struct n ∧
      (env n).message = some message ∧ env.getSchema n = .ok schema ∧
      unmarshalFields raw message.wireType frameLimits = .ok (message.wireVersion, fields) ∧
      FieldSchema.matchFields ("wire " ++ (env n).goName) 0 0 schema fields = .ok matched ∧
      decodeFields decode "wire" (env n).goName schema matched = .ok values ∧
      (env n).validate values = .ok () := by
  unfold Env.unmarshalMessage at h
  split at h
  next => cases h
  next => cases h
  next message hstruct hmessage =>
    simp only [bind_eq_ok, call_eq_ok, mapError_eq_ok, rejectIf_eq_ok, not_not] at h
    obtain ⟨⟨version, fields⟩, hframe, _, hversion, schema, hschema, matched, hmatch, values',
      hvalues, _, hvalid, h⟩ := h
    dsimp only at hversion hmatch hvalues
    cases h
    subst hversion
    refine ⟨message, schema, fields, matched, ?_, hmessage, hschema, hframe, hmatch, hvalues, hvalid⟩
    simp only [Env.recordType, Env.underlying, hstruct]

theorem marshalMessage_of_unmarshal (hdecode : env.Canonical limitSet decode) {n : ν}
    (h : env.unmarshalMessage frameLimits decode n raw = .ok values)
    (hwritten : env.Written mapAddr (structParts (env.fieldsOf (.named n)) values)) :
    env.marshalMessage n values (fun goName schema =>
      env.encodeFields limitSet mapAddr "wire" goName schema values) = .ok raw := by
  obtain ⟨message, schema, fields, matched, htype, hmessage, hschema, hframe, hmatch, hfields,
    hvalid⟩ := unmarshalMessage_eq_ok h
  rw [fieldsOf_eq htype hschema] at hwritten
  exact marshalMessage_of_fields hmessage hschema hvalid
    (encodeFields_of_decode hdecode hmatch hfields hwritten)
    (marshalFields_of_unmarshalFields hframe).1

theorem decodeRecordItem_eq_ok {elem : GoType ν} {i : Nat} {v : Value γ} {rest : Bytes}
    (h : env.decodeRecordItem frameLimits decode elem i raw = .ok (v, rest)) :
    ∃ record, raw = be32 record.length ++ (record ++ rest) ∧ record.length < 2 ^ 32 ∧
      env.unmarshalRecordValue frameLimits decode elem record = .ok v := by
  simp only [Env.decodeRecordItem, bind_eq_ok, call_eq_ok, mapError_eq_ok, rejectIf_eq_ok] at h
  obtain ⟨⟨length, tail⟩, hlength, _, hlong, v', hv, h⟩ := h
  dsimp only at hlong hv h
  cases h
  have htake : (tail.take length.toNat).length = length.toNat := by
    rw [List.length_take]
    omega
  have hlt := length.toNat_lt
  refine ⟨tail.take length.toNat, ?_, by omega, hv⟩
  rw [htake, List.take_append_drop]
  exact readUint32_eq_ok hlength

theorem encode_recordList_of_decode (hdecode : env.Canonical limitSet decode)
    (hkind : fs.kind = .recordList) {v : Value γ}
    (h : env.decodeRecordList limitSet frameLimits decode fs raw = .ok v) :
    v ≠ .nilPointer ∧ ∀ mapAddr canAddr, env.Written mapAddr (env.parts fs v) →
      env.encode limitSet mapAddr fs canAddr v = .ok raw := by
  simp only [Env.decodeRecordList, bind_eq_ok, call_eq_ok, rejectIf_eq_ok, not_not] at h
  obtain ⟨_, -, ⟨count, tail⟩, hcount, _, hmany, _, hlimit, elem, helem, ⟨items, rest⟩, hitems, _,
    hrest, h⟩ := h
  dsimp only at hmany hlimit hitems hrest h
  cases h
  subst hrest
  refine ⟨by simp, ?_⟩
  intro mapAddr canAddr hwritten
  have hparts : ∀ v ∈ items, env.Written mapAddr (env.recordParts elem v) := by
    intro v hv
    apply hwritten.mono
    intro q hq
    unfold Env.makeSlice at helem
    split at helem
    next e htyp =>
      cases helem
      simp only [Env.parts, hkind, htyp]
      exact List.mem_flatMap.mpr ⟨v, hv, hq⟩
    next => cases helem
  obtain ⟨hlength, out, hout, rfl⟩ := encodeItems_of_decodeItems_mem
    (fun i v => encodeRecordItem i (env.marshalRecordValue limitSet mapAddr elem v))
    (by
      intro i raw v rest hv hitem
      obtain ⟨record, hraw, hlt, hrecord⟩ := decodeRecordItem_eq_ok hitem
      have hshort : ¬ 2 ^ 32 ≤ record.length := by omega
      refine ⟨be32 record.length ++ record, ?_, by rw [hraw, List.append_assoc]⟩
      simp only [encodeRecordItem, marshalRecordValue_of_unmarshal hdecode hrecord hv, mapError_ok,
        rejectIf, hshort, if_false, call_ok, ok_bind]
      rfl)
    hparts hitems
  rw [encode_recordList hkind, makeSlice_eq_ok helem, ok_bind]
  simp only [FieldSchema.encodeRecordList, hlength, checkCount_of_le (Nat.not_lt.mp hmany), hlimit,
    hout, call_ok, ok_bind]
  rw [readUint32_eq_ok hcount, List.append_nil]
  rfl

/-! ## Maps -/

theorem pairwise_of_encodeSortedEntries {prev : Option Bytes} {i : Nat}
    {entries : List (Bytes × Bytes)} {out : Bytes}
    (h : encodeSortedEntries prev i entries = .ok out) :
    (∀ key ∈ prev, ∀ entry ∈ entries, key < entry.1) ∧ entries.Pairwise (·.1 < ·.1) := by
  induction entries generalizing prev i out with
  | nil => exact ⟨by simp, by simp⟩
  | cons entry entries ih =>
    obtain ⟨key, value⟩ := entry
    simp only [encodeSortedEntries, bind_eq_ok, rejectIf_eq_ok] at h
    obtain ⟨_, hprev, _, -, _, -, rest, hrest, -⟩ := h
    obtain ⟨hafter, hpairs⟩ := ih hrest
    have hkey : ∀ entry ∈ entries, key < entry.1 := hafter key rfl
    refine ⟨?_, List.pairwise_cons.mpr ⟨hkey, hpairs⟩⟩
    intro before hbefore entry hentry
    obtain rfl : prev = some before := hbefore
    have hlt : before < key := by simpa using hprev
    rcases List.mem_cons.mp hentry with rfl | hentry
    · exact hlt
    · exact hlt.trans (hkey entry hentry)

theorem sortEntries_of_pairwise {entries : List (Bytes × Bytes)}
    (h : entries.Pairwise (·.1 < ·.1)) : sortEntries entries = entries :=
  List.Pairwise.insertionSort_eq (h.imp fun hlt => le_of_lt hlt)

theorem encodeEntries_of_decode (hdecode : env.Canonical limitSet decode) {i count : Nat}
    {prev : Option Bytes} {seen : List UInt32} {entries : List (UInt32 × Value γ)} {rest : Bytes}
    (h : fs.decodeEntries limitSet frameLimits decode i prev seen count raw = .ok (entries, rest))
    (hcustom : entries ≠ [] → fs.mapValue.kind = .custom →
      (env.valueMarshaler fs.mapValue.typ true).isSome →
      (env.valueMarshaler fs.mapValue.typ mapAddr).isSome)
    (hwritten : ∀ entry ∈ entries, env.Written mapAddr [(fs.mapValue, entry.2)]) :
    entries.length = count ∧ ∃ encoded out,
      env.encodeEntries limitSet mapAddr fs.mapValue entries = .ok encoded ∧
      encoded.length = count ∧ encodeSortedEntries prev i encoded = .ok out ∧ raw = out ++ rest := by
  induction count generalizing i prev seen raw entries with
  | zero =>
    cases h
    exact ⟨rfl, [], [], by simp only [Env.encodeEntries], rfl, rfl, rfl⟩
  | succ count ih =>
    simp only [FieldSchema.decodeEntries, bind_eq_ok, call_eq_ok, rejectIf_eq_ok, not_not] at h
    obtain ⟨⟨keyBytes, afterKey⟩, hkey, _, hsize, _, hsorted, max, -, ⟨valueBytes, afterValue⟩,
      hvalue, key, hdecoded, value, hback, _, -, ⟨tail, rest'⟩, htail, h⟩ := h
    dsimp only at hsize hsorted hvalue hdecoded hback htail h
    cases h
    obtain ⟨hwrittenHead, hwritten⟩ := List.forall_mem_cons.mp hwritten
    obtain ⟨hrawKey, hltKey, -⟩ := readBytes_eq_ok hkey
    obtain ⟨hrawValue, hltValue, -⟩ := readBytes_eq_ok hvalue
    have hvalueBack := hdecode fs.mapValue valueBytes value hback
    have hencode := hvalueBack.encode mapAddr mapAddr
      (fun hkind => hcustom (by simp) hkind (hvalueBack.addressable hkind)) hwrittenHead
    have hcustomTail : tail ≠ [] → fs.mapValue.kind = .custom →
        (env.valueMarshaler fs.mapValue.typ true).isSome →
        (env.valueMarshaler fs.mapValue.typ mapAddr).isSome := fun _ => hcustom (by simp)
    obtain ⟨hlength, encoded, out, hencoded, hcount, hout, hraw⟩ := ih htail hcustomTail hwritten
    have hkeyBytes : be32 key.toNat = keyBytes := by
      rw [decodeUint32, seq_eq_ok] at hdecoded
      obtain rfl := Except.ok.inj hdecoded.2
      have hlt := beNat_lt keyBytes
      rw [hsize] at hlt
      rw [UInt32.toNat_ofNat_of_lt' hlt, be32_beNat hsize]
    refine ⟨by rw [List.length_cons, hlength], (keyBytes, valueBytes) :: encoded,
      be32 keyBytes.length ++ keyBytes ++ (be32 valueBytes.length ++ valueBytes ++ out),
      ?_, by rw [List.length_cons, hcount], ?_, ?_⟩
    · rw [Env.encodeEntries, hencode, ok_bind, hencoded, ok_bind, hkeyBytes]
      rfl
    · simp only [encodeSortedEntries, rejectIf, hsorted, appendBytes_of_lt hltKey,
        appendBytes_of_lt hltValue, mapError_ok, hout, ok_bind, Bool.false_eq_true, if_false]
      rfl
    · rw [hrawKey, hrawValue, hraw]
      simp only [List.append_assoc]

theorem encode_map_of_decode (hdecode : env.Canonical limitSet decode) (hkind : fs.kind = .map)
    {v : Value γ} (h : env.decodeMap limitSet frameLimits decode fs raw = .ok v) :
    v ≠ .nilPointer ∧ ∀ mapAddr canAddr, env.Written mapAddr [(fs, v)] →
      env.encode limitSet mapAddr fs canAddr v = .ok raw := by
  simp only [Env.decodeMap, bind_eq_ok, call_eq_ok] at h
  obtain ⟨maxItems, hlimit, ⟨count, tail⟩, hcount, _, hvalid, h⟩ := h
  dsimp only at hvalid h
  simp only [validateRecordCount, seq_eq_ok, rejectIf_eq_ok] at hvalid
  obtain ⟨hmax, hmany, -⟩ := hvalid
  split at h
  next =>
    simp only [bind_eq_ok, call_eq_ok, rejectIf_eq_ok, not_not] at h
    obtain ⟨⟨entries, rest⟩, hentries, _, hrest, h⟩ := h
    dsimp only at hrest h
    cases h
    subst hrest
    refine ⟨nofun, ?_⟩
    intro mapAddr canAddr hwritten
    have hcustom : entries ≠ [] → fs.mapValue.kind = .custom →
        (env.valueMarshaler fs.mapValue.typ true).isSome →
        (env.valueMarshaler fs.mapValue.typ mapAddr).isSome := by
      intro hne hvalue htrue
      cases mapAddr with
      | true => exact htrue
      | false =>
        exact hwritten rfl (fs, .map entries) (.field List.mem_cons_self) hkind hvalue entries rfl hne
    have hvalues : ∀ entry ∈ entries, env.Written mapAddr [(fs.mapValue, entry.2)] := by
      intro entry hentry
      apply hwritten.parts.field
      simp only [Env.parts, hkind]
      exact List.mem_map_of_mem hentry
    obtain ⟨hlength, encoded, out, hencoded, hencodedLength, hout, hraw⟩ :=
      encodeEntries_of_decode hdecode hentries hcustom hvalues
    have hsort := sortEntries_of_pairwise (pairwise_of_encodeSortedEntries hout).2
    rw [encode_map hkind]
    simp only [FieldSchema.encodeMap, hlength, checkCount_of_le (Nat.not_lt.mp hmany),
      limit_checked hlimit hmax, hencoded, hsort, hout, hencodedLength, call_ok, ok_bind]
    rw [readUint32_eq_ok hcount, hraw, List.append_nil]
    rfl
  next => cases h

/-! ## Every level of the decoder -/

theorem canonical_decodeStep (hcodecs : env.CodecsCanonical)
    (hdecode : env.Canonical limitSet decode) :
    env.Canonical limitSet (env.decodeStep limitSet frameLimits decode) := by
  intro fs raw v h
  unfold Env.decodeStep at h
  split at h
  next hkind =>
    rw [seq_eq_ok, call_eq_ok] at h
    obtain ⟨hlimits, h⟩ := h
    unfold Env.decodeNested at h
    have hnested : ∀ n values, structValue fs.typ v = some (.named n, values) → v ≠ .nilPointer →
        env.unmarshalMessage frameLimits decode n raw = .ok values →
        env.WrittenBack limitSet fs raw v := by
      intro n values hvalue hnil hvalues
      refine ⟨hnil, by simp [hkind], ?_⟩
      intro mapAddr canAddr _ hwritten
      have hparts := hwritten.parts
      simp only [Env.parts, hkind, Env.recordParts, hvalue] at hparts
      exact encode_nested_of_message hkind hvalue
        (marshalMessage_of_unmarshal hdecode hvalues hparts) hlimits
    split at h
    next n htyp =>
      obtain ⟨values, hvalues, h⟩ := bind_eq_ok.mp h
      cases h
      exact hnested n values (by rw [htyp]; rfl) nofun hvalues
    next n htyp =>
      obtain ⟨values, hvalues, h⟩ := bind_eq_ok.mp h
      cases h
      exact hnested n values (by rw [htyp]; rfl) nofun hvalues
    next => cases h
  next hkind =>
    obtain ⟨_, _, hnil, -⟩ := unmarshalRecordValue_eq_ok h
    refine ⟨hnil, by simp [hkind], ?_⟩
    intro mapAddr canAddr _ hwritten
    have hparts := hwritten.parts
    simp only [Env.parts, hkind] at hparts
    rw [encode_record hkind]
    exact marshalRecordValue_of_unmarshal hdecode h hparts
  next hkind =>
    obtain ⟨hnil, hencode⟩ := encode_recordList_of_decode hdecode hkind h
    exact ⟨hnil, by simp [hkind], fun mapAddr canAddr _ hwritten =>
      hencode mapAddr canAddr hwritten.parts⟩
  next hkind =>
    obtain ⟨hnil, hencode⟩ := encode_map_of_decode hdecode hkind h
    exact ⟨hnil, by simp [hkind], fun mapAddr canAddr _ hwritten => hencode mapAddr canAddr hwritten⟩
  next hnested hrecord hlist hmap =>
    obtain ⟨hnil, hfound, hencode⟩ := encodeFlat_of_decode hcodecs h
    have hflat : fs.kind.isFlat = true := by
      cases hkind : fs.kind <;> simp_all [WireKind.isFlat]
    refine ⟨hnil, hfound, ?_⟩
    intro mapAddr canAddr hc _
    rw [encode_flat hflat]
    exact hencode canAddr hc

theorem canonical_decode (hcodecs : env.CodecsCanonical) (depth : Nat) :
    env.Canonical limitSet (env.decode limitSet frameLimits depth) := by
  induction depth with
  | zero =>
    intro fs raw v h
    cases h
  | succ depth ih => exact canonical_decodeStep hcodecs ih

end Step

/-! ## Messages -/

end Canonical

/-- The fields of a message. -/
def Env.messageParts {ν γ : Type} (env : Env ν γ) (n : ν) (x : List (Value γ)) :
    List (FieldSchema ν × Value γ) :=
  structParts (env.fieldsOf (.named n)) x

/-- A message that `Unmarshal` returns is marshalled, to the bytes it was read from, exactly when
the custom values of its maps have their method; and no other bytes are read as it. -/
theorem unmarshal_canonical {ν γ : Type} (env : Env ν γ) (hcodecs : env.CodecsCanonical)
    (limitSet : FieldLimits) (frameLimits : FrameLimits) (n : ν) (raw : Bytes) (x : List (Value γ))
    (h : env.unmarshal limitSet frameLimits n raw = .ok x) :
    (env.marshal limitSet n x = .ok raw ↔
      ∀ p, env.Inside p (env.messageParts n x) → env.MapWritten p) ∧
    ∀ frameLimits' raw', env.unmarshal limitSet frameLimits' n raw' = .ok x → raw' = raw := by
  have hback : ∀ {frameLimits raw}, env.unmarshal limitSet frameLimits n raw = .ok x →
      ∀ mapAddr, env.Written mapAddr (env.messageParts n x) →
        env.marshalMessage n x (fun goName schema =>
          env.encodeFields limitSet mapAddr "wire" goName schema x) = .ok raw :=
    fun h mapAddr => marshalMessage_of_unmarshal (canonical_decode hcodecs _) h
  refine ⟨⟨?_, ?_⟩, ?_⟩
  · intro hmarshal p hp
    obtain ⟨message, schema, fields, htype, -, hschema, -, hfields, -⟩ :=
      marshalMessage_eq_ok hmarshal
    rw [Env.messageParts, fieldsOf_eq htype hschema] at hp
    have hencodes : ∀ q ∈ structParts schema x, env.Encodes limitSet false q :=
      fun q hq => ⟨true, exists_of_encodeFields hfields q hq⟩
    exact (Env.Encodes.inside hp hencodes).mapWritten
  · intro hwritten
    exact hback h false fun _ => hwritten
  · intro frameLimits' raw' h'
    -- with addressable map values the encoder would give back both inputs
    have hsame := hback h' true nofun
    rw [hback h true nofun] at hsame
    exact (Except.ok.inj hsame).symm

/-! ### A map of values with their codec on the pointer -/

/-- The types of the program below. -/
inductive MapSample where
  | message
  | value
deriving DecidableEq

/-- A message with one map, whose values are byte strings with their own codec. -/
def mapSample : Env MapSample Bytes
  | .message =>
    { pkg := "sample"
      goName := "Message"
      underlying := .struct [⟨"Items", true, .map .uint32 (.named .value), some (lit "1,map")⟩]
      message := some ⟨lit "sample.message", 1⟩
      marshaler := none
      unmarshaler := none
      validate := fun _ => .ok () }
  | .value =>
    { pkg := "sample"
      goName := "Value"
      underlying := .literal (.slice .uint8) rfl
      message := none
      marshaler := some ⟨true, fun b => .ok (some b)⟩
      unmarshaler := some fun b => .ok (b, b.length)
      validate := fun _ => .ok () }

theorem mapSample_canonical : mapSample.CodecsCanonical := by
  intro n unmarshal raw c hunmarshal hread
  cases n with
  | message => cases hunmarshal
  | value =>
    cases hunmarshal
    cases hread
    exact ⟨_, rfl, rfl⟩

/-- The message with the given map, encoded. -/
def mapSampleFrame (entries : Bytes) : Bytes :=
  magic ++ (be16 14 ++ (lit "sample.message" ++ (be16 1 ++ (be16 1 ++ (be16 1 ++
    (be32 entries.length ++ entries))))))

/-- A map with one entry is read, and the message that was read is refused by `Marshal`. -/
theorem map_of_pointer_codec_not_marshalled :
    mapSample.CodecsCanonical ∧
      mapSample.unmarshal (fun _ => none) ⟨0, 0, 0⟩ .message
          (mapSampleFrame (be32 1 ++ (be32 4 ++ be32 5 ++ (be32 1 ++ [7])))) =
        .ok [.map [(5, .custom [7])]] ∧
      mapSample.marshal (fun _ => none) .message [.map [(5, .custom [7])]] =
        fail (.wrap "wire %s field %s tag %d: %w"
          [.text (lit "Message"), .text (lit "Items"), .num 1]
          (.errorf "wire: field %s does not implement MarshalWireValue" [.text (lit "Items value")])) :=
  ⟨mapSample_canonical, rfl, rfl⟩

theorem unmarshal_canonical_empty_map :
    mapSample.unmarshal (fun _ => none) ⟨0, 0, 0⟩ .message (mapSampleFrame (be32 0)) =
        .ok [.map []] ∧
      (mapSample.marshal (fun _ => none) .message [.map []] = .ok (mapSampleFrame (be32 0)) ↔
        ∀ p, mapSample.Inside p (mapSample.messageParts .message [.map []]) →
          mapSample.MapWritten p) ∧
      ∀ frameLimits' raw', mapSample.unmarshal (fun _ => none) frameLimits' .message raw' =
        .ok [.map []] → raw' = mapSampleFrame (be32 0) :=
  ⟨rfl, unmarshal_canonical mapSample mapSample_canonical (fun _ => none) ⟨0, 0, 0⟩ .message
    (mapSampleFrame (be32 0)) [.map []] rfl⟩

end Tss.Wire
