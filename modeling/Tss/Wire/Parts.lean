import Tss.Wire.FlatCanonical

/-!
# The fields inside a value

A struct, a list of records and a map hold further fields. `parts` lists
those directly inside a value, `Inside` reaches them at any depth. The
equations of the encoder say what it does with each kind of value that holds
fields, without its recursion.
-/

namespace Tss.Wire

open Fallible

/-! ## The fields inside a value -/

section Inside

variable {ν γ : Type} (env : Env ν γ)

/-- The fields of a struct type, none where the package refuses it. -/
def Env.fieldsOf (t : GoType ν) : List (FieldSchema ν) :=
  match env.recordType t with
  | .struct n => (env.getSchema n).toOption.getD []
  | _ => []

/-- The fields of a struct that are written. -/
def structParts (schema : List (FieldSchema ν)) (values : List (Value γ)) :
    List (FieldSchema ν × Value γ) :=
  (schema.zip values).filter fun p => !p.1.shouldOmit p.2

/-- The struct type and the values of a struct, or of a pointer to one. -/
def structValue : GoType ν → Value γ → Option (GoType ν × List (Value γ))
  | .pointer t, .pointer (.struct values) => some (t, values)
  | t, .struct values => some (t, values)
  | _, _ => none

/-- The fields of a record. -/
def Env.recordParts (t : GoType ν) (v : Value γ) : List (FieldSchema ν × Value γ) :=
  match structValue t v with
  | some (t, values) => structParts (env.fieldsOf t) values
  | none => []

/-- The fields directly inside the value of a field. -/
def Env.parts (fs : FieldSchema ν) (v : Value γ) : List (FieldSchema ν × Value γ) :=
  match fs.kind, v with
  | .record, v => env.recordParts fs.typ v
  | .nested, v => env.recordParts fs.typ v
  | .recordList, .slice items =>
    match env.underlying fs.typ with
    | .slice elem => items.flatMap (env.recordParts elem)
    | _ => []
  | .map, .map entries => entries.map fun entry => (fs.mapValue, entry.2)
  | _, _ => []

/-- A field stands, at any depth, among the fields of a list. -/
inductive Env.Inside (p : FieldSchema ν × Value γ) : List (FieldSchema ν × Value γ) → Prop where
  | field {fields} : p ∈ fields → Env.Inside p fields
  | part {fields q} : q ∈ fields → Env.Inside p (env.parts q.1 q.2) → Env.Inside p fields

variable {env}

theorem structParts_omit {fs : FieldSchema ν} {schema : List (FieldSchema ν)} {v : Value γ}
    {values : List (Value γ)} (h : fs.shouldOmit v = true) :
    structParts (fs :: schema) (v :: values) = structParts schema values := by
  simp [structParts, h]

theorem structParts_keep {fs : FieldSchema ν} {schema : List (FieldSchema ν)} {v : Value γ}
    {values : List (Value γ)} (h : ¬ fs.shouldOmit v = true) :
    structParts (fs :: schema) (v :: values) = (fs, v) :: structParts schema values := by
  simp [structParts, h]

theorem Env.Inside.mono {p : FieldSchema ν × Value γ} {fields fields' : List (FieldSchema ν × Value γ)}
    (h : env.Inside p fields) (hsub : ∀ q ∈ fields, q ∈ fields') : env.Inside p fields' := by
  cases h with
  | field hp => exact .field (hsub p hp)
  | part hq hp => exact .part (hsub _ hq) hp

/-- The custom values of a map are written: their type has the method itself, not only the pointer
to it. -/
def Env.MapWritten (env : Env ν γ) (p : FieldSchema ν × Value γ) : Prop :=
  p.1.kind = .map → p.1.mapValueKind = .custom →
    ∀ entries, p.2 = .map entries → entries ≠ [] → (env.valueMarshaler p.1.mapValueType false).isSome

/-- Every map inside the fields is written, unless `MapIndex` returned addressable values. -/
def Env.Written (env : Env ν γ) (mapAddr : Bool) (fields : List (FieldSchema ν × Value γ)) : Prop :=
  mapAddr = false → ∀ p, env.Inside p fields → env.MapWritten p

variable {mapAddr : Bool} {fields fields' : List (FieldSchema ν × Value γ)}

theorem Env.Written.mono (h : env.Written mapAddr fields) (hsub : ∀ q ∈ fields', q ∈ fields) :
    env.Written mapAddr fields' :=
  fun hm p hp => h hm p (hp.mono hsub)

theorem Env.Written.parts {fs : FieldSchema ν} {v : Value γ} (h : env.Written mapAddr [(fs, v)]) :
    env.Written mapAddr (env.parts fs v) :=
  fun hm p hp => h hm p (.part (List.mem_singleton.mpr rfl) hp)

theorem Env.Written.field (h : env.Written mapAddr fields) {q : FieldSchema ν × Value γ}
    (hq : q ∈ fields) : env.Written mapAddr [q] :=
  h.mono (by simpa using hq)

end Inside

/-! ## What encoding a struct, a list or a map does -/

section Encode

variable {ν γ : Type} (env : Env ν γ) (limitSet : FieldLimits) (mapAddr : Bool)

def Env.marshalRecordValue (t : GoType ν) (v : Value γ) : Result Bytes :=
  match t, v with
  | .pointer t, .pointer (.struct fields) =>
    env.marshalRecord t fields fun goName schema =>
      env.encodeFields limitSet mapAddr "record" goName schema fields
  | t, .struct fields =>
    env.marshalRecord t fields fun goName schema =>
      env.encodeFields limitSet mapAddr "record" goName schema fields
  | .pointer _, .nilPointer => fail (.new "nil record pointer")
  | .pointer t, _ => do
    let _ ← call (env.recordSchema t)
    .error .mismatch
  | t, _ => do
    let _ ← call (env.recordSchema t)
    .error .mismatch

variable {env limitSet mapAddr} {fs : FieldSchema ν} {canAddr : Bool}

theorem encode_flat (hflat : fs.kind.isFlat) (v : Value γ) :
    env.encode limitSet mapAddr fs canAddr v = env.encodeFlat limitSet fs canAddr v := by
  have hleaf : ∀ w : Value γ,
      env.encodeLeaf limitSet fs canAddr w = env.encodeFlat limitSet fs canAddr w := by
    intro w
    unfold Env.encodeLeaf
    split <;> simp_all [WireKind.isFlat]
  unfold Env.encode
  split
  · split <;> simp_all [WireKind.isFlat]
  · split <;> simp_all [WireKind.isFlat]
  · split <;> simp_all [WireKind.isFlat]
  · split <;> simp_all [WireKind.isFlat]
  · exact hleaf v

theorem encode_record (hkind : fs.kind = .record) (v : Value γ) :
    env.encode limitSet mapAddr fs canAddr v = env.marshalRecordValue limitSet mapAddr fs.typ v := by
  have hleaf : ∀ w : Value γ, (∀ fields, w ≠ .struct fields) →
      (∀ t fields, fs.typ = .pointer t → w ≠ .pointer (.struct fields)) →
      env.encodeLeaf limitSet fs canAddr w = env.marshalRecordValue limitSet mapAddr fs.typ w := by
    intro w hstruct hpointer
    unfold Env.encodeLeaf Env.marshalRecordValue
    rw [hkind]
    cases htyp : fs.typ <;> dsimp only <;> split <;> simp_all
  rw [Env.encode.eq_def]
  split
  next fields =>
    simp only [hkind]
    cases fs.typ <;> rfl
  next fields =>
    split
    next htyp => rw [htyp, Env.marshalRecordValue]
    next hnested _ => simp [hkind] at hnested
    next hrecord _ => exact hleaf _ (by simp) fun t _ htyp _ => hrecord t hkind htyp
  next => simpa [hkind] using hleaf _ (by simp) (by simp)
  next => simpa [hkind] using hleaf _ (by simp) (by simp)
  next hstruct hpointer _ _ => exact hleaf v hstruct fun t fields _ => hpointer fields

theorem encodeRecords_eq (elem : GoType ν) (i : Nat) (items : List (Value γ)) :
    env.encodeRecords limitSet mapAddr elem i items =
      encodeItems (fun i v => encodeRecordItem i (env.marshalRecordValue limitSet mapAddr elem v))
        i items := by
  induction items generalizing i with
  | nil => simp only [Env.encodeRecords, encodeItems]
  | cons v items ih =>
    rw [encodeItems, ← ih, Env.encodeRecords.eq_def]
    congr 2

variable {raw : Bytes}

/-- What a record that was encoded consists of. -/
theorem marshalRecordValue_eq_ok {t : GoType ν} {v : Value γ}
    (h : env.marshalRecordValue limitSet mapAddr t v = .ok raw) :
    ∃ t' values n schema fields, structValue t v = some (t', values) ∧
      env.recordType t' = .struct n ∧ env.getSchema n = .ok schema ∧
      (env n).validate values = .ok () ∧
      env.encodeFields limitSet mapAddr "record" (env n).goName schema values = .ok fields ∧
      marshalFieldBody fields = .ok raw := by
  have hrecord : ∃ t' values, structValue t v = some (t', values) ∧
      env.marshalRecord t' values (fun goName schema =>
        env.encodeFields limitSet mapAddr "record" goName schema values) = .ok raw := by
    unfold Env.marshalRecordValue at h
    split at h
    · exact ⟨_, _, rfl, h⟩
    · exact ⟨_, _, by unfold structValue; split <;> simp_all, h⟩
    · cases h
    · rw [bind_eq_ok] at h
      obtain ⟨_, -, h⟩ := h
      cases h
    · rw [bind_eq_ok] at h
      obtain ⟨_, -, h⟩ := h
      cases h
  obtain ⟨t', values, hvalue, h⟩ := hrecord
  unfold Env.marshalRecord Env.recordSchema at h
  cases htype : env.recordType t' with
  | struct n =>
    simp only [htype, bind_eq_ok, call_eq_ok, mapError_eq_ok] at h
    obtain ⟨_, hvalid, ⟨n', schema'⟩, ⟨schema, hschema, hsame⟩, fields, hfields, hbody⟩ := h
    obtain ⟨rfl, rfl⟩ := Prod.mk.inj (Except.ok.inj hsame)
    exact ⟨t', values, n, schema, fields, hvalue, htype, hschema, hvalid, hfields, hbody⟩
  | untagged =>
    simp only [htype, bind_eq_ok, call_eq_ok] at h
    obtain ⟨_, h, -⟩ := h
    cases h
  | notStruct =>
    simp only [htype, bind_eq_ok, call_eq_ok] at h
    obtain ⟨_, h, -⟩ := h
    cases h

variable {values : List (Value γ)}

/-- A record is encoded from the encoded fields of its struct. -/
theorem marshalRecordValue_of_fields {t t' : GoType ν} {v : Value γ} {n : ν}
    {schema : List (FieldSchema ν)} {fields : List Field}
    (hvalue : structValue t v = some (t', values)) (htype : env.recordType t' = .struct n)
    (hschema : env.getSchema n = .ok schema) (hvalid : (env n).validate values = .ok ())
    (hfields : env.encodeFields limitSet mapAddr "record" (env n).goName schema values = .ok fields)
    (hbody : marshalFieldBody fields = .ok raw) :
    env.marshalRecordValue limitSet mapAddr t v = .ok raw := by
  have hrecord : env.marshalRecord t' values (fun goName schema =>
      env.encodeFields limitSet mapAddr "record" goName schema values) = .ok raw := by
    simp only [Env.marshalRecord, Env.recordSchema, htype, hvalid, hschema, mapError_ok, call_ok,
      ok_bind]
    exact (congrArg (· >>= fun encoded => call (marshalFieldBody encoded)) hfields).trans
      (call_eq_ok.mpr hbody)
  unfold structValue at hvalue
  split at hvalue
  · cases hvalue
    exact hrecord
  · cases hvalue
    unfold Env.marshalRecordValue
    split <;> simp_all
  · cases hvalue

theorem marshalMessage_eq_ok {n : ν} {encode : String → List (FieldSchema ν) → Result (List Field)}
    (h : env.marshalMessage n values encode = .ok raw) :
    ∃ message schema fields, env.recordType (.named n) = .struct n ∧ (env n).message = some message ∧
      env.getSchema n = .ok schema ∧ (env n).validate values = .ok () ∧
      encode (env n).goName schema = .ok fields ∧
      marshalFields message.wireVersion message.wireType fields = .ok raw := by
  unfold Env.marshalMessage at h
  split at h
  · cases h
  · cases h
  next message hstruct hmessage =>
    simp only [bind_eq_ok, call_eq_ok, mapError_eq_ok] at h
    obtain ⟨_, hvalid, schema, hschema, fields, hfields, hraw⟩ := h
    refine ⟨message, schema, fields, ?_, hmessage, hschema, hvalid, hfields, hraw⟩
    simp only [Env.recordType, Env.underlying, hstruct]

theorem marshalMessage_of_fields {n : ν} {message : MessageType}
    {encode : String → List (FieldSchema ν) → Result (List Field)} {schema : List (FieldSchema ν)}
    {fields : List Field} (hmessage : (env n).message = some message)
    (hschema : env.getSchema n = .ok schema) (hvalid : (env n).validate values = .ok ())
    (hfields : encode (env n).goName schema = .ok fields)
    (hraw : marshalFields message.wireVersion message.wireType fields = .ok raw) :
    env.marshalMessage n values encode = .ok raw := by
  unfold Env.marshalMessage
  split
  next hliteral => 
    unfold Env.getSchema at hschema
    rw [hliteral] at hschema
    cases hschema
  next hnone => 
    rw [hmessage] at hnone
    cases hnone
  next message' _ hsome =>
    obtain rfl : message = message' := Option.some.inj (hmessage.symm.trans hsome)
    simp only [hvalid, hschema, hfields, hraw, mapError_ok, call_ok, ok_bind]

/-- What a nested message that was encoded consists of. -/
theorem encode_nested_eq_ok (hkind : fs.kind = .nested) {v : Value γ}
    (h : env.encode limitSet mapAddr fs canAddr v = .ok raw) :
    ∃ n values, structValue fs.typ v = some (.named n, values) ∧
      env.marshalMessage n values (fun goName schema =>
        env.encodeFields limitSet mapAddr "wire" goName schema values) = .ok raw ∧
      fs.checkByteLimits limitSet raw = .ok () := by
  have hleaf : ∀ w : Value γ, env.encodeLeaf limitSet fs canAddr w ≠ .ok raw := by
    intro w hw
    unfold Env.encodeLeaf at hw
    rw [hkind] at hw
    cases htyp : fs.typ <;> simp only [htyp] at hw <;>
      first
      | (split at hw <;> cases hw)
      | simp [Env.encodeFlat, hkind] at hw
  rw [Env.encode.eq_def] at h
  split at h
  next values =>
    split at h
    next hrecord => simp [hkind] at hrecord
    next n _ htyp =>
      simp only [bind_eq_ok, call_eq_ok] at h
      obtain ⟨out, hout, _, hlimits, h⟩ := h
      cases h
      exact ⟨n, values, by rw [htyp]; rfl, hout, hlimits⟩
    next => exact absurd h (hleaf _)
  next values =>
    split at h
    next hrecord _ => simp [hkind] at hrecord
    next n _ htyp =>
      simp only [bind_eq_ok, call_eq_ok] at h
      obtain ⟨out, hout, _, hlimits, h⟩ := h
      cases h
      exact ⟨n, values, by rw [htyp]; rfl, hout, hlimits⟩
    next => exact absurd h (hleaf _)
  next =>
    split at h
    next hlist _ => simp [hkind] at hlist
    next => exact absurd h (hleaf _)
  next =>
    split at h
    next hmap => simp [hkind] at hmap
    next => exact absurd h (hleaf _)
  next => exact absurd h (hleaf _)

theorem encode_nested_of_message (hkind : fs.kind = .nested) {v : Value γ} {n : ν}
    (hvalue : structValue fs.typ v = some (.named n, values)) (hmessage : env.marshalMessage n
    values (fun goName schema => env.encodeFields limitSet mapAddr "wire" goName schema values) =
    .ok raw) (hlimits : fs.checkByteLimits limitSet raw = .ok ()) :
    env.encode limitSet mapAddr fs canAddr v = .ok raw := by
  unfold structValue at hvalue
  split at hvalue
  next htyp =>
    cases hvalue
    simp only [Env.encode, hkind, htyp, hmessage, hlimits, call_ok, ok_bind]
    rfl
  next t values' _ =>
    obtain ⟨htyp, rfl⟩ := Prod.mk.inj (Option.some.inj hvalue)
    simp only [Env.encode, hkind, htyp, hmessage, hlimits, call_ok, ok_bind]
    rfl
  next => cases hvalue

theorem encode_recordList (hkind : fs.kind = .recordList) (v : Value γ) :
    env.encode limitSet mapAddr fs canAddr v = (do
      let (elem, items) ← env.sliceItems fs.typ v
      fs.encodeRecordList limitSet items.length
        (encodeItems (fun i v => encodeRecordItem i (env.marshalRecordValue limitSet mapAddr elem v))
          0 items)) := by
  have hleaf : ∀ w : Value γ, (∀ items, w ≠ .slice items) →
      env.encodeLeaf limitSet fs canAddr w = (do
        let (elem, items) ← env.sliceItems fs.typ w
        fs.encodeRecordList limitSet items.length
          (encodeItems (fun i v => encodeRecordItem i (env.marshalRecordValue limitSet mapAddr elem v))
            0 items)) := by
    intro w hslice
    unfold Env.encodeLeaf Env.sliceItems
    rw [hkind]
    dsimp only
    split
    next htyp => simp only [htyp]; rfl
    next => split <;> simp_all
    next => split <;> simp_all
  rw [Env.encode.eq_def]
  split
  next => simpa only [hkind] using hleaf _ (by simp)
  next => simpa only [hkind] using hleaf _ (by simp)
  next items =>
    split
    next elem _ htyp => simp only [Env.sliceItems, htyp, ok_bind, encodeRecords_eq]
    next hother =>
      unfold Env.encodeLeaf Env.sliceItems
      rw [hkind]
      split <;> simp_all
  next => simpa only [hkind] using hleaf _ (by simp)
  next => exact hleaf v (by simp_all)

theorem encode_map (hkind : fs.kind = .map) (entries : List (UInt32 × Value γ)) :
    env.encode limitSet mapAddr fs canAddr (.map entries) =
      fs.encodeMap limitSet entries.length
        (env.encodeEntries limitSet mapAddr fs.mapValue entries) := by
  simp only [Env.encode, hkind]

/-- A map that was encoded is `nil` or has entries. -/
theorem encode_map_eq_ok (hkind : fs.kind = .map) {v : Value γ}
    (h : env.encode limitSet mapAddr fs canAddr v = .ok raw) :
    v = .nilMap ∧ raw = be32 0 ∨ ∃ entries, v = .map entries := by
  have hleaf : ∀ w : Value γ, env.encodeLeaf limitSet fs canAddr w = .ok raw →
      w = .nilMap ∧ raw = be32 0 := by
    intro w hw
    unfold Env.encodeLeaf at hw
    rw [hkind] at hw
    dsimp only at hw
    split at hw
    next => exact ⟨rfl, (Except.ok.inj hw).symm⟩
    next => cases hw
  rw [Env.encode.eq_def] at h
  split at h
  next => exact .inl (hleaf _ (by simpa only [hkind] using h))
  next => exact .inl (hleaf _ (by simpa only [hkind] using h))
  next => exact .inl (hleaf _ (by simpa only [hkind] using h))
  next entries => exact .inr ⟨entries, rfl⟩
  next => exact .inl (hleaf _ h)

end Encode
end Tss.Wire
