import Tss.Errors
import Tss.Transcript
import Mathlib.Algebra.Order.BigOperators.Group.List
import Mathlib.Algebra.Order.Ring.Nat

/-!
# The TLV wire format (`internal/wire`)

A message is the magic, its type identifier and version, and a body of
fields with strictly increasing tags. A payload type lists its fields by
name and tag; the reflection over struct tags is not modelled, each payload
type states what its tags make of it. The input still to be read stands for
the source's offset into the whole input.
-/

namespace Tss.Wire

open Fallible

/-! ## Frames -/

structure Field where
  tag : UInt16
  value : Bytes
deriving DecidableEq

def magic : Bytes := lit "TSS1"

def maxRecordCount : Nat := 65535

/-- The loop of checks in `marshalFieldBody`, over the fields that follow `last`. -/
def checkFieldBody : Option UInt16 → List Field → Except GoError Unit
  | _, [] => .ok ()
  | last, field :: fields => do
    rejectIf (field.tag = 0) (.new "wire field tag 0 is invalid")
    rejectIf (2 ^ 32 ≤ field.value.length)
      (.errorf "wire field %d too large" [.num field.tag.toNat])
    rejectIf (last.any (field.tag ≤ ·)) (.new "wire fields must be strictly increasing")
    checkFieldBody (some field.tag) fields

/-- One field on the wire. -/
def Field.encode (f : Field) : Bytes := be16 f.tag.toNat ++ (be32 f.value.length ++ f.value)

def marshalFieldBody (fields : List Field) : Except GoError Bytes := do
  rejectIf (2 ^ 16 ≤ fields.length) (.new "too many wire fields")
  checkFieldBody none fields
  pure (be16 fields.length ++ fields.flatMap Field.encode)

def marshalFields (version : UInt16) (typeID : GoString) (fields : List Field) :
    Except GoError Bytes := do
  rejectIf (typeID = []) (.new "empty wire type id")
  rejectIf ((utf8Runes typeID).isNone) (.new "wire type id must be valid UTF-8")
  rejectIf (2 ^ 16 ≤ typeID.length) (.new "wire type id too long")
  let body ← marshalFieldBody fields
  pure (magic ++ (be16 typeID.length ++ (typeID ++ (be16 version.toNat ++ body))))

structure FrameLimits where
  maxTotalBytes : Int
  maxFields : Int
  maxFieldBytes : Int

def FrameLimits.withDefaults (l : FrameLimits) : FrameLimits where
  maxTotalBytes := if l.maxTotalBytes = 0 then 2 ^ 20 else l.maxTotalBytes
  maxFields := if l.maxFields = 0 then 256 else l.maxFields
  maxFieldBytes := if l.maxFieldBytes = 0 then 2 ^ 20 else l.maxFieldBytes

def FrameLimits.validate (l : FrameLimits) : Except GoError Unit := do
  rejectIf (l.maxTotalBytes ≤ 0) (.new "wire MaxTotalBytes must be positive")
  rejectIf (l.maxFields ≤ 0) (.new "wire MaxFields must be positive")
  rejectIf (l.maxFieldBytes ≤ 0) (.new "wire MaxFieldBytes must be positive")

def readUint16 (raw : Bytes) : Except GoError (UInt16 × Bytes) := do
  rejectIf (raw.length < 2) (.new "truncated uint16")
  pure (UInt16.ofNat (beNat (raw.take 2)), raw.drop 2)

def readUint32 (raw : Bytes) : Except GoError (UInt32 × Bytes) := do
  rejectIf (raw.length < 4) (.new "truncated uint32")
  pure (UInt32.ofNat (beNat (raw.take 4)), raw.drop 4)

/-- The loop of `decodeFieldBody`, over the count of fields still to read. -/
def decodeFieldList (maxFieldBytes : Int) :
    Nat → Option UInt16 → Bytes → Except GoError (List Field × Bytes)
  | 0, _, raw => .ok ([], raw)
  | count + 1, last, raw => do
    let (tag, raw) ← readUint16 raw
    rejectIf (tag = 0) (.new "wire field tag 0 is invalid")
    rejectIf (last.any (tag ≤ ·)) (.new "wire fields must be strictly increasing")
    let (length, raw) ← readUint32 raw
    rejectIf (raw.length < length.toNat) (.errorf "truncated wire field %d" [.num tag.toNat])
    rejectIf (maxFieldBytes < length.toNat)
      (.errorf "wire field %d too large: %d > %d"
        [.num tag.toNat, .num length.toNat, .num maxFieldBytes.toNat])
    let (fields, rest) ← decodeFieldList maxFieldBytes count (some tag) (raw.drop length.toNat)
    pure (⟨tag, raw.take length.toNat⟩ :: fields, rest)

def decodeFieldBody (limits : FrameLimits) (name : GoString) (raw : Bytes) :
    Except GoError (List Field × Bytes) := do
  rejectIf (raw.length < 2) (.errorf "truncated %s field body" [.text name])
  let (fieldCount, raw) ← readUint16 raw
  rejectIf (limits.maxFields < fieldCount.toNat)
    (.errorf "too many %s fields: %d > %d"
      [.text name, .num fieldCount.toNat, .num limits.maxFields.toNat])
  decodeFieldList limits.maxFieldBytes fieldCount.toNat none raw

/-- `unmarshalFieldsWithLimits`. -/
def unmarshalFields (raw : Bytes) (expectedTypeID : GoString) (limits : FrameLimits) :
    Except GoError (UInt16 × List Field) := do
  let limits := limits.withDefaults
  limits.validate
  rejectIf (expectedTypeID = []) (.new "empty expected wire type id")
  rejectIf (raw.length < 10) (.new "wire input too short")
  rejectIf (limits.maxTotalBytes < raw.length)
    (.errorf "wire input too large: %d > %d" [.num raw.length, .num limits.maxTotalBytes.toNat])
  rejectIf (raw.take 4 ≠ magic) (.new "invalid wire magic")
  let (typeLen, raw) ← readUint16 (raw.drop 4)
  rejectIf (typeLen = 0) (.new "empty wire type id")
  rejectIf (raw.length < typeLen.toNat) (.new "truncated wire type id")
  let typeID := raw.take typeLen.toNat
  rejectIf ((utf8Runes typeID).isNone) (.new "wire type id must be valid UTF-8")
  rejectIf (typeID ≠ expectedTypeID) (.errorf "unexpected wire type id %q" [.text typeID])
  let (version, raw) ← readUint16 (raw.drop typeLen.toNat)
  let (fields, rest) ← decodeFieldBody limits typeID raw
  rejectIf (rest ≠ []) (.new "trailing bytes after wire message")
  pure (version, fields)

/-! ## Schemas -/

/-- A message type: its Go name, wire type and version and the tags and names of its
fields, none of which is optional. -/
structure Schema where
  goName : String
  wireType : String
  wireVersion : UInt16
  fields : List (UInt16 × String)

/-- `matchFields`: the values of the fields, when their tags are those of the schema. -/
def matchFields (context : String) :
    Nat → List (UInt16 × String) → List Field → Except GoError (List Bytes)
  | _, [], [] => .ok []
  | i, [], field :: _ =>
    .error (.errorf (context ++ ": unexpected field tag %d at index %d")
      [.num field.tag.toNat, .num i])
  | i, (tag, _) :: _, [] =>
    .error (.errorf (context ++ ": missing required field tag %d at index %d")
      [.num tag.toNat, .num i])
  | i, (tag, _) :: specs, field :: fields =>
    if field.tag = tag then do
      let values ← matchFields context (i + 1) specs fields
      pure (field.value :: values)
    else if tag < field.tag then
      .error (.errorf (context ++ ": missing required field tag %d at index %d, got %d")
        [.num tag.toNat, .num i, .num field.tag.toNat])
    else
      .error (.errorf (context ++ ": unexpected field tag %d at index %d, want %d")
        [.num field.tag.toNat, .num i, .num tag.toNat])

/-- `Marshal`, once every field is encoded. -/
def Schema.marshal (s : Schema) (values : List Bytes) : Except GoError Bytes :=
  marshalFields s.wireVersion (lit s.wireType)
    ((s.fields.zip values).map fun p => ⟨p.1.1, p.2⟩)

/-- `Unmarshal`, up to the decoding of the fields. -/
def Schema.unmarshal (s : Schema) (limits : FrameLimits) (raw : Bytes) :
    Except GoError (List Bytes) := do
  let (version, fields) ← unmarshalFields raw (lit s.wireType) limits
  rejectIf (version ≠ s.wireVersion)
    (.errorf ("wire " ++ s.goName ++ ": got version %d, want %d")
      [.num version.toNat, .num s.wireVersion.toNat])
  matchFields ("wire " ++ s.goName) 0 s.fields fields

/-- The context that `Marshal` and `Unmarshal` put around the error of a field. -/
def Schema.fieldError (s : Schema) (i : Nat) (err : GoError) : GoError :=
  match s.fields[i]? with
  | some (tag, name) => .wrap ("wire " ++ s.goName ++ " field " ++ name ++ " tag %d: %w")
      [.num tag.toNat] err
  | none => err

/-- The context that `Unmarshal` puts around the error of the type's own `Validate`. -/
def Schema.validateError (s : Schema) (err : GoError) : GoError :=
  .wrap ("wire.Unmarshal " ++ s.goName ++ ": %w") [] err

/-- The context that `Marshal` puts around the error of the type's own `Validate`. -/
def Schema.marshalError (s : Schema) (err : GoError) : GoError :=
  .wrap ("wire.Marshal " ++ s.goName ++ ": %w") [] err

/-! ## Records -/

/-- `marshalRecordValue`, once every field is encoded. -/
def Schema.marshalRecord (s : Schema) (values : List Bytes) : Except GoError Bytes :=
  marshalFieldBody ((s.fields.zip values).map fun p => ⟨p.1.1, p.2⟩)

/-- `unmarshalRecordValue`, up to the decoding of the fields. -/
def Schema.unmarshalRecord (s : Schema) (limits : FrameLimits) (raw : Bytes) :
    Except GoError (List Bytes) := do
  let (fields, rest) ← decodeFieldBody limits.withDefaults (lit s.goName) raw
  rejectIf (rest ≠ []) (.new ("record " ++ s.goName ++ ": trailing bytes"))
  matchFields ("record " ++ s.goName) 0 s.fields fields

/-- The context around the error of a record's field. -/
def Schema.recordFieldError (s : Schema) (i : Nat) (err : GoError) : GoError :=
  match s.fields[i]? with
  | some (tag, name) => .wrap ("record " ++ s.goName ++ " field " ++ name ++ " tag %d: %w")
      [.num tag.toNat] err
  | none => err

/-! ## Field values -/

def decodeUint32 (raw : Bytes) : Except GoError UInt32 := do
  rejectIf (raw.length ≠ 4) (.new "uint32 must be 4 bytes")
  pure (UInt32.ofNat (beNat raw))

/-- The check of `max_items` in `encodeU32List`. -/
def checkUint32ListLimit (maxItems : Int) (count : Nat) : Except GoError Unit := do
  rejectIf (maxItems ≤ 0) (.new "field limit must be positive")
  rejectIf (maxItems < count)
    (.errorf "u32list count %d exceeds max_items=%d" [.num count, .num maxItems.toNat])

/-- The items of `decodeU32List`. -/
def decodeUint32Items : Nat → Bytes → Except GoError (List UInt32)
  | 0, _ => .ok []
  | count + 1, raw => do
    let (item, raw) ← readUint32 raw
    let items ← decodeUint32Items count raw
    pure (item :: items)

/-- `decodeU32List`. -/
def decodeUint32List (maxItems : Int) (raw : Bytes) : Except GoError (List UInt32) := do
  rejectIf (maxItems ≤ 0) (.new "field limit must be positive")
  let (count, raw) ← readUint32 raw
  rejectIf (maxRecordCount < count.toNat)
    (.errorf "u32list count too large: %d" [.num count.toNat])
  checkUint32ListLimit maxItems count.toNat
  rejectIf (raw.length ≠ 4 * count.toNat) (.new "invalid u32list length")
  decodeUint32Items count.toNat raw

def checkFixedLen (n : Nat) (raw : Bytes) : Except GoError Unit :=
  rejectIf (raw.length ≠ n) (.errorf "got %d bytes, want %d" [.num raw.length, .num n])

/-- `checkCustomItemLimit` with the named limit's value. -/
def checkCustomItemLimit (maxItems : Int) (raw : Bytes) : Except GoError Unit := do
  let (count, _) ← readUint32 raw
  rejectIf (maxRecordCount < count.toNat)
    (.errorf "custom item count %d exceeds global limit %d" [.num count.toNat, .num maxRecordCount])
  rejectIf (maxItems ≤ 0) (.new "field limit must be positive")
  rejectIf (maxItems < count.toNat)
    (.errorf "custom item count %d exceeds max_items=%d" [.num count.toNat, .num maxItems.toNat])

/-- The items of `DecodeBytesListWithLimit`. -/
def decodeBytesItems (maxItemBytes : Nat) : Nat → Bytes → Except GoError (List Bytes × Bytes)
  | 0, raw => .ok ([], raw)
  | count + 1, raw => do
    let (length, raw) ← readUint32 raw
    rejectIf (0 < maxItemBytes ∧ maxItemBytes < length.toNat)
      (.errorf "byte field too large: %d > %d" [.num length.toNat, .num maxItemBytes])
    rejectIf (raw.length < length.toNat) (.new "truncated byte field")
    let (items, rest) ← decodeBytesItems maxItemBytes count (raw.drop length.toNat)
    pure (raw.take length.toNat :: items, rest)

/-- `DecodeBytesListWithLimit` without a cap on the number of items. -/
def decodeBytesList (maxItemBytes : Nat) (raw : Bytes) : Except GoError (List Bytes) := do
  let (count, raw) ← readUint32 raw
  rejectIf (maxRecordCount < count.toNat)
    (.errorf "bytes list count too large: %d > %d" [.num count.toNat, .num maxRecordCount])
  rejectIf (raw.length < 4 * count.toNat) (.new "invalid bytes list length")
  let (items, rest) ← decodeBytesItems maxItemBytes count.toNat raw
  rejectIf (rest ≠ []) (.new "trailing bytes list data")
  pure items

/-! ## Errors of writing -/

theorem checkFieldBody_plain (last : Option UInt16) (fields : List Field) :
    ErrorsIn GoError.Plain (checkFieldBody last fields) := by
  induction fields generalizing last with
  | nil => exact .ok _
  | cons field fields ih =>
    iterate 2 refine .guard rfl ?_
    exact .bind (.rejectIf rfl) fun _ _ => ih _

theorem Schema.marshal_plain (s : Schema) (values : List Bytes) :
    ErrorsIn GoError.Plain (s.marshal values) := by
  iterate 3 refine .guard rfl ?_
  refine .bind ?_ fun _ _ => .ok _
  refine .guard rfl ?_
  exact .bind (checkFieldBody_plain _ _) fun _ _ => .ok _

/-! ## What is written is read back -/

theorem readUint16_be16 {n : Nat} (h : n < 2 ^ 16) (rest : Bytes) :
    readUint16 (be16 n ++ rest) = .ok (UInt16.ofNat n, rest) := by
  have hlen : ¬ (be16 n ++ rest).length < 2 := by simp [be16]
  have htake : (be16 n ++ rest).take 2 = be16 n := by simp [be16]
  have hdrop : (be16 n ++ rest).drop 2 = rest := by simp [be16]
  simp only [readUint16, rejectIf, hlen, if_false, ok_bind, htake, hdrop, beNat_be16 h]
  rfl

theorem readUint32_be32 {n : Nat} (h : n < 2 ^ 32) (rest : Bytes) :
    readUint32 (be32 n ++ rest) = .ok (UInt32.ofNat n, rest) := by
  have hlen : ¬ (be32 n ++ rest).length < 4 := by simp [be32]
  have htake : (be32 n ++ rest).take 4 = be32 n := by simp [be32]
  have hdrop : (be32 n ++ rest).drop 4 = rest := by simp [be32]
  simp only [readUint32, rejectIf, hlen, if_false, ok_bind, htake, hdrop, beNat_be32 h]
  rfl

variable {fields : List Field}

theorem decodeFieldList_encode {maxFieldBytes : Int} {last : Option UInt16}
    (hcheck : checkFieldBody last fields = .ok ())
    (hmax : ∀ f ∈ fields, (f.value.length : Int) ≤ maxFieldBytes) (rest : Bytes) :
    decodeFieldList maxFieldBytes fields.length last (fields.flatMap Field.encode ++ rest) =
      .ok (fields, rest) := by
  induction fields generalizing last with
  | nil => rfl
  | cons field fields ih =>
    obtain ⟨hfield, hmax⟩ := List.forall_mem_cons.mp hmax
    simp only [checkFieldBody, seq_eq_ok, rejectIf_eq_ok] at hcheck
    obtain ⟨htag, hlength, hlast, hcheck⟩ := hcheck
    have hsize : (UInt32.ofNat field.value.length).toNat = field.value.length :=
      UInt32.toNat_ofNat_of_lt' (by simpa [UInt32.size] using hlength)
    rw [List.flatMap_cons, List.length_cons, decodeFieldList]
    simp only [Field.encode, List.append_assoc]
    rw [readUint16_be16 field.tag.toNat_lt, ok_bind]
    simp only [UInt16.ofNat_toNat, rejectIf, htag, hlast, if_false, ok_bind]
    rw [readUint32_be32 (by omega), ok_bind]
    have hshort : ¬ (field.value ++ (fields.flatMap Field.encode ++ rest)).length <
        field.value.length := by
      rw [List.length_append]
      omega
    have hlarge : ¬ maxFieldBytes < (field.value.length : Int) := by omega
    have htake : (field.value ++ (fields.flatMap Field.encode ++ rest)).take field.value.length =
        field.value := List.take_left
    have hdrop : (field.value ++ (fields.flatMap Field.encode ++ rest)).drop field.value.length =
        fields.flatMap Field.encode ++ rest := List.drop_left
    simp only [hsize, hshort, hlarge, if_false, ok_bind, htake, hdrop, ih hcheck hmax]
    rfl

/-- The body of a frame that was written is read back, under limits that admit it. -/
theorem decodeFieldBody_encode (limits : FrameLimits) (name : GoString)
    (hcount : fields.length < 2 ^ 16) (hcheck : checkFieldBody none fields = .ok ())
    (hfields : (fields.length : Int) ≤ limits.maxFields)
    (hbytes : ∀ f ∈ fields, (f.value.length : Int) ≤ limits.maxFieldBytes) :
    decodeFieldBody limits name (be16 fields.length ++ fields.flatMap Field.encode) =
      .ok (fields, []) := by
  have hlength : (UInt16.ofNat fields.length).toNat = fields.length :=
    UInt16.toNat_ofNat_of_lt' (by simpa [UInt16.size] using hcount)
  have hshort : ¬ (be16 fields.length ++ fields.flatMap Field.encode).length < 2 := by
    simp [be16]
  have hmany : ¬ limits.maxFields < (fields.length : Int) := by omega
  have hlist := decodeFieldList_encode hcheck hbytes []
  rw [List.append_nil] at hlist
  simp only [decodeFieldBody, rejectIf, hshort, if_false, ok_bind, readUint16_be16 hcount,
    hlength, hmany, hlist]

/-- The frame limits under which a message with these fields is read. -/
structure FrameLimits.Admits (l : FrameLimits) (typeID : GoString) (values : List Bytes) : Prop where
  fields_pos : 0 < l.withDefaults.maxFields
  fieldBytes_pos : 0 < l.withDefaults.maxFieldBytes
  total : (10 + typeID.length + (values.map fun v => 6 + v.length).sum : Nat) ≤
    l.withDefaults.maxTotalBytes
  fields : (values.length : Int) ≤ l.withDefaults.maxFields
  fieldBytes : ∀ v ∈ values, (v.length : Int) ≤ l.withDefaults.maxFieldBytes

theorem matchFields_zip (context : String) (i : Nat) (specs : List (UInt16 × String))
    (values : List Bytes) (h : values.length = specs.length) :
    matchFields context i specs
      ((specs.zip values).map fun p => ⟨p.1.1, p.2⟩) = .ok values := by
  induction specs generalizing i values with
  | nil => simp_all [matchFields]
  | cons spec specs ih =>
    cases values with
    | nil => simp at h
    | cons value values =>
      simp only [List.zip_cons_cons, List.map_cons, matchFields, if_true]
      rw [ih (i + 1) values (by simpa using h)]
      rfl

theorem length_flatMap_encode (fields : List Field) :
    (fields.flatMap Field.encode).length = (fields.map fun f => 6 + f.value.length).sum := by
  induction fields with
  | nil => rfl
  | cons f fields ih =>
    rw [List.flatMap_cons, List.length_append, ih, List.map_cons, List.sum_cons]
    simp [Field.encode, be16, be32]
    omega

theorem magic_length : magic.length = 4 := by decide

variable {raw : Bytes}

theorem length_marshalFields {version : UInt16} {typeID : GoString}
    (hraw : marshalFields version typeID fields = .ok raw) :
    raw.length = 10 + typeID.length + (fields.map fun f => 6 + f.value.length).sum := by
  unfold marshalFields marshalFieldBody at hraw
  simp only [bind_eq_ok, rejectIf_eq_ok] at hraw
  obtain ⟨_, -, _, -, _, -, body, ⟨_, -, _, -, hbody⟩, hraw⟩ := hraw
  cases hbody
  cases hraw
  simp only [List.length_append, length_flatMap_encode, magic_length, be16, List.length_cons,
    List.length_nil]
  omega

/-- Fields that pass the checks are written. -/
theorem exists_marshalFields {typeID : GoString} (version : UInt16) (hne : typeID ≠ [])
    (hutf : (utf8Runes typeID).isNone = false) (hlength : typeID.length < 2 ^ 16)
    (hcount : fields.length < 2 ^ 16) (hbody : checkFieldBody none fields = .ok ()) :
    ∃ raw, marshalFields version typeID fields = .ok raw := by
  have hlength' : ¬ 2 ^ 16 ≤ typeID.length := by omega
  have hcount' : ¬ 2 ^ 16 ≤ fields.length := by omega
  refine ⟨magic ++ (be16 typeID.length ++ (typeID ++ (be16 version.toNat ++
    (be16 fields.length ++ fields.flatMap Field.encode)))), ?_⟩
  simp only [marshalFields, marshalFieldBody, rejectIf, hne, hutf, hlength', hcount', hbody,
    if_false, ok_bind, Bool.false_eq_true]
  rfl

/-- The fields of a frame that was written are read back, under limits that admit them. -/
theorem unmarshalFields_marshalFields {version : UInt16} {typeID : GoString} {limits : FrameLimits}
    (hraw : marshalFields version typeID fields = .ok raw)
    (hlimits : limits.Admits typeID (fields.map Field.value)) :
    unmarshalFields raw typeID limits = .ok (version, fields) := by
  have hlen := length_marshalFields hraw
  unfold marshalFields marshalFieldBody at hraw
  simp only [bind_eq_ok, rejectIf_eq_ok] at hraw
  obtain ⟨_, hne, _, hutf8, _, hlong, body, ⟨_, hcount, _, hcheck, hbody⟩, hraw⟩ := hraw
  cases hbody
  cases hraw
  obtain ⟨hfieldsPos, hfieldBytesPos, htotal, hfieldsMax, hfieldBytes⟩ := hlimits
  have htypeLen : (UInt16.ofNat typeID.length).toNat = typeID.length :=
    UInt16.toNat_ofNat_of_lt' (by simpa [UInt16.size] using hlong)
  have htypeZero : UInt16.ofNat typeID.length ≠ 0 := by
    intro h
    rw [h] at htypeLen
    exact hne (List.length_eq_zero_iff.mp htypeLen.symm)
  set tail := be16 version.toNat ++ (be16 fields.length ++ fields.flatMap Field.encode)
  rw [List.map_map] at htotal
  rw [List.length_map] at hfieldsMax
  change ((10 + typeID.length + (fields.map fun f => 6 + f.value.length).sum : Nat) : Int) ≤ _
    at htotal
  have hmagic : (magic ++ (be16 typeID.length ++ (typeID ++ tail))).take 4 = magic :=
    List.take_left' magic_length
  have hrest : (magic ++ (be16 typeID.length ++ (typeID ++ tail))).drop 4 =
      be16 typeID.length ++ (typeID ++ tail) := List.drop_left' magic_length
  have hdecode := decodeFieldBody_encode limits.withDefaults typeID (by omega) hcheck hfieldsMax
    fun f hf => hfieldBytes _ (List.mem_map_of_mem hf)
  have hchecks : ¬ limits.withDefaults.maxTotalBytes ≤ 0 ∧ ¬ limits.withDefaults.maxFields ≤ 0 ∧
      ¬ limits.withDefaults.maxFieldBytes ≤ 0 := by omega
  have hsize : ¬ 10 + typeID.length + (fields.map fun f => 6 + f.value.length).sum < 10 ∧
      ¬ limits.withDefaults.maxTotalBytes <
        ((10 + typeID.length + (fields.map fun f => 6 + f.value.length).sum : Nat) : Int) := by
    omega
  have htype : ¬ (typeID ++ tail).length < typeID.length := by
    rw [List.length_append]
    omega
  simp only [unmarshalFields, FrameLimits.validate, rejectIf, hchecks, hne, hlen, hsize, hmagic,
    hrest, readUint16_be16 (show typeID.length < 2 ^ 16 by omega), htypeZero, htypeLen, htype,
    hutf8, List.take_left, List.drop_left, tail, readUint16_be16 version.toNat_lt, hdecode,
    if_false, ne_eq, not_true_eq_false, ok_bind, UInt16.ofNat_toNat]
  rfl

/-- A message that was written is read back with its fields, under limits that admit it. -/
theorem Schema.unmarshal_marshal {s : Schema} {values : List Bytes} {limits : FrameLimits}
    (hvalues : values.length = s.fields.length) (hraw : s.marshal values = .ok raw)
    (hlimits : limits.Admits (lit s.wireType) values) : s.unmarshal limits raw = .ok values := by
  have hmap : ((s.fields.zip values).map fun p => (⟨p.1.1, p.2⟩ : Field)).map Field.value =
      values := by
    rw [List.map_map]
    exact List.map_snd_zip (by omega)
  have hread := unmarshalFields_marshalFields hraw (by rwa [hmap])
  unfold unmarshal
  rw [hread, ok_bind]
  simp only [rejectIf, ne_eq, not_true_eq_false, if_false, ok_bind]
  exact matchFields_zip _ _ _ _ hvalues

theorem decodeFieldList_mono {m m' : Int} (hle : m ≤ m') {count : Nat} {last : Option UInt16}
    {out : List Field × Bytes} (h : decodeFieldList m count last raw = .ok out) :
    decodeFieldList m' count last raw = .ok out := by
  induction count generalizing last raw out with
  | zero => exact h
  | succ count ih =>
    simp only [decodeFieldList, bind_eq_ok, rejectIf_eq_ok] at h ⊢
    obtain ⟨tag, htag, _, hzero, _, hlast, length, hlength, _, hshort, _, hlarge, fields, hfields,
      hout⟩ := h
    exact ⟨tag, htag, ⟨⟩, hzero, ⟨⟩, hlast, length, hlength, ⟨⟩, hshort, ⟨⟩,
      fun habs => hlarge (by omega), fields, ih hfields, hout⟩

theorem unmarshalFields_mono {l l' : FrameLimits}
    (htotal : l.withDefaults.maxTotalBytes ≤ l'.withDefaults.maxTotalBytes)
    (hfields : l.withDefaults.maxFields ≤ l'.withDefaults.maxFields)
    (hbytes : l.withDefaults.maxFieldBytes ≤ l'.withDefaults.maxFieldBytes) {typeID : GoString}
    {out : UInt16 × List Field} (h : unmarshalFields raw typeID l = .ok out) :
    unmarshalFields raw typeID l' = .ok out := by
  simp only [unmarshalFields, FrameLimits.validate, decodeFieldBody, bind_eq_ok, 
    rejectIf_eq_ok] at h ⊢
  obtain ⟨_, ⟨_, hpos, _, hpos', hpos''⟩, _, htype, _, hshort, _, hlong, _, hmagic, len, hlen, _,
    hzero, _, htrunc, _, hutf8, _, hexpected, version, hversion, body, ⟨_, hbody, count, hcount, _,
    hmany, hlist⟩, hrest⟩ := h
  exact ⟨⟨⟩, ⟨⟨⟩, by omega, ⟨⟩, by omega, by omega⟩, ⟨⟩, htype, ⟨⟩, hshort, ⟨⟩, by omega, ⟨⟩, hmagic, len, hlen, ⟨⟩,
    hzero, ⟨⟩, htrunc, ⟨⟩, hutf8, ⟨⟩, hexpected, version, hversion, body, ⟨⟨⟩, hbody, count, hcount, ⟨⟩,
    by omega, decodeFieldList_mono hbytes hlist⟩, hrest⟩

/-- There are limits that admit a message and are no smaller than given ones. -/
theorem FrameLimits.exists_admits (l : FrameLimits) (typeID : GoString) (values : List Bytes) :
    ∃ wide : FrameLimits, wide.Admits typeID values ∧
      l.withDefaults.maxTotalBytes ≤ wide.withDefaults.maxTotalBytes ∧
      l.withDefaults.maxFields ≤ wide.withDefaults.maxFields ∧
      l.withDefaults.maxFieldBytes ≤ wide.withDefaults.maxFieldBytes := by
  let bytes : Int := (10 + typeID.length + (values.map fun v => 6 + v.length).sum : Nat)
  let large (n : Int) : Int := max (max n (2 ^ 20)) (bytes + values.length)
  let wide : FrameLimits := ⟨large l.withDefaults.maxTotalBytes,
    large l.withDefaults.maxFields, large l.withDefaults.maxFieldBytes⟩
  have hwide : wide.withDefaults = wide := by
    have hpos : ∀ n, large n ≠ 0 := by
      intro n
      simp only [large]
      omega
    simp only [FrameLimits.withDefaults, wide, hpos, if_false]
  have hbound : ∀ v ∈ values, (v.length : Int) ≤ bytes := by
    intro v hv
    have hle : 6 + v.length ≤ (values.map fun v => 6 + v.length).sum :=
      List.single_le_sum (fun _ _ => Nat.zero_le _) _ (List.mem_map_of_mem hv)
    simp only [bytes]
    omega
  refine ⟨wide, ⟨?_, ?_, ?_, ?_, fun v hv => ?_⟩, ?_, ?_, ?_⟩ <;> rw [hwide] <;>
    simp only [wide, large]
  case refine_5 =>
    have := hbound v hv
    omega
  all_goals omega

/-- What is read from a message that was written are its fields. -/
theorem Schema.unmarshal_eq {s : Schema} {values values' : List Bytes} {limits : FrameLimits}
    (hvalues : values.length = s.fields.length) (hraw : s.marshal values = .ok raw)
    (h : s.unmarshal limits raw = .ok values') : values' = values := by
  obtain ⟨wide, hadmits, htotal, hfields, hbytes⟩ :=
    limits.exists_admits (lit s.wireType) values
  obtain ⟨⟨version, fields⟩, hread, h⟩ := bind_eq_ok.mp h
  have hmono := unmarshalFields_mono htotal hfields hbytes hread
  have hwide := s.unmarshal_marshal hvalues hraw hadmits
  rw [Schema.unmarshal, hmono, ok_bind] at hwide
  rw [hwide] at h
  exact (Except.ok.inj h).symm

/-- Two messages of one type that are written alike have the same fields. -/
theorem Schema.marshal_inj {s : Schema} {values values' : List Bytes}
    (hvalues : values.length = s.fields.length) (hvalues' : values'.length = s.fields.length)
    (hraw : s.marshal values = .ok raw) (hraw' : s.marshal values' = .ok raw) :
    values = values' := by
  obtain ⟨wide, hadmits, -⟩ := FrameLimits.exists_admits ⟨0, 0, 0⟩ (lit s.wireType) values
  exact Schema.unmarshal_eq hvalues' hraw' (s.unmarshal_marshal hvalues hraw hadmits)

theorem decodeUint32_be32 {n : Nat} (h : n < 2 ^ 32) :
    decodeUint32 (be32 n) = .ok (UInt32.ofNat n) := by
  have hlength : ¬ (be32 n).length ≠ 4 := by simp [be32]
  simp only [decodeUint32, rejectIf, hlength, if_false, ok_bind, beNat_be32 h]
  rfl

theorem decodeUint32Items_encode (items : List UInt32) :
    decodeUint32Items items.length (items.flatMap fun item => be32 item.toNat) = .ok items := by
  induction items with
  | nil => rfl
  | cons item items ih =>
    rw [List.length_cons, List.flatMap_cons, decodeUint32Items, readUint32_be32 item.toNat_lt,
      ok_bind, UInt32.ofNat_toNat]
    simp only [ih, ok_bind]
    rfl

theorem length_flatMap_be32 (items : List UInt32) :
    (items.flatMap fun item => be32 item.toNat).length = 4 * items.length := by
  induction items with
  | nil => rfl
  | cons item items ih =>
    have hfour : (be32 item.toNat).length = 4 := rfl
    rw [List.flatMap_cons, List.length_append, ih, List.length_cons, hfour]
    omega

/-- What is read from a list of numbers that was written is the list. -/
theorem decodeUint32List_eq {maxItems : Int} {items items' : List UInt32}
    (h : decodeUint32List maxItems (Transcript.encodeUint32List items) = .ok items') :
    items' = items ∧ items.length ≤ maxRecordCount := by
  obtain ⟨_, h⟩ := seq_eq_ok.mp h
  obtain ⟨⟨count, rest⟩, hread, h⟩ := bind_eq_ok.mp h
  obtain ⟨hcount, h⟩ := seq_eq_ok.mp h
  obtain ⟨_, h⟩ := seq_eq_ok.mp h
  obtain ⟨hlength, h⟩ := seq_eq_ok.mp h
  rw [rejectIf_eq_ok] at hcount hlength
  obtain ⟨_, hread⟩ := seq_eq_ok.mp hread
  obtain ⟨-, rfl⟩ := Prod.mk.inj (Except.ok.inj hread)
  have hrest : (Transcript.encodeUint32List items).drop 4 =
      items.flatMap fun item => be32 item.toNat := rfl
  rw [hrest] at hlength h
  rw [length_flatMap_be32] at hlength
  have hsame : count.toNat = items.length := by omega
  rw [hsame, decodeUint32Items_encode] at h
  exact ⟨(Except.ok.inj h).symm, by omega⟩

end Tss.Wire
