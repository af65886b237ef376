import Tss.Wire

/-!
# Frames have one representation (`internal/wire/envelope.go`)

The reader accepts exactly the frames the writer makes. What a loop of the
reader returns is written back, field by field, to the bytes it consumed; the
other direction is `unmarshalFields_marshalFields`. A `nil` value, which
`MarshalFields` refuses and the reader never returns, is no `Field` here.
-/

namespace Tss.Wire

open Fallible

/-! ## What is read was written -/

variable {raw : Bytes}

theorem readUint16_eq_ok {rest : Bytes} {n : UInt16} (h : readUint16 raw = .ok (n, rest)) :
    raw = be16 n.toNat ++ rest := by
  obtain ⟨hlong, h⟩ := seq_eq_ok.mp h
  rw [rejectIf_eq_ok, Nat.not_lt] at hlong
  cases h
  have htake : (raw.take 2).length = 2 := by
    rw [List.length_take]
    omega
  have hlt : beNat (raw.take 2) < 2 ^ 16 := by
    have := beNat_lt (raw.take 2)
    rwa [htake] at this
  rw [UInt16.toNat_ofNat_of_lt' hlt, be16_beNat htake, List.take_append_drop]

theorem readUint32_eq_ok {rest : Bytes} {n : UInt32} (h : readUint32 raw = .ok (n, rest)) :
    raw = be32 n.toNat ++ rest := by
  obtain ⟨hlong, h⟩ := seq_eq_ok.mp h
  rw [rejectIf_eq_ok, Nat.not_lt] at hlong
  cases h
  have htake : (raw.take 4).length = 4 := by
    rw [List.length_take]
    omega
  have hlt : beNat (raw.take 4) < 2 ^ 32 := by
    have := beNat_lt (raw.take 4)
    rwa [htake] at this
  rw [UInt32.toNat_ofNat_of_lt' hlt, be32_beNat htake, List.take_append_drop]

variable {fields : List Field}

/-- The fields a loop of the reader returns pass the writer's checks and are written back to the
bytes it consumed. -/
theorem decodeFieldList_eq_ok {maxFieldBytes : Int} {count : Nat} {last : Option UInt16}
    {rest : Bytes} (h : decodeFieldList maxFieldBytes count last raw = .ok (fields, rest)) :
    fields.length = count ∧ checkFieldBody last fields = .ok () ∧
      (∀ f ∈ fields, (f.value.length : Int) ≤ maxFieldBytes) ∧
      raw = fields.flatMap Field.encode ++ rest := by
  induction count generalizing last raw fields with
  | zero =>
    cases h
    exact ⟨rfl, rfl, by simp, rfl⟩
  | succ count ih =>
    simp only [decodeFieldList, bind_eq_ok, rejectIf_eq_ok] at h
    obtain ⟨⟨tag, afterTag⟩, htag, _, hzero, _, hlast, ⟨length, afterLength⟩, hlength, _, hlong, _,
      hmax, ⟨tail, rest'⟩, htail, h⟩ := h
    dsimp only at hzero hlast hlength hlong hmax htail h
    cases h
    obtain ⟨hcount, hcheck, hbound, hraw⟩ := ih htail
    have hvalue : (afterLength.take length.toNat).length = length.toNat := by
      rw [List.length_take]
      omega
    have hlt := length.toNat_lt
    refine ⟨by rw [List.length_cons, hcount], ?_, ?_, ?_⟩
    · simp only [checkFieldBody, seq_eq_ok, rejectIf_eq_ok, hvalue]
      exact ⟨hzero, by omega, hlast, hcheck⟩
    · intro f hf
      rcases List.mem_cons.mp hf with rfl | hf
      · show ((afterLength.take length.toNat).length : Int) ≤ maxFieldBytes
        rw [hvalue]
        omega
      · exact hbound f hf
    · rw [readUint16_eq_ok htag, readUint32_eq_ok hlength, List.flatMap_cons]
      simp only [Field.encode, hvalue, List.append_assoc, ← hraw, List.take_append_drop]

/-- What a successful `decodeFieldBody` has read. -/
theorem decodeFieldBody_eq_ok {limits : FrameLimits} {name : GoString} {rest : Bytes}
    (h : decodeFieldBody limits name raw = .ok (fields, rest)) :
    fields.length < 2 ^ 16 ∧ (fields.length : Int) ≤ limits.maxFields ∧
      checkFieldBody none fields = .ok () ∧
      (∀ f ∈ fields, (f.value.length : Int) ≤ limits.maxFieldBytes) ∧
      raw = be16 fields.length ++ fields.flatMap Field.encode ++ rest := by
  simp only [decodeFieldBody, bind_eq_ok, rejectIf_eq_ok] at h
  obtain ⟨_, -, ⟨count, afterCount⟩, hcount, _, hmany, hlist⟩ := h
  dsimp only at hmany hlist
  obtain ⟨hlength, hcheck, hbound, hraw⟩ := decodeFieldList_eq_ok hlist
  have hlt := count.toNat_lt
  refine ⟨by omega, by rw [hlength]; omega, hcheck, hbound, ?_⟩
  rw [readUint16_eq_ok hcount, hraw, hlength, List.append_assoc]

/-- The limits a frame is read under: positive, and no smaller than its size, the number of its
fields and the size of each. A limit of zero stands for the default. -/
structure FrameLimits.Within (l : FrameLimits) (raw : Bytes) (fields : List Field) : Prop where
  valid : l.withDefaults.validate = .ok ()
  total : (raw.length : Int) ≤ l.withDefaults.maxTotalBytes
  count : (fields.length : Int) ≤ l.withDefaults.maxFields
  each : ∀ f ∈ fields, (f.value.length : Int) ≤ l.withDefaults.maxFieldBytes

theorem FrameLimits.validate_eq_ok {l : FrameLimits} :
    l.validate = .ok () ↔ 0 < l.maxTotalBytes ∧ 0 < l.maxFields ∧ 0 < l.maxFieldBytes := by
  simp only [FrameLimits.validate, seq_eq_ok, rejectIf_eq_ok, not_le]

theorem FrameLimits.Within.admits {l : FrameLimits} {version : UInt16} {typeID : GoString}
    (h : l.Within raw fields) (hraw : marshalFields version typeID fields = .ok raw) :
    l.Admits typeID (fields.map Field.value) := by
  obtain ⟨-, hfields, hbytes⟩ := FrameLimits.validate_eq_ok.mp h.valid
  have htotal := h.total
  rw [length_marshalFields hraw] at htotal
  refine ⟨hfields, hbytes, ?_, ?_, ?_⟩
  · rw [List.map_map]
    exact htotal
  · rw [List.length_map]
    exact h.count
  · intro value hvalue
    obtain ⟨f, hf, rfl⟩ := List.mem_map.mp hvalue
    exact h.each f hf

/-- The writer makes the frame that was read. -/
theorem marshalFields_of_unmarshalFields {typeID : GoString} {limits : FrameLimits}
    {version : UInt16} (h : unmarshalFields raw typeID limits = .ok (version, fields)) :
    marshalFields version typeID fields = .ok raw ∧ limits.Within raw fields := by
  simp only [unmarshalFields, bind_eq_ok, rejectIf_eq_ok] at h
  obtain ⟨_, hvalid, _, hexpected, _, -, _, htotal, _, hmagic, ⟨typeLen, afterLen⟩, hlen, _, hzero,
    _, hlong, _, hutf8, _, htype, ⟨version', body⟩, hversion, ⟨fields', rest⟩, hbody, _, hrest, h⟩ :=
    h
  dsimp only at hzero hlong hutf8 htype hversion hbody hrest h
  obtain ⟨rfl, rfl⟩ := Prod.mk.inj (Except.ok.inj h)
  rw [not_not] at htype hmagic hrest
  subst hrest htype
  obtain ⟨hcount, hmany, hcheck, hbound, hraw⟩ := decodeFieldBody_eq_ok hbody
  have hlength : (afterLen.take typeLen.toNat).length = typeLen.toNat := by
    rw [List.length_take]
    omega
  have hlt := typeLen.toNat_lt
  refine ⟨?_, hvalid, by omega, hmany, hbound⟩
  have hwhole : raw = magic ++ (be16 typeLen.toNat ++ (afterLen.take typeLen.toNat ++
      (be16 version'.toNat ++ (be16 fields'.length ++ fields'.flatMap Field.encode)))) := by
    rw [List.append_nil] at hraw
    rw [← hraw, ← readUint16_eq_ok hversion, List.take_append_drop, ← readUint16_eq_ok hlen, ← hmagic,
      List.take_append_drop]
  have hshort : ¬ 2 ^ 16 ≤ typeLen.toNat := by omega
  have hfew : ¬ 2 ^ 16 ≤ fields'.length := by omega
  simp only [marshalFields, marshalFieldBody, rejectIf, hexpected, hutf8, hlength, hshort, hfew,
    hcheck, if_false, ok_bind]
  rw [hwhole]
  rfl

/-- The tags of fields that pass the writer's checks increase. -/
theorem pairwise_of_checkFieldBody {last : Option UInt16} (h : checkFieldBody last fields = .ok ()) :
    (∀ tag ∈ last, ∀ f ∈ fields, tag < f.tag) ∧ (fields.map Field.tag).Pairwise (· < ·) := by
  induction fields generalizing last with
  | nil => exact ⟨by simp, by simp⟩
  | cons field fields ih =>
    simp only [checkFieldBody, seq_eq_ok, rejectIf_eq_ok] at h
    obtain ⟨-, -, hlast, hrest⟩ := h
    obtain ⟨hafter, hpairs⟩ := ih hrest
    have hfield : ∀ f ∈ fields, field.tag < f.tag := hafter field.tag rfl
    refine ⟨?_, ?_⟩
    · intro tag htag f hf
      obtain rfl : last = some tag := htag
      have hlt : tag < field.tag := by simpa using hlast
      rcases List.mem_cons.mp hf with rfl | hf
      · exact hlt
      · exact UInt16.lt_trans hlt (hfield f hf)
    · rw [List.map_cons, List.pairwise_cons]
      refine ⟨?_, hpairs⟩
      intro tag htag
      obtain ⟨f, hf, rfl⟩ := List.mem_map.mp htag
      exact hfield f hf

theorem pairwise_of_marshalFields {version : UInt16} {typeID : GoString}
    (h : marshalFields version typeID fields = .ok raw) :
    (fields.map Field.tag).Pairwise (· < ·) := by
  simp only [marshalFields, marshalFieldBody, bind_eq_ok, rejectIf_eq_ok] at h
  obtain ⟨_, -, _, -, _, -, _, ⟨_, -, _, hcheck, -⟩, -⟩ := h
  exact (pairwise_of_checkFieldBody hcheck).2

/-! ## The bijection -/

/-- A frame is accepted exactly when it is what the writer makes of the version and the fields
that are returned, the limits are positive and it lies within them; so no two frames are read
alike. -/
theorem frame_bijection :
    (∀ (raw : Bytes) (typeID : GoString) (limits : FrameLimits) (version : UInt16)
      (fields : List Field),
      unmarshalFields raw typeID limits = .ok (version, fields) ↔
        (fields.map Field.tag).Pairwise (· < ·) ∧
          marshalFields version typeID fields = .ok raw ∧ limits.Within raw fields) ∧
    (∀ (raw raw' : Bytes) (typeID : GoString) (limits limits' : FrameLimits) (version : UInt16)
      (fields : List Field),
      unmarshalFields raw typeID limits = .ok (version, fields) →
        unmarshalFields raw' typeID limits' = .ok (version, fields) → raw = raw') := by
  constructor
  · intro raw typeID limits version fields
    constructor
    · intro h
      obtain ⟨hraw, hwithin⟩ := marshalFields_of_unmarshalFields h
      exact ⟨pairwise_of_marshalFields hraw, hraw, hwithin⟩
    · rintro ⟨-, hraw, hwithin⟩
      exact unmarshalFields_marshalFields hraw (hwithin.admits hraw)
  · intro raw raw' typeID limits limits' version fields h h'
    have hraw := (marshalFields_of_unmarshalFields h).1
    rw [(marshalFields_of_unmarshalFields h').1] at hraw
    exact (Except.ok.inj hraw).symm

/-- A frame without fields has no field for a limit to exclude, yet a negative limit on the
field size refuses it. -/
theorem frame_bijection_negative_limit :
    marshalFields 1 (lit "t") [] = .ok (magic ++ [0, 1, 0x74, 0, 1, 0, 0]) ∧
      ((magic ++ [0, 1, 0x74, 0, 1, 0, 0]).length : Int) ≤
        (FrameLimits.mk 0 0 (-1)).withDefaults.maxTotalBytes ∧
      (([] : List Field).length : Int) ≤ (FrameLimits.mk 0 0 (-1)).withDefaults.maxFields ∧
      (∀ f ∈ ([] : List Field),
        (f.value.length : Int) ≤ (FrameLimits.mk 0 0 (-1)).withDefaults.maxFieldBytes) ∧
      unmarshalFields (magic ++ [0, 1, 0x74, 0, 1, 0, 0]) (lit "t") ⟨0, 0, -1⟩ =
        .error (.new "wire MaxFieldBytes must be positive") := by
  refine ⟨by decide, by decide, by decide, by simp, by decide⟩

end Tss.Wire
