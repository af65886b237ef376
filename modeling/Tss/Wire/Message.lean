import Tss.Wire.FlatRoundTrip

/-!
# Typed message codecs (`internal/wire/message.go`, `codec*.go`)

The reflection layer of the source reads a struct's tags and picks a codec for
each field. Here the codec of a struct is put together from the codecs of its
fields, so that a payload type is declared by its tags, field by field. `L` is
the type of the limits a caller passes; a struct tag names one of them.

Every codec carries one law: whatever limits the reader has, what it reads from
a written value is that value.
-/

namespace Tss.Wire

open Fallible

variable {L α β : Type}

/-- The tag and the name of a field. -/
abbrev FieldSpec := UInt16 × String

/-- A limit that a struct tag names: `max_bytes=name` or `max_items=name`. -/
structure NamedLimit (L : Type) where
  name : String
  value : L → Int

/-- `getLimit`. -/
def NamedLimit.get (limit : NamedLimit L) (field : FieldSpec) (l : L) : Except GoError Int := do
  rejectIf (limit.value l ≤ 0) (.errorf "wire: field limit %q for field %q must be positive"
    [.text (lit limit.name), .text (lit field.2)])
  pure (limit.value l)

/-- The `max_bytes` part of `checkByteLimits`. -/
def checkMaxBytes (limit : NamedLimit L) (field : FieldSpec) (l : L) (raw : Bytes) :
    Except GoError Unit := do
  let max ← limit.get field l
  rejectIf (max < raw.length)
    (.errorf "bytes length %d exceeds max_bytes=%d" [.num raw.length, .int max])

/-- The codec of one field: how its values are written under the writer's limits and read
under the reader's. -/
structure FieldCodec (L α : Type) where
  encode : FieldSpec → L → α → Except GoError Bytes
  decode : FieldSpec → L → Bytes → Except GoError α
  decode_eq : ∀ {f f' : FieldSpec} {l l' : L} {a a' : α} {raw : Bytes},
    encode f l a = .ok raw → decode f' l' raw = .ok a' → a' = a

namespace FieldCodec

/-! ## Flat fields -/

/-- A limit that the tag may name. -/
def checkBits (maxBits : Option (NamedLimit L)) (field : FieldSpec) (l : L) (bits : Nat) :
    Except GoError Unit :=
  match maxBits with
  | none => .ok ()
  | some limit => do
    let max ← limit.get field l
    rejectIf (max < bits) (.errorf ("field " ++ field.2 ++ ": bit length %d exceeds max_bits=%d")
      [.num bits, .int max])

def checkBytes (maxBytes : Option (NamedLimit L)) (field : FieldSpec) (l : L) (raw : Bytes) :
    Except GoError Unit :=
  match maxBytes with
  | none => .ok ()
  | some limit => checkMaxBytes limit field l raw

/-- The context around the error of a field's big integer codec. -/
def bigError (what : String) (f : FieldSpec) (err : GoError) : GoError :=
  .wrap ("wire: field " ++ f.2 ++ " tag %d " ++ what ++ ": %w") [.num f.1.toNat] err

/-- `bigpos` and `bigint`, by the codec of the value. -/
def big (what : String) (encode : Int → Except GoError Bytes) (decode : Bytes → Except GoError Int)
    (h : ∀ {x : Int} {raw : Bytes}, encode x = .ok raw → decode raw = .ok x)
    (maxBits maxBytes : Option (NamedLimit L)) : FieldCodec L Int where
  encode f l x := do
    checkBits maxBits f l (bitLen x.natAbs)
    let out ← (encode x).mapError (bigError (what ++ " marshal") f)
    checkBytes maxBytes f l out
    pure out
  decode f l raw := do
    checkBytes maxBytes f l raw
    let x ← (decode raw).mapError (bigError (what ++ " unmarshal") f)
    checkBits maxBits f l (bitLen x.natAbs)
    pure x
  decode_eq := by
    intro f f' l l' a a' raw hwrite hread
    obtain ⟨-, hwrite⟩ := seq_eq_ok.mp hwrite
    obtain ⟨out, hout, hwrite⟩ := bind_eq_ok.mp hwrite
    obtain ⟨-, hwrite⟩ := seq_eq_ok.mp hwrite
    cases hwrite
    obtain ⟨-, hread⟩ := seq_eq_ok.mp hread
    obtain ⟨x, hx, hread⟩ := bind_eq_ok.mp hread
    obtain ⟨-, hread⟩ := seq_eq_ok.mp hread
    cases hread
    have hback := h (mapError_eq_ok.mp hout)
    rw [mapError_eq_ok.mp hx] at hback
    exact Except.ok.inj hback

/-- `bigpos`, on a field that is never negative. -/
def bigPos (maxBits maxBytes : Option (NamedLimit L)) : FieldCodec L Nat where
  encode f l n := (big "bigpos" encodeBigPos decodeBigPos decodeBigPos_encode maxBits
    maxBytes).encode f l n
  decode f l raw := do
    let x ← (big "bigpos" encodeBigPos decodeBigPos decodeBigPos_encode maxBits
      maxBytes).decode f l raw
    pure x.toNat
  decode_eq := by
    intro f f' l l' a a' raw hwrite hread
    obtain ⟨x, hx, hread⟩ := bind_eq_ok.mp hread
    cases hread
    have heq := (big "bigpos" encodeBigPos decodeBigPos decodeBigPos_encode maxBits
      maxBytes).decode_eq hwrite hx
    rw [heq, Int.toNat_natCast]

end FieldCodec

/-! ## Structs -/

/-- The context of a field's error. -/
def fieldError (context : String) (f : FieldSpec) (err : GoError) : GoError :=
  .wrap (context ++ " field " ++ f.2 ++ " tag %d: %w") [.num f.1.toNat] err

/-- The codec of the fields of a struct, in the order of their tags. `decode` takes its own
values off the front of what the frame holds. -/
structure StructCodec (L α : Type) where
  fields : List FieldSpec
  encode : String → L → α → Except GoError (List Bytes)
  decode : String → L → List Bytes → Except GoError (α × List Bytes)
  encode_length : ∀ {context : String} {l : L} {a : α} {values : List Bytes},
    encode context l a = .ok values → values.length = fields.length
  decode_eq : ∀ {context context' : String} {l l' : L} {a a' : α} {values rest rest' : List Bytes},
    encode context l a = .ok values → decode context' l' (values ++ rest) = .ok (a', rest') →
      a' = a ∧ rest' = rest

namespace StructCodec

/-- One field. -/
def field (tag : UInt16) (name : String) (codec : FieldCodec L α) : StructCodec L α where
  fields := [(tag, name)]
  encode context l a := do
    let value ← (codec.encode (tag, name) l a).mapError (fieldError context (tag, name))
    pure [value]
  decode context l
    | [] => .error (.new (context ++ ": missing required field"))
    | value :: rest => do
      let a ← (codec.decode (tag, name) l value).mapError (fieldError context (tag, name))
      pure (a, rest)
  encode_length := by
    intro context l a values h
    obtain ⟨value, -, h⟩ := bind_eq_ok.mp h
    cases h
    rfl
  decode_eq := by
    intro context context' l l' a a' values rest rest' hwrite hread
    obtain ⟨value, hvalue, hwrite⟩ := bind_eq_ok.mp hwrite
    cases hwrite
    obtain ⟨b, hb, hread⟩ := bind_eq_ok.mp hread
    cases hread
    exact ⟨codec.decode_eq (mapError_eq_ok.mp hvalue) (mapError_eq_ok.mp hb), rfl⟩

/-- The fields of one codec, then those of another. -/
def pair (first : StructCodec L α) (second : StructCodec L β) : StructCodec L (α × β) where
  fields := first.fields ++ second.fields
  encode context l p := do
    let values ← first.encode context l p.1
    let values' ← second.encode context l p.2
    pure (values ++ values')
  decode context l values := do
    let (a, rest) ← first.decode context l values
    let (b, rest) ← second.decode context l rest
    pure ((a, b), rest)
  encode_length := by
    intro context l p values h
    obtain ⟨values₁, h₁, h⟩ := bind_eq_ok.mp h
    obtain ⟨values₂, h₂, h⟩ := bind_eq_ok.mp h
    cases h
    rw [List.length_append, List.length_append, first.encode_length h₁, second.encode_length h₂]
  decode_eq := by
    intro context context' l l' p p' values rest rest' hwrite hread
    obtain ⟨values₁, h₁, hwrite⟩ := bind_eq_ok.mp hwrite
    obtain ⟨values₂, h₂, hwrite⟩ := bind_eq_ok.mp hwrite
    cases hwrite
    rw [List.append_assoc] at hread
    obtain ⟨⟨a, rest₁⟩, ha, hread⟩ := bind_eq_ok.mp hread
    obtain ⟨⟨b, rest₂⟩, hb, hread⟩ := bind_eq_ok.mp hread
    cases hread
    obtain ⟨rfl, rfl⟩ := first.decode_eq h₁ ha
    obtain ⟨rfl, rfl⟩ := second.decode_eq h₂ hb
    exact ⟨rfl, rfl⟩

end StructCodec

/-! ## Messages -/

/-- A message type: its names on the wire, its fields, the hook `AfterUnmarshalWire` that rebuilds
what is not written, and its own `Validate`, which `Marshal` and `Unmarshal` call. -/
structure MessageCodec (L α : Type) where
  goName : String
  wireType : String
  wireVersion : UInt16
  {Written : Type}
  body : StructCodec L Written
  written : α → Written
  afterUnmarshal : Written → α
  validate : α → Except GoError Unit
  afterUnmarshal_written : ∀ {a}, validate a = .ok () → afterUnmarshal (written a) = a

namespace MessageCodec

def schema (c : MessageCodec L α) : Schema := ⟨c.goName, c.wireType, c.wireVersion, c.body.fields⟩

def marshal (c : MessageCodec L α) (l : L) (a : α) : Except GoError Bytes := do
  (c.validate a).mapError c.schema.marshalError
  let values ← c.body.encode ("wire " ++ c.goName) l (c.written a)
  c.schema.marshal values

end MessageCodec

end Tss.Wire
