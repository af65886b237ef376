import Tss.Wire.StructTag
import Tss.Lib.Magnitude
import Tss.Lib.Sorted

/-!
# The field codecs (`internal/wire/message.go`, `codec.go`, `codec_*.go`)

`Marshal` validates a message, encodes its fields by increasing tag and
frames them; `Unmarshal` checks the frame, matches its fields with the schema
and decodes each. The value of a field is read from the field's own type and
kind, down to the types nested in it.

A value is a finite tree, so the encoder recurses on it. The decoder recurses
on the input, which every level shortens, and is given a bound on the depth.
The hooks `BeforeMarshalWire`, `AfterUnmarshalWire`, `MarshalWireMessage` and
`UnmarshalWireMessage` are not modelled.
-/

namespace Tss.Wire

open Fallible

abbrev FieldLimits := GoString → Option Int

section Limits

variable {ν : Type} (fs : FieldSchema ν) (limitSet : FieldLimits)

def FieldSchema.getLimit (name : GoString) : Except GoError Nat :=
  match limitSet name with
  | none =>
    .error (.errorf "wire: missing field limit %q for field %q" [.text name, .text (lit fs.name)])
  | some v =>
    if v ≤ 0 then
      .error (.errorf "wire: field limit %q for field %q must be positive"
        [.text name, .text (lit fs.name)])
    else .ok v.toNat

/-- The value of a limit option, zero where the field does not have it. -/
def FieldSchema.limitOf : Option GoString → Except GoError Nat
  | none => .ok 0
  | some name => fs.getLimit limitSet name

def FieldSchema.checkFixedLen (raw : Bytes) : Except GoError Unit :=
  rejectIf (fs.fixedLen.any (· ≠ raw.length))
    (.errorf "got %d bytes, want %d" [.num raw.length, .num (fs.fixedLen.getD 0)])

def FieldSchema.checkByteLimits (raw : Bytes) : Except GoError Unit := do
  fs.checkFixedLen raw
  let max ← fs.limitOf limitSet fs.maxBytes
  rejectIf (0 < max ∧ max < raw.length)
    (.errorf "bytes length %d exceeds max_bytes=%d" [.num raw.length, .num max])

def FieldSchema.checkBitsLimit (bits : Nat) : Except GoError Unit := do
  let max ← fs.limitOf limitSet fs.maxBits
  rejectIf (0 < max ∧ max < bits)
    (.errorf "field %s: bit length %d exceeds max_bits=%d"
      [.text (lit fs.name), .num bits, .num max])

/-- `checkCustomItemLimit`. -/
def FieldSchema.checkItemLimit (raw : Bytes) : Except GoError Unit :=
  match fs.maxItems with
  | none => .ok ()
  | some name => do
    let field : List ErrorArg := [.text (lit fs.name), .num fs.tag.toNat]
    let (count, _) ← (readUint32 raw).mapError
      (.wrap "wire: field %s tag %d custom item count: %w" field)
    rejectIf (maxRecordCount < count.toNat)
      (.errorf "wire: field %s tag %d custom item count %d exceeds global limit %d"
        (field ++ [.num count.toNat, .num maxRecordCount]))
    let max ← (fs.getLimit limitSet name).mapError
      (.wrap "wire: field %s tag %d custom item count max_items=%s: %w" (field ++ [.text name]))
    rejectIf (max < count.toNat)
      (.errorf "wire: field %s tag %d custom item count %d exceeds max_items=%d"
        (field ++ [.num count.toNat, .num max]))

/-- The length of a list fits its count. -/
def checkCount (what overflow : String) (n : Nat) : Except GoError Unit :=
  rejectIf (2 ^ 32 ≤ n) (.errorf (what ++ " count %d exceeds " ++ overflow) [.num n])

/-- The check of `max_items` before a list is written. -/
def FieldSchema.checkMaxItems (what : String) (n : Nat) : Except GoError Unit := do
  let max ← fs.limitOf limitSet fs.maxItems
  rejectIf (0 < max ∧ max < n)
    (.errorf (what ++ " count %d exceeds max_items=%d") [.num n, .num max])

end Limits

/-! ## Lists on the wire -/

/-- `AppendBytesChecked`, on an empty buffer. -/
def appendBytes (value : Bytes) : Except GoError Bytes := do
  rejectIf (2 ^ 32 ≤ value.length)
    (.errorf "byte field length %d exceeds uint32" [.num value.length])
  pure (be32 value.length ++ value)

/-- `ReadBytesWithLimit`, with zero for no limit. -/
def readBytes (maxItemBytes : Nat) (raw : Bytes) : Except GoError (Bytes × Bytes) := do
  let (length, raw) ← readUint32 raw
  rejectIf (0 < maxItemBytes ∧ maxItemBytes < length.toNat)
    (.errorf "byte field too large: %d > %d" [.num length.toNat, .num maxItemBytes])
  rejectIf (raw.length < length.toNat) (.new "truncated byte field")
  pure (raw.take length.toNat, raw.drop length.toNat)

/-- `validateRecordCountWithLimit`, on the input after the count. -/
def validateRecordCount (raw : Bytes) (count minRecordLen maxItems : Nat) (name : String) :
    Except GoError Unit := do
  rejectIf (0 < maxItems ∧ maxItems < count)
    (.errorf (name ++ " count too large: %d > %d") [.num count, .num maxItems])
  rejectIf (maxRecordCount < count)
    (.errorf (name ++ " count too large: %d > %d") [.num count, .num maxRecordCount])
  rejectIf (raw.length < count * minRecordLen) (.new ("invalid " ++ name ++ " length"))

section Loops

variable {α : Type}

/-- The loop of an encoder over the items from index `i` on. -/
def encodeItems (encode : Nat → α → Result Bytes) : Nat → List α → Result Bytes
  | _, [] => .ok []
  | i, item :: items => do
    let out ← encode i item
    let rest ← encodeItems encode (i + 1) items
    pure (out ++ rest)

/-- The loop of a decoder over the count of items that are left, from index `i` on. -/
def decodeItems (decode : Nat → Bytes → Result (α × Bytes)) :
    Nat → Nat → Bytes → Result (List α × Bytes)
  | _, 0, raw => .ok ([], raw)
  | i, count + 1, raw => do
    let (item, raw) ← decode i raw
    let (items, raw) ← decodeItems decode (i + 1) count raw
    pure (item :: items, raw)

end Loops

/-! ## Integers -/

def encodeBigIntSigned (x : Int) : Bytes :=
  if x = 0 then [0x00]
  else if x < 0 then 0x01 :: natBytes x.natAbs
  else 0x00 :: natBytes x.natAbs

def decodeBigIntSigned : Bytes → Except GoError Int
  | [] => .error (.new "signed integer: empty encoding")
  | sign :: mag => do
    rejectIf (sign ≠ 0x00 ∧ sign ≠ 0x01)
      (.errorf "signed integer: invalid sign byte 0x%02x" [.num sign.toNat])
    match mag with
    | [] => do
      rejectIf (sign ≠ 0x00) (.new "signed integer: negative zero is invalid")
      pure 0
    | b :: _ => do
      rejectIf (b = 0) (.new "signed integer: non-minimal magnitude (leading zero)")
      pure (if sign = 0x01 then -(beNat mag : Int) else (beNat mag : Int))

def encodeBigUint (x : Int) : Except GoError Bytes := do
  rejectIf (x < 0) (.new "unsigned integer: negative value")
  pure (natBytes x.natAbs)

def decodeBigUint : Bytes → Except GoError Int
  | [] => .ok 0
  | b :: raw => do
    rejectIf (b = 0) (.new "unsigned integer: non-minimal encoding")
    pure (beNat (b :: raw))

def encodeBigPos (x : Int) : Except GoError Bytes := do
  rejectIf (x ≤ 0) (.new "positive integer: must be > 0")
  pure (natBytes x.natAbs)

def decodeBigPos : Bytes → Except GoError Int
  | [] => .error (.new "positive integer: empty encoding")
  | b :: raw => do
    rejectIf (b = 0) (.new "positive integer: non-minimal encoding")
    rejectIf (beNat (b :: raw) = 0) (.new "positive integer: value must be positive")
    pure (beNat (b :: raw))

section Fields

variable {ν γ : Type} (env : Env ν γ) (limitSet : FieldLimits)

/-- The context around the error of a field's big integer codec. -/
def FieldSchema.bigError (fs : FieldSchema ν) (what : String) (err : GoError) : GoError :=
  .wrap ("wire: field %s tag %d " ++ what ++ ": %w") [.text (lit fs.name), .num fs.tag.toNat] err

/-- `encodeBigIntDispatch`, `encodeBigUintDispatch` and `encodeBigPosDispatch`, for a value that
is not `nil`. -/
def FieldSchema.encodeBig (fs : FieldSchema ν) (what : String)
    (encode : Int → Except GoError Bytes) (x : Int) : Except GoError Bytes := do
  fs.checkBitsLimit limitSet (bitLen x.natAbs)
  let out ← (encode x).mapError (fs.bigError (what ++ " marshal"))
  fs.checkByteLimits limitSet out
  pure out

/-- A pointer that is `nil` is refused, by `bigpos` only in its encoder. -/
def FieldSchema.encodeNilBig (fs : FieldSchema ν) : Except GoError Bytes :=
  match fs.kind with
  | .bigPos => do
    fs.checkBitsLimit limitSet 0
    .error (fs.bigError "bigpos marshal" (.new "positive integer: nil value"))
  | kind => .error (.errorf ("wire: required " ++ kindName kind ++ " field %s tag %d is nil")
      [.text (lit fs.name), .num fs.tag.toNat])

/-- The big integer of a field. -/
def FieldSchema.encodeBigDispatch (fs : FieldSchema ν) (encode : Int → Except GoError Bytes)
    (v : Value γ) : Result Bytes :=
  match fs.typ, v with
  | .bigInt, .bigInt x => call (fs.encodeBig limitSet (kindName fs.kind) encode x)
  | .pointer .bigInt, .pointer (.bigInt x) => call (fs.encodeBig limitSet (kindName fs.kind) encode x)
  | .pointer .bigInt, .nilPointer => call (fs.encodeNilBig limitSet)
  | _, _ => .error .mismatch

/-- `decodeBigIntDispatch`, `decodeBigUintDispatch` and `decodeBigPosDispatch`. -/
def FieldSchema.decodeBigDispatch (fs : FieldSchema ν) (decode : Bytes → Except GoError Int)
    (raw : Bytes) : Result (Value γ) := do
  call (fs.checkByteLimits limitSet raw)
  let x ← call ((decode raw).mapError (fs.bigError (kindName fs.kind ++ " unmarshal")))
  call (fs.checkBitsLimit limitSet (bitLen x.natAbs))
  -- `setBigIntValue`
  match fs.typ with
  | .bigInt => pure (.bigInt x)
  | .pointer .bigInt => pure (.pointer (.bigInt x))
  | _ => .error (.panic "Set")

/-! ## Simple kinds -/

/-- The case `kindU8` of `encode`. -/
def Env.encodeU8 (t : GoType ν) (v : Value γ) : Result Bytes :=
  match env.underlying t, v with
  | .uint8, .uint8 n => .ok [n]
  | .uint8, _ => .error .mismatch
  | _, _ => .error (.panic "Uint")

/-- The case `kindU16` of `encode`. -/
def Env.encodeU16 (t : GoType ν) (v : Value γ) : Result Bytes :=
  match env.underlying t, v with
  | .uint16, .uint16 n => .ok (be16 n.toNat)
  | .uint16, _ => .error .mismatch
  | _, _ => .error (.panic "Uint")

/-- The case `kindBool` of `encode`. -/
def Env.encodeBool (t : GoType ν) (v : Value γ) : Result Bytes :=
  match env.underlying t, v with
  | .bool, .bool b => .ok [if b then 1 else 0]
  | .bool, _ => .error .mismatch
  | _, _ => .error (.panic "Bool")

/-- The case `kindU32` of `encode`. -/
def Env.encodeU32 (t : GoType ν) (v : Value γ) : Result Bytes :=
  match env.underlying t, v with
  | .uint32, .uint32 n => .ok (be32 n.toNat)
  | .int, .int n => do
    let v := n.toUInt64.toNat
    call (rejectIf (2 ^ 32 ≤ v) (.errorf "uint32 value %d exceeds max" [.num v]))
    pure (be32 v)
  | .uint32, _ => .error .mismatch
  | .int, _ => .error .mismatch
  | _, _ => .error (.panic "Uint")

/-- `setUintValue` and the setters of a `u32list` item. -/
def Env.setUint (t : GoType ν) (n : UInt32) : Result (Value γ) :=
  match env.underlying t with
  | .uint32 => .ok (.uint32 n)
  | .int => .ok (.int (Int64.ofNat n.toNat))
  | _ => .error (.panic "SetUint")

def Env.encodeBytes (t : GoType ν) (v : Value γ) : Result Bytes :=
  match env.underlying t, v with
  | .array _ _, .array b => .ok b
  | .array _ _, _ => .error .mismatch
  | .slice e, .bytes b => if env.isByte e then .ok (b.getD []) else .error (.panic "Bytes")
  | _, _ => .error (.panic "Bytes")

def Env.setBytesValue (t : GoType ν) (out : Bytes) : Result (Value γ) :=
  match env.underlying t with
  | .array n _ => do
    call (rejectIf (out.length ≠ n)
      (.errorf "array bytes length %d, want %d" [.num out.length, .num n]))
    pure (.array out)
  | .slice e => if env.isByte e then .ok (.bytes (some out)) else .error (.panic "SetBytes")
  | _ => .error (.panic "SetBytes")

/-- `reflect.Value.String`, which describes the type of a value that is not a string. -/
def Env.stringOf (t : GoType ν) (v : Value γ) : Result GoString :=
  match env.underlying t, v with
  | .string, .string s => .ok s
  | .string, _ => .error .mismatch
  | _, _ => .ok (lit ("<" ++ env.typeString t ++ " Value>"))

/-- The case `kindString` of `encode`. -/
def Env.encodeString (fs : FieldSchema ν) (v : Value γ) : Result Bytes := do
  let s ← env.stringOf fs.typ v
  call (rejectIf ((utf8Runes s).isNone) (.new "string is not valid UTF-8"))
  call (fs.checkByteLimits limitSet s)
  pure s

def Env.decodeString (fs : FieldSchema ν) (raw : Bytes) : Result (Value γ) := do
  call (fs.checkByteLimits limitSet raw)
  call (rejectIf ((utf8Runes raw).isNone) (.new "string is not valid UTF-8"))
  match env.underlying fs.typ with
  | .string => pure (.string raw)
  | _ => .error (.panic "SetString")

/-! ## Slices -/

/-- The element type and the items of a slice. -/
def Env.sliceItems (t : GoType ν) (v : Value γ) : Result (GoType ν × List (Value γ)) :=
  match env.underlying t, v with
  | .slice e, .nilSlice => .ok (e, [])
  | .slice e, .slice items => .ok (e, items)
  | .slice _, _ => .error .mismatch
  | _, _ => .error (.panic "Len")

/-- The element type of the slice that `reflect.MakeSlice` makes. -/
def Env.makeSlice (t : GoType ν) : Result (GoType ν) :=
  match env.underlying t with
  | .slice e => .ok e
  | _ => .error (.panic "MakeSlice")

/-- An item of `encodeU32List`. -/
def Env.encodeU32Item (elem : GoType ν) (i : Nat) (v : Value γ) : Result Bytes :=
  match env.underlying elem, v with
  | .int, .int n => do
    call (rejectIf (n.toInt < 0 ∨ 2 ^ 32 ≤ n.toInt)
      (.errorf "u32list item %d value %d out of uint32 range" [.num i, .int n.toInt]))
    pure (be32 n.toInt.toNat)
  | .uint32, .uint32 n => .ok (be32 n.toNat)
  | .int, _ => .error .mismatch
  | .uint32, _ => .error .mismatch
  | _, _ => .error (.panic "Uint")

def Env.encodeU32List (fs : FieldSchema ν) (v : Value γ) : Result Bytes := do
  let (elem, items) ← env.sliceItems fs.typ v
  call (checkCount "u32list" "max" items.length)
  call (fs.checkMaxItems limitSet "u32list" items.length)
  let out ← encodeItems (env.encodeU32Item elem) 0 items
  pure (be32 items.length ++ out)

def Env.decodeU32List (fs : FieldSchema ν) (raw : Bytes) : Result (Value γ) := do
  let maxItems ← call (fs.limitOf limitSet fs.maxItems)
  let (count, raw) ← call (readUint32 raw)
  call (rejectIf (maxRecordCount < count.toNat)
    (.errorf "u32list count too large: %d" [.num count.toNat]))
  call (rejectIf (0 < maxItems ∧ maxItems < count.toNat)
    (.errorf "u32list count %d exceeds max_items=%d" [.num count.toNat, .num maxItems]))
  call (rejectIf (raw.length ≠ count.toNat * 4) (.new "invalid u32list length"))
  let elem ← env.makeSlice fs.typ
  let (items, _) ← decodeItems
    (fun _ raw => do
      let (n, raw) ← call (readUint32 raw)
      let item ← env.setUint elem n
      pure (item, raw))
    0 count.toNat raw
  pure (.slice items)

/-- A `[]byte` inside a list. -/
def byteSlice : Value γ → Result Bytes
  | .bytes b => .ok (b.getD [])
  | _ => .error .mismatch

/-- A byte slice written after its length, within `max_bytes`. -/
def encodeLimitedBytes (max : Nat) (tooLong : Nat → GoError) (wrap : GoError → GoError)
    (b : Bytes) : Result Bytes := do
  call (rejectIf (0 < max ∧ max < b.length) (tooLong b.length))
  call ((appendBytes b).mapError wrap)

/-- An item of `encodeBytesList`. -/
def Env.encodeBytesItem (elem : GoType ν) (max i : Nat) (v : Value γ) : Result Bytes := do
  if env.isByteSlice elem then do
    let b ← byteSlice v
    encodeLimitedBytes max
      (fun n => .errorf "byteslist item %d length %d exceeds max_bytes=%d"
        [.num i, .num n, .num max])
      (.wrap "byteslist item %d: %w" [.num i]) b
  else .error (.panic "Bytes")

/-- An item of `encodePartyBytes`. -/
def encodePartyBytesItem (max i : Nat) : Value γ → Result Bytes
  | .struct [.uint32 party, bytes] => do
    let b ← byteSlice bytes
    let out ← encodeLimitedBytes max
      (fun n => .errorf "partybytes item %d bytes length %d exceeds max_bytes=%d"
        [.num i, .num n, .num max])
      (.wrap "partybytes item %d: %w" [.num i]) b
    pure (be32 party.toNat ++ out)
  | _ => .error .mismatch

/-- An item of `encodePartyBytePairs`, which checks both lengths before it writes. -/
def encodePartyBytePairsItem (max i : Nat) : Value γ → Result Bytes
  | .struct [.uint32 party, first, second] => do
    let first ← byteSlice first
    let second ← byteSlice second
    call (rejectIf (0 < max ∧ max < first.length)
      (.errorf "partybytepairs item %d First length %d exceeds max_bytes=%d"
        [.num i, .num first.length, .num max]))
    call (rejectIf (0 < max ∧ max < second.length)
      (.errorf "partybytepairs item %d Second length %d exceeds max_bytes=%d"
        [.num i, .num second.length, .num max]))
    let out ← call ((appendBytes first).mapError (.wrap "partybytepairs item %d First: %w" [.num i]))
    let out' ← call ((appendBytes second).mapError
      (.wrap "partybytepairs item %d Second: %w" [.num i]))
    pure (be32 party.toNat ++ (out ++ out'))
  | _ => .error .mismatch

/-- `encodeBytesList`, `encodePartyBytes` and `encodePartyBytePairs`. -/
def Env.encodeByteItems (fs : FieldSchema ν)
    (item : GoType ν → Nat → Nat → Value γ → Result Bytes) (v : Value γ) : Result Bytes := do
  let (elem, items) ← env.sliceItems fs.typ v
  call (checkCount (kindName fs.kind) "max" items.length)
  let maxBytes ← call (fs.limitOf limitSet fs.maxBytes)
  call (fs.checkMaxItems limitSet (kindName fs.kind) items.length)
  let out ← encodeItems (item elem maxBytes) 0 items
  pure (be32 items.length ++ out)

/-- An item of `decodeBytesList`. -/
def Env.decodeBytesItem (elem : GoType ν) (max : Nat) (raw : Bytes) :
    Result (Value γ × Bytes) := do
  let (b, raw) ← call (readBytes max raw)
  if env.isByteSlice elem then pure (.bytes (some b), raw) else .error (.panic "SetBytes")

/-- An item of `decodePartyBytes`. -/
def decodePartyBytesItem (max : Nat) (raw : Bytes) : Result (Value γ × Bytes) := do
  let (party, raw) ← call (readUint32 raw)
  let (b, raw) ← call (readBytes max raw)
  pure (.struct [.uint32 party, .bytes (some b)], raw)

/-- An item of `decodePartyBytePairs`. -/
def decodePartyBytePairsItem (max : Nat) (raw : Bytes) : Result (Value γ × Bytes) := do
  let (party, raw) ← call (readUint32 raw)
  let (first, raw) ← call (readBytes max raw)
  let (second, raw) ← call (readBytes max raw)
  pure (.struct [.uint32 party, .bytes (some first), .bytes (some second)], raw)

/-- `decodeBytesList`, `decodePartyBytes`, `decodePartyBytePairs` and `decodeCustomList`. -/
def Env.decodeByteItems (fs : FieldSchema ν) (minRecordLen : Nat)
    (item : GoType ν → Nat → Nat → Bytes → Result (Value γ × Bytes)) (raw : Bytes) :
    Result (Value γ) := do
  let maxItems ← call (fs.limitOf limitSet fs.maxItems)
  let maxItemBytes ← call (fs.limitOf limitSet fs.maxBytes)
  let (count, raw) ← call (readUint32 raw)
  call (validateRecordCount raw count.toNat minRecordLen maxItems (kindName fs.kind))
  let elem ← env.makeSlice fs.typ
  let (items, rest) ← decodeItems (item elem maxItemBytes) 0 count.toNat raw
  call (rejectIf (rest ≠ []) (.new ("trailing " ++ kindName fs.kind ++ " data")))
  pure (.slice items)

/-! ## Custom values -/

/-- The value inside a field of a custom type, or of a pointer to one. -/
def customValue (t : GoType ν) (v : Value γ) : Result (Option (ν × γ)) :=
  match t, v with
  | .named n, .custom c => .ok (some (n, c))
  | .pointer (.named n), .pointer (.custom c) => .ok (some (n, c))
  | .named _, _ => .error .mismatch
  | .pointer (.named _), _ => .error .mismatch
  | _, _ => .ok none

/-- `valueMarshaler`: a method of `*T` is found on a pointer and on a value that is addressable. -/
def Env.valueMarshaler (t : GoType ν) (canAddr : Bool) :
    Option (γ → Except GoError (Option Bytes)) :=
  match t with
  | .named n => ((env n).marshaler.filter fun m => canAddr || !m.pointerReceiver).map (·.marshal)
  | .pointer (.named n) => (env n).marshaler.map (·.marshal)
  | _ => none

/-- `MarshalWireValue` of a field or an item: `missing` where there is no such method, `failed`
around its error, `empty` where it returns `nil`. -/
def Env.marshalWireValue (t : GoType ν) (canAddr : Bool) (missing empty : GoError)
    (failed : GoError → GoError) (v : Value γ) : Result Bytes := do
  let value ← customValue t v
  match value, env.valueMarshaler t canAddr with
  | some (_, c), some marshal => do
    let out ← call ((marshal c).mapError failed)
    match out with
    | none => fail empty
    | some out => pure out
  | _, _ => fail missing

def Env.encodeCustom (fs : FieldSchema ν) (canAddr : Bool) (v : Value γ) : Result Bytes :=
  match fs.typ, v with
  | .pointer _, .nilPointer => fail (.errorf "wire: nil custom field %s" [.text (lit fs.name)])
  | t, v => do
    let out ← env.marshalWireValue t canAddr
      (.errorf "wire: field %s does not implement MarshalWireValue" [.text (lit fs.name)])
      (.errorf "wire: custom field %s returned nil" [.text (lit fs.name)])
      (.wrap "wire: field %s tag %d custom marshal: %w"
        [.text (lit fs.name), .num fs.tag.toNat]) v
    call (fs.checkByteLimits limitSet out)
    call (fs.checkItemLimit limitSet out)
    pure out

def unmarshalCompleteCustomValue (unmarshal : Bytes → Except GoError (γ × Int)) (raw : Bytes) :
    Except GoError γ := do
  let (c, consumed) ← unmarshal raw
  rejectIf (consumed < 0 ∨ raw.length < consumed)
    (.errorf "invalid consumed byte count %d for %d-byte custom value"
      [.int consumed, .num raw.length])
  rejectIf (consumed ≠ raw.length)
    (.errorf "trailing custom value data: consumed %d of %d bytes" [.int consumed, .num raw.length])
  pure c

/-- `UnmarshalWireValue` into a new value of the type, or a new pointer to one. -/
def Env.unmarshalWireValue (t : GoType ν) (missing : GoError) (failed : GoError → GoError)
    (raw : Bytes) : Result (Value γ) :=
  match t with
  | .named n =>
    match (env n).unmarshaler with
    | some unmarshal => do
      let c ← call ((unmarshalCompleteCustomValue unmarshal raw).mapError failed)
      pure (.custom c)
    | none => fail missing
  | .pointer (.named n) =>
    match (env n).unmarshaler with
    | some unmarshal => do
      let c ← call ((unmarshalCompleteCustomValue unmarshal raw).mapError failed)
      pure (.pointer (.custom c))
    | none => fail missing
  | _ => fail missing

def Env.decodeCustom (fs : FieldSchema ν) (raw : Bytes) : Result (Value γ) := do
  call (fs.checkByteLimits limitSet raw)
  call (fs.checkItemLimit limitSet raw)
  env.unmarshalWireValue fs.typ
    (.errorf "wire: field %s does not implement UnmarshalWireValue" [.text (lit fs.name)])
    (.wrap "wire: field %s tag %d custom unmarshal: %w" [.text (lit fs.name), .num fs.tag.toNat])
    raw

/-- An item of `encodeCustomList`. The items of a slice are addressable. -/
def Env.encodeCustomItem (fs : FieldSchema ν) (elem : GoType ν) (i : Nat) (v : Value γ) :
    Result Bytes :=
  match elem, v with
  | .pointer _, .nilPointer => fail (.errorf "customlist item %d is nil" [.num i])
  | elem, v => do
    let item ← env.marshalWireValue elem true
      (.errorf "customlist item %d does not implement MarshalWireValue" [.num i])
      (.errorf "customlist item %d returned nil" [.num i])
      (.wrap "customlist item %d marshal: %w" [.num i]) v
    call ((fs.checkByteLimits limitSet item).mapError (.wrap "customlist item %d: %w" [.num i]))
    call ((appendBytes item).mapError (.wrap "customlist item %d: %w" [.num i]))

def Env.encodeCustomList (fs : FieldSchema ν) (v : Value γ) : Result Bytes := do
  let (elem, items) ← env.sliceItems fs.typ v
  call (checkCount "customlist" "max" items.length)
  call (fs.checkMaxItems limitSet "customlist" items.length)
  let out ← encodeItems (env.encodeCustomItem limitSet fs elem) 0 items
  pure (be32 items.length ++ out)

/-- An item of `decodeCustomList`. -/
def Env.decodeCustomItem (fs : FieldSchema ν) (elem : GoType ν) (max i : Nat) (raw : Bytes) :
    Result (Value γ × Bytes) := do
  let (item, raw) ← call ((readBytes max raw).mapError (.wrap "customlist item %d: %w" [.num i]))
  call ((fs.checkFixedLen item).mapError (.wrap "customlist item %d: %w" [.num i]))
  let v ← env.unmarshalWireValue elem
    (.errorf "customlist item %d does not implement UnmarshalWireValue" [.num i])
    (.wrap "customlist item %d unmarshal: %w" [.num i]) item
  pure (v, raw)

/-! ## Fields without fields of their own -/

/-- `encode`, for the kinds that hold no struct and no map. -/
def Env.encodeFlat (fs : FieldSchema ν) (canAddr : Bool) (v : Value γ) : Result Bytes :=
  match fs.kind with
  | .u8 => env.encodeU8 fs.typ v
  | .u16 => env.encodeU16 fs.typ v
  | .u32 => env.encodeU32 fs.typ v
  | .bool => env.encodeBool fs.typ v
  | .bytes => do
    let raw ← env.encodeBytes fs.typ v
    call (fs.checkByteLimits limitSet raw)
    call (fs.checkBitsLimit limitSet (raw.length * 8))
    pure raw
  | .string => env.encodeString limitSet fs v
  | .u32List => env.encodeU32List limitSet fs v
  | .bytesList => env.encodeByteItems limitSet fs env.encodeBytesItem v
  | .partyBytes => env.encodeByteItems limitSet fs (fun _ => encodePartyBytesItem) v
  | .partyBytePairs => env.encodeByteItems limitSet fs (fun _ => encodePartyBytePairsItem) v
  | .custom => env.encodeCustom limitSet fs canAddr v
  | .customList => env.encodeCustomList limitSet fs v
  | .bigInt => fs.encodeBigDispatch limitSet (fun x => .ok (encodeBigIntSigned x)) v
  | .bigUint => fs.encodeBigDispatch limitSet encodeBigUint v
  | .bigPos => fs.encodeBigDispatch limitSet encodeBigPos v
  | .nested | .record | .recordList | .map => .error .mismatch

/-- `decode`, for the kinds that hold no struct and no map. -/
def Env.decodeFlat (fs : FieldSchema ν) (raw : Bytes) : Result (Value γ) :=
  match fs.kind with
  | .u8 =>
    match raw, env.underlying fs.typ with
    | [b], .uint8 => .ok (.uint8 b)
    | [_], _ => .error (.panic "SetUint")
    | raw, _ => fail (.errorf "u8: got %d bytes, want 1" [.num raw.length])
  | .u16 => do
    call (rejectIf (raw.length ≠ 2) (.new "uint16 must be 2 bytes"))
    match env.underlying fs.typ with
    | .uint16 => pure (.uint16 (UInt16.ofNat (beNat raw)))
    | _ => .error (.panic "SetUint")
  | .u32 => do
    let n ← call (decodeUint32 raw)
    env.setUint fs.typ n
  | .bool => do
    call (rejectIf (raw.length ≠ 1) (.new "bool must be 1 byte"))
    call (rejectIf (raw ≠ [0] ∧ raw ≠ [1]) (.new "bool must be 0 or 1"))
    match env.underlying fs.typ with
    | .bool => pure (.bool (raw = [1]))
    | _ => .error (.panic "SetBool")
  | .bytes => do
    call (fs.checkByteLimits limitSet raw)
    call (fs.checkBitsLimit limitSet (raw.length * 8))
    env.setBytesValue fs.typ raw
  | .string => env.decodeString limitSet fs raw
  | .u32List => env.decodeU32List limitSet fs raw
  | .bytesList => env.decodeByteItems limitSet fs 4 (fun elem max _ => env.decodeBytesItem elem max) raw
  | .partyBytes =>
    env.decodeByteItems limitSet fs 8 (fun _ max _ => decodePartyBytesItem max) raw
  | .partyBytePairs =>
    env.decodeByteItems limitSet fs 12 (fun _ max _ => decodePartyBytePairsItem max) raw
  | .custom => env.decodeCustom limitSet fs raw
  | .customList => env.decodeByteItems limitSet fs 4 (env.decodeCustomItem fs) raw
  | .bigInt => fs.decodeBigDispatch limitSet decodeBigIntSigned raw
  | .bigUint => fs.decodeBigDispatch limitSet decodeBigUint raw
  | .bigPos => fs.decodeBigDispatch limitSet decodeBigPos raw
  | .nested | .record | .recordList | .map => .error .mismatch

/-! ## Structs -/

def FieldSchema.shouldOmit (fs : FieldSchema ν) : Value γ → Bool
  | .nilPointer => fs.optional
  | _ => false

/-- The struct a record type is, if it is one with fields. -/
inductive RecordType (ν : Type) where
  | struct (n : ν)
  /-- `big.Int`. -/
  | untagged
  | notStruct

/-- What `getSchema` is called with for a record of the type. -/
def Env.recordType (t : GoType ν) : RecordType ν :=
  match env.underlying t with
  | .named n => .struct n
  | .bigInt => .untagged
  | _ => .notStruct

/-- The schema of a record type. -/
def Env.recordSchema (t : GoType ν) : Except GoError (ν × List (FieldSchema ν)) :=
  match env.recordType t with
  | .struct n => do
    let fields ← (env.getSchema n).mapError (.wrap "record %s: %w" [.text (lit (env n).goName)])
    pure (n, fields)
  | .untagged => .error (.wrap "record %s: %w" [.text (lit "Int")]
      (.errorf "no wire-tagged fields in %s" [.text (lit "Int")]))
  | .notStruct => .error (.errorf "record must be struct, got %s" [env.kindArg t])

/-- The context around the error of a field. -/
def FieldSchema.errorIn (fs : FieldSchema ν) (what goName : String) (fault : Fault) : Fault :=
  fault.wrap (.wrap (what ++ " %s field %s tag %d: %w")
    [.text (lit goName), .text (lit fs.name), .num fs.tag.toNat])

/-- `marshalRecordValue`, of the fields of a struct; `encode` is its loop over the schema. -/
def Env.marshalRecord (t : GoType ν) (fields : List (Value γ))
    (encode : String → List (FieldSchema ν) → Result (List Field)) : Result Bytes := do
  match env.recordType t with
  | .struct n =>
    call (((env n).validate fields).mapError (.wrap "record Validate: %w" []))
  | _ => pure ()
  let (n, schema) ← call (env.recordSchema t)
  let encoded ← encode (env n).goName schema
  call (marshalFieldBody encoded)

/-- `Marshal`, of the fields of a struct. -/
def Env.marshalMessage (n : ν) (fields : List (Value γ))
    (encode : String → List (FieldSchema ν) → Result (List Field)) : Result Bytes :=
  match (env n).underlying, (env n).message with
  | .literal _ _, _ => fail (.errorf "wire.Marshal: expected struct, got %s" [env.kindArg (.named n)])
  | .struct _, none =>
    fail (.errorf "wire.Marshal: %s does not implement Message" [env.typeArg (.named n)])
  | .struct _, some message => do
    let context : GoError → GoError := .wrap "wire.Marshal %s: %w" [.text (lit (env n).goName)]
    call (((env n).validate fields).mapError context)
    let schema ← call ((env.getSchema n).mapError context)
    let encoded ← encode (env n).goName schema
    call (marshalFields message.wireVersion message.wireType encoded)

/-- The schema that encodes and decodes a map value. -/
def FieldSchema.mapValue (fs : FieldSchema ν) : FieldSchema ν where
  tag := fs.tag
  name := fs.name ++ " value"
  kind := fs.mapValueKind
  typ := fs.mapValueType
  fixedLen := fs.fixedLen
  maxBytes := fs.maxBytes
  maxBits := fs.maxBits

/-- `sort.Slice` of the entries by key. -/
def sortEntries (entries : List (Bytes × Bytes)) : List (Bytes × Bytes) :=
  entries.insertionSort (fun a b => a.1 ≤ b.1)

/-- The output loop of `encodeMap`, over the entries that follow the key `prev`. -/
def encodeSortedEntries : Option Bytes → Nat → List (Bytes × Bytes) → Except GoError Bytes
  | _, _, [] => .ok []
  | prev, i, (key, value) :: entries => do
    rejectIf (prev.any (key ≤ ·)) (.new "map entries contain duplicate canonical key")
    let k ← (appendBytes key).mapError (.wrap "map key %d: %w" [.num i])
    let v ← (appendBytes value).mapError (.wrap "map value %d: %w" [.num i])
    let rest ← encodeSortedEntries (some key) (i + 1) entries
    pure (k ++ (v ++ rest))

/-- `encodeMap`, of a map that is not `nil`; `encoded` is the result of its loop over the keys. -/
def FieldSchema.encodeMap (fs : FieldSchema ν) (count : Nat)
    (encoded : Result (List (Bytes × Bytes))) : Result Bytes := do
  call (checkCount "map" "uint32" count)
  call (fs.checkMaxItems limitSet "map" count)
  let entries ← encoded
  let out ← call (encodeSortedEntries none 0 (sortEntries entries))
  pure (be32 entries.length ++ out)

/-- `encodeRecordList`; `encoded` is the result of its loop over the items. -/
def FieldSchema.encodeRecordList (fs : FieldSchema ν) (count : Nat) (encoded : Result Bytes) :
    Result Bytes := do
  call (checkCount "recordlist" "uint32" count)
  call (fs.checkMaxItems limitSet "recordlist" count)
  let out ← encoded
  pure (be32 count ++ out)

/-- An item of `encodeRecordList`, once its record is encoded. -/
def encodeRecordItem (i : Nat) (encoded : Result Bytes) : Result Bytes := do
  let rec' ← encoded.mapError (Fault.wrap (.wrap "recordlist item %d: %w" [.num i]))
  call (rejectIf (2 ^ 32 ≤ rec'.length)
    (.errorf "recordlist item %d length %d exceeds uint32" [.num i, .num rec'.length]))
  pure (be32 rec'.length ++ rec')

end Fields

/-! ## `Marshal` -/

section Marshal

variable {ν γ : Type} (env : Env ν γ) (limitSet : FieldLimits) (mapAddr : Bool)

/-- `encode` of a value that holds no struct, no slice and no map. -/
def Env.encodeLeaf (fs : FieldSchema ν) (canAddr : Bool) (v : Value γ) : Result Bytes :=
  match fs.kind, fs.typ with
  | .record, .pointer t =>
    match v with
    | .nilPointer => fail (.new "nil record pointer")
    | _ => do
      let _ ← call (env.recordSchema t)
      .error .mismatch
  | .record, t => do
    let _ ← call (env.recordSchema t)
    .error .mismatch
  | .nested, .pointer _ =>
    match v with
    | .nilPointer => fail (.new "nested pointer is nil")
    | _ => .error .mismatch
  | .recordList, t =>
    match env.underlying t, v with
    | .slice _, .nilSlice => fs.encodeRecordList limitSet 0 (.ok [])
    | .slice _, _ => .error .mismatch
    | _, _ => .error (.panic "Len")
  | .map, _ => match v with | .nilMap => .ok (be32 0) | _ => .error .mismatch
  | _, _ => env.encodeFlat limitSet fs canAddr v

mutual

/-- `encode`. A map value is encoded from what `MapIndex` returns, which is addressable if
`mapAddr`. -/
def Env.encode (fs : FieldSchema ν) (canAddr : Bool) : Value γ → Result Bytes
  | .struct fields =>
    match fs.kind, fs.typ with
    | .record, t =>
      env.marshalRecord t fields fun goName schema =>
        Env.encodeFields "record" goName schema fields
    | .nested, .named n => do
      let raw ← env.marshalMessage n fields fun goName schema =>
        Env.encodeFields "wire" goName schema fields
      call (fs.checkByteLimits limitSet raw)
      pure raw
    | _, _ => env.encodeLeaf limitSet fs canAddr (.struct fields)
  | .pointer (.struct fields) =>
    match fs.kind, fs.typ with
    | .record, .pointer t =>
      env.marshalRecord t fields fun goName schema =>
        Env.encodeFields "record" goName schema fields
    | .nested, .pointer (.named n) => do
      let raw ← env.marshalMessage n fields fun goName schema =>
        Env.encodeFields "wire" goName schema fields
      call (fs.checkByteLimits limitSet raw)
      pure raw
    | _, _ => env.encodeLeaf limitSet fs canAddr (.pointer (.struct fields))
  | .slice items =>
    match fs.kind, env.underlying fs.typ with
    | .recordList, .slice elem =>
      fs.encodeRecordList limitSet items.length (Env.encodeRecords elem 0 items)
    | _, _ => env.encodeLeaf limitSet fs canAddr (.slice items)
  | .map entries =>
    match fs.kind with
    | .map => fs.encodeMap limitSet entries.length (Env.encodeEntries fs.mapValue entries)
    | _ => env.encodeLeaf limitSet fs canAddr (.map entries)
  | v => env.encodeLeaf limitSet fs canAddr v

/-- The loop of `Marshal` and `marshalRecordValue` over the fields of the schema. -/
def Env.encodeFields (what goName : String) :
    List (FieldSchema ν) → List (Value γ) → Result (List Field)
  | [], [] => .ok []
  | fs :: schema, v :: fields =>
    if fs.shouldOmit v then Env.encodeFields what goName schema fields
    else do
      let value ← (Env.encode fs true v).mapError (fs.errorIn what goName)
      let rest ← Env.encodeFields what goName schema fields
      pure (⟨fs.tag, value⟩ :: rest)
  | _, _ => .error .mismatch

/-- The loop of `encodeRecordList`. -/
def Env.encodeRecords (elem : GoType ν) : Nat → List (Value γ) → Result Bytes
  | _, [] => .ok []
  | i, v :: items => do
    let out ← encodeRecordItem i (match elem, v with
      | .pointer t, .pointer (.struct fields) =>
        env.marshalRecord t fields fun goName schema =>
          Env.encodeFields "record" goName schema fields
      | t, .struct fields =>
        env.marshalRecord t fields fun goName schema =>
          Env.encodeFields "record" goName schema fields
      | .pointer _, .nilPointer => fail (.new "nil record pointer")
      | .pointer t, _ => do
        let _ ← call (env.recordSchema t)
        .error .mismatch
      | t, _ => do
        let _ ← call (env.recordSchema t)
        .error .mismatch)
    let rest ← Env.encodeRecords elem (i + 1) items
    pure (out ++ rest)

/-- The loop of `encodeMap` over the keys. -/
def Env.encodeEntries (valueFS : FieldSchema ν) :
    List (UInt32 × Value γ) → Result (List (Bytes × Bytes))
  | [] => .ok []
  | (key, v) :: entries => do
    let value ← Env.encode valueFS mapAddr v
    let rest ← Env.encodeEntries valueFS entries
    pure ((be32 key.toNat, value) :: rest)

end

/-- `Marshal`, called with a pointer to the struct. -/
def Env.marshal (n : ν) (fields : List (Value γ)) : Result Bytes :=
  env.marshalMessage n fields fun goName schema =>
    env.encodeFields limitSet false "wire" goName schema fields

end Marshal

/-! ## `Unmarshal` -/

/-- `matchFields`: the received field of each field of the schema, `none` where an optional field
is absent. The indices are those of the next field of the schema and of the next received field. -/
def FieldSchema.matchFields {ν : Type} (context : String) :
    Nat → Nat → List (FieldSchema ν) → List Field → Except GoError (List (Option Field))
  | _, _, [], [] => .ok []
  | _, fieldIndex, [], field :: _ =>
    .error (.errorf (context ++ ": unexpected field tag %d at index %d")
      [.num field.tag.toNat, .num fieldIndex])
  | schemaIndex, fieldIndex, fs :: schema, [] =>
    if fs.optional then do
      let rest ← matchFields context (schemaIndex + 1) fieldIndex schema []
      pure (none :: rest)
    else .error (.errorf (context ++ ": missing required field tag %d at index %d")
      [.num fs.tag.toNat, .num schemaIndex])
  | schemaIndex, fieldIndex, fs :: schema, field :: fields =>
    if field.tag = fs.tag then do
      let rest ← matchFields context (schemaIndex + 1) (fieldIndex + 1) schema fields
      pure (some field :: rest)
    else if fs.tag < field.tag ∧ fs.optional then do
      let rest ← matchFields context (schemaIndex + 1) fieldIndex schema (field :: fields)
      pure (none :: rest)
    else if fs.tag < field.tag then
      .error (.errorf (context ++ ": missing required field tag %d at index %d, got %d")
        [.num fs.tag.toNat, .num schemaIndex, .num field.tag.toNat])
    else
      .error (.errorf (context ++ ": unexpected field tag %d at index %d, want %d")
        [.num field.tag.toNat, .num fieldIndex, .num fs.tag.toNat])

section Unmarshal

variable {ν γ : Type} (env : Env ν γ) (limitSet : FieldLimits) (frameLimits : FrameLimits)

/-- `mapValueByteLimit`, on the input after the key. -/
def FieldSchema.mapValueByteLimit (fs : FieldSchema ν) (i : Nat) (raw : Bytes) :
    Except GoError Nat := do
  match fs.fixedLen with
  | some n => do
    let (valueLen, _) ← readUint32 raw
    rejectIf (valueLen.toNat ≠ n)
      (.errorf "map value %d length %d, want %d" [.num i, .num valueLen.toNat, .num n])
  | none => pure ()
  let frameMax := frameLimits.maxFieldBytes.toNat
  let semanticMax ← fs.limitOf limitSet fs.maxBytes
  let max := if 0 < semanticMax ∧ (frameMax = 0 ∨ semanticMax < frameMax) then semanticMax
    else frameMax
  match fs.fixedLen with
  | some n => pure (if max = 0 ∨ n < max then n else max)
  | none => pure max

section Step

/- The decoder of the fields inside a value. -/
variable (decode : FieldSchema ν → Bytes → Result (Value γ))

/-- The loop of `Unmarshal` and `unmarshalRecordValue` over the fields of the schema. An absent
field keeps the zero value of its pointer type. -/
def decodeFields (what goName : String) :
    List (FieldSchema ν) → List (Option Field) → Result (List (Value γ))
  | fs :: schema, some field :: matched => do
    let v ← (decode fs field.value).mapError (fs.errorIn what goName)
    let rest ← decodeFields what goName schema matched
    pure (v :: rest)
  | _ :: schema, none :: matched => do
    let rest ← decodeFields what goName schema matched
    pure (.nilPointer :: rest)
  | _, _ => .ok []

/-- `unmarshalRecordValue`, into a new struct. -/
def Env.unmarshalRecord (t : GoType ν) (raw : Bytes) : Result (List (Value γ)) := do
  let (n, schema) ← call (env.recordSchema t)
  let goName := (env n).goName
  let (fields, rest) ← call (decodeFieldBody frameLimits (lit goName) raw)
  call (rejectIf (rest ≠ []) (.errorf "record %s: trailing bytes" [.text (lit goName)]))
  let matched ← call (FieldSchema.matchFields ("record " ++ goName) 0 0 schema fields)
  let values ← decodeFields decode "record" goName schema matched
  call (((env n).validate values).mapError (.wrap "record %s Validate: %w" [.text (lit goName)]))
  pure values

/-- `unmarshalRecordValue`, into a struct or a pointer to one. -/
def Env.unmarshalRecordValue (t : GoType ν) (raw : Bytes) : Result (Value γ) :=
  match t with
  | .pointer t => do
    let values ← env.unmarshalRecord frameLimits decode t raw
    pure (.pointer (.struct values))
  | t => do
    let values ← env.unmarshalRecord frameLimits decode t raw
    pure (.struct values)

/-- `Unmarshal`, into a new struct. -/
def Env.unmarshalMessage (n : ν) (raw : Bytes) : Result (List (Value γ)) :=
  match (env n).underlying, (env n).message with
  | .literal _ _, _ =>
    fail (.errorf "wire.Unmarshal: dst must be pointer to struct, got pointer to %s"
      [env.kindArg (.named n)])
  | .struct _, none =>
    fail (.errorf "wire.Unmarshal: %s does not implement Message" [env.typeArg (.named n)])
  | .struct _, some message => do
    let goName := (env n).goName
    let context : GoError → GoError := .wrap "wire.Unmarshal %s: %w" [.text (lit goName)]
    let (version, fields) ← call (unmarshalFields raw message.wireType frameLimits)
    call (rejectIf (version ≠ message.wireVersion)
      (.errorf "wire %s: got version %d, want %d"
        [.text (lit goName), .num version.toNat, .num message.wireVersion.toNat]))
    let schema ← call ((env.getSchema n).mapError context)
    let matched ← call (FieldSchema.matchFields ("wire " ++ goName) 0 0 schema fields)
    let values ← decodeFields decode "wire" goName schema matched
    call (((env n).validate values).mapError context)
    pure values

def Env.decodeNested (fs : FieldSchema ν) (raw : Bytes) : Result (Value γ) :=
  match fs.typ with
  | .named n => do
    let values ← env.unmarshalMessage frameLimits decode n raw
    pure (.struct values)
  | .pointer (.named n) => do
    let values ← env.unmarshalMessage frameLimits decode n raw
    pure (.pointer (.struct values))
  | _ => .error .mismatch

/-- An item of `decodeRecordList`. -/
def Env.decodeRecordItem (elem : GoType ν) (i : Nat) (raw : Bytes) : Result (Value γ × Bytes) := do
  let (recLen, raw) ← call (readUint32 raw)
  call (rejectIf (raw.length < recLen.toNat) (.errorf "truncated recordlist item %d" [.num i]))
  let v ← (env.unmarshalRecordValue frameLimits decode elem (raw.take recLen.toNat)).mapError
    (Fault.wrap (.wrap "recordlist item %d: %w" [.num i]))
  pure (v, raw.drop recLen.toNat)

def Env.decodeRecordList (fs : FieldSchema ν) (raw : Bytes) : Result (Value γ) := do
  call (rejectIf (raw.length < 4) (.new "truncated recordlist count"))
  let (count, raw) ← call (readUint32 raw)
  call (rejectIf (maxRecordCount < count.toNat)
    (.errorf "recordlist count too large: %d > %d" [.num count.toNat, .num maxRecordCount]))
  call (fs.checkMaxItems limitSet "recordlist" count.toNat)
  let elem ← env.makeSlice fs.typ
  let (items, rest) ← decodeItems (env.decodeRecordItem frameLimits decode elem) 0 count.toNat raw
  call (rejectIf (rest ≠ []) (.new "trailing recordlist data"))
  pure (.slice items)

/-- The loop of `decodeMap` over the count of entries that are left, after the keys `seen`, the
last of which is `prev`. -/
def FieldSchema.decodeEntries (fs : FieldSchema ν) :
    Nat → Option Bytes → List UInt32 → Nat → Bytes → Result (List (UInt32 × Value γ) × Bytes)
  | _, _, _, 0, raw => .ok ([], raw)
  | i, prev, seen, count + 1, raw => do
    let (keyBytes, raw) ← call (readBytes 4 raw)
    call (rejectIf (keyBytes.length ≠ 4)
      (.errorf "map key %d length %d, want 4" [.num i, .num keyBytes.length]))
    call (rejectIf (prev.any (keyBytes ≤ ·))
      (.errorf "map entries not strictly sorted at index %d" [.num i]))
    let max ← call (fs.mapValueByteLimit limitSet frameLimits i raw)
    let (valueBytes, raw) ← call (readBytes max raw)
    let key ← call (decodeUint32 keyBytes)
    let value ← decode fs.mapValue valueBytes
    call (rejectIf (key ∈ seen) (.errorf "map duplicate key at index %d" [.num i]))
    let (entries, raw) ←
      FieldSchema.decodeEntries fs (i + 1) (some keyBytes) (key :: seen) count raw
    pure ((key, value) :: entries, raw)

def Env.decodeMap (fs : FieldSchema ν) (raw : Bytes) : Result (Value γ) := do
  let maxItems ← call (fs.limitOf limitSet fs.maxItems)
  let (count, raw) ← call (readUint32 raw)
  call (validateRecordCount raw count.toNat 12 maxItems "map")
  match env.underlying fs.typ with
  | .map _ _ => do
    let (entries, rest) ← fs.decodeEntries limitSet frameLimits decode 0 none [] count.toNat raw
    call (rejectIf (rest ≠ []) (.new "trailing map data"))
    pure (.map entries)
  | _ => .error (.panic "MakeMapWithSize")

/-- `decode`, one level of it. -/
def Env.decodeStep (fs : FieldSchema ν) (raw : Bytes) : Result (Value γ) :=
  match fs.kind with
  | .nested => do
    call (fs.checkByteLimits limitSet raw)
    env.decodeNested frameLimits decode fs raw
  | .record => env.unmarshalRecordValue frameLimits decode fs.typ raw
  | .recordList => env.decodeRecordList limitSet frameLimits decode fs raw
  | .map => env.decodeMap limitSet frameLimits decode fs raw
  | _ => env.decodeFlat limitSet fs raw

end Step

/-- `decode`, for input shorter than `depth`. -/
def Env.decode : Nat → FieldSchema ν → Bytes → Result (Value γ)
  | 0 => fun _ _ => .error .depth
  | depth + 1 => env.decodeStep limitSet frameLimits (Env.decode depth)

/-- `Unmarshal`. The frame limits reach the fields with their defaults filled in. -/
def Env.unmarshal (n : ν) (raw : Bytes) : Result (List (Value γ)) :=
  let limits := frameLimits.withDefaults
  env.unmarshalMessage limits (env.decode limitSet limits raw.length) n raw

end Unmarshal

end Tss.Wire
