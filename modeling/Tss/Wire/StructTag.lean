import Tss.Wire.GoType

/-!
# Struct tags (`internal/wire/schema.go`)

`parseSchema` reads the tags of a struct type into the list of its fields, by
increasing tag. A tag is a number, an optional kind and options; without a
kind the kind is inferred from the type of the field.
-/

namespace Tss.Wire

open Fallible

inductive WireKind where
  | u8
  | u16
  | u32
  | bool
  | bytes
  | string
  | u32List
  | bytesList
  | partyBytes
  | partyBytePairs
  | nested
  | custom
  | customList
  | bigInt
  | bigUint
  | bigPos
  | record
  | recordList
  | map
deriving DecidableEq

def kindName : WireKind → String
  | .u8 => "u8"
  | .u16 => "u16"
  | .u32 => "u32"
  | .bool => "bool"
  | .bytes => "bytes"
  | .string => "string"
  | .u32List => "u32list"
  | .bytesList => "byteslist"
  | .partyBytes => "partybytes"
  | .partyBytePairs => "partybytepairs"
  | .nested => "nested"
  | .custom => "custom"
  | .customList => "customlist"
  | .bigInt => "bigint"
  | .bigUint => "biguint"
  | .bigPos => "bigpos"
  | .record => "record"
  | .recordList => "recordlist"
  | .map => "map"

/-- `fieldSchema`. A limit option is the name of the limit. The struct index is not needed: a
value lists its fields in the order of the schema. -/
structure FieldSchema (ν : Type) where
  tag : UInt16
  name : String
  kind : WireKind
  typ : GoType ν
  /-- `fixedLen`, where `fixedLenSet`. -/
  fixedLen : Option Nat := none
  maxBytes : Option GoString := none
  maxItems : Option GoString := none
  maxBits : Option GoString := none
  optional : Bool := false
  mapValueType : GoType ν := .other
  mapValueKind : WireKind := .u8

/-! ## The text of a tag -/

/-- The white space `strings.TrimSpace` removes, in ASCII. -/
def isSpace (b : UInt8) : Bool := b = 0x20 || (0x09 ≤ b && b ≤ 0x0D)

def trimSpace (s : GoString) : GoString :=
  ((s.dropWhile isSpace).reverse.dropWhile isSpace).reverse

/-- `strings.Split` at every `sep`. -/
def splitAt (sep : UInt8) : GoString → List GoString
  | [] => [[]]
  | b :: s =>
    if b = sep then [] :: splitAt sep s
    else match splitAt sep s with
      | [] => [[b]]
      | part :: parts => (b :: part) :: parts

/-- `strings.SplitN(s, sep, 2)` when `sep` occurs: what stands before and after its first
occurrence. -/
def cutAt (sep : UInt8) : GoString → Option (GoString × GoString)
  | [] => none
  | b :: s => if b = sep then some ([], s) else (cutAt sep s).map fun p => (b :: p.1, p.2)

/-- The number with the given decimal digits. -/
def parseDigits (s : GoString) : Option Nat :=
  if s ≠ [] ∧ s.all (fun b => 0x30 ≤ b && b ≤ 0x39) then
    some (s.foldl (fun n b => 10 * n + (b.toNat - 0x30)) 0)
  else none

/-- `strconv.ParseUint(s, 10, bits)`. -/
def parseUint (bits : Nat) (s : GoString) : Option Nat :=
  (parseDigits s).filter (· < 2 ^ bits)

def atoi (s : GoString) : Option Int :=
  match s with
  | 0x2D :: s => ((parseDigits s).filter (· ≤ 2 ^ 63)).map fun n => -(n : Int)
  | 0x2B :: s => ((parseDigits s).filter (· < 2 ^ 63)).map fun n => (n : Int)
  | s => ((parseDigits s).filter (· < 2 ^ 63)).map fun n => (n : Int)

def validLimitName : GoString → Bool
  | [] => false
  | b :: s => (0x61 ≤ b && b ≤ 0x7A) &&
      s.all fun c => (0x61 ≤ c && c ≤ 0x7A) || (0x30 ≤ c && c ≤ 0x39) || c = 0x5F

/-- The kinds by name. -/
def allKinds : List WireKind :=
  [.u8, .u16, .u32, .bool, .bytes, .string, .u32List, .bytesList, .partyBytes, .partyBytePairs,
    .nested, .custom, .customList, .bigInt, .bigUint, .bigPos, .record, .recordList, .map]

/-- The kind with the name, when `isKnownKind`. -/
def kindOfName (name : GoString) : Option WireKind :=
  allKinds.find? fun kind => lit (kindName kind) = name

section Parse

variable {ν γ : Type} (env : Env ν γ)

/-! ## Kinds -/

/-- A kind that accepts the type or reports it. -/
def Env.requires (kind : WireKind) (text : String) (t : GoType ν) (accepted : Bool) :
    Except GoError WireKind :=
  if accepted then .ok kind else .error (.errorf text [env.typeArg t])

/-- `parseKind`, for a known kind. -/
def Env.parseKind (kind : WireKind) (t : GoType ν) : Except GoError WireKind :=
  match kind with
  | .u8 => env.requires .u8 "u8 requires uint8, got %s" t (env.isByte t)
  | .u16 =>
    env.requires .u16 "u16 requires uint16, got %s" t
      (match env.underlying t with | .uint16 => true | _ => false)
  | .u32 => env.requires .u32 "u32 requires uint32 or int, got %s" t (env.isUint32OrInt t)
  | .bool =>
    env.requires .bool "bool requires bool, got %s" t
      (match env.underlying t with | .bool => true | _ => false)
  | .bytes =>
    env.requires .bytes "bytes requires []byte or [N]byte, got %s" t
      (match env.underlying t with | .slice e | .array _ e => env.isByte e | _ => false)
  | .string =>
    env.requires .string "string requires string, got %s" t
      (match env.underlying t with | .string => true | _ => false)
  | .u32List =>
    env.requires .u32List "u32list requires []uint32 or []int, got %s" t
      (match env.underlying t with | .slice e => env.isUint32OrInt e.indirectType | _ => false)
  | .bytesList =>
    match env.underlying t with
    | .slice e => env.requires .bytesList "byteslist requires [][]byte, got %s" t (env.isByteSlice e)
    | _ => env.requires .bytesList "byteslist requires slice, got %s" t false
  | .partyBytes =>
    env.requires .partyBytes "partybytes requires []PartyBytes[T], got %s" t
      (match env.underlying t with | .slice _ => true | _ => false)
  | .partyBytePairs =>
    env.requires .partyBytePairs "partybytepairs requires []PartyBytePair[T], got %s" t
      (match env.underlying t with | .slice _ => true | _ => false)
  | .nested => env.requires .nested "nested requires Message implementation, got %s" t (env.isMessage t)
  | .custom => .ok .custom
  | .customList =>
    match env.underlying t with
    | .slice e =>
      env.requires .customList
        "customlist item must implement ValueMarshaler and ValueUnmarshaler, got %s" e
        (match e with
          | .pointer e => env.hasMarshaler e && env.hasUnmarshaler e
          | e => env.hasMarshaler e && env.hasUnmarshaler e)
    | _ => env.requires .customList "customlist requires slice, got %s" t false
  | .bigInt =>
    env.requires .bigInt "bigint requires big.Int or *big.Int, got %s" t
      (match t with | .bigInt | .pointer .bigInt => true | _ => false)
  | .bigUint =>
    env.requires .bigUint "biguint requires big.Int or *big.Int, got %s" t
      (match t with | .bigInt | .pointer .bigInt => true | _ => false)
  | .bigPos =>
    env.requires .bigPos "bigpos requires big.Int or *big.Int, got %s" t
      (match t with | .bigInt | .pointer .bigInt => true | _ => false)
  | .record =>
    env.requires .record "record requires struct or *struct, got %s" t (env.isStruct t.indirectType)
  | .recordList =>
    env.requires .recordList "recordlist requires []struct or []*struct, got %s" t
      (match env.underlying t with | .slice e => env.isStruct e.indirectType | _ => false)
  | .map =>
    env.requires .map "map requires map[K]V, got %s" t
      (match env.underlying t with | .map _ _ => true | _ => false)

/-- `inferSliceKind`, on the element type. -/
def Env.inferSliceKind (elem : GoType ν) : Except GoError WireKind :=
  let elem := elem.indirectType
  match env.underlying elem with
  | .uint8 => .ok .bytes
  | .uint32 | .int => .ok .u32List
  | .slice e =>
    if env.isByte e then .ok .bytesList
    else .error (.errorf "cannot infer wire kind for [][]%s" [env.kindArg e])
  | .named _ | .bigInt => .ok .recordList
  | _ => .error (.errorf "cannot infer wire kind for []%s" [env.kindArg elem])

def Env.inferKind (t : GoType ν) : Except GoError WireKind :=
  let t := t.indirectType
  if env.hasMarshaler t then .ok .custom
  else match env.underlying t with
    | .uint8 => .ok .u8
    | .uint16 => .ok .u16
    | .uint32 | .int => .ok .u32
    | .bool => .ok .bool
    | .string => .ok .string
    | .slice e => env.inferSliceKind e
    | .array _ e =>
      if env.isByte e then .ok .bytes
      else .error (.errorf "cannot infer wire kind for array of %s" [env.kindArg e])
    | .named _ | .bigInt => .ok .record
    | _ => .error (.errorf "cannot infer wire kind for %s" [env.kindArg t])

/-- `fieldTagKind`: the kind and the options that follow it. -/
def Env.fieldTagKind (parts : List GoString) (t : GoType ν) :
    Except GoError (WireKind × List GoString) :=
  match parts.drop 1 with
  | [] => do
    let kind ← env.inferKind t
    pure (kind, [])
  | part :: rest =>
    match kindOfName (trimSpace part) with
    | some kind => do
      let kind ← env.parseKind kind t
      pure (kind, rest)
    | none => do
      let kind ← env.inferKind t
      pure (kind, part :: rest)

/-! ## Options -/

def FieldSchema.setOption (fs : FieldSchema ν) (key val : GoString) :
    Except GoError (FieldSchema ν) :=
  if key = lit "len" then
    match atoi val with
    | none => .error (.errorf "invalid len value %q" [.text val])
    | some n => if n ≤ 0 then .error (.new "len must be positive")
      else .ok { fs with fixedLen := some n.toNat }
  else if key = lit "max_bytes" then
    if validLimitName val then .ok { fs with maxBytes := some val }
    else .error (.errorf "invalid max_bytes limit name %q" [.text val])
  else if key = lit "max_items" then
    if validLimitName val then .ok { fs with maxItems := some val }
    else .error (.errorf "invalid max_items limit name %q" [.text val])
  else if key = lit "max_bits" then
    if validLimitName val then .ok { fs with maxBits := some val }
    else .error (.errorf "invalid max_bits limit name %q" [.text val])
  else .error (.errorf "unknown option %q" [.text key])

/-- `parseOptions`, over the options that follow those in `seen`. -/
def FieldSchema.parseOptions (fs : FieldSchema ν) (seen : List GoString) :
    List GoString → Except GoError (FieldSchema ν)
  | [] => .ok fs
  | opt :: options =>
    let opt := trimSpace opt
    if opt = [] then fs.parseOptions seen options
    else if opt = lit "optional" then
      if lit "optional" ∈ seen then
        .error (.errorf "duplicate wire option %q" [.text (lit "optional")])
      else FieldSchema.parseOptions { fs with optional := true } (lit "optional" :: seen) options
    else match cutAt 0x3D opt with
      | none => .error (.errorf "invalid option %q" [.text opt])
      | some (key, val) =>
        let key := trimSpace key
        if key ∈ seen then .error (.errorf "duplicate wire option %q" [.text key])
        else do
          let fs ← fs.setOption key (trimSpace val)
          fs.parseOptions (key :: seen) options

/-- `kindConsumesFixedLen` and `kindConsumesMaxBytes`. -/
def kindConsumesLength : WireKind → Bool
  | .bytes | .string | .custom | .bigInt | .bigUint | .bigPos => true
  | _ => false

def FieldSchema.kindSupportsFixedLen (fs : FieldSchema ν) : Bool :=
  match fs.kind with
  | .bytes | .string | .custom | .customList | .bigInt | .bigUint | .bigPos => true
  | .map => kindConsumesLength fs.mapValueKind
  | _ => false

def FieldSchema.kindSupportsMaxBytes (fs : FieldSchema ν) : Bool :=
  match fs.kind with
  | .bytes | .string | .bytesList | .partyBytes | .partyBytePairs | .nested | .custom | .customList
  | .bigInt | .bigUint | .bigPos => true
  | .map => kindConsumesLength fs.mapValueKind
  | _ => false

def kindSupportsMaxItems : WireKind → Bool
  | .u32List | .bytesList | .partyBytes | .partyBytePairs | .custom | .customList | .recordList
  | .map => true
  | _ => false

def FieldSchema.kindSupportsMaxBits (fs : FieldSchema ν) : Bool :=
  match fs.kind with
  | .bytes | .bigInt | .bigUint | .bigPos => true
  | .map => fs.mapValueKind = .bytes
  | _ => false

def kindSupportsOptional : WireKind → Bool
  | .nested | .custom | .bigInt | .bigUint | .bigPos | .record => true
  | _ => false

def FieldSchema.validateFieldOptions (fs : FieldSchema ν) : Except GoError Unit := do
  let name : ErrorArg := .text (lit (kindName fs.kind))
  rejectIf (fs.fixedLen.isSome ∧ ¬ fs.kindSupportsFixedLen)
    (.errorf "len is not supported for %s fields" [name])
  rejectIf (fs.maxBytes.isSome ∧ ¬ fs.kindSupportsMaxBytes)
    (.errorf "max_bytes is not supported for %s fields" [name])
  rejectIf (fs.maxItems.isSome ∧ ¬ kindSupportsMaxItems fs.kind)
    (.errorf "max_items is not supported for %s fields" [name])
  rejectIf (fs.maxBits.isSome ∧ ¬ fs.kindSupportsMaxBits)
    (.errorf "max_bits is not supported for %s fields" [name])

/-- The length of an array gives a field of bytes its length, and agrees with `len`. -/
def FieldSchema.fixArrayLen (fs : FieldSchema ν) (text : String) (size : Nat) :
    Except GoError (FieldSchema ν) := do
  rejectIf (fs.fixedLen.any (· ≠ size))
    (.errorf text [.text (lit fs.name), .num (fs.fixedLen.getD 0), .num size])
  pure { fs with fixedLen := some size }

/-- The array step of `parseFieldTag`. -/
def Env.initArrayField (fs : FieldSchema ν) : Except GoError (FieldSchema ν) :=
  match fs.kind, env.underlying fs.typ with
  | .bytes, .array n _ => fs.fixArrayLen "field %s: len=%d does not match array length %d" n
  | _, _ => .ok fs

def Env.inferMapValueKind (t : GoType ν) : Except GoError WireKind :=
  let indirect := t.indirectType
  if env.hasMarshaler indirect then .ok .custom
  else match env.underlying indirect with
    | .uint8 => .ok .u8
    | .uint16 => .ok .u16
    | .uint32 => .ok .u32
    | .bool => .ok .bool
    | .string => .ok .string
    | .slice e =>
      env.requires .bytes "slice map values are only supported for []byte, got %s" t (env.isByte e)
    | .array _ e =>
      env.requires .bytes "array map values are only supported for [N]byte, got %s" t (env.isByte e)
    | .named _ | .bigInt => .ok .record
    | _ => .error (.errorf "cannot infer map value kind for %s" [env.typeArg t])

def Env.initMapSchema (fs : FieldSchema ν) : Except GoError (FieldSchema ν) :=
  match env.underlying fs.typ with
  | .map key value => do
    rejectIf (¬ env.isUint32 key)
      (.errorf "field %s: map key must be uint32-compatible, got %s"
        [.text (lit fs.name), env.typeArg key])
    let kind ← (env.inferMapValueKind value).mapError
      (.wrap "field %s: unsupported map value %s: %w" [.text (lit fs.name), env.typeArg value])
    rejectIf (value.isPointer ∧ kind ≠ .custom ∧ kind ≠ .record)
      (.errorf "field %s: pointer map values require custom or record kind, got %s"
        [.text (lit fs.name), env.typeArg value])
    pure { fs with mapValueType := value, mapValueKind := kind }
  | _ => .error (.errorf "field %s: map requires map[K]V, got %s"
      [.text (lit fs.name), env.typeArg fs.typ])

def Env.initMapField (fs : FieldSchema ν) : Except GoError (FieldSchema ν) :=
  if fs.kind = .map then do
    let fs ← env.initMapSchema fs
    match fs.mapValueKind, env.underlying fs.mapValueType.indirectType with
    | .bytes, .array n _ =>
      fs.fixArrayLen "field %s: len=%d does not match map array value length %d" n
    | _, _ => pure fs
  else .ok fs

/-- The checks of `initPartyBytesSchema` on the fields of the element, the party and `count` byte
slices. -/
def Env.checkPartyFields (fs : FieldSchema ν) (count : Nat) :
    List (StructField ν) → Except GoError Unit
  | party :: fields => do
    rejectIf (¬ (party.exported ∧ env.isUint32 party.typ))
      (.errorf "field %s: %s party field must be exported uint32-compatible, got %s"
        [.text (lit fs.name), .text (lit (kindName fs.kind)), env.typeArg party.typ])
    (fields.take count).zipIdx.forM fun p =>
      rejectIf (¬ (p.1.exported ∧ env.isByteSlice p.1.typ))
        (.errorf "field %s: %s byte field %d must be exported []byte, got %s"
          [.text (lit fs.name), .text (lit (kindName fs.kind)), .num (p.2 + 1),
            env.typeArg p.1.typ])
  | [] => .ok ()

/-- `initPartyBytesSchema`, for elements with `count` byte slices. -/
def Env.initPartyBytesSchema (fs : FieldSchema ν) (count : Nat) : Except GoError Unit := do
  let kind : ErrorArg := .text (lit (kindName fs.kind))
  match env.underlying fs.typ with
  | .slice (.named n) =>
    match (env n).underlying with
    | .struct fields => do
      rejectIf (fields.length ≠ count + 1)
        (.errorf "field %s: %s element must have %d fields, got %d"
          [.text (lit fs.name), kind, .num (count + 1), .num fields.length])
      env.checkPartyFields fs count fields
    | .literal _ _ => .error (.errorf "field %s: %s requires a slice of structs, got %s"
        [.text (lit fs.name), kind, env.typeArg fs.typ])
  | _ => .error (.errorf "field %s: %s requires a slice of structs, got %s"
      [.text (lit fs.name), kind, env.typeArg fs.typ])

/-- The element checks of `parseFieldTag`, which only the party kinds have. -/
def Env.initPartyField (fs : FieldSchema ν) : Except GoError Unit :=
  match fs.kind with
  | .partyBytes => env.initPartyBytesSchema fs 1
  | .partyBytePairs => env.initPartyBytesSchema fs 2
  | _ => .ok ()

/-! ## Fields and structs -/

def Env.parseFieldTag (f : StructField ν) (tagStr : GoString) : Except GoError (FieldSchema ν) := do
  let parts := splitAt 0x2C tagStr
  let number := parts.headD []
  match parseUint 16 (trimSpace number) with
  | none => .error (.errorf "invalid tag number %q" [.text number])
  | some tag => do
    rejectIf (tag < 1 ∨ 65535 < tag) (.errorf "tag must be in [1, 65535]: %d" [.num tag])
    let (kind, options) ← env.fieldTagKind parts f.typ
    let fs : FieldSchema ν := { tag := UInt16.ofNat tag, name := f.name, kind := kind, typ := f.typ }
    let fs ← fs.parseOptions [] options
    let fs ← env.initArrayField fs
    rejectIf (fs.optional ∧ ¬ f.typ.isPointer)
      (.errorf "optional requires pointer field, got %s" [env.typeArg f.typ])
    rejectIf (fs.optional ∧ ¬ kindSupportsOptional fs.kind)
      (.errorf "optional is not supported for %s fields" [.text (lit (kindName fs.kind))])
    let fs ← env.initMapField fs
    fs.validateFieldOptions
    env.initPartyField fs
    pure fs

/-- The loop of `parseSchema`, over the fields that follow those with the tags `seen`. -/
def Env.parseFields (seen : List UInt16) :
    List (StructField ν) → Except GoError (List (FieldSchema ν))
  | [] => .ok []
  | f :: fields =>
    match f.exported, f.tag with
    | false, some tagStr =>
      if tagStr = lit "-" then Env.parseFields seen fields
      else .error (.errorf "unexported field %s has wire tag %q" [.text (lit f.name), .text tagStr])
    | _, none => Env.parseFields seen fields
    | true, some tagStr =>
      if tagStr = lit "-" then Env.parseFields seen fields
      else do
        let fs ← (env.parseFieldTag f tagStr).mapError
          (.wrap "field %s: %w" [.text (lit f.name)])
        rejectIf (fs.tag ∈ seen)
          (.errorf "field %s: duplicate tag %d" [.text (lit f.name), .num fs.tag.toNat])
        let rest ← Env.parseFields (fs.tag :: seen) fields
        pure (fs :: rest)

/-- `parseSchema`: the fields by increasing tag. -/
def Env.parseSchema (goName : String) (fields : List (StructField ν)) :
    Except GoError (List (FieldSchema ν)) := do
  let fields ← env.parseFields [] fields
  rejectIf (fields.isEmpty) (.errorf "no wire-tagged fields in %s" [.text (lit goName)])
  pure (fields.insertionSort (·.tag ≤ ·.tag))

/-- `getSchema`. The cache holds what `parseSchema` returns. -/
def Env.getSchema (n : ν) : Except GoError (List (FieldSchema ν)) :=
  match (env n).underlying with
  | .struct fields => env.parseSchema (env n).goName fields
  | .literal _ _ => .error (.errorf "expected struct, got %s" [env.kindArg (.named n)])

end Parse

end Tss.Wire
