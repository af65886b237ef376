import Tss.Wire
import Mathlib.Data.List.Sort

/-!
# Go types and values, as `internal/wire` sees them

The package reads a message through reflection: what a field is encoded as
follows from its type, its struct tag and the methods of the type. A program
is described here by the types it declares. Types the package never accepts
are `other`; interface types and defined pointer types (`type P *T`) are left
out.

`reflect` panics when a method is called on a value of the wrong kind, so a
codec ends in a result, an error or a panic.
-/

namespace Tss.Wire

/-- A Go type. `ν` names the declared types. -/
inductive GoType (ν : Type) where
  | uint8
  | uint16
  | uint32
  | int
  | bool
  | string
  /-- `big.Int`, a struct whose fields carry no tags. -/
  | bigInt
  | slice (elem : GoType ν)
  | array (size : Nat) (elem : GoType ν)
  | pointer (elem : GoType ν)
  | map (key value : GoType ν)
  | named (name : ν)
  | other
deriving DecidableEq

/-- A value of a Go type, described the way the codec of its field sees it: `custom` is a value of
a type with its own codec, and `struct` holds the fields that have a wire tag, by increasing tag
(the elements of `partybytes` and `partybytepairs`, whose fields have no tags, in declaration
order). The entries of a map stand in the order of `MapKeys`. `int` has 64 bits. -/
inductive Value (γ : Type) where
  | uint8 (n : UInt8)
  | uint16 (n : UInt16)
  | uint32 (n : UInt32)
  | int (n : Int64)
  | bool (b : Bool)
  | string (s : GoString)
  | bigInt (n : Int)
  /-- `[]byte`, `none` when it is `nil`. -/
  | bytes (b : Option Bytes)
  | array (b : Bytes)
  | nilPointer
  | pointer (target : Value γ)
  | nilSlice
  | slice (items : List (Value γ))
  | nilMap
  | map (entries : List (UInt32 × Value γ))
  | struct (fields : List (Value γ))
  | custom (c : γ)

/-- A field of a declared struct with its `wire` tag, `none` where it has none. -/
structure StructField (ν : Type) where
  name : String
  exported : Bool
  typ : GoType ν
  tag : Option GoString

/-- A type that can stand on the right of a type declaration here. -/
def GoType.isLiteral {ν : Type} : GoType ν → Bool
  | .pointer _ | .named _ | .bigInt => false
  | _ => true

inductive Underlying (ν : Type) where
  | struct (fields : List (StructField ν))
  | literal (typ : GoType ν) (isLiteral : typ.isLiteral = true)

/-- The methods `WireType` and `WireVersion`. -/
structure MessageType where
  wireType : GoString
  wireVersion : UInt16

/-- The method `MarshalWireValue`, which may return `nil`. -/
structure ValueMarshaler (γ : Type) where
  /-- The method is declared on `*T`. -/
  pointerReceiver : Bool
  marshal : γ → Except GoError (Option Bytes)

/-- A type declaration: what the type is and the methods the package looks for on it. -/
structure TypeDecl (ν γ : Type) where
  pkg : String
  goName : String
  underlying : Underlying ν
  message : Option MessageType
  marshaler : Option (ValueMarshaler γ)
  /-- `UnmarshalWireValue`: the value and the number of bytes consumed. -/
  unmarshaler : Option (Bytes → Except GoError (γ × Int))
  /-- `Validate` of a struct, on its tagged fields. -/
  validate : List (Value γ) → Except GoError Unit

/-- The declared types of a program. -/
abbrev Env (ν γ : Type) := ν → TypeDecl ν γ

section Types

variable {ν γ : Type} (env : Env ν γ)

/-- The underlying type; of a struct type, the type itself. -/
def Env.underlying : GoType ν → GoType ν
  | .named n =>
    match (env n).underlying with
    | .struct _ => .named n
    | .literal t _ => t
  | t => t

/-- `Kind() == Pointer`. -/
def GoType.isPointer : GoType ν → Bool
  | .pointer _ => true
  | _ => false

def GoType.indirectType : GoType ν → GoType ν
  | .pointer e => e.indirectType
  | t => t

/-- `Type.String`. -/
def Env.typeString : GoType ν → String
  | .uint8 => "uint8"
  | .uint16 => "uint16"
  | .uint32 => "uint32"
  | .int => "int"
  | .bool => "bool"
  | .string => "string"
  | .bigInt => "big.Int"
  | .slice e => "[]" ++ Env.typeString e
  | .array n e => "[" ++ toString n ++ "]" ++ Env.typeString e
  | .pointer e => "*" ++ Env.typeString e
  | .map k v => "map[" ++ Env.typeString k ++ "]" ++ Env.typeString v
  | .named n => (env n).pkg ++ "." ++ (env n).goName
  | .other => "other"

/-- `Kind().String()`. -/
def Env.kindString (t : GoType ν) : String :=
  match env.underlying t with
  | .uint8 => "uint8"
  | .uint16 => "uint16"
  | .uint32 => "uint32"
  | .int => "int"
  | .bool => "bool"
  | .string => "string"
  | .bigInt => "struct"
  | .slice _ => "slice"
  | .array _ _ => "array"
  | .pointer _ => "ptr"
  | .map _ _ => "map"
  | .named _ => "struct"
  | .other => "other"

def Env.typeArg (t : GoType ν) : ErrorArg := .text (lit (env.typeString t))

def Env.kindArg (t : GoType ν) : ErrorArg := .text (lit (env.kindString t))

/-- `Kind() == Uint8`. -/
def Env.isByte (t : GoType ν) : Bool :=
  match env.underlying t with
  | .uint8 => true
  | _ => false

/-- `Kind() == Uint32`. -/
def Env.isUint32 (t : GoType ν) : Bool :=
  match env.underlying t with
  | .uint32 => true
  | _ => false

/-- The kind is `Uint32` or `Int`. -/
def Env.isUint32OrInt (t : GoType ν) : Bool :=
  match env.underlying t with
  | .uint32 | .int => true
  | _ => false

/-- A slice of bytes. -/
def Env.isByteSlice (t : GoType ν) : Bool :=
  match env.underlying t with
  | .slice e => env.isByte e
  | _ => false

/-- `Kind() == Struct`. -/
def Env.isStruct (t : GoType ν) : Bool :=
  match env.underlying t with
  | .named _ | .bigInt => true
  | _ => false

/-- The type or the pointer to it implements `ValueMarshaler`. -/
def Env.hasMarshaler : GoType ν → Bool
  | .named n => (env n).marshaler.isSome
  | _ => false

/-- The type or the pointer to it implements `ValueUnmarshaler`. -/
def Env.hasUnmarshaler : GoType ν → Bool
  | .named n => (env n).unmarshaler.isSome
  | _ => false

/-- The type or the pointer to it implements `Message`. -/
def Env.isMessage : GoType ν → Bool
  | .named n | .pointer (.named n) => (env n).message.isSome
  | _ => false

end Types

/-! ## Outcomes -/

/-- How a codec ends without a result. -/
inductive Fault where
  | error (err : GoError)
  /-- `reflect` panics in the method. -/
  | panic (method : String)
  /-- The value is not of the field's type, which no Go program can do. -/
  | mismatch
  /-- The bound on the depth of the decoder was too small. -/
  | depth
deriving DecidableEq

/-- The context `fmt.Errorf` puts around an error. -/
def Fault.wrap (context : GoError → GoError) : Fault → Fault
  | .error err => .error (context err)
  | .panic method => .panic method
  | .mismatch => .mismatch
  | .depth => .depth

abbrev Result := Except Fault

/-- Return an error. -/
def fail {α : Type} (err : GoError) : Result α := .error (.error err)

/-- A call whose error is returned as it is. -/
def call {α : Type} (x : Except GoError α) : Result α := x.mapError .error

@[simp] theorem call_ok {α : Type} {a : α} : call (.ok a) = .ok a := rfl

@[simp] theorem call_eq_ok {α : Type} {x : Except GoError α} {a : α} :
    call x = .ok a ↔ x = .ok a := Fallible.mapError_eq_ok

end Tss.Wire
