import Etch.Go.FlexBuffer

/-!
# The Go `BinaryTaggedData`

The values that the decoder makes, the arrays that it puts them into, and the
types, fields and validators that it asks for.  A value of a type that only a
helper knows is a parameter.
-/

namespace Etch.Go

namespace TypeCode

def VERSION : Int8 := 3

def NULL : Int8 := -128

def NONE : Int8 := -127

def BOOLEAN_FALSE : Int8 := -126

def BOOLEAN_TRUE : Int8 := -125

def BYTE : Int8 := -124

def SHORT : Int8 := -123

def INT : Int8 := -122

def LONG : Int8 := -121

def FLOAT : Int8 := -120

def DOUBLE : Int8 := -119

def BYTES : Int8 := -117

def ARRAY : Int8 := -111

def EMPTY_STRING : Int8 := -110

def STRING : Int8 := -109

def CUSTOM : Int8 := -107

def MIN_TINY_INT : Int8 := -64

def MAX_TINY_INT : Int8 := 127

end TypeCode

/-! ## Values -/

/-- The type of the elements of a slice. -/
inductive Kind where
  | int8
  | int16
  | int32
  | int64
  | float32
  | float64
  /-- `interface{}` -/
  | any
  /-- a type that a generated `NewArray` makes slices of -/
  | other (id : Nat)

/-- What an `interface{}` holds; a float is its bits. -/
inductive Value (O : Type) where
  | nil
  | bool (value : Bool)
  | int8 (value : Int8)
  | int16 (value : Int16)
  | int32 (value : Int32)
  | int64 (value : Int64)
  | float32 (bits : UInt32)
  | float64 (bits : UInt64)
  | bytes (value : List UInt8)
  | string (value : List UInt8)
  | slice (kind : Kind) (elements : List (Value O))
  | object (value : O)

namespace Value

variable {O : Type}

/-- The number of a value of an integer type. -/
def integer? : Value O → Option Int
  | int8 value => some value.toInt
  | int16 value => some value.toInt
  | int32 value => some value.toInt
  | int64 value => some value.toInt
  | _ => none

/-- `toInteger(val)` -/
def toInteger (value : Value O) : Int32 :=
  Int32.ofInt (value.integer?.getD 0)

end Value

/-! ## Types -/

/-- A `*Field`. -/
structure Field where
  Id : Int32
deriving DecidableEq

/-- A `StructValue` or `Message` without its type; a field that is put again
takes the new value. -/
abbrev Fields (O : Type) := List (Field × Value O)

/-- The part of a `*Type` that the decoder uses. -/
structure EtchType (O : Type) where
  Id : Int32
  Fields : Int32 → Option Field
  /-- a field is found by its id -/
  fields_id : ∀ id field, Fields id = some field → field.Id = id
  /-- `Validate(value)` of the validators -/
  Validators : Int32 → Option (Value O → Bool)
  /-- `ImportValue(sv)` of the helper -/
  Helper : Option (Go.Fields O → Value O)
  /-- the type of the elements of `NewArray(length)` -/
  NewArray : Option Nat

structure StructValue (O : Type) where
  Ty : EtchType O
  fields : Fields O

namespace StructValue

variable {O : Type}

/-- `sv.Fields[field] = value` -/
def set (sv : StructValue O) (field : Field) (value : Value O) :
    StructValue O :=
  if sv.fields.any fun entry => entry.1 = field then
    { sv with
      fields := sv.fields.map fun entry =>
        if entry.1 = field then (field, value) else entry }
  else
    { sv with fields := sv.fields ++ [(field, value)] }

/-- `Put(field, value)` -/
def put (sv : StructValue O) (field : Field) (value : Value O) :
    StructValue O :=
  match value with
  | .nil => sv.set field .nil
  | value =>
      match sv.Ty.Validators field.Id with
      | none => sv
      | some validate => if validate value then sv.set field value else sv

end StructValue

/-- The part of a `DefaultValueFactory` that the decoder uses. -/
structure ValueFactory (O : Type) where
  GetTypeById : Int32 → Option (EtchType O)
  /-- whether a value has the type of the elements of a slice -/
  assignable : Nat → Value O → Bool

/-! ## Arrays -/

/-- An `ArrayValue` around a slice, none where `reflect.ValueOf(nil)` is. -/
structure ArrayValue (O : Type) where
  ArrayVal : Option (Kind × List (Value O))

section Arrays

variable {O : Type} (vf : ValueFactory O)

/-- `make` of a slice: its elements, none for a negative length. -/
def make (zero : Value O) (length : Int32) : Option (List (Value O)) :=
  if length < 0 then none
  else some (List.replicate length.toInt.toNat zero)

/-- `NewArrayForType(typeCode, cTy, length)`, none where it panics. -/
def newArrayForType (typeCode : Int8) (cTy : Option (EtchType O))
    (length : Int32) : Option (ArrayValue O) :=
  let slice (kind : Kind) (zero : Value O) : Option (ArrayValue O) :=
    (make zero length).map fun elements => ⟨some (kind, elements)⟩
  if typeCode = TypeCode.BYTE then slice .int8 (.int8 0)
  else if typeCode = TypeCode.SHORT then slice .int16 (.int16 0)
  else if typeCode = TypeCode.INT then slice .int32 (.int32 0)
  else if typeCode = TypeCode.LONG then slice .int64 (.int64 0)
  else if typeCode = TypeCode.FLOAT then slice .float32 (.float32 0)
  else if typeCode = TypeCode.DOUBLE then slice .float64 (.float64 0)
  else if typeCode = TypeCode.STRING then slice .any .nil
  else if typeCode = TypeCode.CUSTOM then
    match cTy.bind EtchType.NewArray with
    | none => none
    | some id => slice (.other id) .nil
  else
    some ⟨none⟩

/-- The value that a place of a slice gets from `Set`, converted by
`ToAssignableValue`; none where `reflect` panics, as it does for `nil`. -/
def assign : Kind → Value O → Option (Value O)
  | _, .nil => none
  | .int8, value => value.integer?.map fun n => .int8 (Int8.ofInt n)
  | .int16, value => value.integer?.map fun n => .int16 (Int16.ofInt n)
  | .int32, value => value.integer?.map fun n => .int32 (Int32.ofInt n)
  | .int64, value => value.integer?.map fun n => .int64 (Int64.ofInt n)
  | .float32, .float32 bits => some (.float32 bits)
  | .float32, _ => none
  | .float64, .float64 bits => some (.float64 bits)
  | .float64, _ => none
  | .any, value => some value
  | .other id, value => if vf.assignable id value then some value else none

/-- `Set(i, value)`, none where it panics. -/
def ArrayValue.set (av : ArrayValue O) (i : Nat) (value : Value O) :
    Option (ArrayValue O) := do
  let (kind, elements) ← av.ArrayVal
  if i < elements.length then
    let value ← assign vf kind value
    return ⟨some (kind, elements.set i value)⟩
  else
    none

/-- `FromArrayValue(av)`, none where it panics. -/
def fromArrayValue (av : ArrayValue O) : Option (Value O) :=
  av.ArrayVal.map fun (kind, elements) => .slice kind elements

/-- `ImportCustomValue(value)`, none where it panics. -/
def importCustomValue : Option (StructValue O) → Option (Value O)
  | none => none
  | some sv =>
      match sv.Ty.Helper with
      | some importValue => some (importValue sv.fields)
      | none => some .nil

end Arrays

end Etch.Go
