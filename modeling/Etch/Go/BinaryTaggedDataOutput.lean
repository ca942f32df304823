import Etch.Go.BinaryTaggedData

/-!
# The Go `BinaryTaggedDataOutput`

The methods put bytes into a buffer that they never read, so that a method is
here what it puts.  They call one another through `writeValue`, which is an
argument.  No result stands for a panic, and for a run that has used up the
number of such calls that it is given.
-/

namespace Etch.Go

open Etch.Library.BigEndian

/-- A `*StructValue` that is written, its fields in the order in which the map
is ranged over. -/
structure Exported (O : Type) where
  TyId : Int32
  Length : Int
  Fields : List (Int32 × Value O)

/-- The part of a `DefaultValueFactory` that the encoder uses. -/
structure Exporter (O : Type) where
  /-- `ExportCustomValue(value)`, none where it panics, and then none for nil -/
  ExportCustomValue : Value O → Option (Option (Exported O))
  /-- the id of `GetCustomStructType(reflect.TypeOf(value))`, none for nil -/
  GetCustomStructType : Value O → Option Int32

namespace BinaryTaggedDataOutput

variable {O : Type}

/-! ## Codes -/

def checkByte (val : Int8) : Int8 :=
  if val ≤ TypeCode.MAX_TINY_INT ∧ val ≥ TypeCode.MIN_TINY_INT then
    val
  else
    TypeCode.BYTE

def checkShort (val : Int16) : Int8 :=
  if val ≤ 127 ∧ val ≥ -128 then checkByte val.toInt8 else TypeCode.SHORT

def checkInteger (val : Int32) : Int8 :=
  if val ≤ 65535 ∧ val ≥ -65536 then checkShort val.toInt16
  else TypeCode.INT

def checkLong (val : Int64) : Int8 :=
  if val ≤ 4294967295 ∧ val ≥ -4294967296 then checkInteger val.toInt32
  else TypeCode.LONG

/-- `checkValue(val)`.  A value equals `NONE` if it is an `int8`, too. -/
def checkValue : Value O → Int8
  | .nil => TypeCode.NULL
  | .int8 val => if val = TypeCode.NONE then TypeCode.NONE else checkByte val
  | .bytes _ => TypeCode.BYTES
  | .slice _ _ => TypeCode.ARRAY
  | .int16 val => checkShort val
  | .int32 val => checkInteger val
  | .int64 val => checkLong val
  | .float32 _ => TypeCode.FLOAT
  | .float64 _ => TypeCode.DOUBLE
  | .string _ => TypeCode.STRING
  | .bool _ => TypeCode.CUSTOM
  | .object _ => TypeCode.CUSTOM

/-- `getTypeCode(val)` -/
def getTypeCode : Value O → Int8
  | .nil => TypeCode.NULL
  | .bytes _ => TypeCode.BYTES
  | .slice _ _ => TypeCode.ARRAY
  | .int8 _ => TypeCode.BYTE
  | .int16 _ => TypeCode.SHORT
  | .int32 _ => TypeCode.INT
  | .int64 _ => TypeCode.LONG
  | .float32 _ => TypeCode.FLOAT
  | .float64 _ => TypeCode.DOUBLE
  | .string _ => TypeCode.STRING
  | .bool _ => TypeCode.CUSTOM
  | .object _ => TypeCode.CUSTOM

/-- `toByte(val)` -/
def toByte (val : Value O) : Int8 :=
  Int8.ofInt (val.integer?.getD 0)

/-- `toShort(val)` -/
def toShort (val : Value O) : Int16 :=
  Int16.ofInt (val.integer?.getD 0)

/-! ## The buffer -/

def putShort (s : Int16) : List UInt8 :=
  toBytes 2 s.toUInt16.toNat

def putInt (i : Int32) : List UInt8 :=
  toBytes 4 i.toUInt32.toNat

/-- `Put(val)`, which writes the values of a fixed size. -/
def put : Value O → List UInt8
  | .int8 val => [val.toUInt8]
  | .int16 val => putShort val
  | .int32 val => putInt val
  | .int64 val => toBytes 8 val.toUInt64.toNat
  | .float32 bits => toBytes 4 bits.toNat
  | .float64 bits => toBytes 8 bits.toNat
  | _ => []

section Methods

variable (vf : Exporter O) (writeValue : Value O → Option (List UInt8))

def writeIntValue (i : Int32) : Option (List UInt8) :=
  writeValue (.int32 i)

/-! ## Arrays -/

/-- `writeType(av.CustomTy)`, for an array of them. -/
def writeArrayType (typeCode : Int8) (customTy : Option Int32) :
    Option (List UInt8) :=
  if typeCode = TypeCode.CUSTOM then
    customTy.bind (writeIntValue writeValue)
  else
    some []

def startArray (typeCode : Int8) (customTy : Option Int32) (size : Nat) :
    Option (List UInt8) := do
  let type ← writeArrayType writeValue typeCode customTy
  let dim ← writeIntValue writeValue 1
  let size ← writeIntValue writeValue (Int32.ofNat size)
  return typeCode.toUInt8 :: (type ++ (dim ++ size))

/-- The loop in `writeValues(av)`. -/
def writeValues : List (Value O) → Option (List UInt8)
  | [] => some []
  | value :: values => do
      let first ← writeValue value
      let rest ← writeValues values
      return first ++ rest

def endArray : Option (List UInt8) :=
  writeValue (.int8 TypeCode.NONE)

/-- `writeArray(ToArrayValue(value, btdo.vf))`.  The type code is that of the
first element, which there has to be. -/
def writeArray : List (Value O) → Option (List UInt8)
  | [] => none
  | first :: rest => do
      let typeCode := getTypeCode first
      let customTy :=
        if typeCode = TypeCode.CUSTOM then vf.GetCustomStructType first
        else none
      let start ← startArray writeValue typeCode customTy (first :: rest).length
      let values ← writeValues writeValue (first :: rest)
      let stop ← endArray writeValue
      return start ++ (values ++ stop)

/-! ## Structs -/

/-- The loop in `writeKeysAndValues(sv)`. -/
def writeKeysAndValues : List (Int32 × Value O) → Option (List UInt8)
  | [] => some []
  | (_, .nil) :: fields => writeKeysAndValues fields
  | (id, val) :: fields => do
      let field ← writeIntValue writeValue id
      let value ← writeValue val
      let rest ← writeKeysAndValues fields
      return field ++ (value ++ rest)

def writeStruct (sv : Exported O) : Option (List UInt8) := do
  let type ← writeIntValue writeValue sv.TyId
  let size ← writeIntValue writeValue (Int32.ofInt sv.Length)
  let fields ← writeKeysAndValues writeValue sv.Fields
  let stop ← writeValue (.int8 TypeCode.NONE)
  return type ++ (size ++ (fields ++ stop))

/-- `WriteMessage(msg, buf)` -/
def writeMessage (msg : Exported O) : Option (List UInt8) := do
  let struct ← writeStruct writeValue msg
  return TypeCode.VERSION.toUInt8 :: struct

/-! ## Values -/

/-- A length, and so many bytes. -/
def writeBytes (bytes : List UInt8) : Option (List UInt8) := do
  let length ← writeIntValue writeValue (Int32.ofNat bytes.length)
  return length ++ bytes

/-- What follows the code of a value, none where the value is not of the type
that its code stands for. -/
def writePayload (ty : Int8) (value : Value O) : Option (List UInt8) :=
  if ty = TypeCode.BYTE then
    some [(toByte value).toUInt8]
  else if ty = TypeCode.SHORT then
    some (putShort (toShort value))
  else if ty = TypeCode.INT then
    some (putInt value.toInteger)
  else if ty = TypeCode.LONG ∨ ty = TypeCode.FLOAT ∨ ty = TypeCode.DOUBLE then
    some (put value)
  else if ty = TypeCode.BYTES ∨ ty = TypeCode.STRING then
    match value with
    | .bytes bytes => writeBytes writeValue bytes
    | .string bytes => writeBytes writeValue bytes
    | _ => none
  else if ty = TypeCode.ARRAY then
    match value with
    | .slice _ elements => writeArray vf writeValue elements
    | _ => none
  else if ty = TypeCode.CUSTOM then do
    let sv ← vf.ExportCustomValue value
    match sv with
    | none => some []
    | some sv => writeStruct writeValue sv
  else
    some []

/-- `writeValue(nil, value)`, down to the calls of `writeValue` in it; no
caller has a validator. -/
def writeValueBody (value : Value O) : Option (List UInt8) :=
  match value with
  | .nil => some []
  | value => do
      let payload ← writePayload vf writeValue (checkValue value) value
      return (checkValue value).toUInt8 :: payload

end Methods

/-- `writeValue(nil, value)`, with this many calls one inside the other. -/
def writeValue (vf : Exporter O) : Nat → Value O → Option (List UInt8)
  | 0, _ => none
  | fuel + 1, value => writeValueBody vf (writeValue vf fuel) value

end BinaryTaggedDataOutput

end Etch.Go
