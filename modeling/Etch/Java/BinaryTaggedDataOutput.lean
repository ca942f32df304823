import Etch.Java.BinaryTaggedData
import Etch.Java.FlexBufferValues

/-!
# The Java `BinaryTaggedDataOutput`

The methods call one another through `writeValue`, which each of them has as
an argument here.  `writeValue` itself has the depth of the stack that is left:
an object may be exported as a struct that has the object in it.
-/

namespace Etch.Java

open Etch.Library.Stateful

/-- The buffer that is written, and the factory. -/
structure Output (S : Type) where
  buf : FlexBuffer
  factory : S

/-- A method of `BinaryTaggedDataOutput`. -/
abbrev Writer (S : Type) := EStateM Thrown (Output S)

namespace BinaryTaggedDataOutput

open BinaryTaggedData

variable {S : Type}

/-- A call of the factory. -/
def call {α : Type} (m : EStateM Thrown S α) : Writer S α :=
  fun out =>
    match m out.factory with
    | .ok value factory => .ok value { out with factory }
    | .error thrown factory => .error thrown { out with factory }

/-- A call of the buffer. -/
def put (op : FlexBuffer → Except Exception FlexBuffer) : Writer S Unit :=
  fun out =>
    match op out.buf with
    | .ok buf => .ok () { out with buf }
    | .error exception => .error (.buffer exception) out

def throwing {α : Type} : Except Thrown α → Writer S α
  | .ok value => return value
  | .error thrown => throw thrown

/-- `(Number) value`, where there is one. -/
def number : Value → Writer S Int
  | .null => throw .nullPointerException
  | value =>
      match value.integer? with
      | some number => return number
      | none => throw .classCastException

/-- The bytes of a `byte[]`. -/
def bytesOf (elements : List Value) : List UInt8 :=
  elements.map fun
    | .byte value => value.toUInt8
    | _ => 0

section Methods

variable (vf : ValueFactory S) (stringTypeAndField : Bool)
  (writeValue : Option Validator → Value → Writer S Unit)

def writeIntValue (value : Int32) : Writer S Unit :=
  writeValue (some (.integer .int 0)) (.int value)

def writeStringValue (value : JavaString) : Writer S Unit :=
  writeValue (some (.string 0)) (.string value)

def writeNoneValue : Writer S Unit :=
  writeValue (some .none) .NONE

def writeType (type : IdName) : Writer S Unit :=
  if stringTypeAndField then writeStringValue writeValue type.name
  else writeIntValue writeValue type.id

def writeField (field : Field) : Writer S Unit :=
  if stringTypeAndField then writeStringValue writeValue field.name
  else writeIntValue writeValue field.id

def writeBytes (value : List UInt8) : Writer S Unit := do
  let n := value.length
  writeIntValue writeValue (Int32.ofNat n)
  put fun buf => buf.putArray value 0 n

def startStruct (struct : StructValue) : Writer S Unit := do
  writeType stringTypeAndField writeValue struct.type
  writeIntValue writeValue (Int32.ofNat struct.fields.length)

def endStruct : Writer S Unit :=
  writeNoneValue writeValue

def startArray (array : ArrayValue) : Writer S Unit := do
  put fun buf => buf.putByte array.typeCode.toInt
  if array.typeCode = TypeCode.CUSTOM then
    match array.customStructType with
    | none => throw .nullPointerException
    | some type => writeType stringTypeAndField writeValue type
  writeIntValue writeValue (Int32.ofInt array.dim)
  writeIntValue writeValue (Int32.ofNat array.elements.length)

def endArray : Writer S Unit :=
  writeNoneValue writeValue

def writeValues (v : Option Validator) : List Value → Writer S Unit
  | [] => return ()
  | value :: values => do
      writeValue v value
      writeValues v values

def writeKeysAndValues (t : IdName) : List (Field × Value) → Writer S Unit
  | [] => return ()
  | (f, value) :: entries => do
      writeField stringTypeAndField writeValue f
      let v ← call (vf.getValidator t f)
      writeValue v value
      writeKeysAndValues t entries

def writeStruct (sv : StructValue) : Writer S Unit := do
  startStruct stringTypeAndField writeValue sv
  writeKeysAndValues vf stringTypeAndField writeValue sv.type sv.fields
  endStruct writeValue

def writeArray (av : ArrayValue) (v : Option Validator) :
    Writer S Unit := do
  startArray stringTypeAndField writeValue av
  match v with
  | none => throw .nullPointerException
  | some v =>
      let ev ← throwing v.elementValidator
      writeValues writeValue ev av.elements
  endArray writeValue

/-- `toArrayValue(value, v)` of an array. -/
def toArrayValue (component : JavaClass) (elements : List Value)
    (v : Option Validator) : Writer S ArrayValue := do
  let c := component.base.1
  let dim := component.base.2 + 1
  let typeCode := getNativeTypeCode c
  if typeCode = TypeCode.CUSTOM ∨ typeCode = TypeCode.STRUCT then
    let found ← call (vf.getCustomStructType c)
    let customStructType :=
      match found with
      | some type => some type
      | none =>
          if c = JavaClass.structValue then v.bind findStructValueValidator else none
    match customStructType with
    | none =>
        throw (Thrown.illegalArgumentException
          (text "customStructType == null"))
    | some type =>
        return ⟨component, elements, typeCode, some type, dim⟩
  else
    return ⟨component, elements, typeCode, none, dim⟩

/-- The validation of a value before it is written. -/
def check (v : Option Validator) (value : Value) : Except Thrown Unit :=
  match value with
  | .null => .ok ()
  | value =>
      if vf.level = .NONE then
        .ok ()
      else
        match v with
        | none =>
            if vf.level = .FULL then
              .error (.illegalArgumentException (text "validator missing"))
            else
              .ok ()
        | some v =>
            if v.validate vf.classes value then .ok ()
            else
              .error (.illegalArgumentException
                (text "validator failed for value"))

/-- What follows the code of a value. -/
def writePayload (typeCode : Int8) (v : Option Validator) (value : Value) :
    Writer S Unit :=
  if typeCode = TypeCode.NULL ∨ typeCode = TypeCode.NONE ∨
      typeCode = TypeCode.BOOLEAN_FALSE ∨ typeCode = TypeCode.BOOLEAN_TRUE ∨
      typeCode = TypeCode.EMPTY_STRING then
    return ()
  else if typeCode = TypeCode.BYTE then do
    let n ← number value
    put fun buf => buf.putByte n
  else if typeCode = TypeCode.SHORT then do
    let n ← number value
    put fun buf => buf.putShort n
  else if typeCode = TypeCode.INT then do
    let n ← number value
    put fun buf => buf.putNumber 4 n
  else if typeCode = TypeCode.LONG then do
    let n ← number value
    put fun buf => buf.putLong n
  else if typeCode = TypeCode.FLOAT then
    match value with
    | .float bits =>
        put fun buf =>
          buf.putNumber 4 (FloatingPoint.floatToIntBits bits).toNat
    | _ => throw .classCastException
  else if typeCode = TypeCode.DOUBLE then
    match value with
    | .double bits =>
        put fun buf => buf.putLong (FloatingPoint.doubleToLongBits bits).toNat
    | _ => throw .classCastException
  else if typeCode = TypeCode.BYTES then
    match value with
    | .array _ elements => writeBytes writeValue (bytesOf elements)
    | _ => throw .classCastException
  else if typeCode = TypeCode.ARRAY then
    match value with
    | .array component elements => do
        let av ← toArrayValue vf component elements v
        writeArray stringTypeAndField writeValue av v
    | _ => throw .classCastException
  else if typeCode = TypeCode.STRING then
    match value with
    | .string s => writeBytes writeValue (vf.getBytes s)
    | _ => throw .classCastException
  else if typeCode = TypeCode.CUSTOM then do
    let struct ← call (vf.exportCustomValue value)
    match struct with
    | none =>
        throw (.unsupportedOperationException (text "unsupported type"))
    | some struct => writeStruct vf stringTypeAndField writeValue struct
  else if typeCode ≥ TypeCode.MIN_TINY_INT ∧
      typeCode ≤ TypeCode.MAX_TINY_INT then
    return ()
  else
    throw (.unsupportedOperationException (text "unsupported type code " ++
      text (ToString.toString typeCode.toInt)))

/-- `writeValue(v, value)`, down to the calls of `writeValue` in it. -/
def writeValueBody (v : Option Validator) (value : Value) :
    Writer S Unit := do
  let typeCode := checkValue value
  throwing (check vf v value)
  put fun buf => buf.putByte typeCode.toInt
  writePayload vf stringTypeAndField writeValue typeCode v value

end Methods

/-- `writeValue(v, value)`, with a stack of some depth. -/
def writeValue (vf : ValueFactory S) (stringTypeAndField : Bool) :
    Nat → Option Validator → Value → Writer S Unit
  | 0, _, _ => throw .stackOverflowError
  | depth + 1, v, value =>
      writeValueBody vf stringTypeAndField
        (writeValue vf stringTypeAndField depth) v value

/-- `writeMessage(msg, buf)` -/
def writeMessage (vf : ValueFactory S) (stringTypeAndField : Bool)
    (depth : Nat) (msg : StructValue) : Writer S Unit := do
  let write := writeValue vf stringTypeAndField depth
  put fun buf => buf.putByte VERSION.toInt
  startStruct stringTypeAndField write msg
  writeKeysAndValues vf stringTypeAndField write msg.type msg.fields
  endStruct write

end BinaryTaggedDataOutput

end Etch.Java
