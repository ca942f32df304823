import Etch.CSharp.BinaryTaggedData
import Etch.CSharp.FlexBuffer

/-!
# The C# `BinaryTaggedDataInput`

The methods call one another through `ReadValue`, which each of them has as an
argument here.  Every call of `ReadValue` and every pass of a loop reads a byte
or throws, so that the number of bytes left bounds both: where it is used up,
the buffer throws that it is at its end.
-/

namespace Etch.CSharp

/-- The buffer that is read, the budget, and the factory, with a record of
what the reader has met. -/
structure Input (S : Type) where
  buf : FlexBuffer
  lengthBudget : Int
  factory : S
  /-- the bytes of the strings that have been read -/
  strings : List (List UInt8)
  /-- the values that validators have been asked about -/
  checks : List (Validator × Value)
  /-- the values that have been stored in arrays, with the types of these -/
  stores : List (ClrType × Value)

/-- A method of `BinaryTaggedDataInput`. -/
abbrev Reader (S : Type) := EStateM Thrown (Input S)

namespace BinaryTaggedDataInput

open BinaryTaggedData
open Etch.Java.FloatingPoint

variable {S : Type}

/-- A call of the factory. -/
def call {α : Type} (m : EStateM Thrown S α) : Reader S α :=
  fun input =>
    match m input.factory with
    | .ok value factory => .ok value { input with factory }
    | .error thrown factory => .error thrown { input with factory }

/-- A call of the buffer. -/
def get {α : Type} (op : FlexBuffer → Except Thrown (α × FlexBuffer)) :
    Reader S α :=
  fun input =>
    match op input.buf with
    | .ok (value, buf) => .ok value { input with buf }
    | .error thrown => .error thrown input

def throwing {α : Type} : Except Thrown α → Reader S α
  | .ok value => return value
  | .error thrown => throw thrown

/-- The buffer is at its end. -/
def endOfBuffer {α : Type} : Reader S α :=
  throw (.endOfStreamException " len > Avail() ")

def avail : Reader S Nat :=
  fun input => .ok input.buf.avail input

/-- A validator is asked about a value. -/
def ask (v : Validator) (value : Value) : Reader S Unit :=
  fun input => .ok () { input with checks := input.checks ++ [(v, value)] }

/-- A value is to be stored in an array. -/
def store (element : ClrType) (value : Value) : Reader S Unit :=
  fun input =>
    .ok () { input with stores := input.stores ++ [(element, value)] }

section Methods

variable (vf : ValueFactory S)
  (readValue : Option Validator → Bool → Reader S Value)

/-! ## Lengths, types and fields -/

/-- `(int) value` -/
def unbox : Value → Reader S Int
  | .int value => return value.toInt
  | .null => throw .nullReferenceException
  | _ => throw .invalidCastException

def readIntegerValue : Reader S Int := do
  let value ← readValue (some (.integer .int 0)) false
  unbox value

/-- The comparison in `ReadLength()`, and what it does to the budget. -/
def takeLength (length : Int) : Reader S Unit :=
  fun input =>
    if length < 0 ∨ length > input.lengthBudget then
      .error (.argumentException "length < 0 || length > lengthBudget") input
    else
      .ok () { input with lengthBudget := input.lengthBudget - length }

def readLength : Reader S Nat := do
  let length ← readIntegerValue readValue
  takeLength length
  return length.toNat

/-- `ReadBytes()` and `ReadSbytes()` -/
def readBytes : Reader S (List UInt8) := do
  let length ← readLength readValue
  get fun buf => buf.getFully length

def intOrStrValidator : Validator :=
  .combo (.integer .int 0) (.string 0)

/-- `new XType(id, id.ToString())` or `new Field(id, id.ToString())` -/
def ofId (id : Int32) : Java.IdName :=
  ⟨id, Java.text (ToString.toString id.toInt)⟩

/-- The type with an id or a name. -/
def findType : Value → Reader S XType
  | .int id => do
      let type ← call (vf.getTypeById id)
      return type.getD (ofId id)
  | .string name => do
      let type ← call (vf.getTypeByName name)
      return type.getD (Java.IdName.ofName name)
  -- the cast accepts null, which no map takes for a name
  | .null => throw .argumentNullException
  | _ => throw .invalidCastException

def readType : Reader S XType := do
  let obj ← readValue (some intOrStrValidator) false
  findType vf obj

/-- The field with an id or a name, where null is `none`. -/
def findField (type : XType) : Value → Reader S (Option Field)
  | .NONE => return none
  | .int id => do
      let field ← call (vf.getFieldById type id)
      return some (field.getD (ofId id))
  | .string name => do
      let field ← call (vf.getFieldByName type name)
      return some (field.getD (Java.IdName.ofName name))
  | .null => throw .argumentNullException
  | _ => throw .invalidCastException

def readField (type : XType) : Reader S (Option Field) := do
  let obj ← readValue (some intOrStrValidator) true
  findField vf type obj

/-! ## Structs -/

def startStruct : Reader S StructValue := do
  let t ← readType vf readValue
  let length ← readLength readValue
  throwing (StructValue.new t length)

def startMessage : Reader S StructValue := do
  let version ← get FlexBuffer.getByte
  if version ≠ VERSION then
    throw (Thrown.ioException ("binary tagged data version mismatch: got " ++
      ToString.toString version.toInt ++ " expected " ++
      ToString.toString VERSION.toInt))
  else
    startStruct vf readValue

/-- The check of a value in `sv.Add(key, value)`. -/
def checkEntry (value : Value) : Option Validator → Reader S Unit
  | none =>
      if vf.level = .FULL then throw (.argumentException "validator missing")
      else return ()
  | some v => do
      ask v value
      if v.validate vf.types value then return ()
      else throw (.argumentException "validator failed")

/-- `sv.Add(key, value)` -/
def add (sv : StructValue) (key : Field) : Value → Reader S StructValue
  | .null => return sv.remove key
  | value =>
      if vf.level = .NONE then
        return sv.set key value
      else do
        let v ← call (vf.getValidator sv.type key)
        checkEntry vf value v
        return sv.set key value

/-- The value of a field that has a validator, or has none. -/
def readEntry (sv : StructValue) (key : Field) :
    Option Validator → Reader S StructValue
  | some v => do
      let value ← readValue (some v) false
      add vf sv key value
  | none => do
      -- the value is read and ignored
      let _ ← readValue (some (.object 0)) false
      return sv

/-- What follows a key, with what is done in the passes after this one. -/
def readEntriesFrom (next : StructValue → Reader S StructValue)
    (sv : StructValue) : Option Field → Reader S StructValue
  | none => return sv
  | some key => do
      let v ← call (vf.getValidator sv.type key)
      let sv ← readEntry vf readValue sv key v
      next sv

/-- The loop of `ReadKeysAndValues`, while there are bytes. -/
def readEntries : Nat → StructValue → Reader S StructValue
  | 0, _ => endOfBuffer
  | bytes + 1, sv => do
      let key ← readField vf readValue sv.type
      readEntriesFrom vf readValue (readEntries bytes) sv key

def readKeysAndValues (sv : StructValue) : Reader S StructValue := do
  readEntries vf readValue (← avail) sv

def readStruct : Reader S StructValue := do
  let sv ← startStruct vf readValue
  readKeysAndValues vf readValue sv

/-! ## Arrays -/

/-- The type of `GetComponentType` under all dimensions. -/
def getBaseType (typeCode : Int8) : Option XType → Reader S ClrType
  | some type => do
      let c ← call (vf.getComponentType type)
      return c.getD .structValue
  | none => throwing (getNativeType typeCode)

/-- `GetComponentType(typeCode, customStructType, dim + 1)` -/
def getComponentType (typeCode : Int8) (customStructType : Option XType)
    (dim : Nat) : Reader S ClrType := do
  let c ← getBaseType vf typeCode customStructType
  return c.arrayOf dim

/-- The type that an array of structs has. -/
def readStructType (type : Int8) : Reader S (Option XType) :=
  if type = Java.TypeCode.CUSTOM ∨ type = Java.TypeCode.STRUCT then do
    let customStructType ← readType vf readValue
    return some customStructType
  else
    return none

def checkDim (dim : Int) : Except Thrown Unit :=
  if dim ≤ 0 ∨ dim > Validator.MAX_NDIMS then
    .error (.argumentException "dim <= 0 || dim > Validator.MAX_NDIMS")
  else
    .ok ()

def startArray : Reader S ArrayValue := do
  let type ← get FlexBuffer.getByte
  let customStructType ← readStructType vf readValue type
  let dim ← readIntegerValue readValue
  throwing (checkDim dim)
  let _length ← readLength readValue
  let element ← getComponentType vf type customStructType (dim.toNat - 1)
  return ⟨element, [], type, customStructType, dim⟩

/-- `av.Add(value)` -/
def addValue (av : ArrayValue) (value : Value) : Reader S ArrayValue := do
  store av.element value
  throwing (av.add vf.types value)

/-- What is done with an element, and in the passes after this one. -/
def readElementsFrom (next : ArrayValue → Reader S ArrayValue)
    (av : ArrayValue) : Value → Reader S ArrayValue
  | .NONE => return av
  | value => do
      let av ← addValue vf av value
      next av

/-- The loop of `ReadValues`, while there are bytes. -/
def readElements (ev : Option Validator) :
    Nat → ArrayValue → Reader S ArrayValue
  | 0, _ => endOfBuffer
  | bytes + 1, av => do
      let value ← readValue ev true
      readElementsFrom vf (readElements ev bytes) av value

def readValues (av : ArrayValue) : Option Validator → Reader S ArrayValue
  | none => throw Thrown.nullReferenceException
  | some v => do
      let ev ← throwing v.elementValidator
      readElements vf readValue ev (← avail) av

def readArray (v : Option Validator) : Reader S ArrayValue := do
  let av ← startArray vf readValue
  readValues vf readValue av v

/-! ## Values -/

/-- `ValidateValue(v, value)` -/
def validateValue (v : Option Validator) (value : Value) :
    Reader S Value :=
  match v, value with
  | none, _ => return .null
  | _, .null => return .null
  | some v, value => do
      ask v value
      throwing (v.validateValue vf.types value)

/-- `Encoding.UTF8.GetString(bytes)` -/
def getString (bytes : List UInt8) : Reader S ClrString :=
  fun input =>
    .ok (vf.getString bytes)
      { input with strings := input.strings ++ [bytes] }

/-- What follows the code of a value, and its validation. -/
def readPayload (type : Int8) (v : Option Validator) (noneOk : Bool) :
    Reader S Value :=
  if type = Java.TypeCode.NULL then
    validateValue vf v .null
  else if type = Java.TypeCode.NONE then
    if noneOk then return .NONE else validateValue vf v .NONE
  else if type = Java.TypeCode.BOOLEAN_FALSE then
    validateValue vf v (.bool false)
  else if type = Java.TypeCode.BOOLEAN_TRUE then
    validateValue vf v (.bool true)
  else if type = Java.TypeCode.BYTE then do
    let value ← get FlexBuffer.getByte
    validateValue vf v (.sbyte value)
  else if type = Java.TypeCode.SHORT then do
    let value ← get FlexBuffer.getShort
    validateValue vf v (.short value)
  else if type = Java.TypeCode.INT then do
    let value ← get FlexBuffer.getInt
    validateValue vf v (.int value)
  else if type = Java.TypeCode.LONG then do
    let value ← get FlexBuffer.getLong
    validateValue vf v (.long value)
  else if type = Java.TypeCode.FLOAT then do
    let value ← get FlexBuffer.getInt
    validateValue vf v (.float (floatToIntBits value.toUInt32))
  else if type = Java.TypeCode.DOUBLE then do
    let value ← get FlexBuffer.getLong
    validateValue vf v (.double (doubleToLongBits value.toUInt64))
  else if type = Java.TypeCode.BYTES then do
    let bytes ← readBytes readValue
    validateValue vf v
      (.array .sbyte (bytes.map fun byte => .sbyte byte.toInt8))
  else if type = Java.TypeCode.ARRAY then do
    let av ← readArray vf readValue v
    validateValue vf v av.getArray
  else if type = Java.TypeCode.EMPTY_STRING then
    validateValue vf v (.string [])
  else if type = Java.TypeCode.STRING then do
    let bytes ← readBytes readValue
    let value ← getString vf bytes
    validateValue vf v (.string value)
  else if type = Java.TypeCode.STRUCT ∨ type = Java.TypeCode.CUSTOM then do
    let sv ← readStruct vf readValue
    let value ← call (vf.importCustomValue sv)
    validateValue vf v value
  else if type ≥ Java.TypeCode.MIN_TINY_INT ∧
      type ≤ Java.TypeCode.MAX_TINY_INT then
    validateValue vf v (.sbyte type)
  else
    throw (.exception ("unsupported type code " ++
      ToString.toString type.toInt))

/-- `ReadValue(v, noneOk)`, down to the calls of `ReadValue` in it. -/
def readValueBody (v : Option Validator) (noneOk : Bool) :
    Reader S Value := do
  let type ← get FlexBuffer.getByte
  readPayload vf readValue type v noneOk

end Methods

/-- `ReadValue(v, noneOk)`, while there are bytes. -/
def readValue (vf : ValueFactory S) :
    Nat → Option Validator → Bool → Reader S Value
  | 0, _, _ => endOfBuffer
  | bytes + 1, v, noneOk => readValueBody vf (readValue vf bytes) v noneOk

/-- `ReadMessage(buf)`, up to the assignments in `finally`. -/
def readMessage (vf : ValueFactory S) (buf : FlexBuffer) (factory : S) :
    EStateM.Result Thrown (Input S) StructValue :=
  let read := readValue vf buf.avail
  let input := ⟨buf, buf.avail, factory, [], [], []⟩
  (do
    let msg ← startMessage vf read
    readKeysAndValues vf read msg) input

end BinaryTaggedDataInput

end Etch.CSharp
