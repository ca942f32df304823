import Etch.Java.BinaryTaggedDataOutput

/-!
# The Java `BinaryTaggedDataInput`

The methods call one another through `readValue`, which each of them has as an
argument here.  Every call of `readValue` and every pass of a loop reads a byte
or throws, so that the number of bytes left bounds both: where it is used up,
the buffer throws that it is at its end.
-/

namespace Etch.Java

open Etch.Library.Stateful

/-- The buffer that is read, the budget, and the factory. -/
structure Input (S : Type) where
  buf : FlexBuffer
  lengthBudget : Int
  factory : S
  /-- what `readLength` has read, and whether it has accepted it -/
  lengths : List (Int × Bool)

/-- A method of `BinaryTaggedDataInput`. -/
abbrev Reader (S : Type) := EStateM Thrown (Input S)

namespace BinaryTaggedDataInput

open BinaryTaggedData FloatingPoint

variable {S : Type}

/-- A call of the factory. -/
def call {α : Type} (m : EStateM Thrown S α) : Reader S α :=
  fun input =>
    match m input.factory with
    | .ok value factory => .ok value { input with factory }
    | .error thrown factory => .error thrown { input with factory }

/-- A call of the buffer. -/
def get {α : Type} (op : FlexBuffer → Except Exception (α × FlexBuffer)) :
    Reader S α :=
  fun input =>
    match op input.buf with
    | .ok (value, buf) => .ok value { input with buf }
    | .error exception => .error (.buffer exception) input

def throwing {α : Type} : Except Thrown α → Reader S α
  | .ok value => return value
  | .error thrown => throw thrown

/-- The buffer is at its end. -/
def endOfBuffer {α : Type} : Reader S α :=
  throw (.buffer (.eofException "len > avail()"))

def avail : Reader S Nat :=
  fun input => .ok input.buf.avail input

def getByte : Reader S Int8 := do
  let byte ← get FlexBuffer.getByte
  return Int8.ofInt byte

section Methods

variable (vf : ValueFactory S)
  (readValue : Option Validator → Bool → Reader S Value)

/-! ## Lengths, types and fields -/

/-- `readIntegerValue()`, which is unboxed wherever it is called. -/
def readIntegerValue : Reader S Int := do
  let value ← readValue (some (.integer .int 0)) false
  match value with
  | .int value => return value.toInt
  | .null => throw .nullPointerException
  | _ => throw .classCastException

/-- The comparison in `readLength()`, and what it does to the budget. -/
def takeLength (length : Int) : Reader S Unit :=
  fun input =>
    if length < 0 ∨ length > input.lengthBudget then
      .error
        (.illegalArgumentException
          (text "length < 0 || length > lengthBudget"))
        { input with lengths := input.lengths ++ [(length, false)] }
    else
      .ok ()
        { input with
          lengthBudget := input.lengthBudget - length
          lengths := input.lengths ++ [(length, true)] }

def readLength : Reader S Nat := do
  let length ← readIntegerValue readValue
  takeLength length
  return length.toNat

def readBytes : Reader S (List UInt8) := do
  let length ← readLength readValue
  get fun buf => buf.getFully length

def intOrStrValidator : Validator :=
  .combo (.integer .int 0) (.string 0)

/-- `new Type(id, id.toString())` or `new Field(id, id.toString())` -/
def ofId (id : Int32) : IdName :=
  ⟨id, text (ToString.toString id.toInt)⟩

def readType : Reader S IdName := do
  let obj ← readValue (some intOrStrValidator) false
  match obj with
  | .int id =>
      let type ← call (vf.getTypeById id)
      return type.getD (ofId id)
  | .string name =>
      let type ← call (vf.getTypeByName name)
      return type.getD (IdName.ofName name)
  | _ => throw (.assertionException (text "obj instanceof String"))

/-- `readField(type)`, where null is `none`. -/
def readField (type : IdName) : Reader S (Option Field) := do
  let obj ← readValue (some intOrStrValidator) true
  match obj with
  | .NONE => return none
  | .int id =>
      let field ← call (vf.getFieldById type id)
      return some (field.getD (ofId id))
  | .string name =>
      let field ← call (vf.getFieldByName type name)
      return some (field.getD (IdName.ofName name))
  | _ => throw (.assertionException (text "obj instanceof String"))

/-! ## Structs -/

def startStruct : Reader S StructValue := do
  let t ← readType vf readValue
  let length ← readLength readValue
  throwing (StructValue.new t length)

def startMessage : Reader S StructValue := do
  let version ← getByte
  if version ≠ VERSION then
    throw (Thrown.ioException (text ("binary tagged data version mismatch: got " ++
      ToString.toString version.toInt ++ " expected " ++
      ToString.toString VERSION.toInt)))
  startStruct vf readValue

/-- The loop of `readKeysAndValues`, while there are bytes. -/
def readEntries : Nat → StructValue → Reader S StructValue
  | 0, _ => endOfBuffer
  | bytes + 1, sv => do
      let key ← readField vf readValue sv.type
      match key with
      | none => return sv
      | some key =>
          let v ← call (vf.getValidator sv.type key)
          match v with
          | some v =>
              let value ← readValue (some v) false
              let sv ← call (sv.put vf key value)
              readEntries bytes sv
          | none =>
              -- the value is read and ignored
              let _ ← readValue (some (.object 0)) false
              readEntries bytes sv

def readKeysAndValues (sv : StructValue) : Reader S StructValue := do
  readEntries vf readValue (← avail) sv

def readStruct : Reader S StructValue := do
  let sv ← startStruct vf readValue
  readKeysAndValues vf readValue sv

/-! ## Arrays -/

/-- The class of `getComponentType` under all dimensions. -/
def getBaseType (typeCode : Int8) : Option IdName → Reader S JavaClass
  | some type => do
      let c ← call (vf.getComponentType type)
      return c.getD .structValue
  | none => throwing (getNativeType typeCode)

/-- `getComponentType(typeCode, customStructType, dim)` -/
def getComponentType (typeCode : Int8) (customStructType : Option IdName)
    (dim : Nat) : Reader S JavaClass := do
  let c ← getBaseType vf typeCode customStructType
  return c.arrayOf dim

/-- The type that an array of structs has. -/
def readStructType (type : Int8) : Reader S (Option IdName) :=
  if type = TypeCode.CUSTOM ∨ type = TypeCode.STRUCT then do
    let customStructType ← readType vf readValue
    return some customStructType
  else
    return none

def checkDim (dim : Int) : Except Thrown Unit :=
  if dim ≤ 0 ∨ dim > Validator.MAX_NDIMS then
    .error (.illegalArgumentException
      (text "dim <= 0 || dim > Validator.MAX_NDIMS"))
  else
    .ok ()

def startArray : Reader S ArrayValue := do
  let type ← getByte
  let customStructType ← readStructType vf readValue type
  let dim ← readIntegerValue readValue
  throwing (checkDim dim)
  let _length ← readLength readValue
  let component ← getComponentType vf type customStructType (dim.toNat - 1)
  return ⟨component, [], type, customStructType, dim⟩

/-- The loop of `readValues`, while there are bytes. -/
def readElements (ev : Option Validator) :
    Nat → ArrayValue → Reader S ArrayValue
  | 0, _ => endOfBuffer
  | bytes + 1, av => do
      let value ← readValue ev true
      match value with
      | .NONE => return av
      | value =>
          let av ← throwing (av.add vf.classes.isSuper value)
          readElements ev bytes av

def readValues (av : ArrayValue) (v : Option Validator) :
    Reader S ArrayValue := do
  match v with
  | none => throw Thrown.nullPointerException
  | some v =>
      let ev ← throwing v.elementValidator
      readElements vf readValue ev (← avail) av

def readArray (v : Option Validator) : Reader S ArrayValue := do
  let av ← startArray vf readValue
  readValues vf readValue av v

/-! ## Values -/

/-- `validateValue(v, value)` -/
def validateValue (v : Option Validator) (value : Value) :
    Except Thrown Value :=
  match v, value with
  | none, _ => .ok .null
  | _, .null => .ok .null
  | some v, value => v.validateValue vf.classes value

/-- What follows the code of a value, and its validation. -/
def readPayload (type : Int8) (v : Option Validator) (noneOk : Bool) :
    Reader S Value :=
  if type = TypeCode.NULL then
    throwing (validateValue vf v .null)
  else if type = TypeCode.NONE then
    if noneOk then return .NONE else throwing (validateValue vf v .NONE)
  else if type = TypeCode.BOOLEAN_FALSE then
    throwing (validateValue vf v (.boolean false))
  else if type = TypeCode.BOOLEAN_TRUE then
    throwing (validateValue vf v (.boolean true))
  else if type = TypeCode.BYTE then do
    let value ← get FlexBuffer.getByte
    throwing (validateValue vf v (.byte (Int8.ofInt value)))
  else if type = TypeCode.SHORT then do
    let value ← get FlexBuffer.getShort
    throwing (validateValue vf v (.short (Int16.ofInt value)))
  else if type = TypeCode.INT then do
    let value ← get FlexBuffer.getInt
    throwing (validateValue vf v (.int (Int32.ofInt value)))
  else if type = TypeCode.LONG then do
    let value ← get FlexBuffer.getLong
    throwing (validateValue vf v (.long (Int64.ofInt value)))
  else if type = TypeCode.FLOAT then do
    let value ← get FlexBuffer.getInt
    throwing (validateValue vf v
      (.float (floatToIntBits (Int32.ofInt value).toUInt32)))
  else if type = TypeCode.DOUBLE then do
    let value ← get FlexBuffer.getLong
    throwing (validateValue vf v
      (.double (doubleToLongBits (Int64.ofInt value).toUInt64)))
  else if type = TypeCode.BYTES then do
    let bytes ← readBytes readValue
    throwing (validateValue vf v
      (.array .byte (bytes.map fun byte => .byte byte.toInt8)))
  else if type = TypeCode.ARRAY then do
    let av ← readArray vf readValue v
    throwing (validateValue vf v av.getArray)
  else if type = TypeCode.EMPTY_STRING then
    throwing (validateValue vf v (.string []))
  else if type = TypeCode.STRING then do
    let bytes ← readBytes readValue
    throwing (validateValue vf v (.string (vf.newString bytes)))
  else if type = TypeCode.STRUCT ∨ type = TypeCode.CUSTOM then do
    let sv ← readStruct vf readValue
    let value ← call (vf.importCustomValue sv)
    throwing (validateValue vf v value)
  else if type ≥ TypeCode.MIN_TINY_INT ∧ type ≤ TypeCode.MAX_TINY_INT then
    throwing (validateValue vf v (.byte type))
  else
    throw (.unsupportedOperationException (text "unsupported type code " ++
      text (ToString.toString type.toInt)))

/-- `readValue(v, noneOk)`, down to the calls of `readValue` in it. -/
def readValueBody (v : Option Validator) (noneOk : Bool) :
    Reader S Value := do
  let type ← getByte
  readPayload vf readValue type v noneOk

end Methods

/-- `readValue(v, noneOk)`, while there are bytes. -/
def readValue (vf : ValueFactory S) :
    Nat → Option Validator → Bool → Reader S Value
  | 0, _, _ => endOfBuffer
  | bytes + 1, v, noneOk => readValueBody vf (readValue vf bytes) v noneOk

/-- `readMessage(buf)`, up to the assignments in `finally`. -/
def readMessage (vf : ValueFactory S) (buf : FlexBuffer) (factory : S) :
    EStateM.Result Thrown (Input S) StructValue :=
  let read := readValue vf buf.avail
  let input := ⟨buf, buf.avail, factory, []⟩
  (do
    let msg ← startMessage vf read
    readKeysAndValues vf read msg) input

end BinaryTaggedDataInput

end Etch.Java
