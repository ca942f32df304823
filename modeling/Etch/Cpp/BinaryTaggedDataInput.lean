import Etch.Cpp.BinaryTaggedData
import Etch.Cpp.FlexBufferReads
import Etch.Library.Stateful

/-!
# The C++ `EtchBinaryTaggedDataInput`

The methods call one another through `readValue`, and the two loops call
themselves again for each further pass; what they call is an argument here.
The number of such calls one inside the other is the fuel of a run: one that
uses it up is cut off, where the source goes on.

A caller that does not look at a status goes on after it.  The run keeps a
list of the calls of `readValue`, for what it says of them.
-/

namespace Etch.Cpp

open Etch.Library.Stateful

/-- What `readValue` is called for. -/
inductive Asker where
  | type
  | field
  /-- a length or a number of dimensions -/
  | integer
  /-- an element, of an array that takes `NULL` for one or does not -/
  | element (takesNull : Bool)
  | entry
  /-- the value of a field that is not known -/
  | ignored
deriving DecidableEq

/-- A call of `readValue`, and the bytes that were left. -/
structure Ask where
  asker : Asker
  unread : List UInt8
deriving DecidableEq

/-- The members of the reader, the state of the factory, and the calls of
`readValue` so far, the last one first. -/
structure EtchInput (S : Type) where
  mBuffer : EtchFlexBuffer
  mLengthBudget : Int
  factory : S
  asks : List Ask

/-- How many bytes are left. -/
def EtchInput.avail {S : Type} (input : EtchInput S) : Nat :=
  input.mBuffer.getAvailableBytes

/-- A method of `EtchBinaryTaggedDataInput`. -/
abbrev Reader (S : Type) := EStateM Failure (EtchInput S)

namespace EtchBinaryTaggedDataInput

open EtchBinaryTaggedData

variable {S : Type}

/-- A call of the buffer. -/
def get {α : Type} (op : EtchFlexBuffer → Option (α × EtchFlexBuffer)) :
    Reader S α :=
  fun input =>
    match op input.mBuffer with
    | some (value, mBuffer) => .ok value { input with mBuffer }
    | none => .error .ETCH_ERANGE input

/-- A call of the factory. -/
def call {α : Type} (m : Lookup S α) : Reader S (Option α) :=
  fun input =>
    match m input.factory with
    | (found, factory) => .ok found { input with factory }

def throwing {α : Type} : Except Failure α → Reader S α
  | .ok value => return value
  | .error failure => throw failure

/-- A call whose status is looked at, none where it is not `ETCH_OK`. -/
def attempt {α : Type} (m : Reader S α) : Reader S (Option α) :=
  fun input =>
    match m input with
    | .ok value after => .ok (some value) after
    | .error failure after =>
        if failure.isStatus then .ok none after else .error failure after

/-- `if (m != ETCH_OK) return status;` -/
def orReturn {α : Type} (status : Failure) (m : Reader S α) : Reader S α :=
  fun input =>
    match m input with
    | .ok value after => .ok value after
    | .error failure after =>
        .error (if failure.isStatus then status else failure) after

/-- The call of `readValue` that begins. -/
def note (asker : Asker) : Reader S Unit :=
  fun input =>
    .ok () { input with asks := ⟨asker, input.mBuffer.unread⟩ :: input.asks }

/-- What the methods call. -/
structure Calls (S : Type) where
  readValue : Asker → EtchValidator → Bool → Reader S EtchObject
  readKeysAndValues : EtchStructValue → Reader S EtchStructValue
  readValues : EtchValidator → EtchArrayValue → Reader S EtchArrayValue

/-- `validateValue(v, value, result)` -/
def validateValue (v : EtchValidator) : EtchObject → Except Failure EtchObject
  | .null => .ok .null
  | value =>
      match v.validateValue value with
      | some result => .ok result
      | none => .error .ETCH_ERROR

section Methods

variable (vf : EtchValueFactory S) (next : Calls S)

/-! ## Lengths, types and fields -/

def mIntValidator : EtchValidator :=
  .integer .int32 0

def mIntOrStrValidator : EtchValidator :=
  .combo (.integer .int32 0) (.string 0)

def readIntegerValue : Reader S Int := do
  let tmp ← orReturn .ETCH_ERROR (next.readValue .integer mIntValidator false)
  match tmp with
  | .null => throw .nullPointer
  | .int32 value => return value.toInt
  | _ => throw .undefined

/-- The comparison in `readLength`, and what it does to the budget. -/
def takeLength (length : Int) : Reader S Unit :=
  fun input =>
    if length < 0 ∨ length > input.mLengthBudget then
      .error Failure.ETCH_EIO input
    else
      .ok () { input with mLengthBudget := input.mLengthBudget - length }

def readLength : Reader S Nat := do
  let length ← orReturn .ETCH_ERROR (readIntegerValue next)
  takeLength length
  return length.toNat

def readBytes : Reader S (List UInt8) := do
  let length ← orReturn .ETCH_ERROR (readLength next)
  let bytes ← get fun buf => some (buf.get length)
  if bytes.length ≠ length then
    throw .ETCH_ERROR
  return bytes

/-- What has been found, or else something of this name. -/
def orNamed (name : EtchString) : Option EtchName → Reader S EtchName
  | some found => return found
  | none =>
      match EtchName.ofName name with
      | some item => return item
      | none => throw .undefined

def readType : Reader S EtchType := do
  let obj ← orReturn .ETCH_ERROR
    (next.readValue .type mIntOrStrValidator false)
  match obj with
  | .null => throw .nullPointer
  | .int32 id => return (← call (vf.getTypeById id)).getD (.ofId id)
  | .string name => orNamed name (← call (vf.getTypeByName name))
  | .NONE => orNamed NONE (← call (vf.getTypeByName NONE))
  | _ => throw .ETCH_ERROR

def readField (type : EtchType) : Reader S EtchField := do
  let obj ← orReturn .ETCH_ERROR
    (next.readValue .field mIntOrStrValidator true)
  match obj with
  | .null => throw .nullPointer
  | .NONE => throw .ETCH_ENOT_EXIST
  | .int32 id => return (← call (vf.getFieldById type id)).getD (.ofId id)
  | .string name => orNamed name (← call (vf.getFieldByName type name))
  | _ => throw .ETCH_ERROR

/-! ## Structs -/

def startStruct : Reader S EtchStructValue := do
  let t ← orReturn .ETCH_ERROR (readType vf next)
  let _length ← orReturn .ETCH_ERROR (readLength next)
  return ⟨t, []⟩

def startMessage : Reader S EtchStructValue := do
  let version ← attempt (get EtchFlexBuffer.getByte)
  if version.getD 0 ≠ VERSION then
    throw Failure.ETCH_EIO
  let type ← orReturn Failure.ETCH_EIO (readType vf next)
  let _length ← orReturn Failure.ETCH_EIO (readLength next)
  return ⟨type, []⟩

def put (sv : EtchStructValue) (key : EtchField) (value : EtchObject) :
    Reader S EtchStructValue :=
  fun input =>
    match sv.put vf key value input.factory with
    | (sv, factory) => .ok sv { input with factory }

/-- A pass of the loop in `readKeysAndValues`, and those after it. -/
def readKeysAndValues (sv : EtchStructValue) : Reader S EtchStructValue := do
  let key ← attempt (readField vf next sv.mType)
  match key with
  | none => return sv
  | some key =>
      let v ← call (vf.getValidator sv.mType key)
      match v with
      | some v =>
          let obj ← next.readValue .entry v false
          let sv ← put vf sv key obj
          next.readKeysAndValues sv
      | none =>
          -- the value is read and ignored, and whether that fails as well
          let _ ← attempt (next.readValue .ignored (.object 0) false)
          next.readKeysAndValues sv

def readStruct : Reader S EtchStructValue := do
  let sv ← startStruct vf next
  next.readKeysAndValues sv

/-! ## Arrays -/

/-- The type that an array of structs has. -/
def readStructType (type : Int8) : Reader S (Option EtchType) :=
  if type = EtchTypeCode.CUSTOM ∨ type = EtchTypeCode.STRUCT then do
    let customStructType ← orReturn .ETCH_ERROR (readType vf next)
    return some customStructType
  else
    return none

/-- `getComponentType(typeCode, customStructType, dim)`, none for `NULL`. -/
def getComponentType (typeCode : Int8) :
    Option EtchType → Reader S (Option EtchObjectType)
  | some type => do
      let c ← call (vf.getComponentType type)
      return some (c.getD .structValue)
  | none => return getNativeType typeCode

/-- `allocNativeArray`, with the component type of the array. -/
def allocNativeArray (typeCode : Int8) (customStructType : Option EtchType) :
    Reader S EtchObjectType := do
  let componentType ← getComponentType vf typeCode customStructType
  match componentType with
  | none => throw .ETCH_ERROR
  | some c =>
      if c.hasBase || vf.getNativeArrayForComponentType c then return c
      else throw .ETCH_ERROR

def startArray : Reader S EtchArrayValue := do
  -- at the end of the buffer this is not set, and the next read fails
  let type := (← attempt (get EtchFlexBuffer.getByte)).getD 0
  let customStructType ← readStructType vf next type
  let dim ← orReturn .ETCH_EINVAL (readIntegerValue next)
  if dim ≤ 0 ∨ dim > EtchValidator.MAX_NDIMS then
    throw .ETCH_EINVAL
  let length ← orReturn .ETCH_ERROR (readLength next)
  let component ← allocNativeArray vf type customStructType
  return ⟨component, dim.toNat, List.replicate length .null, type,
    customStructType, 0⟩

/-- A pass of the loop in `readValues`, and those after it. -/
def readValues (ev : EtchValidator) (av : EtchArrayValue) :
    Reader S EtchArrayValue := do
  -- the status is overwritten by that of `add`
  let value ← attempt (next.readValue (.element av.takesNull) ev true)
  match value.getD .null with
  | .NONE => return av
  | value =>
      let av ← throwing (av.add value)
      next.readValues ev av

def readArray (v : EtchValidator) : Reader S EtchArrayValue := do
  let av ← startArray vf next
  match v.getElementValidator with
  | none => throw .ETCH_EINVAL
  | some ev => next.readValues ev av

/-! ## Values -/

/-- What follows the code of a value, and its validation. -/
def readPayload (type : Int8) (v : EtchValidator) (noneOk : Bool) :
    Reader S EtchObject :=
  if type = EtchTypeCode.Null then
    throwing (validateValue v .null)
  else if type = EtchTypeCode.NONE then
    if noneOk then return .NONE else throwing (validateValue v .NONE)
  else if type = EtchTypeCode.BOOLEAN_FALSE then
    throwing (validateValue v (.bool false))
  else if type = EtchTypeCode.BOOLEAN_TRUE then
    throwing (validateValue v (.bool true))
  else if type = EtchTypeCode.BYTE then do
    let tmp ← orReturn .ETCH_ERROR (get EtchFlexBuffer.getByte)
    throwing (validateValue v (.byte tmp))
  else if type = EtchTypeCode.SHORT then do
    let tmp ← orReturn .ETCH_ERROR (get EtchFlexBuffer.getShort)
    throwing (validateValue v (.short tmp))
  else if type = EtchTypeCode.INT then do
    let tmp ← orReturn .ETCH_ERROR (get EtchFlexBuffer.getInt)
    throwing (validateValue v (.int32 tmp))
  else if type = EtchTypeCode.LONG then do
    let tmp ← orReturn .ETCH_ERROR (get EtchFlexBuffer.getLong)
    throwing (validateValue v (.long tmp))
  else if type = EtchTypeCode.FLOAT then do
    let tmp ← orReturn .ETCH_ERROR (get EtchFlexBuffer.getFloat)
    throwing (validateValue v (.float tmp))
  else if type = EtchTypeCode.DOUBLE then do
    let tmp ← orReturn .ETCH_ERROR (get EtchFlexBuffer.getDouble)
    throwing (validateValue v (.double tmp))
  else if type = EtchTypeCode.BYTES then do
    let bytes ← orReturn .ETCH_ERROR (readBytes next)
    throwing (validateValue v
      (.nativeArray false .byte 1 (bytes.map fun byte => .byte byte.toInt8)))
  else if type = EtchTypeCode.ARRAY then do
    let av ← orReturn .ETCH_ERROR (readArray vf next v)
    if v.validate av.getArray then return av.getArray
    else throw .ETCH_ERROR
  else if type = EtchTypeCode.EMPTY_STRING then
    throwing (validateValue v (.string (.ofUtf8 [])))
  else if type = EtchTypeCode.STRING then do
    let bytes ← orReturn .ETCH_ERROR (readBytes next)
    throwing (validateValue v (.string (.ofUtf8 bytes)))
  else if type = EtchTypeCode.STRUCT ∨ type = EtchTypeCode.CUSTOM then do
    let sv ← orReturn .ETCH_ERROR (readStruct vf next)
    let obj ← call (vf.importCustomValue sv)
    match obj with
    | none => throw .ETCH_ERROR
    | some obj => throwing (validateValue v obj)
  else if type ≥ EtchTypeCode.MIN_TINY_INT ∧
      type ≤ EtchTypeCode.MAX_TINY_INT then
    throwing (validateValue v (.byte type))
  else
    throw .ETCH_ERANGE

/-- `readValue(v, noneOk, result)` -/
def readValue (asker : Asker) (v : EtchValidator) (noneOk : Bool) :
    Reader S EtchObject := do
  note asker
  let type ← orReturn .ETCH_ERROR (get EtchFlexBuffer.getByte)
  readPayload vf next type v noneOk

end Methods

/-- A run that is cut off. -/
def cutOff : Calls S where
  readValue _ _ _ := throw .outOfFuel
  readKeysAndValues _ := throw .outOfFuel
  readValues _ _ := throw .outOfFuel

/-- What the methods call, with this many calls one inside the other. -/
def calls (vf : EtchValueFactory S) : Nat → Calls S
  | 0 => cutOff
  | fuel + 1 =>
      { readValue := readValue vf (calls vf fuel)
        readKeysAndValues := readKeysAndValues vf (calls vf fuel)
        readValues := readValues (calls vf fuel) }

/-- The body of `readMessage(buf, message)`. -/
def message (vf : EtchValueFactory S) (fuel : Nat) :
    Reader S EtchStructValue := do
  let msg ← startMessage vf (calls vf fuel)
  (calls vf fuel).readKeysAndValues msg

/-- `readMessage(buf, message)`, up to the assignments on failure. -/
def readMessage (vf : EtchValueFactory S) (fuel : Nat)
    (buf : EtchFlexBuffer) (factory : S) :
    EStateM.Result Failure (EtchInput S) EtchStructValue :=
  message vf fuel
    ⟨buf, Int.bmod buf.getAvailableBytes (2 ^ 32), factory, []⟩

end EtchBinaryTaggedDataInput

end Etch.Cpp
