import Etch.Cpp.BinaryTaggedData
import Etch.Cpp.FlexBufferWrites
import Etch.Library.Stateful

/-!
# The C++ `EtchBinaryTaggedDataOutput`

What the bytes are put into is an argument here: the `EtchFlexBuffer` of the
source, or something that takes every put.  So is what the methods call to
write a value; the number of such calls one inside the other is the fuel of a
run.
-/

namespace Etch.Cpp

open Etch.Library.Stateful

/-- The calls of the buffer that the writer makes. -/
def EtchFlexBuffer.Call.IsPut : EtchFlexBuffer.Call → Prop
  | putBytes _ | putByte _ | putShort _ | putInt _ | putLong _ => True
  | _ => False

/-- A put, and whether its status is looked at. -/
structure Put where
  call : EtchFlexBuffer.Call
  isPut : call.IsPut
  looksAt : Bool

/-- The bytes of a put. -/
def Put.bytes (put : Put) : List UInt8 :=
  put.call.written.getD []

/-- What takes a put, none where it writes behind its memory. -/
abbrev Sink (B : Type) := Put → B → Option (Status × B)

/-- A buffer takes a put as it can. -/
def EtchFlexBuffer.sink : Sink EtchFlexBuffer :=
  fun put fb => put.call.run fb

/-- A list takes every put. -/
def Put.list : Sink (List Put) :=
  fun put puts => some (.ETCH_OK, puts ++ [put])

/-- What the writer writes to, and the state of the factory. -/
structure EtchOutput (B S : Type) where
  mBuffer : B
  factory : S

/-- A method of `EtchBinaryTaggedDataOutput`. -/
abbrev Writer (B S : Type) := EStateM Failure (EtchOutput B S)

namespace EtchBinaryTaggedDataOutput

open EtchBinaryTaggedData

variable {B S : Type}

/-- A put whose status is dropped. -/
def dropping (sink : Sink B) (call : EtchFlexBuffer.Call)
    (is : call.IsPut := by exact trivial) : Writer B S Unit :=
  fun output =>
    match sink ⟨call, is, false⟩ output.mBuffer with
    | none => .error .undefined output
    | some (_, mBuffer) => .ok () { output with mBuffer }

/-- A put whose status is returned. -/
def returning (sink : Sink B) (call : EtchFlexBuffer.Call)
    (is : call.IsPut := by exact trivial) : Writer B S Unit :=
  fun output =>
    match sink ⟨call, is, true⟩ output.mBuffer with
    | none => .error .undefined output
    | some (.ETCH_OK, mBuffer) => .ok () { output with mBuffer }
    | some (_, mBuffer) => .error .ETCH_ENO_MEMORY { output with mBuffer }

/-- A call of the factory. -/
def call {α : Type} (m : Lookup S α) : Writer B S (Option α) :=
  fun output =>
    match m output.factory with
    | (found, factory) => .ok found { output with factory }

/-- `if (ret != ETCH_OK) return ETCH_ERROR;` -/
def orError {α : Type} (m : Writer B S α) : Writer B S α :=
  fun output =>
    match m output with
    | .ok value after => .ok value after
    | .error failure after =>
        .error (if failure.isStatus then .ETCH_ERROR else failure) after

/-- What the methods call to write a value. -/
abbrev Write (B S : Type) := Option EtchValidator → EtchObject → Writer B S Unit

section Methods

variable (vf : EtchValueFactory S) (mStringTypeAndField : Bool)
  (sink : Sink B) (next : Write B S)

/-! ## Types, fields and bytes -/

def writeIntValue (value : Int) : Writer B S Unit :=
  next (some (.integer .int32 0)) (.int32 (Int32.ofInt value))

def writeStringValue (value : EtchString) : Writer B S Unit :=
  next (some (.string 0)) (.string value)

def writeNoneValue : Writer B S Unit :=
  next (some .none) .NONE

def writeType (type : EtchType) : Writer B S Unit :=
  if mStringTypeAndField then writeStringValue next type.name
  else writeIntValue next type.id.toInt

def writeField (field : EtchField) : Writer B S Unit :=
  if mStringTypeAndField then writeStringValue next field.name
  else writeIntValue next field.id.toInt

def writeBytes (value : List UInt8) : Writer B S Unit := do
  orError (writeIntValue next value.length)
  dropping sink (.putBytes value)

/-! ## Structs -/

def startStruct (sv : EtchStructValue) : Writer B S Unit := do
  orError (writeType mStringTypeAndField next sv.mType)
  orError (writeIntValue next sv.fields.length)

/-- The loop in `writeKeysAndValues`, from an entry on. -/
def writeKeysAndValues (type : EtchType) :
    List (EtchField × EtchObject) → Writer B S Unit
  | [] => return ()
  | (key, value) :: entries => do
      orError (writeField mStringTypeAndField next key)
      let v ← call (vf.getValidator type key)
      match v with
      | none => throw .ETCH_ERROR
      | some v =>
          orError (next (some v) value)
          writeKeysAndValues type entries

def writeStruct (sv : EtchStructValue) : Writer B S Unit := do
  orError (startStruct mStringTypeAndField next sv)
  orError (writeKeysAndValues vf mStringTypeAndField next sv.mType sv.fields)
  orError (writeNoneValue next)

def startMessage (msg : EtchStructValue) : Writer B S Unit := do
  dropping sink (.putByte VERSION)
  startStruct mStringTypeAndField next msg

/-! ## Arrays -/

/-- The type of a validator of structs, none for an error. -/
def findStructValueValidator : EtchValidator → Option EtchType
  | .structValue type _ => some type
  | .combo first second =>
      match findStructValueValidator first with
      | some type => some type
      | none => findStructValueValidator second
  | _ => none

/-- `getCustomStructType(c, customStructType)`, and what the validator knows
where the factory knows no type. -/
def customStructType (c : EtchObjectType) (v : Option EtchValidator) :
    Writer B S (Option EtchType) := do
  let type ← call (vf.getCustomStructType c)
  match type with
  | some type => return some type
  | none =>
      if c = .structValue then
        match v with
        | none => throw .nullPointer
        | some v => return findStructValueValidator v
      else
        return none

def toArrayValue (component : EtchObjectType) (dim : Nat)
    (elements : List EtchObject) (v : Option EtchValidator) :
    Writer B S EtchArrayValue := do
  let typeCode := getNativeTypeCode component
  if typeCode = EtchTypeCode.CUSTOM then
    let type ← customStructType vf component v
    match type with
    | none => throw .ETCH_ERROR
    | some type =>
        return ⟨component, dim, elements, typeCode, some type,
          elements.length⟩
  else
    return ⟨component, dim, elements, typeCode, none, elements.length⟩

def startArray (array : EtchArrayValue) : Writer B S Unit := do
  dropping sink (.putByte array.mTypeCode)
  if array.mTypeCode = EtchTypeCode.CUSTOM then
    match array.mCustomStructType with
    | none => throw .nullPointer
    | some type => orError (writeType mStringTypeAndField next type)
  orError (writeIntValue next array.mDim)
  orError (writeIntValue next array.slots.length)

/-- The loop in `writeValues`, from an element on. -/
def writeElements (boxed : Bool) (av : EtchArrayValue) (ev : EtchValidator) :
    List EtchObject → Writer B S Unit
  | [] => return ()
  | element :: elements => do
      match EtchArrayValue.getBase boxed av.component av.mDim element with
      | .error failure => throw failure
      | .ok value => do
          orError (next (some ev) value)
          writeElements boxed av ev elements

def writeValues (boxed : Bool) (av : EtchArrayValue)
    (v : Option EtchValidator) : Writer B S Unit :=
  match v with
  | none => throw .ETCH_EINVAL
  | some v =>
      match v.getElementValidator with
      | none => throw .ETCH_ERROR
      | some ev => writeElements next boxed av ev (av.slots.take av.mAddIndex)

def writeArray (boxed : Bool) (av : EtchArrayValue)
    (v : Option EtchValidator) : Writer B S Unit := do
  orError (startArray mStringTypeAndField sink next av)
  orError (writeValues next boxed av v)
  orError (writeNoneValue next)

/-! ## Values -/

/-- The validation in `writeValue`. -/
def checkValid (v : Option EtchValidator) (value : EtchObject) :
    Writer B S Unit :=
  if vf.getLevel ≠ .LEVEL_NONE ∧ value.getObjectType.isSome then
    match v with
    | none =>
        if vf.getLevel = .LEVEL_FULL then throw .ETCH_ENOT_EXIST
        else return ()
    | some v => if v.validate value then return () else throw .ETCH_ERROR
  else
    return ()

/-- The bytes of an array of `int8_t`, none where smart pointers are taken for
bytes. -/
def nativeBytes : EtchObject → Option (List UInt8)
  | .nativeArray false _ _ elements =>
      elements.mapM fun
        | .byte value => some value.toUInt8
        | _ => none
  | .nativeArray true _ _ [] => some []
  | _ => none

/-- The put of a number, as its payload. -/
def writeNumber (value : EtchObject) (put : Int → EtchFlexBuffer.Call)
    (are : ∀ number, (put number).IsPut := by exact fun _ => trivial) :
    Writer B S Unit :=
  match value.integer? with
  | some number => returning sink (put number) (are number)
  | none => throw .undefined

/-- What follows the code of a value. -/
def writePayload (typeCode : Int8) (v : Option EtchValidator)
    (value : EtchObject) : Writer B S Unit :=
  if typeCode = EtchTypeCode.Null ∨ typeCode = EtchTypeCode.NONE then
    return ()
  else if typeCode = EtchTypeCode.BOOLEAN_FALSE ∨
      typeCode = EtchTypeCode.BOOLEAN_TRUE ∨
      typeCode = EtchTypeCode.EMPTY_STRING then
    return ()
  else if typeCode = EtchTypeCode.BYTE then
    writeNumber sink value fun number => .putByte (Int8.ofInt number)
  else if typeCode = EtchTypeCode.SHORT then
    writeNumber sink value fun number => .putShort (Int16.ofInt number)
  else if typeCode = EtchTypeCode.INT then
    writeNumber sink value fun number => .putInt (Int32.ofInt number)
  else if typeCode = EtchTypeCode.LONG then
    writeNumber sink value fun number => .putLong (Int64.ofInt number)
  else if typeCode = EtchTypeCode.FLOAT then
    match value with
    | .float bits => returning sink (.putInt bits.toInt32)
    | _ => throw .undefined
  else if typeCode = EtchTypeCode.DOUBLE then
    match value with
    | .double bits => returning sink (.putLong bits.toInt64)
    | _ => throw .undefined
  else if typeCode = EtchTypeCode.BYTES then
    match nativeBytes value with
    | some bytes => writeBytes sink next bytes
    | none => throw .undefined
  else if typeCode = EtchTypeCode.ARRAY then
    match value with
    | .nativeArray boxed component dim elements => do
        let av ← orError (toArrayValue vf component dim elements v)
        writeArray mStringTypeAndField sink next boxed av v
    | _ => throw .undefined
  else if typeCode = EtchTypeCode.STRING then
    match value with
    | .string value => writeBytes sink next value.bytes
    | _ => throw .undefined
  else if typeCode = EtchTypeCode.CUSTOM then do
    let struct ← call (vf.exportCustomValue value)
    match struct with
    | some sv => writeStruct vf mStringTypeAndField next sv
    | none => throw .ETCH_ERROR
  else if typeCode ≥ EtchTypeCode.MIN_TINY_INT ∧
      typeCode ≤ EtchTypeCode.MAX_TINY_INT then
    return ()
  else
    throw .ETCH_EINVAL

/-- `writeValue(v, value)` -/
def writeValue (v : Option EtchValidator) (value : EtchObject) :
    Writer B S Unit := do
  match checkValue value with
  | none => throw .undefined
  | some typeCode => do
      checkValid vf v value
      dropping sink (.putByte typeCode)
      writePayload vf mStringTypeAndField sink next typeCode v value

end Methods

/-- What the methods call, with this many calls one inside the other. -/
def write (vf : EtchValueFactory S) (mStringTypeAndField : Bool)
    (sink : Sink B) : Nat → Write B S
  | 0 => fun _ _ => throw .outOfFuel
  | fuel + 1 =>
      writeValue vf mStringTypeAndField sink
        (write vf mStringTypeAndField sink fuel)

/-- `writeMessage(msg, buf)` -/
def writeMessage (vf : EtchValueFactory S) (mStringTypeAndField : Bool)
    (sink : Sink B) (fuel : Nat) (msg : EtchStructValue) :
    Writer B S Unit := do
  let next := write vf mStringTypeAndField sink fuel
  orError (startMessage mStringTypeAndField sink next msg)
  orError (writeKeysAndValues vf mStringTypeAndField next msg.mType msg.fields)
  orError (writeNoneValue next)

end EtchBinaryTaggedDataOutput

end Etch.Cpp
