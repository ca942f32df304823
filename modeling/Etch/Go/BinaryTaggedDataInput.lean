import Etch.Go.BinaryTaggedData

/-!
# The Go `BinaryTaggedDataInput`

The methods call one another through `readValue`, and the two loops call
themselves again for each further pass; what they call is an argument here.
No result stands for a panic, for a read that never returns, and for a run
that has used up the number of such calls that it is given.
-/

namespace Etch.Go

open Etch.Library.BigEndian

/-- A method of `BinaryTaggedDataInput`. -/
abbrev Reader := StateT FlexBuffer Option

namespace BinaryTaggedDataInput

variable {O : Type}

/-! ## The buffer -/

/-- `binary.Read` of a number of so many bytes. -/
def readNumber (size : Nat) : Reader Nat :=
  fun fb => (fb.readFull size).map fun (bytes, fb) => (ofBytes bytes, fb)

def readByte : Reader Int8 :=
  Int8.ofNat <$> readNumber 1

def readShort : Reader Int16 :=
  Int16.ofNat <$> readNumber 2

def readInt : Reader Int32 :=
  Int32.ofNat <$> readNumber 4

def readLong : Reader Int64 :=
  Int64.ofNat <$> readNumber 8

def readFloat : Reader UInt32 :=
  UInt32.ofNat <$> readNumber 4

def readDouble : Reader UInt64 :=
  UInt64.ofNat <$> readNumber 8

/-- What the methods call. -/
structure Calls (O : Type) where
  readValue : Bool → Reader (Value O)
  readKeysAndValues : StructValue O → Reader (StructValue O)
  readValues : ArrayValue O → Nat → Reader (ArrayValue O)

section Methods

variable (vf : ValueFactory O) (next : Calls O)

/-! ## Types, fields and lengths -/

def readType : Reader (Option (EtchType O)) := do
  let obj ← next.readValue true
  match obj with
  | .int32 id => return vf.GetTypeById id
  | _ => return none

def readIntegerValue : Reader Int32 := do
  let val ← next.readValue false
  return val.toInteger

def readLength : Reader Int32 :=
  readIntegerValue next

def readBytes : Reader (List UInt8) := do
  let l ← readLength next
  if l < 0 then
    none
  else
    fun fb => fb.readBytes l.toInt.toNat

def readField (ty : EtchType O) : Reader (Option Field) := do
  -- this `true` swallows the `NONE` at the end of a struct
  let obj ← next.readValue true
  match obj with
  | .int32 id => return ty.Fields id
  | _ => return none

/-! ## Structs -/

def startStruct : Reader (Option (StructValue O)) := do
  let ty ← readType vf next
  match ty with
  | none => return none
  | some ty => do
      let _l ← readLength next
      return some ⟨ty, []⟩

def startMessage : Reader (Option (StructValue O)) := do
  let version ← readByte
  if version ≠ TypeCode.VERSION then
    return none
  else
    startStruct vf next

/-- A pass of the loop in `readKeysAndValues`, and those after it. -/
def readKeysAndValues (sv : StructValue O) : Reader (StructValue O) := do
  let key ← readField next sv.Ty
  match key with
  | none => return sv
  | some key =>
      match sv.Ty.Validators key.Id with
      | some _ => do
          let val ← next.readValue false
          next.readKeysAndValues (sv.put key val)
      | none => do
          let _ ← next.readValue false
          next.readKeysAndValues sv

def readStruct : Reader (Option (StructValue O)) := do
  let sv ← startStruct vf next
  match sv with
  | none => return none
  | some sv => some <$> next.readKeysAndValues sv

/-! ## Arrays -/

/-- The type that an array of structs has. -/
def readArrayType (typeCode : Int8) : Reader (Option (EtchType O)) :=
  if typeCode = TypeCode.CUSTOM then readType vf next else return none

def startArray : Reader (Option (ArrayValue O)) := do
  let typeCode ← readByte
  let cTy ← readArrayType vf next typeCode
  let dim ← readIntegerValue next
  if dim ≠ 1 then
    -- multidimension not yet supported
    return none
  else do
    let len ← readIntegerValue next
    some <$> (newArrayForType typeCode cTy len : Option (ArrayValue O))

/-- A pass of the loop in `readValues`, and those after it. -/
def readValues (av : ArrayValue O) (i : Nat) : Reader (ArrayValue O) := do
  let val ← next.readValue true
  match val with
  | .int8 code =>
      -- a byte may be this number as well
      if code = TypeCode.NONE then return av
      else do
        let av ← (av.set vf i val : Option (ArrayValue O))
        next.readValues av (i + 1)
  | _ => do
      let av ← (av.set vf i val : Option (ArrayValue O))
      next.readValues av (i + 1)

def readArray : Reader (Option (ArrayValue O)) := do
  let av ← startArray vf next
  match av with
  | none => return none
  | some av => some <$> next.readValues av 0

/-! ## Values -/

/-- What follows the code of a value; `validateValue(vldtr, val)` returns
what it is given. -/
def readPayload (byTy : Int8) (noneOk : Bool) : Reader (Value O) :=
  if byTy = TypeCode.NULL then
    return .nil
  else if byTy = TypeCode.NONE then
    return if noneOk then .int8 TypeCode.NONE else .nil
  else if byTy = TypeCode.BYTE then
    .int8 <$> readByte
  else if byTy = TypeCode.SHORT then
    .int16 <$> readShort
  else if byTy = TypeCode.INT then
    .int32 <$> readInt
  else if byTy = TypeCode.LONG then
    .int64 <$> readLong
  else if byTy = TypeCode.FLOAT then
    .float32 <$> readFloat
  else if byTy = TypeCode.DOUBLE then
    .float64 <$> readDouble
  else if byTy = TypeCode.BYTES then
    .bytes <$> readBytes next
  else if byTy = TypeCode.ARRAY then do
    let av ← readArray vf next
    match av with
    | none => return .nil
    | some av => (fromArrayValue av : Option (Value O))
  else if byTy = TypeCode.EMPTY_STRING then
    return .string []
  else if byTy = TypeCode.STRING then
    .string <$> readBytes next
  else if byTy = TypeCode.CUSTOM then do
    let sv ← readStruct vf next
    (importCustomValue sv : Option (Value O))
  else if byTy ≥ TypeCode.MIN_TINY_INT ∧ byTy ≤ TypeCode.MAX_TINY_INT then
    return .int8 byTy
  else
    return .nil

/-- `readValue(val, noneOk)` -/
def readValue (noneOk : Bool) : Reader (Value O) := do
  let byTy ← readByte
  readPayload vf next byTy noneOk

end Methods

/-- What the methods call, with this many calls one inside the other. -/
def calls (vf : ValueFactory O) : Nat → Calls O
  | 0 => ⟨fun _ _ => none, fun _ _ => none, fun _ _ _ => none⟩
  | fuel + 1 =>
      { readValue := readValue vf (calls vf fuel)
        readKeysAndValues := readKeysAndValues (calls vf fuel)
        readValues := readValues vf (calls vf fuel) }

/-- `ReadMessage(buf)` -/
def readMessage (vf : ValueFactory O) (fuel : Nat) :
    Reader (Option (StructValue O)) := do
  let theMsg ← startMessage vf (calls vf fuel)
  match theMsg with
  | none => return none
  | some theMsg => some <$> (calls vf fuel).readKeysAndValues theMsg

end BinaryTaggedDataInput

end Etch.Go
