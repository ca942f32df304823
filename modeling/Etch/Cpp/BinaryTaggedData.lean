import Etch.Cpp.EtchValueFactory

/-!
# The C++ `EtchBinaryTaggedData` and `EtchArrayValue`

The type codes, the classes that they stand for, and the arrays that are read
and written.  How the calls of the formats fail is here as well.
-/

namespace Etch.Cpp

/-- How a call fails: with a status other than `ETCH_OK`, or for good. -/
inductive Failure where
  | ETCH_ERROR
  | ETCH_EINVAL
  | ETCH_ERANGE
  | ETCH_EIO
  | ETCH_ENOT_EXIST
  | ETCH_ENO_MEMORY
  | ETCH_EUNIMPL
  /-- a `NULL` pointer is used -/
  | nullPointer
  /-- the language leaves undefined what happens -/
  | undefined
  /-- the source goes on where this run is cut off -/
  | outOfFuel

/-- The caller sees a status. -/
def Failure.isStatus : Failure → Bool
  | nullPointer => false
  | undefined => false
  | outOfFuel => false
  | _ => true

namespace EtchTypeCode

def Null : Int8 := -128

def NONE : Int8 := -127

def BOOLEAN_FALSE : Int8 := -126

def BOOLEAN_TRUE : Int8 := -125

def BYTE : Int8 := -124

def SHORT : Int8 := -123

def INT : Int8 := -122

def LONG : Int8 := -121

def FLOAT : Int8 := -120

def DOUBLE : Int8 := -119

def BYTES : Int8 := -117

def ARRAY : Int8 := -111

def EMPTY_STRING : Int8 := -110

def STRING : Int8 := -109

def STRUCT : Int8 := -108

def CUSTOM : Int8 := -107

def ANY : Int8 := -106

def MIN_TINY_INT : Int8 := -64

def MAX_TINY_INT : Int8 := 127

end EtchTypeCode

/-! ## Names -/

/-- `EtchHashEx::Digest(value)`, of the first `value.length()` characters,
where a `char` has a sign. -/
def digest (chars : List UInt8) : Int32 :=
  chars.foldl (fun hash c =>
    let h6 := hash <<< 6
    (h6 <<< 10) + h6 - hash + c.toInt8.toInt32) 5381

namespace EtchName

/-- `EtchType(name)` or `EtchField(name)`, none where the length of the name
reads behind its end. -/
def ofName (name : EtchString) : Option EtchName :=
  name.length.map fun length => ⟨digest (name.bytes.take length), name⟩

/-- The decimal digits of an id, as `"%d"` gives them. -/
def decimal (id : Int32) : List UInt8 :=
  (ToString.toString id.toInt).toList.map fun c => UInt8.ofNat c.toNat

/-- `EtchType(id, str)` or `EtchField(id, str)`, named after the id. -/
def ofId (id : Int32) : EtchName :=
  ⟨id, .ofCString (decimal id)⟩

end EtchName

namespace EtchBinaryTaggedData

def VERSION : Int8 := 3

/-- `NONE()`, as the string that it is. -/
def NONE : EtchString :=
  .ofCString [78, 79, 78, 69]

/-- `getNativeType(type)`, none for `NULL`. -/
def getNativeType (type : Int8) : Option EtchObjectType :=
  if type = EtchTypeCode.BOOLEAN_TRUE ∨ type = EtchTypeCode.BOOLEAN_FALSE then
    some .bool
  else if type = EtchTypeCode.BYTE then some .byte
  else if type = EtchTypeCode.SHORT then some .short
  else if type = EtchTypeCode.INT then some .int32
  else if type = EtchTypeCode.LONG then some .long
  else if type = EtchTypeCode.FLOAT then some .float
  else if type = EtchTypeCode.DOUBLE then some .double
  else if type = EtchTypeCode.EMPTY_STRING ∨ type = EtchTypeCode.STRING then
    some .string
  else if type = EtchTypeCode.ANY then some .object
  else none

/-! ## The codes of values -/

def checkByte (v : Int8) : Int8 :=
  if v ≥ EtchTypeCode.MIN_TINY_INT ∧ v ≤ EtchTypeCode.MAX_TINY_INT then v
  else EtchTypeCode.BYTE

def checkShort (v : Int16) : Int8 :=
  if v ≥ Int8.minValue.toInt16 ∧ v ≤ Int8.maxValue.toInt16 then
    checkByte v.toInt8
  else EtchTypeCode.SHORT

def checkInteger (v : Int32) : Int8 :=
  if v ≥ Int16.minValue.toInt32 ∧ v ≤ Int16.maxValue.toInt32 then
    checkShort v.toInt16
  else EtchTypeCode.INT

def checkLong (v : Int64) : Int8 :=
  if v ≥ Int32.minValue.toInt64 ∧ v ≤ Int32.maxValue.toInt64 then
    checkInteger v.toInt32
  else EtchTypeCode.LONG

/-- `checkValue(value)`, none where the length of a string reads behind its
end. -/
def checkValue : EtchObject → Option Int8
  | .null => some EtchTypeCode.Null
  | .NONE => some EtchTypeCode.NONE
  | .bool value =>
      some (if value then EtchTypeCode.BOOLEAN_TRUE
        else EtchTypeCode.BOOLEAN_FALSE)
  | .byte value => some (checkByte value)
  | .short value => some (checkShort value)
  | .int32 value => some (checkInteger value)
  | .long value => some (checkLong value)
  | .float _ => some EtchTypeCode.FLOAT
  | .double _ => some EtchTypeCode.DOUBLE
  | .string value =>
      value.length.map fun length =>
        if length = 0 then EtchTypeCode.EMPTY_STRING else EtchTypeCode.STRING
  | .nativeArray _ component dim _ =>
      some (if component = .byte ∧ dim = 1 then EtchTypeCode.BYTES
        else EtchTypeCode.ARRAY)
  | .structValue _ _ => some EtchTypeCode.CUSTOM
  | .custom _ _ => some EtchTypeCode.CUSTOM

/-- `getNativeTypeCode(c)` -/
def getNativeTypeCode : EtchObjectType → Int8
  | .bool => EtchTypeCode.BOOLEAN_TRUE
  | .byte => EtchTypeCode.BYTE
  | .short => EtchTypeCode.SHORT
  | .int32 => EtchTypeCode.INT
  | .long => EtchTypeCode.LONG
  | .float => EtchTypeCode.FLOAT
  | .double => EtchTypeCode.DOUBLE
  | .string => EtchTypeCode.STRING
  | .object => EtchTypeCode.ANY
  | _ => EtchTypeCode.CUSTOM

end EtchBinaryTaggedData

/-! ## Arrays -/

/-- The component types that `getBase` and `setBase` have a case for. -/
def EtchObjectType.hasBase : EtchObjectType → Bool
  | object => true
  | bool => true
  | byte => true
  | short => true
  | int32 => true
  | long => true
  | float => true
  | double => true
  | string => true
  | custom .date => true
  | custom .list => true
  | custom .hashTable => true
  | custom .set => true
  | _ => false

/-- An `EtchArrayValue` around an array of smart pointers. -/
structure EtchArrayValue where
  component : EtchObjectType
  mDim : Nat
  /-- the elements of `mArray`, `mSize` many -/
  slots : List EtchObject
  mTypeCode : Int8
  mCustomStructType : Option EtchType
  mAddIndex : Nat

namespace EtchArrayValue

/-- `mArray->setBase(pos, value)`, with the elements then. -/
def setBase (component : EtchObjectType) (dim : Nat)
    (slots : List EtchObject) (pos : Nat) (value : EtchObject) :
    Except Failure (List EtchObject) :=
  if !component.hasBase then
    .ok slots
  else if dim = 1 then
    match component, value with
    | .byte, .null => .ok slots
    -- an `EtchByte` is taken for an `EtchInt32`
    | .byte, _ => .error .undefined
    | _, value => .ok (slots.set pos value)
  else
    match value with
    | .null => .error .ETCH_ERANGE
    | .nativeArray _ _ dim' _ =>
        if dim' + 1 = dim then .ok (slots.set pos value)
        else .error .ETCH_ERANGE
    | _ => .error .undefined

/--
`mArray->getBase(pos, result)` with its status ignored, for an array of smart
pointers (`boxed`) or of a native type and the element or row that it has
there.
-/
def getBase (boxed : Bool) (component : EtchObjectType) (dim : Nat)
    (element : EtchObject) : Except Failure EtchObject :=
  if !component.hasBase then
    .ok .null
  else if component = .byte then
    if dim ≠ 1 then
      .ok element
    else
      match boxed, element with
      -- a byte comes out as an `EtchInt32`
      | false, .byte value => .ok (.int32 value.toInt32)
      | _, _ => .error .undefined
  else if boxed then
    .ok element
  else
    -- a native array is taken for an array of objects
    .error .undefined

/-- The elements of the array once there is room for one more. -/
def grown (av : EtchArrayValue) : List EtchObject :=
  let n := av.slots.length
  if av.mAddIndex ≥ n then
    av.slots ++
      List.replicate ((if n = 0 then 8 else n * 2) - n) .null
  else
    av.slots

def add (av : EtchArrayValue) (value : EtchObject) :
    Except Failure EtchArrayValue :=
  match setBase av.component av.mDim av.grown av.mAddIndex value with
  | .ok slots => .ok { av with slots, mAddIndex := av.mAddIndex + 1 }
  | .error failure => .error failure

/-- `getArray()` -/
def getArray (av : EtchArrayValue) : EtchObject :=
  .nativeArray true av.component av.mDim av.slots

/-- Whether `add` takes an element that is `NULL`. -/
def takesNull (av : EtchArrayValue) : Bool :=
  !av.component.hasBase || av.mDim = 1

theorem setBase_null (component : EtchObjectType) (dim : Nat)
    (slots : List EtchObject) (pos : Nat) :
    if !component.hasBase || dim = 1 then
      ∃ slots', setBase component dim slots pos .null = .ok slots'
    else setBase component dim slots pos .null = .error .ETCH_ERANGE := by
  unfold setBase
  cases known : component.hasBase with
  | false => exact ⟨_, rfl⟩
  | true =>
      by_cases one : dim = 1
      · rw [if_pos (by simp [one])]
        dsimp only
        rw [if_neg (by simp), if_pos one]
        cases component <;> exact ⟨_, rfl⟩
      · rw [if_neg (by simp [one])]
        dsimp only
        rw [if_neg (by simp), if_neg one]

theorem add_null (av : EtchArrayValue) :
    if av.takesNull then
      ∃ next, av.add .null = .ok next ∧ next.takesNull = true
    else av.add .null = .error .ETCH_ERANGE := by
  have base := setBase_null av.component av.mDim av.grown av.mAddIndex
  unfold takesNull add
  split_ifs at base ⊢ with takes
  · obtain ⟨slots, is⟩ := base
    rw [is]
    exact ⟨_, rfl, takes⟩
  · rw [base]

end EtchArrayValue

end Etch.Cpp
