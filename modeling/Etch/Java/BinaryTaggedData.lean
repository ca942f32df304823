import Etch.Java.ValueFactory

/-!
# The Java `BinaryTaggedData` and `ArrayValue`

The type codes, the code and the width that a value is written with, and the
arrays that are read.
-/

namespace Etch.Java

namespace TypeCode

def NULL : Int8 := -128

def NONE : Int8 := -127

def BOOLEAN_FALSE : Int8 := -126

def BOOLEAN_TRUE : Int8 := -125

def BYTE : Int8 := -124

def SHORT : Int8 := -123

def INT : Int8 := -122

def LONG : Int8 := -121

def FLOAT : Int8 := -120

def DOUBLE : Int8 := -119

def BYTES : Int8 := -117

def ARRAY : Int8 := -111

def EMPTY_STRING : Int8 := -110

def STRING : Int8 := -109

def STRUCT : Int8 := -108

def CUSTOM : Int8 := -107

def ANY : Int8 := -106

def MIN_TINY_INT : Int8 := -64

def MAX_TINY_INT : Int8 := 127

end TypeCode

namespace BinaryTaggedData

def VERSION : Int8 := 3

/-! ## The code of a value -/

def checkByte (v : Int8) : Int8 :=
  if v ≥ TypeCode.MIN_TINY_INT ∧ v ≤ TypeCode.MAX_TINY_INT then v
  else TypeCode.BYTE

def checkShort (v : Int16) : Int8 :=
  if v ≥ -128 ∧ v ≤ 127 then checkByte v.toInt8
  else TypeCode.SHORT

def checkInteger (v : Int32) : Int8 :=
  if v ≥ -32768 ∧ v ≤ 32767 then checkShort v.toInt16
  else TypeCode.INT

def checkLong (v : Int64) : Int8 :=
  if v ≥ -2147483648 ∧ v ≤ 2147483647 then checkInteger v.toInt32
  else TypeCode.LONG

def checkValue : Value → Int8
  | .null => TypeCode.NULL
  | .NONE => TypeCode.NONE
  | .boolean value =>
      if value then TypeCode.BOOLEAN_TRUE else TypeCode.BOOLEAN_FALSE
  | .byte value => checkByte value
  | .short value => checkShort value
  | .int value => checkInteger value
  | .long value => checkLong value
  | .float _ => TypeCode.FLOAT
  | .double _ => TypeCode.DOUBLE
  | .string s => if s.length = 0 then TypeCode.EMPTY_STRING else TypeCode.STRING
  | .struct _ _ => TypeCode.CUSTOM
  | .array .byte _ => TypeCode.BYTES
  | .array _ _ => TypeCode.ARRAY
  | .custom _ _ => TypeCode.CUSTOM

/-! ## The classes of arrays -/

def getNativeTypeCode : JavaClass → Int8
  | .boolean => TypeCode.BOOLEAN_TRUE
  | .byte => TypeCode.BYTE
  | .short => TypeCode.SHORT
  | .int => TypeCode.INT
  | .long => TypeCode.LONG
  | .float => TypeCode.FLOAT
  | .double => TypeCode.DOUBLE
  | .string => TypeCode.STRING
  | .object => TypeCode.ANY
  | _ => TypeCode.CUSTOM

def getNativeType (type : Int8) : Except Thrown JavaClass :=
  if type = TypeCode.BOOLEAN_TRUE ∨ type = TypeCode.BOOLEAN_FALSE then
    .ok .boolean
  else if type = TypeCode.BYTE then .ok .byte
  else if type = TypeCode.SHORT then .ok .short
  else if type = TypeCode.INT then .ok .int
  else if type = TypeCode.LONG then .ok .long
  else if type = TypeCode.FLOAT then .ok .float
  else if type = TypeCode.DOUBLE then .ok .double
  else if type = TypeCode.EMPTY_STRING ∨ type = TypeCode.STRING then
    .ok .string
  else if type = TypeCode.ANY then .ok .object
  else
    .error (.illegalArgumentException (text "unsupported native type " ++
      text (ToString.toString type.toInt)))

/-- `findStructValueValidator(v)`, with the type of what it finds. -/
def findStructValueValidator : Validator → Option IdName
  | .structValue type _ => some type
  | .combo a b =>
      match findStructValueValidator a with
      | some type => some type
      | none => findStructValueValidator b
  | _ => none

end BinaryTaggedData

namespace FloatingPoint

/-- The bits of a number, rounded to a precision, with ties to even. -/
def roundBits (precision bias : Nat) (magnitude : Nat) : Nat :=
  if magnitude = 0 then
    0
  else
    let exponent := magnitude.log2
    let mantissa :=
      if exponent < precision then
        magnitude <<< (precision - 1 - exponent)
      else
        let shift := exponent - (precision - 1)
        let quotient := magnitude >>> shift
        let remainder := magnitude % 2 ^ shift
        if 2 * remainder > 2 ^ shift ∨
            (2 * remainder = 2 ^ shift ∧ quotient % 2 = 1) then
          quotient + 1
        else
          quotient
    -- a mantissa that was rounded up to the next power of 2 carries over
    ((exponent + bias) <<< (precision - 1)) + mantissa - 2 ^ (precision - 1)

/-- `(float) value` -/
def floatOfInteger (value : Int) : UInt32 :=
  UInt32.ofNat ((if value < 0 then 2 ^ 31 else 0) +
    roundBits 24 127 value.natAbs)

/-- `(double) value` -/
def doubleOfInteger (value : Int) : UInt64 :=
  UInt64.ofNat ((if value < 0 then 2 ^ 63 else 0) +
    roundBits 53 1023 value.natAbs)

example : floatOfInteger (-5) = 0xC0A00000 := by decide

/-- `floatToIntBits(intBitsToFloat(bits))` -/
def floatToIntBits (bits : UInt32) : UInt32 :=
  if bits.toNat % 2 ^ 31 > 0x7F800000 then 0x7FC00000 else bits

/-- `doubleToLongBits(longBitsToDouble(bits))` -/
def doubleToLongBits (bits : UInt64) : UInt64 :=
  if bits.toNat % 2 ^ 63 > 0x7FF0000000000000 then 0x7FF8000000000000
  else bits

/-- `(double) value`, for a float -/
def doubleOfFloat (bits : UInt32) : UInt64 :=
  let sign := bits.toNat / 2 ^ 31 * 2 ^ 63
  let exponent := bits.toNat / 2 ^ 23 % 2 ^ 8
  let mantissa := bits.toNat % 2 ^ 23
  if exponent = 255 then
    doubleToLongBits
      (UInt64.ofNat (sign + 2047 * 2 ^ 52 + mantissa * 2 ^ 29))
  else if exponent = 0 then
    -- a subnormal number is a whole number of 2 ^ -149
    UInt64.ofNat (sign + if mantissa = 0 then 0
      else roundBits 53 (1023 - 149) mantissa)
  else
    UInt64.ofNat (sign + (exponent + 896) * 2 ^ 52 + mantissa * 2 ^ 29)

example : doubleOfFloat 0xC0A00000 = 0xC014000000000000 := by decide

end FloatingPoint

/-! ## Arrays -/

/-- An `ArrayValue`, with the class of its elements. -/
structure ArrayValue where
  component : JavaClass
  elements : List Value
  typeCode : Int8
  customStructType : Option IdName
  dim : Int

namespace ArrayValue

open FloatingPoint

/-- What `Array.set` stores in an array of a component type. -/
def stored (isSuper : String → JavaClass → Bool) (component : JavaClass)
    (value : Value) : Except Thrown Value :=
  let mismatch := .error (.illegalArgumentException
    (text "argument type mismatch"))
  if component.isPrimitive then
    match component, value with
    | _, .null => .error .nullPointerException
    | .boolean, .boolean value => .ok (.boolean value)
    | .byte, .byte value => .ok (.byte value)
    | .short, .byte value => .ok (.short value.toInt16)
    | .short, .short value => .ok (.short value)
    | .int, .byte value => .ok (.int value.toInt32)
    | .int, .short value => .ok (.int value.toInt32)
    | .int, .int value => .ok (.int value)
    | .long, .byte value => .ok (.long value.toInt64)
    | .long, .short value => .ok (.long value.toInt64)
    | .long, .int value => .ok (.long value.toInt64)
    | .long, .long value => .ok (.long value)
    | .float, .float bits => .ok (.float bits)
    | .double, .float bits => .ok (.double (doubleOfFloat bits))
    | .double, .double bits => .ok (.double bits)
    | .float, value =>
        match value.integer? with
        | some number => .ok (.float (floatOfInteger number))
        | none => mismatch
    | .double, value =>
        match value.integer? with
        | some number => .ok (.double (doubleOfInteger number))
        | none => mismatch
    | _, _ => mismatch
  else
    match value.getClass with
    | none => .ok value
    | some clss =>
        if component.isAssignableFrom isSuper clss then .ok value
        else mismatch

def add (isSuper : String → JavaClass → Bool) (av : ArrayValue)
    (value : Value) : Except Thrown ArrayValue := do
  let value ← stored isSuper av.component value
  return { av with elements := av.elements ++ [value] }

/-- `getArray()` -/
def getArray (av : ArrayValue) : Value :=
  .array av.component av.elements

end ArrayValue

end Etch.Java
