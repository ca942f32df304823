import Etch.CSharp.ValueFactory

/-!
# The C# `BinaryTaggedData` and `ArrayValue`

The types of arrays, and the arrays that are read.  The type codes are those
of Java.
-/

namespace Etch.CSharp

open Etch.Java.FloatingPoint

namespace BinaryTaggedData

def VERSION : Int8 := 3

/-- `GetNativeType(type)` -/
def getNativeType (type : Int8) : Except Thrown ClrType :=
  if type = Java.TypeCode.BOOLEAN_TRUE ∨
      type = Java.TypeCode.BOOLEAN_FALSE then
    .ok .bool
  else if type = Java.TypeCode.BYTE then .ok .sbyte
  else if type = Java.TypeCode.SHORT then .ok .short
  else if type = Java.TypeCode.INT then .ok .int
  else if type = Java.TypeCode.LONG then .ok .long
  else if type = Java.TypeCode.FLOAT then .ok .float
  else if type = Java.TypeCode.DOUBLE then .ok .double
  else if type = Java.TypeCode.EMPTY_STRING ∨
      type = Java.TypeCode.STRING then
    .ok .string
  else if type = Java.TypeCode.ANY then .ok .object
  else
    .error (.exception ("unsupported native type " ++ toString type.toInt))

end BinaryTaggedData

/-! ## Arrays -/

/-- An `ArrayValue`, with the type of its elements. -/
structure ArrayValue where
  element : ClrType
  elements : List Value
  typecode : Int8
  customStructType : Option XType
  dim : Int

namespace ArrayValue

/-- What `SetValue` stores in an array of numbers or of `bool`, widened where
it has to be. -/
def widened : ClrType → Value → Except Thrown Value
  | .bool, .bool value => .ok (.bool value)
  | .sbyte, .sbyte value => .ok (.sbyte value)
  | .short, .sbyte value => .ok (.short value.toInt16)
  | .short, .short value => .ok (.short value)
  | .int, .sbyte value => .ok (.int value.toInt32)
  | .int, .short value => .ok (.int value.toInt32)
  | .int, .int value => .ok (.int value)
  | .long, .sbyte value => .ok (.long value.toInt64)
  | .long, .short value => .ok (.long value.toInt64)
  | .long, .int value => .ok (.long value.toInt64)
  | .long, .long value => .ok (.long value)
  | .float, .float bits => .ok (.float bits)
  | .double, .float bits => .ok (.double (doubleOfFloat bits))
  | .double, .double bits => .ok (.double bits)
  | .float, value =>
      match value.integer? with
      | some number => .ok (.float (floatOfInteger number))
      | none => .error .invalidCastException
  | .double, value =>
      match value.integer? with
      | some number => .ok (.double (doubleOfInteger number))
      | none => .error .invalidCastException
  | _, _ => .error .invalidCastException

/-- What `SetValue` stores in an array. -/
def stored (types : Types) (element : ClrType) (value : Value) :
    Except Thrown Value :=
  match value.getType with
  | none => .ok (Value.default types element)
  | some clss =>
      if element.isPrimitive then
        widened element value
      else if element.isAssignableFrom types clss then
        .ok value
      else
        .error .invalidCastException

/-- `Add(value)` -/
def add (types : Types) (av : ArrayValue) (value : Value) :
    Except Thrown ArrayValue := do
  let value ← stored types av.element value
  return { av with elements := av.elements ++ [value] }

/-- `GetArray()` -/
def getArray (av : ArrayValue) : Value :=
  .array av.element av.elements

end ArrayValue

end Etch.CSharp
