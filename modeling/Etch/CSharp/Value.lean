import Etch.Java.BinaryTaggedData

/-!
# C# values

The objects that messages are made of, and their types.  An `XType` and a
`Field` are an id and a name, and a string is UTF-16, as they are in Java.  An
object of any other type is known by its type and its state.  A float or a
double is its bits, with one for all that are not a number.
-/

namespace Etch.CSharp

/-- A string, as its `char` values. -/
abbrev ClrString := Java.JavaString

abbrev XType := Java.IdName

abbrev Field := Java.Field

/-- What the modelled classes throw. -/
inductive Thrown where
  | exception (message : String)
  | argumentException (message : String)
  | argumentNullException
  | argumentOutOfRangeException (message : String)
  | nullReferenceException
  | invalidCastException
  | ioException (message : String)
  | endOfStreamException (message : String)

/-- A `System.Type`; a number that is boxed has the type that it had. -/
inductive ClrType where
  | bool
  | sbyte
  | short
  | int
  | long
  | float
  | double
  | string
  | object
  | structValue
  | custom (name : String)
  | array (element : ClrType)
deriving DecidableEq

/-- An object, or null. -/
inductive Value where
  | null
  /-- `BinaryTaggedData.NONE` -/
  | NONE
  | bool (value : Bool)
  | sbyte (value : Int8)
  | short (value : Int16)
  | int (value : Int32)
  | long (value : Int64)
  | float (bits : UInt32)
  | double (bits : UInt64)
  | string (value : ClrString)
  | array (element : ClrType) (elements : List Value)
  | struct (type : XType) (fields : List (Field × Value))
  | custom (type : String) (state : List Value)

/-- What is asked about types that are not modelled. -/
structure Types where
  /-- Whether a named type is a `struct` or an `enum`. -/
  isValueType : String → Bool
  /-- The state of `default` of such a type. -/
  defaultState : String → List Value
  /-- Whether a named type is a base class or an interface of another. -/
  isSuper : String → ClrType → Bool
  /-- The chain of `SuperType()` of a struct type. -/
  superTypes : XType → List XType

namespace ClrType

/-- The numbers and `bool`. -/
def isPrimitive : ClrType → Bool
  | bool => true
  | sbyte => true
  | short => true
  | int => true
  | long => true
  | float => true
  | double => true
  | _ => false

/-- `IsValueType` -/
def isValueType (types : Types) : ClrType → Bool
  | custom name => types.isValueType name
  | type => type.isPrimitive

/-- The type of an array with so many dimensions, the type itself for 0. -/
def arrayOf (type : ClrType) : Nat → ClrType
  | 0 => type
  | nDims + 1 => array (arrayOf type nDims)

/-- The type `System.Exception`. -/
def Exception : ClrType :=
  custom "System.Exception"

/-- The type of `BinaryTaggedData.NONE`. -/
def SentinelObject : ClrType :=
  custom "BinaryTaggedData+SentinelObject"

/-- `type.IsAssignableFrom(other)`; arrays of values are only of their own
type. -/
def isAssignableFrom (types : Types) : ClrType → ClrType → Bool
  | object, _ => true
  | array type, array other =>
      if other.isValueType types then decide (type = other)
      else type.isAssignableFrom types other
  | custom name, other =>
      decide (other = custom name) || types.isSuper name other
  | type, other => decide (type = other)

end ClrType

namespace Value

/-- `value.GetType()`, none for null. -/
def getType : Value → Option ClrType
  | null => none
  | NONE => some .SentinelObject
  | bool _ => some .bool
  | sbyte _ => some .sbyte
  | short _ => some .short
  | int _ => some .int
  | long _ => some .long
  | float _ => some .float
  | double _ => some .double
  | string _ => some .string
  | array element _ => some (.array element)
  | struct _ _ => some .structValue
  | custom type _ => some (.custom type)

/-- The number of an `sbyte`, `short`, `int` or `long`. -/
def integer? : Value → Option Int
  | sbyte value => some value.toInt
  | short value => some value.toInt
  | int value => some value.toInt
  | long value => some value.toInt
  | _ => none

/-- The value that `default` gives for a value type, null for the others. -/
def default (types : Types) : ClrType → Value
  | .bool => bool false
  | .sbyte => sbyte 0
  | .short => short 0
  | .int => int 0
  | .long => long 0
  | .float => float 0
  | .double => double 0
  | .custom name =>
      if types.isValueType name then custom name (types.defaultState name)
      else null
  | _ => null

end Value

end Etch.CSharp
