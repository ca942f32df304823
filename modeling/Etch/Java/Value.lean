import Etch.Java.IdName

/-!
# Java values

The objects that messages are made of.  An object of any other class is known
by its class and its state, the values of its fields, which only its import and
export helper looks into.  A float or a double is its bits, as
`floatToIntBits` gives them.
-/

namespace Etch.Java

/-- A class, primitive types among them. -/
inductive JavaClass where
  | boolean
  | byte
  | short
  | int
  | long
  | float
  | double
  | Boolean
  | Byte
  | Short
  | Integer
  | Long
  | Float
  | Double
  | string
  | object
  | structValue
  | custom (name : String)
  | array (component : JavaClass)
deriving DecidableEq

namespace JavaClass

def isPrimitive : JavaClass → Bool
  | boolean => true
  | byte => true
  | short => true
  | int => true
  | long => true
  | float => true
  | double => true
  | _ => false

/-- The class of an array with so many dimensions, the class itself for 0. -/
def arrayOf (clss : JavaClass) : Nat → JavaClass
  | 0 => clss
  | nDims + 1 => array (arrayOf clss nDims)

/-- The class under all dimensions, and how many there are. -/
def base : JavaClass → JavaClass × Nat
  | array component => (component.base.1, component.base.2 + 1)
  | clss => (clss, 0)

theorem arrayOf_base (clss : JavaClass) :
    clss.base.1.arrayOf clss.base.2 = clss := by
  induction clss with
  | array component ih =>
      change array (component.base.1.arrayOf component.base.2) = _
      rw [ih]
  | _ => rfl

/-- The class `java.lang.RuntimeException`. -/
def RuntimeException : JavaClass :=
  custom "java.lang.RuntimeException"

/--
`clss.isAssignableFrom(other)`, where `isSuper` says which classes a class
that is not modelled is a superclass or an interface of.
-/
def isAssignableFrom (isSuper : String → JavaClass → Bool) :
    JavaClass → JavaClass → Bool
  | object, other => !other.isPrimitive
  | array clss, array other => clss.isAssignableFrom isSuper other
  | custom name, other =>
      decide (other = custom name) || isSuper name other
  | clss, other => decide (clss = other)

end JavaClass

/-- An object, or null. -/
inductive Value where
  | null
  /-- `BinaryTaggedData.NONE` -/
  | NONE
  | boolean (value : Bool)
  | byte (value : Int8)
  | short (value : Int16)
  | int (value : Int32)
  | long (value : Int64)
  | float (bits : UInt32)
  | double (bits : UInt64)
  | string (value : JavaString)
  | array (component : JavaClass) (elements : List Value)
  | struct (type : IdName) (fields : List (Field × Value))
  | custom (clss : String) (state : List Value)

namespace Value

/-- `value.getClass()`, none for null. -/
def getClass : Value → Option JavaClass
  | null => none
  | NONE => some (.custom "BinaryTaggedData$1")
  | boolean _ => some .Boolean
  | byte _ => some .Byte
  | short _ => some .Short
  | int _ => some .Integer
  | long _ => some .Long
  | float _ => some .Float
  | double _ => some .Double
  | string _ => some .string
  | array component _ => some (.array component)
  | struct _ _ => some .structValue
  | custom clss _ => some (.custom clss)

/-- The number of a `Byte`, `Short`, `Integer` or `Long`. -/
def integer? : Value → Option Int
  | byte value => some value.toInt
  | short value => some value.toInt
  | int value => some value.toInt
  | long value => some value.toInt
  | _ => none

end Value

end Etch.Java
