import Etch.CSharp.BinaryTaggedData

/-!
# C# values as Java values

A C# value stands for the Java value that has the same parts.  Java has two
classes where C# has one type for a number and for a boxed number, so a type
has a class as an element of an array and another one as the class of a value.
Types that are not modelled have the names of classes in Java.
-/

namespace Etch.CSharp

/-! ## Types and classes -/

/-- The names that classes have in Java. -/
structure Names where
  java : String → String
  injective : Function.Injective java
  exception : java "System.Exception" = "java.lang.RuntimeException"
  sentinel : java "BinaryTaggedData+SentinelObject" = "BinaryTaggedData$1"

variable (names : Names)

/-- The types, were all of those that are not modelled classes, as in Java. -/
def Types.objects (types : Types) : Types :=
  { types with isValueType := fun _ => false }

namespace ClrType

/-- The class of the elements of an array. -/
def java : ClrType → Java.JavaClass
  | bool => .boolean
  | sbyte => .byte
  | short => .short
  | int => .int
  | long => .long
  | float => .float
  | double => .double
  | string => .string
  | object => .object
  | structValue => .structValue
  | custom name => .custom (names.java name)
  | array element => .array (java element)

/-- The class of a value. -/
def boxed : ClrType → Java.JavaClass
  | bool => .Boolean
  | sbyte => .Byte
  | short => .Short
  | int => .Integer
  | long => .Long
  | float => .Float
  | double => .Double
  | type => type.java names

variable {names}

theorem java_injective {type other : ClrType}
    (same : type.java names = other.java names) : type = other := by
  induction type generalizing other with
  | array element ih =>
      cases other with
      | array element' => rw [ih (Java.JavaClass.array.inj same)]
      | _ => exact nomatch same
  | custom name =>
      cases other with
      | custom name' =>
          rw [names.injective (Java.JavaClass.custom.inj same)]
      | _ => exact nomatch same
  | _ => cases other <;> simp [java] at same ⊢

theorem boxed_eq_java {type : ClrType} (object : type.isPrimitive = false) :
    type.boxed names = type.java names := by
  cases type <;> first | rfl | exact nomatch object

theorem boxed_injective {type other : ClrType}
    (same : type.boxed names = other.boxed names) : type = other := by
  cases type <;> cases other <;> simp [boxed, java] at same ⊢
  · exact names.injective same
  · exact java_injective same

theorem isPrimitive_java (type : ClrType) :
    (type.java names).isPrimitive = type.isPrimitive := by
  cases type <;> rfl

theorem isPrimitive_boxed (type : ClrType) :
    (type.boxed names).isPrimitive = false := by
  cases type <;> rfl

theorem java_arrayOf (type : ClrType) (nDims : Nat) :
    (type.arrayOf nDims).java names = (type.java names).arrayOf nDims := by
  induction nDims with
  | zero => rfl
  | succ nDims ih => exact congrArg Java.JavaClass.array ih

/-- Without other value types, the value types are the primitive ones. -/
theorem isValueType_objects (types : Types) (type : ClrType) :
    type.isValueType types.objects = type.isPrimitive := by
  cases type <;> rfl

end ClrType

namespace Value

mutual

/-- The value in Java. -/
def java : Value → Java.Value
  | null => .null
  | NONE => .NONE
  | bool value => .boolean value
  | sbyte value => .byte value
  | short value => .short value
  | int value => .int value
  | long value => .long value
  | float bits => .float bits
  | double bits => .double bits
  | string value => .string value
  | array element elements => .array (element.java names) (javaAll elements)
  | struct type fields => .struct type (javaFields fields)
  | custom type state => .custom (names.java type) (javaAll state)

def javaAll : List Value → List Java.Value
  | [] => []
  | value :: values => java value :: javaAll values

def javaFields : List (Field × Value) → List (Field × Java.Value)
  | [] => []
  | (key, value) :: fields => (key, java value) :: javaFields fields

end

variable {names}

theorem javaAll_append (first second : List Value) :
    javaAll names (first ++ second) =
      javaAll names first ++ javaAll names second := by
  induction first with
  | nil => rfl
  | cons value values ih => exact congrArg (value.java names :: ·) ih

theorem javaFields_eq (fields : List (Field × Value)) :
    javaFields names fields =
      fields.map fun entry => (entry.1, entry.2.java names) := by
  induction fields with
  | nil => rfl
  | cons entry fields ih => exact congrArg ((entry.1, _) :: ·) ih

theorem getClass_java (value : Value) :
    (value.java names).getClass =
      value.getType.map fun type => type.boxed names := by
  cases value with
  | NONE =>
      change some (Java.JavaClass.custom "BinaryTaggedData$1") = _
      rw [← names.sentinel]
      rfl
  | _ => rfl

theorem integer?_java (value : Value) :
    (value.java names).integer? = value.integer? := by
  cases value <;> rfl

end Value

end Etch.CSharp
