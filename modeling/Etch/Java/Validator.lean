import Etch.Java.Value

/-!
# The Java validators

A validator says which objects a field takes, and converts an integer to the
width that the field has.
-/

namespace Etch.Java

/-- `Validator.Level` -/
inductive Level where
  | NONE
  | MISSING_OK
  | FULL
deriving DecidableEq

/-- What the validators ask about classes and types that are not modelled. -/
structure Classes where
  /-- Whether a named class is a superclass or an interface of another. -/
  isSuper : String → JavaClass → Bool
  /-- The chain of `superType()` of a struct type. -/
  superTypes : IdName → List IdName

/-- The widths of integers. -/
inductive Width where
  | byte
  | short
  | int
  | long

/-- A validator, with its number of dimensions where it has one. -/
inductive Validator where
  | boolean (nDims : Nat)
  | integer (width : Width) (nDims : Nat)
  | float (nDims : Nat)
  | double (nDims : Nat)
  | string (nDims : Nat)
  | object (nDims : Nat)
  | custom (clss : JavaClass) (nDims : Nat) (subclassOk : Bool)
  | structValue (type : IdName) (nDims : Nat)
  | runtimeException
  | none
  | void
  | combo (a b : Validator)

namespace Width

def bits : Width → Nat
  | byte => 8
  | short => 16
  | int => 32
  | long => 64

/-- The class of an integer of this width. -/
def scalarClass : Width → JavaClass
  | byte => .Byte
  | short => .Short
  | int => .Integer
  | long => .Long

/-- The primitive type of this width. -/
def arrayClass : Width → JavaClass
  | byte => .byte
  | short => .short
  | int => .int
  | long => .long

/-- The numbers of this width. -/
def InRange (width : Width) (value : Int) : Prop :=
  -2 ^ (width.bits - 1) ≤ value ∧ value < 2 ^ (width.bits - 1)

instance (width : Width) (value : Int) : Decidable (width.InRange value) :=
  inferInstanceAs (Decidable (_ ∧ _))

/-- `byteValue()`, `shortValue()`, `intValue()` and `longValue()`. -/
def value (width : Width) (number : Int) : Value :=
  match width with
  | byte => .byte (Int8.ofInt number)
  | short => .short (Int16.ofInt number)
  | int => .int (Int32.ofInt number)
  | long => .long (Int64.ofInt number)

theorem integer?_value {width : Width} {number : Int}
    (inside : width.InRange number) :
    (width.value number).integer? = some number := by
  obtain ⟨lower, upper⟩ := inside
  cases width <;>
    simp only [value, Value.integer?, bits, Option.some.injEq] at lower upper ⊢
  · exact Int8.toInt_ofInt_of_le lower upper
  · exact Int16.toInt_ofInt_of_le lower upper
  · exact Int32.toInt_ofInt_of_le lower upper
  · exact Int64.toInt_ofInt_of_le lower upper

end Width

namespace Validator

def MAX_NDIMS : Nat := 9

/-- `mkExpectedClass` of the validators with dimensions. -/
def expectedClass : Validator → Option JavaClass
  | boolean 0 => some .Boolean
  | boolean nDims => some (JavaClass.boolean.arrayOf nDims)
  | integer width 0 => some width.scalarClass
  | integer width nDims => some (width.arrayClass.arrayOf nDims)
  | float 0 => some .Float
  | float nDims => some (JavaClass.float.arrayOf nDims)
  | double 0 => some .Double
  | double nDims => some (JavaClass.double.arrayOf nDims)
  | string nDims => some (JavaClass.string.arrayOf nDims)
  | object nDims => some (JavaClass.object.arrayOf nDims)
  | custom clss nDims _ => some (clss.arrayOf nDims)
  | structValue _ nDims => some (JavaClass.structValue.arrayOf nDims)
  | _ => Option.none

def subclassOk : Validator → Bool
  | object _ => true
  | custom _ _ subclassOk => subclassOk
  | _ => false

/-- `TypeValidator.validate` -/
def validateType (classes : Classes) (v : Validator) (value : Value) :
    Bool :=
  match v.expectedClass, value.getClass with
  | some expected, some clss =>
      decide (clss = expected) ||
        (v.subclassOk && expected.isAssignableFrom classes.isSuper clss)
  | _, _ => false

/-- `type.isAssignableFrom(other)` -/
def isAssignableFrom (classes : Classes) (type other : IdName) : Bool :=
  decide (type = other) || decide (type ∈ classes.superTypes other)

def validate (classes : Classes) : Validator → Value → Bool
  | integer width 0, value =>
      -- the classes that are no wider are accepted without a comparison
      match value.integer? with
      | some number => decide (width.InRange number)
      | Option.none => false
  | structValue type nDims, value =>
      validateType classes (structValue type nDims) value &&
        match value with
        | .struct other _ => isAssignableFrom classes type other
        | _ => true
  | runtimeException, value =>
      match value.getClass with
      | some clss =>
          JavaClass.RuntimeException.isAssignableFrom classes.isSuper clss
      | Option.none => false
  | none, value =>
      match value with
      | .NONE => true
      | _ => false
  | void, value =>
      match value with
      | .null => true
      | _ => false
  | combo a b, value => a.validate classes value || b.validate classes value
  | v, value => validateType classes v value

/-- The exception of `validateValue`; its text has the value in it. -/
def notAppropriate : Thrown :=
  .illegalArgumentException (text "value not appropriate")

def validateValue (classes : Classes) :
    Validator → Value → Except Thrown Value
  | integer width 0, value =>
      if (integer width 0).validate classes value then
        match value.integer? with
        | some number => .ok (width.value number)
        | Option.none => .ok value
      else
        .error notAppropriate
  | combo a b, value =>
      match a.validateValue classes value with
      | .error (.illegalArgumentException _) => b.validateValue classes value
      | result => result
  | v, value =>
      if v.validate classes value then .ok value else .error notAppropriate

/-- `get(nDims-1)`, which throws where there are no dimensions. -/
def less (make : Nat → Validator) : Nat → Except Thrown Validator
  | 0 => .error (.illegalArgumentException
      (text "nDims < 0 || nDims > MAX_NDIMS"))
  | nDims + 1 => .ok (make nDims)

/-- `elementValidator()`, where null is `none`. -/
def elementValidator : Validator → Except Thrown (Option Validator)
  | boolean nDims => some <$> less boolean nDims
  | integer width nDims => some <$> less (integer width) nDims
  | float nDims => some <$> less float nDims
  | double nDims => some <$> less double nDims
  | string nDims => some <$> less string nDims
  | object 0 => .ok (some (object 0))
  | object (nDims + 1) => .ok (some (object nDims))
  | custom clss nDims subclassOk =>
      some <$> less (custom clss · subclassOk) nDims
  | structValue type nDims => some <$> less (structValue type) nDims
  | runtimeException =>
      .error (.illegalArgumentException (text "not an array"))
  | none => .error (.illegalArgumentException (text "not an array"))
  | void => .ok Option.none
  | combo a b =>
      -- a part that is not of an array drops out
      let na := match a.elementValidator with
        | .ok na => na
        | .error _ => Option.none
      let nb := match b.elementValidator with
        | .ok nb => nb
        | .error _ => Option.none
      match na, nb with
      | Option.none, Option.none =>
          .error (.illegalArgumentException
            (text "na == null && nb == null"))
      | Option.none, some nb => .ok (some nb)
      | some na, Option.none => .ok (some na)
      | some na, some nb => .ok (some (combo na nb))

end Validator

end Etch.Java
