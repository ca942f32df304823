import Etch.CSharp.Value

/-!
# The C# validators

A validator says which objects a field takes, and converts an integer to the
width that the field has.
-/

namespace Etch.CSharp

/-- A validator, with its number of dimensions where it has one. -/
inductive Validator where
  | boolean (nDims : Nat)
  | integer (width : Java.Width) (nDims : Nat)
  | float (nDims : Nat)
  | double (nDims : Nat)
  | string (nDims : Nat)
  | object (nDims : Nat)
  | custom (clss : ClrType) (nDims : Nat) (subclassOk : Bool)
  | structValue (type : XType) (nDims : Nat)
  | runtimeException
  | none
  | void
  | combo (a b : Validator)

/-- The type of an integer of a width. -/
def integerType : Java.Width → ClrType
  | .byte => .sbyte
  | .short => .short
  | .int => .int
  | .long => .long

/-- `Convert.ToSByte(value)` and the others, where the number fits. -/
def integerValue (width : Java.Width) (number : Int) : Value :=
  match width with
  | .byte => .sbyte (Int8.ofInt number)
  | .short => .short (Int16.ofInt number)
  | .int => .int (Int32.ofInt number)
  | .long => .long (Int64.ofInt number)

namespace Validator

def MAX_NDIMS : Nat := 9

/-- `MkExpectedClass` of the validators with dimensions. -/
def expectedClass : Validator → Option ClrType
  | boolean nDims => some (ClrType.bool.arrayOf nDims)
  | integer width nDims => some ((integerType width).arrayOf nDims)
  | float nDims => some (ClrType.float.arrayOf nDims)
  | double nDims => some (ClrType.double.arrayOf nDims)
  | string nDims => some (ClrType.string.arrayOf nDims)
  | object nDims => some (ClrType.object.arrayOf nDims)
  | custom clss nDims _ => some (clss.arrayOf nDims)
  | structValue _ nDims => some (ClrType.structValue.arrayOf nDims)
  | _ => Option.none

def subclassOk : Validator → Bool
  | object _ => true
  | custom _ _ subclassOk => subclassOk
  | _ => false

/-- `TypeValidator.Validate` -/
def validateType (types : Types) (v : Validator) (value : Value) : Bool :=
  match v.expectedClass, value.getType with
  | some expected, some clss =>
      decide (clss = expected) ||
        (v.subclassOk && expected.isAssignableFrom types clss)
  | _, _ => false

/-- `type.IsAssignableFrom(other)` of `XType` -/
def isAssignableFrom (types : Types) (type other : XType) : Bool :=
  decide (type = other) || decide (type ∈ types.superTypes other)

/-- `Validate(value)` -/
def validate (types : Types) : Validator → Value → Bool
  | integer width 0, value =>
      -- the types that are no wider are accepted without a comparison
      match value.integer? with
      | some number => decide (width.InRange number)
      | Option.none => false
  | structValue type nDims, value =>
      validateType types (structValue type nDims) value &&
        match value with
        | .struct other _ => isAssignableFrom types type other
        | _ => true
  | runtimeException, value =>
      match value.getType with
      | some clss => ClrType.Exception.isAssignableFrom types clss
      | Option.none => false
  | none, value =>
      match value with
      | .NONE => true
      | _ => false
  | void, value =>
      match value with
      | .null => true
      | _ => false
  | combo a b, value => a.validate types value || b.validate types value
  | v, value => validateType types v value

/-- The exception of `ValidateValue`; its text has the value in it. -/
def notAppropriate : Thrown :=
  .exception "value not appropriate"

/-- `ValidateValue(value)` -/
def validateValue (types : Types) :
    Validator → Value → Except Thrown Value
  | integer width 0, value =>
      if (integer width 0).validate types value then
        match value.integer? with
        | some number => .ok (integerValue width number)
        | Option.none => .ok value
      else
        .error notAppropriate
  | combo a b, value =>
      match a.validateValue types value with
      | .ok value => .ok value
      | .error _ => b.validateValue types value
  | v, value =>
      if v.validate types value then .ok value else .error notAppropriate

/-- `Get(nDims-1)`, which throws where there are no dimensions. -/
def less (make : Nat → Validator) : Nat → Except Thrown Validator
  | 0 => .error (.argumentOutOfRangeException
      "nDims < 0 || nDims > MAX_NDIMS")
  | nDims + 1 => .ok (make nDims)

/-- `ElementValidator()`, where null is `none`. -/
def elementValidator : Validator → Except Thrown (Option Validator)
  | boolean nDims => some <$> less boolean nDims
  | integer width nDims => some <$> less (integer width) nDims
  | float nDims => some <$> less float nDims
  | double nDims => some <$> less double nDims
  | string nDims => some <$> less string nDims
  | object 0 => .ok (some (object 0))
  | object (nDims + 1) => .ok (some (object nDims))
  | custom clss nDims subclassOk =>
      some <$> less (custom clss · subclassOk) nDims
  | structValue type nDims => some <$> less (structValue type) nDims
  | runtimeException => .error (.exception "not an array")
  | none => .error (.argumentException "not an array")
  | void => .ok Option.none
  | combo a b =>
      -- a part that is not of an array drops out
      let na := match a.elementValidator with
        | .ok na => na
        | .error _ => Option.none
      let nb := match b.elementValidator with
        | .ok nb => nb
        | .error _ => Option.none
      match na, nb with
      | Option.none, Option.none =>
          .error (.argumentException "na == null and nb == null")
      | Option.none, some nb => .ok (some nb)
      | some na, Option.none => .ok (some na)
      | some na, some nb => .ok (some (combo na nb))

end Validator

end Etch.CSharp
