import Etch.CSharp.JavaValues
import Etch.Java.ValidatorCoherence
import Etch.Library.Simulation

/-!
# C# validators and arrays as those of Java

Where two types are related as their classes in Java are, and no type but the
primitive ones is a value type, a validator takes the values that the
validator in Java takes.  An array of objects takes the same values as in Java
as well, and so does an array of numbers, except for null.
-/

namespace Etch.CSharp

open Etch.Library.Simulation

/-- What is asked about types has the answers that it has in Java, where a
primitive type is below no class. -/
structure SameTypes (names : Names) (classes : Java.Classes)
    (types : Types) : Prop where
  isSuper : ∀ name type,
    classes.isSuper (names.java name) (type.boxed names) =
      types.isSuper name type
  isSuper_primitive : ∀ name clss, clss.isPrimitive = true →
    classes.isSuper name clss = false
  superTypes : classes.superTypes = types.superTypes

variable {names : Names} {classes : Java.Classes} {types : Types}

/-! ## Types -/

/-- Nothing but a primitive type itself is assigned from it. -/
theorem isAssignableFrom_primitive (same : SameTypes names classes types)
    {clss : Java.JavaClass} (primitive : clss.isPrimitive = true)
    (expected : Java.JavaClass) :
    expected.isAssignableFrom classes.isSuper clss =
      decide (expected = clss) := by
  have below := same.isSuper_primitive
  cases expected with
  | custom name =>
      rw [Java.JavaClass.isAssignableFrom, below name clss primitive,
        Bool.or_false]
      exact decide_eq_decide.mpr eq_comm
  | _ => cases clss <;> first | rfl | exact nomatch primitive

theorem isAssignableFrom_java (same : SameTypes names classes types)
    {expected : ClrType} (object : expected.isPrimitive = false)
    (clss : ClrType) :
    (expected.java names).isAssignableFrom classes.isSuper
        (clss.boxed names) =
      expected.isAssignableFrom types.objects clss := by
  induction expected generalizing clss with
  | object =>
      change (!(clss.boxed names).isPrimitive) = true
      rw [ClrType.isPrimitive_boxed]
      rfl
  | custom name =>
      change (decide (clss.boxed names = ClrType.boxed names (.custom name)) ||
        classes.isSuper (names.java name) (clss.boxed names)) = _
      rw [same.isSuper]
      congr 1
      exact decide_eq_decide.mpr
        ⟨ClrType.boxed_injective, congrArg (ClrType.boxed names)⟩
  | array expected ih =>
      cases clss with
      | array element =>
          change (expected.java names).isAssignableFrom classes.isSuper
            (element.java names) = _
          rw [ClrType.isAssignableFrom,
            ClrType.isValueType_objects]
          have equal : decide (expected.java names = element.java names) =
              decide (expected = element) :=
            decide_eq_decide.mpr
              ⟨ClrType.java_injective, congrArg (ClrType.java names)⟩
          by_cases value : element.isPrimitive = true
          · rw [if_pos value, isAssignableFrom_primitive same
              ((ClrType.isPrimitive_java element).trans value), equal]
          rw [if_neg value]
          by_cases number : expected.isPrimitive = true
          · cases expected <;> first | exact equal | exact nomatch number
          · have value : element.isPrimitive = false := by simpa using value
            have number : expected.isPrimitive = false := by
              simpa using number
            rw [← ClrType.boxed_eq_java value]
            exact ih number element
      | _ => rfl
  | string | structValue =>
      cases clss <;> rfl
  | _ => exact nomatch object

namespace Validator

variable (names)

/-- The validator in Java. -/
def java : Validator → Java.Validator
  | boolean nDims => .boolean nDims
  | integer width nDims => .integer width nDims
  | float nDims => .float nDims
  | double nDims => .double nDims
  | string nDims => .string nDims
  | object nDims => .object nDims
  | custom clss nDims subclassOk =>
      .custom (clss.java names) nDims subclassOk
  | structValue type nDims => .structValue type nDims
  | runtimeException => .runtimeException
  | none => .none
  | void => .void
  | combo a b => .combo a.java b.java

/-- A custom type is none of the primitive ones. -/
def Regular : Validator → Prop
  | custom clss _ _ => clss.isPrimitive = false
  | combo a b => a.Regular ∧ b.Regular
  | _ => True

variable {names}

theorem expectedClass_java {v : Validator} (regular : v.Regular) :
    (v.java names).expectedClass =
      v.expectedClass.map fun type => type.boxed names := by
  have arrays (type : ClrType) (nDims : Nat) :
      (type.java names).arrayOf (nDims + 1) =
        (type.arrayOf (nDims + 1)).boxed names :=
    (ClrType.java_arrayOf type (nDims + 1)).symm
  have objects (type : ClrType) (object : type.isPrimitive = false)
      (nDims : Nat) : (type.java names).arrayOf nDims =
        (type.arrayOf nDims).boxed names := by
    cases nDims with
    | zero => exact (ClrType.boxed_eq_java object).symm
    | succ nDims => exact arrays type nDims
  cases v with
  | boolean nDims =>
      cases nDims with
      | zero => rfl
      | succ nDims => exact congrArg some (arrays .bool nDims)
  | integer width nDims =>
      cases nDims with
      | zero => cases width <;> rfl
      | succ nDims =>
          have array := arrays (integerType width) nDims
          cases width <;> exact congrArg some array
  | float nDims =>
      cases nDims with
      | zero => rfl
      | succ nDims => exact congrArg some (arrays .float nDims)
  | double nDims =>
      cases nDims with
      | zero => rfl
      | succ nDims => exact congrArg some (arrays .double nDims)
  | string nDims => exact congrArg some (objects .string rfl nDims)
  | object nDims => exact congrArg some (objects .object rfl nDims)
  | structValue _ nDims =>
      exact congrArg some (objects .structValue rfl nDims)
  | custom clss nDims subclassOk =>
      exact congrArg some (objects clss regular nDims)
  | _ => rfl

/-- Only types of objects are taken with the types below them. -/
theorem isPrimitive_of_subclassOk {v : Validator} (regular : v.Regular)
    (below : v.subclassOk = true) {expected : ClrType}
    (expects : v.expectedClass = some expected) :
    expected.isPrimitive = false := by
  cases v with
  | object nDims =>
      cases expects
      cases nDims <;> rfl
  | custom clss nDims subclassOk =>
      cases expects
      cases nDims with
      | zero => exact regular
      | succ nDims => rfl
  | _ => exact nomatch below

theorem validateType_java (same : SameTypes names classes types)
    {v : Validator} (regular : v.Regular) (value : Value) :
    (v.java names).validateType classes (value.java names) =
      v.validateType types.objects value := by
  unfold validateType Java.Validator.validateType
  rw [expectedClass_java regular, Value.getClass_java]
  have below : (v.java names).subclassOk = v.subclassOk := by
    cases v <;> rfl
  cases expects : v.expectedClass with
  | none => rfl
  | some expected =>
      cases type : value.getType with
      | none => rfl
      | some clss =>
          change (decide (clss.boxed names = expected.boxed names) || _) =
            (decide (clss = expected) || _)
          have equal : decide (clss.boxed names = expected.boxed names) =
              decide (clss = expected) :=
            decide_eq_decide.mpr
              ⟨ClrType.boxed_injective, congrArg (ClrType.boxed names)⟩
          rw [equal, below]
          cases subclass : v.subclassOk with
          | false => rfl
          | true =>
              have object := isPrimitive_of_subclassOk regular subclass expects
              dsimp only
              rw [ClrType.boxed_eq_java object,
                isAssignableFrom_java same object]

theorem validate_java (same : SameTypes names classes types)
    {v : Validator} (regular : v.Regular) (value : Value) :
    (v.java names).validate classes (value.java names) =
      v.validate types.objects value := by
  have typed {v : Validator} (regular : v.Regular) :=
    validateType_java same regular value
  induction v with
  | integer width nDims =>
      cases nDims with
      | zero =>
          rw [java, Java.Validator.validate, Value.integer?_java]
          rfl
      | succ nDims => exact typed regular
  | structValue type nDims =>
      change (Java.Validator.validateType classes
        ((structValue type nDims).java names) _ && _) = _
      rw [typed regular]
      cases value with
      | struct other fields =>
          change (_ && (decide (type = other) ||
            decide (type ∈ classes.superTypes other))) = _
          rw [same.superTypes]
          rfl
      | _ => rfl
  | runtimeException =>
      have exception : Java.JavaClass.RuntimeException =
          ClrType.Exception.java names :=
        congrArg Java.JavaClass.custom names.exception.symm
      rw [java, Java.Validator.validate, Value.getClass_java, exception,
        validate]
      cases type : value.getType with
      | none => rfl
      | some clss =>
          exact isAssignableFrom_java same rfl clss
  | none => cases value <;> rfl
  | void => cases value <;> rfl
  | combo a b first second =>
      exact congr (congrArg or (first regular.1)) (second regular.2)
  | _ => exact typed regular

/-- The value in Java. -/
def SameValue (names : Names) (value : Java.Value) (value' : Value) : Prop :=
  value = value'.java names

theorem sameValue_integer (width : Java.Width) (number : Int) :
    SameValue names (width.value number) (integerValue width number) := by
  cases width <;> rfl

theorem validateValue_alike (same : SameTypes names classes types)
    {v : Validator} (regular : v.Regular) (value : Value) :
    Alike (SameValue names)
      ((v.java names).validateValue classes (value.java names))
      (v.validateValue types.objects value) := by
  have handsOn {v : Validator} (regular : v.Regular) :
      Alike (SameValue names)
        (if (v.java names).validate classes (value.java names) then
            (.ok (value.java names) : Except Java.Thrown Java.Value)
          else .error Java.Validator.notAppropriate)
        (if v.validate types.objects value then
            (.ok value : Except Thrown Value)
          else .error notAppropriate) := by
    rw [validate_java same regular value]
    split
    · rfl
    · trivial
  induction v with
  | integer width nDims =>
      cases nDims with
      | zero =>
          have accepts := validate_java same regular value
          rw [java] at accepts ⊢
          rw [Java.Validator.validateValue, validateValue, accepts,
            Value.integer?_java]
          split
          · cases value.integer? with
            | none => rfl
            | some number => exact sameValue_integer width number
          · trivial
      | succ nDims =>
          rw [java, Java.Validator.validateValue, validateValue]
          · exact handsOn regular
          all_goals simp
  | combo a b first second =>
      have first := first regular.1
      have second := second regular.2
      rw [java, Java.Validator.validateValue, validateValue]
      cases done' : a.validateValue types.objects value with
      | ok result' =>
          rw [done'] at first
          cases done : (a.java names).validateValue classes
              (value.java names) with
          | ok result =>
              rw [done] at first
              exact first
          | error thrown =>
              rw [done] at first
              exact first.elim
      | error thrown' =>
          rw [done'] at first
          have refused : (a.java names).validate classes
              (value.java names) = false := by
            cases accepted : (a.java names).validate classes
                (value.java names) with
            | false => rfl
            | true =>
                obtain ⟨result, done⟩ :=
                  Java.Validator.validateValue_ok accepted
                rw [done] at first
                exact first.elim
          rw [Java.Validator.validateValue_error refused]
          exact second
  | _ =>
      rw [java, Java.Validator.validateValue, validateValue]
      · exact handsOn regular
      all_goals simp

/-- The validator in Java, if there is one, of a regular validator. -/
def SameValidator (names : Names) (v : Option Java.Validator)
    (v' : Option Validator) : Prop :=
  v = v'.map (java names) ∧ ∀ inner, v' = some inner → inner.Regular

theorem sameValidator_some {v : Validator} (regular : v.Regular) :
    SameValidator names (some (v.java names)) (some v) := by
  refine ⟨rfl, ?_⟩
  rintro inner ⟨⟩
  exact regular

theorem less_alike (make : Nat → Validator) (make' : Nat → Java.Validator)
    (same : ∀ nDims, make' nDims = (make nDims).java names)
    (regular : ∀ nDims, (make nDims).Regular) (nDims : Nat) :
    Alike (SameValidator names) (some <$> Java.Validator.less make' nDims)
      (some <$> less make nDims) := by
  cases nDims with
  | zero => trivial
  | succ nDims =>
      change SameValidator names (some (make' nDims)) (some (make nDims))
      rw [same]
      exact sameValidator_some (regular nDims)

theorem elementValidator_alike {v : Validator} (regular : v.Regular) :
    Alike (SameValidator names) (v.java names).elementValidator
      v.elementValidator := by
  induction v with
  | combo a b first second =>
      have first := first regular.1
      have second := second regular.2
      rw [java, Java.Validator.elementValidator, elementValidator]
      generalize (a.java names).elementValidator = na,
        a.elementValidator = na' at first ⊢
      generalize (b.java names).elementValidator = nb,
        b.elementValidator = nb' at second ⊢
      -- a part that fails counts as none
      rcases na with thrown | na <;> rcases na' with thrown' | na'
      · rcases nb with thrown | nb <;> rcases nb' with thrown' | nb'
        · trivial
        · exact second.elim
        · exact second.elim
        · obtain ⟨rfl, regular⟩ := second
          cases nb' with
          | none => trivial
          | some nb => exact sameValidator_some (regular nb rfl)
      · exact first.elim
      · exact first.elim
      · obtain ⟨rfl, regular⟩ := first
        rcases nb with thrown | nb <;> rcases nb' with thrown' | nb'
        · cases na' with
          | none => trivial
          | some na => exact sameValidator_some (regular na rfl)
        · exact second.elim
        · exact second.elim
        · obtain ⟨rfl, regular'⟩ := second
          cases na' with
          | none =>
              cases nb' with
              | none => trivial
              | some nb => exact sameValidator_some (regular' nb rfl)
          | some na =>
              cases nb' with
              | none => exact sameValidator_some (regular na rfl)
              | some nb =>
                  exact @sameValidator_some names (combo na nb)
                    ⟨regular na rfl, regular' nb rfl⟩
  | runtimeException | none => trivial
  | void => exact ⟨rfl, nofun⟩
  | object nDims =>
      cases nDims with
      | zero => exact @sameValidator_some names (object 0) trivial
      | succ nDims => exact @sameValidator_some names (object nDims) trivial
  | boolean nDims =>
      exact less_alike boolean .boolean (fun _ => rfl) (fun _ => trivial) nDims
  | integer width nDims =>
      exact less_alike (integer width) (.integer width) (fun _ => rfl)
        (fun _ => trivial) nDims
  | float nDims =>
      exact less_alike float .float (fun _ => rfl) (fun _ => trivial) nDims
  | double nDims =>
      exact less_alike double .double (fun _ => rfl) (fun _ => trivial) nDims
  | string nDims =>
      exact less_alike string .string (fun _ => rfl) (fun _ => trivial) nDims
  | structValue type nDims =>
      exact less_alike (structValue type) (.structValue type) (fun _ => rfl)
        (fun _ => trivial) nDims
  | custom clss nDims subclassOk =>
      exact less_alike (custom clss · subclassOk)
        (.custom (clss.java names) · subclassOk) (fun _ => rfl)
        (fun _ => regular) nDims

end Validator

/-! ## Arrays -/

/-- Null is refused by an array of numbers in Java. -/
theorem stored_null {element : ClrType}
    (primitive : element.isPrimitive = true)
    (isSuper : String → Java.JavaClass → Bool) :
    ∃ thrown, Java.ArrayValue.stored isSuper (element.java names) .null =
      .error thrown := by
  cases element with
  | bool | sbyte | short | int | long | float | double => exact ⟨_, rfl⟩
  | _ => exact nomatch primitive

theorem widened_alike {element : ClrType}
    (primitive : element.isPrimitive = true)
    (isSuper : String → Java.JavaClass → Bool) (value : Value)
    (present : value ≠ .null) :
    Alike (Validator.SameValue names)
      (Java.ArrayValue.stored isSuper (element.java names)
        (value.java names))
      (ArrayValue.widened element value) := by
  cases element with
  | bool | sbyte | short | int | long | float | double =>
      cases value <;> first
        | exact absurd rfl present
        | exact trivial
        | rfl
  | _ => exact nomatch primitive

theorem stored_alike (same : SameTypes names classes types)
    (element : ClrType) (value : Value)
    (kept : ¬ (value = .null ∧ element.isPrimitive = true)) :
    Alike (Validator.SameValue names)
      (Java.ArrayValue.stored classes.isSuper (element.java names)
        (value.java names))
      (ArrayValue.stored types.objects element value) := by
  cases type : value.getType with
  | none =>
      have stays : value = .null := by
        cases value <;> first | rfl | exact nomatch type
      subst stays
      have object : element.isPrimitive = false := by simpa using kept
      have absent : Value.default types.objects element = .null := by
        cases element with
        | custom _ | string | object | structValue | array _ => rfl
        | _ => exact nomatch object
      unfold ArrayValue.stored Java.ArrayValue.stored
      rw [ClrType.isPrimitive_java, object]
      exact absent.symm ▸ rfl
  | some clss =>
      unfold ArrayValue.stored
      rw [type]
      dsimp only
      split
      · rename_i primitive
        refine widened_alike primitive classes.isSuper value ?_
        rintro rfl
        exact nomatch type
      · rename_i object
        have object : element.isPrimitive = false := by simpa using object
        unfold Java.ArrayValue.stored
        rw [ClrType.isPrimitive_java, object, Value.getClass_java, type]
        dsimp only [Option.map_some]
        rw [if_neg Bool.false_ne_true, isAssignableFrom_java same object]
        split
        · rfl
        · trivial

end Etch.CSharp
