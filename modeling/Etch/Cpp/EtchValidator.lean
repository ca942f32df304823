import Etch.Cpp.EtchObject

/-!
# The C++ validators

A validator says which objects a field takes, and converts an integer to the
width that the field has.  The dimensions of the array that a value is are
never compared when its type is the expected one, since types do not have any.
-/

namespace Etch.Cpp

/-- `EtchLevel` -/
inductive EtchLevel where
  | LEVEL_NONE
  | LEVEL_MISSING_OK
  | LEVEL_FULL
deriving DecidableEq

/-- A validator, with its number of dimensions where it has one. -/
inductive EtchValidator where
  | boolean (nDims : Nat)
  | integer (width : Width) (nDims : Nat)
  | float (nDims : Nat)
  | double (nDims : Nat)
  | string (nDims : Nat)
  | object (nDims : Nat)
  | custom (type : EtchObjectType) (nDims : Nat)
  | structValue (type : EtchType) (nDims : Nat)
  | runtimeException
  | none
  | combo (first second : EtchValidator)

namespace EtchValidator

def MAX_NDIMS : Nat := 9

/-- `mNDims`, which `checkDimension` leaves at -1 from `MAX_NDIMS` on. -/
def mNDims (nDims : Nat) : Nat :=
  if nDims < MAX_NDIMS then nDims else 2 ^ 32 - 1

/-- `mExpectedType`, of a validator for this class. -/
def mExpectedType (scalarClass : EtchObjectType) (nDims : Nat) :
    EtchObjectType :=
  if mNDims nDims = 0 then scalarClass else .nativeArray scalarClass

/-- `value->getObjectType()->equals(mExpectedType)` -/
def isExpected (scalarClass : EtchObjectType) (nDims : Nat)
    (value : EtchObject) : Bool :=
  value.getObjectType = some (mExpectedType scalarClass nDims)

/-- The array handling of the validators. -/
def isArrayOf (scalarClass : EtchObjectType) (nDims : Nat) :
    EtchObject → Bool
  | .nativeArray _ component dim _ =>
      (mExpectedType scalarClass nDims).isArray &&
        decide (dim = mNDims nDims) && decide (component = scalarClass)
  | _ => false

/-- The integers that a validator of a width takes whatever it expects. -/
def widens : Width → EtchObject → Bool
  | .byte, .short value => Width.byte.InRange value.toInt
  | .byte, .int32 value => Width.byte.InRange value.toInt
  | .byte, .long value => Width.byte.InRange value.toInt
  | .short, .short _ => true
  | .short, .byte _ => true
  | .short, .int32 value => Width.short.InRange value.toInt
  | .short, .long value => Width.short.InRange value.toInt
  | .int32, .short _ => true
  | .int32, .byte _ => true
  | .int32, .long value => Width.int32.InRange value.toInt
  | .long, .int32 _ => true
  | .long, .short _ => true
  | .long, .byte _ => true
  | _, _ => false

/-- `validate(value)` of `EtchValidatorBoolean` and those like it. -/
def validateScalar (scalarClass : EtchObjectType) (nDims : Nat)
    (value : EtchObject) : Bool :=
  isExpected scalarClass nDims value || isArrayOf scalarClass nDims value

/-- `validate(value)` of `EtchValidatorInt` and the other widths. -/
def validateInteger (width : Width) (nDims : Nat) (value : EtchObject) :
    Bool :=
  isExpected width.clss nDims value || widens width value ||
    isArrayOf width.clss nDims value

/-- `validate(value)` -/
def validate : EtchValidator → EtchObject → Bool
  | boolean nDims, value => validateScalar .bool nDims value
  | integer width nDims, value => validateInteger width nDims value
  | float nDims, value => validateScalar .float nDims value
  | double nDims, value => validateScalar .double nDims value
  | string nDims, value => validateScalar .string nDims value
  | object _, value => value.getObjectType.isSome
  | custom type nDims, value => isExpected type nDims value
  | structValue _ nDims, value => validateScalar .structValue nDims value
  | runtimeException, value =>
      value.getObjectType = some (.custom .runtimeException)
  | none, .NONE => true
  -- `NONE()` is a string as well
  | none, .string value => value = .ofCString [78, 79, 78, 69]
  | none, _ => false
  | combo first second, value =>
      first.validate value || second.validate value

/-- `validateValue(value, result)` of `EtchValidatorInt` and the others. -/
def validateValueInteger (width : Width) (nDims : Nat)
    (value : EtchObject) : Option EtchObject :=
  if validateInteger width nDims value then
    if value.getObjectType = some width.clss ∨ mNDims nDims > 0 then
      some value
    else
      value.integer?.map width.box
  else
    Option.none

/-- `validateValue(value, result)`, none for an error. -/
def validateValue : EtchValidator → EtchObject → Option EtchObject
  | integer width nDims, value => validateValueInteger width nDims value
  | combo first second, value =>
      match first.validateValue value with
      | some result => some result
      | Option.none => second.validateValue value
  | v, value => if v.validate value then some value else Option.none

/-- `Get(runtime, ndim, val)`, none for `ETCH_EINVAL`. -/
def get (make : Nat → EtchValidator) (nDims : Nat) :
    Option EtchValidator :=
  if nDims > MAX_NDIMS then Option.none else some (make nDims)

/-- `Get(runtime, mNDims - 1, val)` of a validator with dimensions. -/
def getElement (make : Nat → EtchValidator) (nDims : Nat) :
    Option EtchValidator :=
  get make ((mNDims nDims + (2 ^ 32 - 1)) % 2 ^ 32)

/-- `getElementValidator(val)`, none for an error. -/
def getElementValidator : EtchValidator → Option EtchValidator
  | boolean nDims => getElement boolean nDims
  | integer width nDims => getElement (integer width) nDims
  | float nDims => getElement float nDims
  | double nDims => getElement double nDims
  | string nDims => getElement string nDims
  | object nDims =>
      if mNDims nDims > 0 then getElement object nDims else get object 0
  | custom type nDims => getElement (custom type) nDims
  | structValue type nDims => getElement (structValue type) nDims
  | runtimeException => Option.none
  | none => Option.none
  | combo first second =>
      match first.getElementValidator, second.getElementValidator with
      | Option.none, Option.none => Option.none
      | Option.none, some nb => some nb
      | some na, Option.none => some na
      | some na, some nb => some (combo na nb)

/-! ## What the validators of integers take -/

/--
An integer in the range of a width, of another class than that of the width,
or a short.
-/
def Stray (width : Width) (value : EtchObject) : Prop :=
  ∃ number, value.integer? = some number ∧ width.InRange number ∧
    (value.getObjectType ≠ some width.clss ∨ width = .short)

theorem widens_iff (width : Width) (value : EtchObject) :
    widens width value = true ↔ Stray width value := by
  constructor
  · intro taken
    cases width with
    | byte =>
        cases value with
        | short n => exact ⟨_, rfl, of_decide_eq_true taken, .inl (by rintro ⟨⟩)⟩
        | int32 n => exact ⟨_, rfl, of_decide_eq_true taken, .inl (by rintro ⟨⟩)⟩
        | long n => exact ⟨_, rfl, of_decide_eq_true taken, .inl (by rintro ⟨⟩)⟩
        | _ => cases taken
    | short =>
        cases value with
        | byte n =>
            have lower := n.le_toInt
            have upper := n.toInt_lt
            exact ⟨_, rfl, by simp only [Width.InRange, Width.bits]; omega,
              .inr rfl⟩
        | short n => exact ⟨_, rfl, ⟨n.le_toInt, n.toInt_lt⟩, .inr rfl⟩
        | int32 n => exact ⟨_, rfl, of_decide_eq_true taken, .inr rfl⟩
        | long n => exact ⟨_, rfl, of_decide_eq_true taken, .inr rfl⟩
        | _ => cases taken
    | int32 =>
        cases value with
        | byte n =>
            have lower := n.le_toInt
            have upper := n.toInt_lt
            exact ⟨_, rfl, by simp only [Width.InRange, Width.bits]; omega,
              .inl (by rintro ⟨⟩)⟩
        | short n =>
            have lower := n.le_toInt
            have upper := n.toInt_lt
            exact ⟨_, rfl, by simp only [Width.InRange, Width.bits]; omega,
              .inl (by rintro ⟨⟩)⟩
        | long n => exact ⟨_, rfl, of_decide_eq_true taken, .inl (by rintro ⟨⟩)⟩
        | _ => cases taken
    | long =>
        cases value with
        | byte n =>
            have lower := n.le_toInt
            have upper := n.toInt_lt
            exact ⟨_, rfl, by simp only [Width.InRange, Width.bits]; omega,
              .inl (by rintro ⟨⟩)⟩
        | short n =>
            have lower := n.le_toInt
            have upper := n.toInt_lt
            exact ⟨_, rfl, by simp only [Width.InRange, Width.bits]; omega,
              .inl (by rintro ⟨⟩)⟩
        | int32 n =>
            have lower := n.le_toInt
            have upper := n.toInt_lt
            exact ⟨_, rfl, by simp only [Width.InRange, Width.bits]; omega,
              .inl (by rintro ⟨⟩)⟩
        | _ => cases taken
  · rintro ⟨number, is, inside, other⟩
    cases value with
    | byte n =>
        obtain rfl := Option.some.inj is
        cases width <;> first
          | rfl
          | exact absurd rfl (other.resolve_right (by rintro ⟨⟩))
    | short n =>
        obtain rfl := Option.some.inj is
        cases width <;> first
          | rfl
          | exact decide_eq_true inside
    | int32 n =>
        obtain rfl := Option.some.inj is
        cases width <;> first
          | rfl
          | exact decide_eq_true inside
          | exact absurd rfl (other.resolve_right (by rintro ⟨⟩))
    | long n =>
        obtain rfl := Option.some.inj is
        cases width <;> first
          | exact decide_eq_true inside
          | exact absurd rfl (other.resolve_right (by rintro ⟨⟩))
    | _ => cases is

/-- An array of so many dimensions, or an integer in the range for none. -/
def HasShape (width : Width) (nDims : Nat) (value : EtchObject) : Prop :=
  if nDims = 0 then
    ∃ number, value.integer? = some number ∧ width.InRange number
  else
    ∃ boxed elements,
      value = .nativeArray boxed width.clss nDims elements

/-- The same object, or an integer with the same number. -/
def SameNumbers (value result : EtchObject) : Prop :=
  result = value ∨
    (value.integer? ≠ Option.none ∧ result.integer? = value.integer?)

/-- A validator of a width takes objects of its dimensions only. -/
structure RespectsDims (width : Width) (nDims : Nat)
    (value : EtchObject) : Prop where
  validate : (integer width nDims).validate value = true →
    HasShape width nDims value
  validateValue : ∀ result,
    (integer width nDims).validateValue value = some result →
      HasShape width nDims value ∧ HasShape width nDims result ∧
        SameNumbers value result

theorem mNDims_pos {nDims : Nat} (some_dims : nDims ≠ 0) :
    0 < mNDims nDims := by
  unfold mNDims
  split
  · exact Nat.pos_of_ne_zero some_dims
  · decide

/-- With no dimensions, integers in the range and no others. -/
theorem validateInteger_zero {width : Width} {value : EtchObject}
    (valid : validateInteger width 0 value = true) :
    ∃ number, value.integer? = some number ∧ width.InRange number := by
  simp only [validateInteger, Bool.or_eq_true] at valid
  rcases valid with (expected | taken) | array
  · exact Width.integer_of_clss (of_decide_eq_true expected)
  · obtain ⟨number, is, inside, _⟩ := (widens_iff _ _).mp taken
    exact ⟨number, is, inside⟩
  · cases value with
    | nativeArray boxed component dim elements =>
        have scalar : (mExpectedType width.clss 0).isArray = false := by
          cases width <;> rfl
        rw [isArrayOf, scalar] at array
        exact nomatch array
    | _ => exact nomatch array

/-- With dimensions, arrays of the class, and integers that stray in. -/
theorem validateInteger_iff {width : Width} {nDims : Nat}
    (some_dims : nDims ≠ 0) (value : EtchObject) :
    validateInteger width nDims value = true ↔
      (∃ boxed dim elements,
        value = .nativeArray boxed width.clss dim elements) ∨
        Stray width value := by
  have expects : mExpectedType width.clss nDims =
      .nativeArray width.clss :=
    if_neg (Nat.ne_of_gt (mNDims_pos some_dims))
  rw [← widens_iff]
  simp only [validateInteger, Bool.or_eq_true]
  constructor
  · rintro ((expected | taken) | array)
    · have is := of_decide_eq_true expected
      rw [expects] at is
      cases value with
      | nativeArray boxed component dim elements =>
          obtain rfl := EtchObjectType.nativeArray.inj
            (Option.some.inj is)
          exact .inl ⟨_, _, _, rfl⟩
      | _ => exact nomatch is
    · exact .inr taken
    · cases value with
      | nativeArray boxed component dim elements =>
          simp only [isArrayOf, Bool.and_eq_true,
            decide_eq_true_eq] at array
          obtain ⟨_, rfl⟩ := array
          exact .inl ⟨_, _, _, rfl⟩
      | _ => exact nomatch array
  · rintro (⟨boxed, dim, elements, rfl⟩ | taken)
    · refine .inl (.inl (decide_eq_true ?_))
      rw [expects]
      rfl
    · exact .inl (.inr taken)

/-- An integer is converted to the width, where no array is expected. -/
theorem validateValueInteger_zero {width : Width}
    {value result : EtchObject}
    (valid : validateValueInteger width 0 value = some result) :
    ∃ number, value.integer? = some number ∧
      result.integer? = some number ∧ width.InRange number ∧
      result.getObjectType = some width.clss := by
  unfold validateValueInteger at valid
  split at valid
  · rename_i accepted
    obtain ⟨number, is, inside⟩ := validateInteger_zero accepted
    split at valid
    · rename_i own
      obtain rfl := Option.some.inj valid
      exact ⟨number, is, is, inside, own.resolve_right (by decide)⟩
    · rw [is] at valid
      obtain rfl := Option.some.inj valid
      exact ⟨number, is, Width.integer?_box inside, inside,
        Width.getObjectType_box _ _⟩
  · exact nomatch valid

/--
The validators of integers respect their dimensions where these are none, and
else where the object is neither an integer that strays in nor an array of the
class with other dimensions.
-/
theorem respectsDims_iff (width : Width) (nDims : Nat)
    (value : EtchObject) :
    RespectsDims width nDims value ↔
      nDims = 0 ∨
        (¬Stray width value ∧
          ∀ boxed dim elements,
            value = .nativeArray boxed width.clss dim elements →
              dim = nDims) := by
  by_cases scalar : nDims = 0
  · subst scalar
    refine iff_of_true ⟨fun valid => validateInteger_zero valid,
      fun result valid => ?_⟩ (.inl rfl)
    obtain ⟨number, is, is', inside, _⟩ := validateValueInteger_zero valid
    refine ⟨⟨number, is, inside⟩, ⟨number, is', inside⟩, .inr ⟨?_, ?_⟩⟩
    · rw [is]
      exact nofun
    · rw [is, is']
  · have shape (value : EtchObject) : HasShape width nDims value ↔
        ∃ boxed elements,
          value = .nativeArray boxed width.clss nDims elements := by
      rw [HasShape, if_neg scalar]
    have valid_iff : validateInteger width nDims value = true ↔ _ :=
      validateInteger_iff scalar value
    constructor
    · intro respects
      refine .inr ⟨fun stray => ?_, fun boxed dim elements is => ?_⟩
      · obtain ⟨boxed, elements, rfl⟩ := (shape value).mp
          (respects.validate (valid_iff.mpr (.inr stray)))
        obtain ⟨number, is, _⟩ := stray
        exact nomatch is
      · obtain ⟨boxed', elements', is'⟩ := (shape value).mp
          (respects.validate
            (valid_iff.mpr (.inl ⟨boxed, dim, elements, is⟩)))
        exact (EtchObject.nativeArray.inj (is.symm.trans is')).2.2.1
    · rintro (none | ⟨plain, dims⟩)
      · exact absurd none scalar
      · have accepts (valid : validateInteger width nDims value = true) :
            HasShape width nDims value := by
          obtain ⟨boxed, dim, elements, rfl⟩ :=
            (valid_iff.mp valid).resolve_right plain
          obtain rfl := dims _ _ _ rfl
          exact (shape _).mpr ⟨boxed, elements, rfl⟩
        refine ⟨accepts, fun result valid => ?_⟩
        change validateValueInteger width nDims value = _ at valid
        unfold validateValueInteger at valid
        split at valid
        · rename_i accepted
          rw [if_pos (.inr (mNDims_pos scalar))] at valid
          obtain rfl := Option.some.inj valid
          exact ⟨accepts accepted, accepts accepted, .inl rfl⟩
        · exact nomatch valid

/-- A short is taken for an array of bytes. -/
theorem stray_short :
    ¬∀ width nDims value, RespectsDims width nDims value := by
  intro respects
  have shape := (respects .byte 1 (.short 5)).validate (by decide)
  obtain ⟨boxed, elements, is⟩ := shape
  exact nomatch is

end EtchValidator

end Etch.Cpp
