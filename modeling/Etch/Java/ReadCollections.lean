import Etch.Java.AlikeValues

/-!
# Reading what has been written for a collection

An object with a serializer is written as a struct with one field.  What the
reader makes of its item is what comes back of the object.
-/

namespace Etch.Java

open Etch.Library.Stateful BinaryTaggedData FloatingPoint
open BinaryTaggedDataOutput BinaryTaggedDataInput

namespace StandardFactory

variable {S : Type} (factory : StandardFactory S)

/-! ## Validators of objects -/

/-- A validator of objects takes all of them. -/
theorem validateValue_object (value : Value) :
    validateValue factory.vf (some (.object 0)) value = .ok value := by
  cases value with
  | null => rfl
  | _ => rfl

/-- What the reader makes of an item, and that it is not taken for an end. -/
structure Yields (v : Option Validator) (item : Item)
    (result : Except Thrown Value) : Prop where
  plain : item ≠ .scalar .none
  clean : item.Clean
  read : ∀ noneOk, item.read factory.vf v noneOk = returned result

theorem Yields.scalar {v : Option Validator} {s : Scalar}
    (plain : s ≠ .none) :
    factory.Yields v (.scalar s)
      (validateValue factory.vf v (s.value factory.vf)) where
  plain same := plain (Item.scalar.inj same)
  clean := trivial
  read noneOk := by
    rw [Item.read]
    exact readScalar_plain plain v noneOk

/-! ## Scalars -/

theorem bytes_bytesOf {elements : List Value}
    (stores : ∀ element ∈ elements, Stores .byte element) :
    (bytesOf elements).map (fun byte => Value.byte byte.toInt8) =
      elements := by
  induction elements with
  | nil => rfl
  | cons element elements ih =>
      have rest := ih fun element mem =>
        stores element (List.mem_cons_of_mem _ mem)
      have first := stores element List.mem_cons_self
      cases element with
      | byte n =>
          change Value.byte n.toUInt8.toInt8 :: _ = _
          rw [Int8.toInt8_toUInt8]
          exact congrArg _ rest
      | _ => exact first.elim

theorem faithfulAll_of_primitive {component : JavaClass}
    {elements : List Value}
    (stores : ∀ element ∈ elements, Stores component element)
    (primitive : component.isPrimitive = true) :
    factory.FaithfulAll elements := by
  induction elements with
  | nil => trivial
  | cons element elements ih =>
      exact ⟨factory.faithful_of_primitive (stores _ List.mem_cons_self)
        primitive, ih fun element mem =>
          stores element (List.mem_cons_of_mem _ mem)⟩

/-- A value without others in it comes back as its scalar. -/
theorem value_scalarOf {value : Value} {s : Scalar}
    (serializable : factory.Serializable value)
    (is : scalarOf factory.vf value = some s) :
    s ≠ .none ∧ factory.back value = .ok (s.value factory.vf) := by
  cases value with
  | NONE => exact serializable.elim
  | byte n =>
      obtain rfl := Option.some.inj is
      refine ⟨by rintro ⟨⟩, ?_⟩
      rw [Scalar.value, Int8.toInt_toInt64]
      rfl
  | short n =>
      obtain rfl := Option.some.inj is
      refine ⟨by rintro ⟨⟩, ?_⟩
      rw [Scalar.value, Int16.toInt_toInt64]
      rfl
  | int n =>
      obtain rfl := Option.some.inj is
      refine ⟨by rintro ⟨⟩, ?_⟩
      rw [Scalar.value, Int32.toInt_toInt64]
      rfl
  | float bits =>
      obtain rfl := Option.some.inj is
      have same : floatToIntBits bits = bits := serializable
      refine ⟨by rintro ⟨⟩, ?_⟩
      rw [Scalar.value, same, same]
      rfl
  | double bits =>
      obtain rfl := Option.some.inj is
      have same : doubleToLongBits bits = bits := serializable
      refine ⟨by rintro ⟨⟩, ?_⟩
      rw [Scalar.value, same, same]
      rfl
  | string s =>
      rw [scalarOf] at is
      split_ifs at is with empty
      · obtain rfl := Option.some.inj is
        obtain rfl := List.length_eq_zero_iff.mp empty
        exact ⟨by rintro ⟨⟩, rfl⟩
      · obtain rfl := Option.some.inj is
        refine ⟨by rintro ⟨⟩, ?_⟩
        have same : factory.vf.newString (factory.vf.getBytes s) = s :=
          factory.charset.newString_getBytes serializable
        rw [Scalar.value, same]
        rfl
  | array component elements =>
      cases component with
      | byte =>
          obtain rfl := Option.some.inj is
          obtain ⟨native, dims, stores, inside⟩ := serializable
          have faithful := factory.faithfulAll_of_primitive stores rfl
          refine ⟨by rintro ⟨⟩, ?_⟩
          rw [back, factory.backAll_of_faithful inside faithful stores,
            Scalar.value, bytes_bytesOf stores]
          rfl
      | _ => cases is
  | struct type fields => cases is
  | custom clss state => cases is
  | _ =>
      obtain rfl := Option.some.inj is
      exact ⟨by rintro ⟨⟩, rfl⟩

/-! ## Arrays -/

/-- What the reader makes of the elements of an array. -/
structure YieldsAll (ev : Option Validator) (items : List Item)
    (values : List Value) : Prop where
  clean : CleanAll items
  read : ∀ av, readElements factory.vf ev items av =
    returned ((fun elements =>
      { av with elements := av.elements ++ elements }) <$>
        factory.backAll av.component values)

theorem YieldsAll.nil (ev : Option Validator) :
    factory.YieldsAll ev [] [] where
  clean := trivial
  read av := by
    change pure av = pure { av with elements := av.elements ++ [] }
    rw [List.append_nil]

theorem YieldsAll.cons {ev : Option Validator} {item : Item}
    {items : List Item} {value : Value} {values : List Value}
    (first : factory.Yields ev item (factory.back value))
    (rest : factory.YieldsAll ev items values) :
    factory.YieldsAll ev (item :: items) (value :: values) where
  clean := ⟨first.plain, first.clean, rest.clean⟩
  read av := by
    rw [readElements, first.read true, backAll]
    cases factory.back value with
    | error thrown => rfl
    | ok value =>
        change (returned (av.add factory.classes.isSuper value) >>= _) = _
        unfold ArrayValue.add
        change _ = returned (_ <$>
          (ArrayValue.stored _ av.component value >>= _))
        cases ArrayValue.stored factory.classes.isSuper av.component value with
        | error thrown => rfl
        | ok value =>
            change readElements factory.vf ev items _ = _
            rw [rest.read]
            change _ = returned (_ <$>
              (factory.backAll av.component values >>= _))
            cases factory.backAll av.component values with
            | error thrown => rfl
            | ok elements =>
                change pure _ = pure _
                dsimp only
                rw [List.append_assoc]
                rfl

/-- The code of a native type is the code of no other class. -/
theorem getNativeType_getNativeTypeCode {c : JavaClass}
    (native : getNativeTypeCode c ≠ TypeCode.CUSTOM) :
    getNativeType (getNativeTypeCode c) = .ok c := by
  cases c with
  | boolean => rfl
  | byte => rfl
  | short => rfl
  | int => rfl
  | long => rfl
  | float => rfl
  | double => rfl
  | string => rfl
  | object => rfl
  | _ => exact absurd rfl native

theorem newArray_native {component : JavaClass}
    (dims : component.base.2 + 1 ≤ Validator.MAX_NDIMS)
    (native : getNativeTypeCode component.base.1 ≠ TypeCode.CUSTOM)
    (isNative) :
    newArray factory.vf
      (.native (getNativeTypeCode component.base.1) isNative)
      (Int32.ofInt (component.base.2 + 1 : Nat)) =
        pure ⟨component, [], getNativeTypeCode component.base.1, none,
          (component.base.2 + 1 : Nat)⟩ := by
  have dim : (Int32.ofInt (component.base.2 + 1 : Nat)).toInt =
      (component.base.2 + 1 : Nat) :=
    Int32.toInt_ofInt_of_le (by omega)
      (by rw [Validator.MAX_NDIMS] at dims; omega)
  have few : checkDim (component.base.2 + 1 : Nat) = .ok () :=
    if_neg (by omega)
  have whole : component.base.1.arrayOf component.base.2 = component :=
    component.arrayOf_base
  have base : baseType factory.vf (getNativeTypeCode component.base.1) none =
      pure component.base.1 := by
    unfold baseType
    rw [getNativeType_getNativeTypeCode native]
    rfl
  rw [newArray, ElementType.read, dim, few]
  change (baseType factory.vf _ none >>= _) = _
  rw [base, pure_bind]
  rw [Int.toNat_natCast, Nat.add_sub_cancel, whole]

theorem YieldsAll.array {v : Validator} {ev : Option Validator}
    {component : JavaClass} {values : List Value} {items : List Item}
    (native : getNativeTypeCode component.base.1 ≠ TypeCode.CUSTOM)
    (isNative) (dims : component.base.2 + 1 ≤ Validator.MAX_NDIMS)
    (element : v.elementValidator = .ok ev)
    (inside : factory.YieldsAll ev items values) :
    factory.Yields (some v)
      (.array (.native (getNativeTypeCode component.base.1) isNative)
        (Int32.ofInt (component.base.2 + 1 : Nat)) items)
      (do
        let elements ← factory.backAll component values
        validateValue factory.vf (some v) (.array component elements)) where
  plain := nofun
  clean := inside.clean
  read noneOk := by
    rw [Item.read, factory.newArray_native dims native, pure_bind,
      elementValidator, element]
    change (readElements factory.vf ev items _ >>= _) = _
    rw [inside.read]
    dsimp only
    cases factory.backAll component values with
    | error thrown => rfl
    | ok elements => rfl

/-! ## Objects with a serializer -/

theorem answers_pure {α : Type} {value value' : α}
    (answers : Answers (pure value : EStateM Thrown S α) value') :
    value' = value := by
  obtain ⟨before, after, done⟩ := answers
  obtain ⟨rfl, rfl⟩ := EStateM.Result.ok.inj done
  rfl

/-- What has been exported is in the field of the struct again. -/
theorem readFields_exported (named : Bool) {kind : Kind} {item : Item}
    {result : Except Thrown (List Value)}
    (yields : factory.Yields (some kind.validator) item
      (exported kind <$> result))
    (dated : ∀ state, result = .ok state → kind = .date →
      ∃ time, state = [.long time]) :
    readFields factory.vf [(nameOf factory.vf named kind.field, item)]
      ⟨factory.typeOf kind, []⟩ =
        returned (factory.struct kind <$> result) := by
  rw [readFields, factory.readField_registered, pure_bind,
    factory.getValidator_registered, pure_bind]
  dsimp only
  rw [yields.read]
  cases result with
  | error thrown => rfl
  | ok state =>
      obtain ⟨present, valid⟩ :=
        factory.validate_exported kind (dated state rfl)
      have put : StructValue.put factory.vf ⟨factory.typeOf kind, []⟩
          kind.field (exported kind state) =
            pure (factory.struct kind state) :=
        put_eq present (factory.getValidator_registered kind) valid
      change (StructValue.put _ _ _ _ >>= _) = _
      rw [put, pure_bind]
      rfl

/-- The object that is imported of what has been exported. -/
theorem Yields.custom {named : Bool} {kind : Kind} {item : Item}
    {result : Except Thrown (List Value)} (v : Option Validator)
    (yields : factory.Yields (some kind.validator) item
      (exported kind <$> result))
    (dated : ∀ state, result = .ok state → kind = .date →
      ∃ time, state = [.long time]) :
    factory.Yields v
      (.struct (nameOf factory.vf named (factory.typeOf kind))
        [(nameOf factory.vf named kind.field, item)])
      (do
        let elements ← result
        let state ← gather factory.equals kind elements
        validateValue factory.vf v (.custom kind.className state)) where
  plain := nofun
  clean := ⟨factory.nameOf_plain named kind.field, yields.clean, trivial⟩
  read noneOk := by
    rw [Item.read, factory.readType_registered, pure_bind, List.length_cons,
      List.length_nil, StructValue.new_one]
    change (readFields factory.vf _ ⟨factory.typeOf kind, []⟩ >>= _) = _
    rw [factory.readFields_exported named yields dated]
    cases result with
    | error thrown => rfl
    | ok elements =>
        change (factory.vf.importCustomValue (factory.struct kind elements) >>=
          _) = _
        rw [factory.importCustomValue_eq kind (dated elements rfl)]
        change _ = returned (gather factory.equals kind elements >>= _)
        cases gather factory.equals kind elements with
        | error thrown => rfl
        | ok state => rfl

/-- What comes back of the state that has been exported. -/
def backState (kind : Kind) (state : List Value) :
    Except Thrown (List Value) :=
  if kind = .date then .ok state else factory.backAll .object state

theorem back_custom {kind : Kind} {clss : String} {state : List Value}
    (is : factory.kindOf clss = some kind)
    (next : Value → Except Thrown Value) :
    (factory.back (.custom clss state) >>= next) = (do
      let elements ← factory.backState kind state
      let state ← gather factory.equals kind elements
      next (.custom kind.className state)) := by
  rw [back, is, backState]
  dsimp only
  split_ifs with dated
  · subst dated
    rfl
  · cases factory.backAll .object state with
    | error thrown => rfl
    | ok elements =>
        change (Value.custom kind.className <$> gather _ kind elements >>=
          next) = (gather _ kind elements >>= _)
        cases gather factory.equals kind elements <;> rfl

theorem yields_exported {named : Bool} {kind : Kind} {state : List Value}
    {item : Item} (shaped : Shaped kind state)
    (inside : ∀ items,
      WrittenAll factory.vf named (some (.object 0)) state items →
        factory.YieldsAll (some (.object 0)) items state)
    (written : Written factory.vf named (some kind.validator)
      (exported kind state) item) :
    factory.Yields (some kind.validator) item
      (exported kind <$> factory.backState kind state) := by
  by_cases dated : kind = .date
  · subst dated
    obtain ⟨time, rfl⟩ := shaped
    cases written with
    | scalar checked is =>
        obtain rfl := Option.some.inj is
        have yields := Yields.scalar factory
          (v := some (.integer .long 0)) (s := .integer time) (by rintro ⟨⟩)
        have inside : Width.long.InRange time.toInt :=
          ⟨time.le_toInt, time.toInt_lt⟩
        rw [Scalar.value, validateValue_integer (integer?_narrowed time)
          inside, Width.value, Int64.ofInt_toInt] at yields
        exact yields
    | custom checked code =>
        exact absurd ((checkValue_integer rfl).symm.trans code)
          (integerCode_ne_custom _)
  · have array : exported kind state = .array .object state := by
      cases kind with
      | date => exact absurd rfl dated
      | _ => rfl
    have validator : kind.validator = .object 1 := by
      cases kind with
      | date => exact absurd rfl dated
      | _ => rfl
    have whole : exported kind <$> factory.backAll .object state = (do
        let elements ← factory.backAll .object state
        validateValue factory.vf (some (.object 1))
          (.array .object elements)) := by
      cases factory.backAll .object state with
      | error thrown => rfl
      | ok elements =>
          cases kind with
          | date => exact absurd rfl dated
          | _ => rfl
    rw [backState, if_neg dated, whole]
    rw [array, validator] at written
    rw [validator]
    cases written with
    | scalar checked is => cases is
    | array checked notBytes typed element written =>
        obtain rfl := Except.ok.inj element
        cases typed with
        | native code =>
            exact (inside _ written).array factory code _ (by decide) rfl
        | custom type code => cases code
        | struct type code => cases code
    | custom checked code => cases code

/-- An object that has been written, read with the same validator. -/
theorem yields_custom {named : Bool} {kind : Kind} {clss : String}
    {state : List Value} {v : Option Validator} {item : Item}
    (is : factory.kindOf clss = some kind) (shaped : Shaped kind state)
    (inside : ∀ items,
      WrittenAll factory.vf named (some (.object 0)) state items →
        factory.YieldsAll (some (.object 0)) items state)
    (written : Written factory.vf named v (.custom clss state) item) :
    factory.Yields v item (do
      let value ← factory.back (.custom clss state)
      validateValue factory.vf v value) := by
  have dated : ∀ state', state' = state → kind = .date →
      ∃ time, state' = [.long time] := by
    rintro _ rfl rfl
    exact shaped
  cases written with
  | scalar checked is => exact nomatch is
  | custom checked code answers written =>
      rw [factory.exportCustomValue_eq is (dated state rfl)] at answers
      obtain rfl := Option.some.inj (answers_pure answers)
      cases written with
      | cons validator first rest =>
          have valid := factory.getValidator_registered kind
          obtain rfl := answers_pure (valid ▸ validator)
          cases rest
          rw [factory.back_custom is]
          refine Yields.custom factory v
            (factory.yields_exported shaped inside first) ?_
          rintro state' back rfl
          exact dated state' (Except.ok.inj back).symm rfl

/-! ## All values -/

/-- A value that is written as a scalar. -/
theorem yields_scalar {value : Value} {s : Scalar}
    (serializable : factory.Serializable value)
    (is : scalarOf factory.vf value = some s) :
    factory.Yields (some (.object 0)) (.scalar s) (factory.back value) := by
  obtain ⟨plain, back⟩ := factory.value_scalarOf serializable is
  have yields := Yields.scalar factory (v := some (.object 0)) plain
  rwa [factory.validateValue_object, ← back] at yields

mutual

theorem yields_of_written {named : Bool} {value : Value} {item : Item}
    (serializable : factory.Serializable value)
    (written : Written factory.vf named (some (.object 0)) value item) :
    factory.Yields (some (.object 0)) item (factory.back value) := by
  cases value with
  | array component elements =>
      have ⟨native, dims, stores, inside⟩ := serializable
      cases written with
      | scalar checked is => exact factory.yields_scalar serializable is
      | array checked notBytes typed element written =>
          obtain rfl := Except.ok.inj element
          cases typed with
          | native code =>
              have yields := YieldsAll.array factory (v := .object 0) code
                ⟨code, getNativeTypeCode_ne_struct _⟩ dims rfl
                (yieldsAll_of_written inside written)
              have whole : factory.back (.array component elements) = (do
                  let elements ← factory.backAll component elements
                  validateValue factory.vf (some (.object 0))
                    (.array component elements)) := by
                rw [back]
                cases factory.backAll component elements <;> rfl
              rwa [whole]
          | custom type code => exact absurd code native
          | struct type code => exact absurd code native
      | custom checked code => cases component <;> exact nomatch code
  | custom clss state =>
      obtain ⟨⟨kind, is, shaped⟩, inside⟩ := serializable
      have yields := factory.yields_custom is shaped
        (fun items written => yieldsAll_of_written inside written) written
      have objects : (do
          let value ← factory.back (.custom clss state)
          validateValue factory.vf (some (.object 0)) value) =
            factory.back (.custom clss state) := by
        cases factory.back (.custom clss state) with
        | error thrown => rfl
        | ok value => exact factory.validateValue_object value
      rwa [objects] at yields
  | struct type fields => exact serializable.elim
  | string s =>
      have ⟨scalar, is⟩ : ∃ scalar,
          scalarOf factory.vf (.string s) = some scalar := by
        unfold scalarOf
        dsimp only
        split_ifs <;> exact ⟨_, rfl⟩
      obtain rfl := written.scalar_eq is
      exact factory.yields_scalar serializable is
  | _ =>
      obtain rfl := written.scalar_eq rfl
      exact factory.yields_scalar serializable rfl

theorem yieldsAll_of_written {named : Bool} {values : List Value}
    {items : List Item} (serializable : factory.SerializableAll values)
    (written : WrittenAll factory.vf named (some (.object 0)) values items) :
    factory.YieldsAll (some (.object 0)) items values := by
  cases values with
  | nil =>
      cases written
      exact .nil factory _
  | cons value values =>
      cases written with
      | cons first rest =>
          exact .cons factory (yields_of_written serializable.1 first)
            (yieldsAll_of_written serializable.2 rest)

end

end StandardFactory

end Etch.Java
