import Etch.Java.DefaultValueFactory
import Etch.Java.ItemReading

/-!
# A Java `DefaultValueFactory` with the serializers of collections

`init` registers the serializers of lists, sets, maps and dates with their
types; generated code does the same for the two maps with `String` keys.
-/

namespace Etch.Java

open Etch.Library.Stateful BinaryTaggedDataOutput BinaryTaggedDataInput

/-- What is serialized by a serializer of its own. -/
inductive Kind where
  | list
  | set
  | map
  | strIntHashMap
  | strStrHashMap
  | date
deriving DecidableEq

namespace Kind

/-- The class of what is imported. -/
def className : Kind → String
  | list => "java.util.ArrayList"
  | set => "java.util.HashSet"
  | map => "java.util.HashMap"
  | strIntHashMap => "StrIntHashMap"
  | strStrHashMap => "StrStrHashMap"
  | date => "java.util.Date"

/-- The class that `exportValue` casts to. -/
def castClass : Kind → JavaClass
  | list => .List
  | set => .Set
  | map => .Map
  | kind => .custom kind.className

/-- The class that says when two objects are equal. -/
def equalityClass : Kind → JavaClass
  | list => .List
  | set => .Set
  | date => .custom "java.util.Date"
  | _ => .Map

def fieldName : Kind → JavaString
  | list => ListSerializer.FIELD_NAME
  | set => SetSerializer.FIELD_NAME
  | map => MapSerializer.FIELD_NAME
  | strIntHashMap => StrIntHashMapSerializer.FIELD_NAME
  | strStrHashMap => StrStrHashMapSerializer.FIELD_NAME
  | date => DateSerializer.FIELD_NAME

def field (kind : Kind) : Field :=
  .ofName kind.fieldName

/-- The validator of the field. -/
def validator : Kind → Validator
  | date => .integer .long 0
  | _ => .object 1

def helper {S : Type} (equals : Equality) (type : IdName) :
    Kind → ImportExportHelper S
  | list => ListSerializer.helper type list.field
  | set => SetSerializer.helper equals type set.field
  | map => MapSerializer.helper equals type map.field
  | strIntHashMap =>
      StrIntHashMapSerializer.helper equals type strIntHashMap.field
  | strStrHashMap =>
      StrStrHashMapSerializer.helper equals type strStrHashMap.field
  | date => DateSerializer.helper type date.field

end Kind

/-- What `init` leaves of a type. -/
structure Registered {S : Type} (setup : FactorySetup S) (kind : Kind)
    (type : IdName) : Prop where
  wellFormed : Utf8.WellFormed type.name
  typeById : setup.types.getById type.id = some type
  typeByName : setup.types.byName type.name = some type
  fields : ∃ fields, setup.fields type = some fields ∧
    fields.fields.getFieldById kind.field.id = some kind.field ∧
    fields.fields.fields.byName kind.fieldName = some kind.field ∧
    fields.fields.getValidator kind.field = some kind.validator
  helper : setup.importExportHelper type =
    some (kind.helper setup.equals type)

/-- Objects of a class are exported with the type of a kind. -/
structure ExportedAs {S : Type} (setup : FactorySetup S) (kind : Kind)
    (type : IdName) (clss : String) : Prop where
  type : setup.class2type (.custom clss) = some type ∨
    setup.class2type (.custom clss) = none ∧
    (∀ before, setup.others.getCustomStructType (.custom clss) before =
      .ok none before) ∧
    setup.interfaceType (.custom clss) = some type
  cast : kind.castClass.isAssignableFrom setup.classes.isSuper
    (.custom clss) = true
  equality : kind.equalityClass.isAssignableFrom setup.classes.isSuper
    (.custom clss) = true

/-- A factory in which the types of all kinds are registered. -/
structure StandardFactory (S : Type) extends FactorySetup S where
  typeOf : Kind → IdName
  registered : ∀ kind, Registered toFactorySetup kind (typeOf kind)
  /-- the classes of objects that have a kind -/
  kindOf : String → Option Kind
  exportedAs : ∀ kind clss, kindOf clss = some kind →
    ExportedAs toFactorySetup kind (typeOf kind) clss
  /-- the classes of the Java library, and `StrIntHashMap extends HashMap` -/
  library : ∀ kind : Kind,
    kind.equalityClass.isAssignableFrom classes.isSuper
      (.custom kind.className) = true

namespace StandardFactory

variable {S : Type} (factory : StandardFactory S)

/-- The factory that the data formats use. -/
abbrev vf : ValueFactory S :=
  factory.valueFactory

/-- Every helper that is registered stays away from the end of arrays. -/
theorem importsNoEnd : ImportsNoEnd factory.vf := by
  intro struct before value after done
  change factory.importCustomValue struct before = _ at done
  unfold FactorySetup.importCustomValue at done
  cases found : factory.importExportHelper struct.type with
  | none =>
      rw [found] at done
      obtain ⟨rfl, rfl⟩ := EStateM.Result.ok.inj done
      exact nofun
  | some helper =>
      rw [found] at done
      exact helper.importValue_ne _ _ _ _ done

/-! ## Names -/

/-- What is read of a type or a field. -/
def nameValue (stringTypeAndField : Bool) (item : IdName) : Value :=
  if stringTypeAndField then .string item.name else .int item.id

theorem nameOf_plain (named : Bool) (item : IdName) :
    nameOf factory.vf named item ≠ .none := by
  unfold nameOf
  split_ifs <;> exact nofun

/-- What the first part of a combination takes. -/
theorem validateValue_combo {vf : ValueFactory S} {a b : Validator}
    {value value' : Value} (plain : value ≠ .null)
    (valid : validateValue vf (some a) value = .ok value') :
    validateValue vf (some (.combo a b)) value = .ok value' := by
  cases value with
  | null => exact absurd rfl plain
  | _ =>
      change a.validateValue vf.classes _ = _ at valid
      change Validator.validateValue vf.classes (.combo a b) _ = _
      rw [Validator.validateValue, valid]

theorem validateValue_name (named : Bool) {item : IdName}
    (wellFormed : Utf8.WellFormed item.name) :
    validateValue factory.vf (some intOrStrValidator)
      ((nameOf factory.vf named item).value factory.vf) =
        .ok (nameValue named item) := by
  have string (s : JavaString) : validateValue factory.vf
      (some intOrStrValidator) (.string s) = .ok (.string s) := rfl
  cases named with
  | true =>
      rw [nameOf, if_pos rfl]
      change _ = Except.ok (Value.string item.name)
      split_ifs with empty
      · rw [List.length_eq_zero_iff.mp empty]
        rfl
      · rw [Scalar.value]
        change validateValue factory.vf _ (.string (factory.charset.newString
          (factory.charset.getBytes item.name))) = _
        rw [factory.charset.newString_getBytes wellFormed]
        exact string item.name
  | false =>
      change validateValue factory.vf (some intOrStrValidator)
        ((Scalar.integer item.id.toInt64).value factory.vf) =
          .ok (.int item.id)
      refine validateValue_combo ?_ (validateValue_int item.id)
      rw [Scalar.value]
      unfold narrowed
      split_ifs <;> rintro ⟨⟩

/-- A name is read as the object it is a name of. -/
theorem read_name (named : Bool) {item : IdName}
    (wellFormed : Utf8.WellFormed item.name) :
    (nameOf factory.vf named item).read factory.vf (some intOrStrValidator)
      false = pure (nameValue named item) := by
  rw [readScalar_plain (factory.nameOf_plain named item),
    factory.validateValue_name named wellFormed]
  rfl

theorem readType_registered (named : Bool) (kind : Kind) :
    (nameOf factory.vf named (factory.typeOf kind)).readType factory.vf =
      pure (factory.typeOf kind) := by
  have registered := factory.registered kind
  rw [Scalar.readType, factory.read_name named registered.wellFormed,
    pure_bind]
  cases named with
  | true =>
      have found : factory.vf.getTypeByName (factory.typeOf kind).name =
          pure (some (factory.typeOf kind)) := by
        change factory.getTypeByName _ = _
        unfold FactorySetup.getTypeByName
        rw [registered.typeByName]
      change (factory.vf.getTypeByName _ >>= _) = _
      rw [found]
      rfl
  | false =>
      have found : factory.vf.getTypeById (factory.typeOf kind).id =
          pure (some (factory.typeOf kind)) := by
        change factory.getTypeById _ = _
        unfold FactorySetup.getTypeById
        rw [registered.typeById]
      change (factory.vf.getTypeById _ >>= _) = _
      rw [found]
      rfl

theorem readField_registered (named : Bool) (kind : Kind) :
    (nameOf factory.vf named kind.field).readField factory.vf
      (factory.typeOf kind) = pure kind.field := by
  obtain ⟨fields, has, byId, byName, _⟩ := (factory.registered kind).fields
  have wellFormed : Utf8.WellFormed kind.field.name := by
    cases kind <;> decide
  rw [Scalar.readField, factory.read_name named wellFormed, pure_bind]
  cases named with
  | true =>
      have found : factory.vf.getFieldByName (factory.typeOf kind)
          kind.field.name = pure (some kind.field) := by
        change factory.getFieldByName _ _ = _
        unfold FactorySetup.getFieldByName
        rw [has]
        exact congrArg pure byName
      change (factory.vf.getFieldByName _ _ >>= _) = _
      rw [found]
      rfl
  | false =>
      have found : factory.vf.getFieldById (factory.typeOf kind)
          kind.field.id = pure (some kind.field) := by
        change factory.getFieldById _ _ = _
        unfold FactorySetup.getFieldById
        rw [has]
        exact congrArg pure byId
      change (factory.vf.getFieldById _ _ >>= _) = _
      rw [found]
      rfl

theorem getValidator_registered (kind : Kind) :
    factory.vf.getValidator (factory.typeOf kind) kind.field =
      pure (some kind.validator) := by
  obtain ⟨fields, has, _, _, valid⟩ := (factory.registered kind).fields
  change factory.getValidator _ _ = _
  unfold FactorySetup.getValidator
  rw [has]
  exact congrArg pure valid

/-! ## Export and import -/

/-- What is put in the field of the struct. -/
def exported (kind : Kind) (state : List Value) : Value :=
  match kind with
  | .date => state.headD .null
  | _ => .array .object state

theorem exportType_eq {kind : Kind} {clss : String} {state : List Value}
    (is : factory.kindOf clss = some kind) :
    factory.exportType (.custom clss state) (.custom clss) =
      pure (some (factory.typeOf kind)) := by
  unfold FactorySetup.exportType FactorySetup.getCustomStructType
  rcases (factory.exportedAs kind clss is).type with mapped | ⟨unmapped, unknown, interface⟩
  · rw [mapped]
    rfl
  · rw [unmapped]
    have none : factory.others.getCustomStructType (.custom clss) =
        pure none := funext unknown
    dsimp only
    rw [none, pure_bind]
    exact congrArg pure interface

/-- A value is put in a field whose validator takes it. -/
theorem put_eq {vf : ValueFactory S} {struct : StructValue} {key : Field}
    {value : Value} {v : Validator} (present : value ≠ .null)
    (validator : vf.getValidator struct.type key = pure (some v))
    (valid : v.validate vf.classes value = true) :
    struct.put vf key value = pure (struct.set key value) := by
  rw [struct.put_of_ne_null vf key present, validator]
  by_cases unchecked : vf.level = .NONE
  · exact if_neg (not_not.mpr unchecked)
  · refine (if_pos unchecked).trans ?_
    rw [pure_bind]
    dsimp only
    rw [valid]
    rfl

/-- What is exported, the validator of the field takes. -/
theorem validate_exported (kind : Kind) {state : List Value}
    (dated : kind = .date → ∃ time, state = [.long time]) :
    exported kind state ≠ .null ∧
      kind.validator.validate factory.classes (exported kind state) =
        true := by
  cases kind with
  | date =>
      obtain ⟨time, rfl⟩ := dated rfl
      have inside : Width.long.InRange time.toInt :=
        ⟨time.le_toInt, time.toInt_lt⟩
      exact ⟨nofun, decide_eq_true inside⟩
  | _ => exact ⟨nofun, rfl⟩

/-- The struct that an object of a kind is exported as. -/
def struct (kind : Kind) (state : List Value) : StructValue :=
  ⟨factory.typeOf kind, [(kind.field, exported kind state)]⟩

theorem exportCustomValue_eq {kind : Kind} {clss : String}
    {state : List Value} (is : factory.kindOf clss = some kind)
    (dated : kind = .date → ∃ time, state = [.long time]) :
    factory.vf.exportCustomValue (.custom clss state) =
      pure (some (factory.struct kind state)) := by
  obtain ⟨present, valid⟩ := factory.validate_exported kind dated
  have put : structOf factory.lookups (factory.typeOf kind) kind.field
      (exported kind state) = pure (factory.struct kind state) :=
    put_eq present (factory.getValidator_registered kind) valid
  have elements : elementsOf factory.lookups.classes kind.castClass
      (.custom clss state) = (pure state : EStateM Thrown S _) :=
    if_pos (factory.exportedAs kind clss is).cast
  have helped : (kind.helper factory.equals (factory.typeOf kind)).exportValue
      factory.lookups (.custom clss state) =
        pure (factory.struct kind state) := by
    rw [← put]
    cases kind <;> exact (congrArg (· >>= _) elements).trans (pure_bind ..)
  change factory.exportCustomValue (.custom clss state) = _
  unfold FactorySetup.exportCustomValue
  change (factory.exportType (.custom clss state) (.custom clss) >>= _) = _
  rw [factory.exportType_eq is, pure_bind, Option.bind_some,
    (factory.registered kind).helper]
  exact congrArg (some <$> ·) helped

/-- What an import makes of the objects in the array of a struct. -/
def gather (equals : Equality) :
    Kind → List Value → Except Thrown (List Value)
  | .set, elements => .ok (elements.foldl (HashSet.add equals) [])
  | .map, elements => unpair <$> putAll equals .ok .ok elements []
  | .strIntHashMap, elements =>
      unpair <$> putAll equals castString castInteger elements []
  | .strStrHashMap, elements =>
      unpair <$> putAll equals castString castString elements []
  | _, elements => .ok elements

theorem importAs_eq (name : String)
    (build : StructValue → Except Thrown (List Value))
    (struct : StructValue) :
    (importAs name build struct : EStateM Thrown S Value) =
      returned (Value.custom name <$> build struct) := by
  unfold importAs
  cases build struct <;> rfl

theorem importCustomValue_eq (kind : Kind) {state : List Value}
    (dated : kind = .date → ∃ time, state = [.long time]) :
    factory.vf.importCustomValue (factory.struct kind state) =
      returned (Value.custom kind.className <$>
        gather factory.equals kind state) := by
  have get : (factory.struct kind state).get kind.field =
      exported kind state := by
    unfold StructValue.get struct
    rw [List.lookup_cons_self]
    rfl
  have typed : (factory.struct kind state).checkType (factory.typeOf kind) =
      .ok () := if_pos rfl
  have built : factory.vf.importCustomValue (factory.struct kind state) =
      (kind.helper factory.equals (factory.typeOf kind)).importValue
        (factory.struct kind state) := by
    change factory.importCustomValue (factory.struct kind state) = _
    unfold FactorySetup.importCustomValue
    rw [show factory.importExportHelper (factory.struct kind state).type = _
      from (factory.registered kind).helper]
  rw [built]
  cases kind with
  | list =>
      refine (importAs_eq _ _ _).trans ?_
      rw [ListSerializer.build, typed, get]
      rfl
  | set =>
      refine (importAs_eq _ _ _).trans ?_
      rw [SetSerializer.build, typed, get]
      rfl
  | map =>
      refine (importAs_eq _ _ _).trans ?_
      rw [MapSerializer.build, typed, get]
      rfl
  | strIntHashMap =>
      refine (importAs_eq _ _ _).trans ?_
      rw [StrIntHashMapSerializer.build, get]
      rfl
  | strStrHashMap =>
      refine (importAs_eq _ _ _).trans ?_
      rw [StrStrHashMapSerializer.build, get]
      rfl
  | date =>
      obtain ⟨time, rfl⟩ := dated rfl
      refine (importAs_eq _ (DateSerializer.build Kind.date.field)
        (factory.struct .date [.long time])).trans ?_
      rw [DateSerializer.build, get]
      rfl

end StandardFactory

end Etch.Java
