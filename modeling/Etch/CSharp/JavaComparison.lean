import Etch.CSharp.BinaryTaggedDataInput
import Etch.CSharp.JavaValidators
import Etch.Java.BinaryTaggedDataInput

/-!
# What the decoders of C# and of Java are compared by

Two factories are the same that find the same and import the same values.  The
C# decoder leaves a trace of what is not compared, and of the nulls that it
stores as the default of a value type.
-/

namespace Etch.CSharp

open Etch.Library.Simulation
open Etch.Library.Stateful
open Validator (SameValue SameValidator sameValidator_some)

/-- Both factories find the same, and import the same values. -/
structure SameFactory {S T : Type} (names : Names)
    (vf : Java.ValueFactory S) (vf' : ValueFactory T)
    (same : S → T → Prop) : Prop where
  types : SameTypes names vf.classes vf'.types
  level : vf.level = vf'.level
  getTypeById : ∀ id, Simulates (.exact same) Eq
    (vf.getTypeById id) (vf'.getTypeById id)
  getTypeByName : ∀ name, Simulates (.exact same) Eq
    (vf.getTypeByName name) (vf'.getTypeByName name)
  getFieldById : ∀ type id, Simulates (.exact same) Eq
    (vf.getFieldById type id) (vf'.getFieldById type id)
  getFieldByName : ∀ type name, Simulates (.exact same) Eq
    (vf.getFieldByName type name) (vf'.getFieldByName type name)
  getValidator : ∀ type key, Simulates (.exact same) (SameValidator names)
    (vf.getValidator type key) (vf'.getValidator type key)
  getComponentType : ∀ type, Simulates (.exact same)
    (fun c c' => c = c'.map (ClrType.java names))
    (vf.getComponentType type) (vf'.getComponentType type)
  importCustomValue : ∀ type fields,
    Simulates (.exact same) (SameValue names)
      (vf.importCustomValue ⟨type, Value.javaFields names fields⟩)
      (vf'.importCustomValue ⟨type, fields⟩)
  newString : ∀ bytes : List UInt8, (∀ byte ∈ bytes, byte < 128) →
    vf.newString bytes = vf'.getString bytes

namespace BinaryTaggedDataInput

variable {S T : Type} {names : Names} {vf : Java.ValueFactory S}
  {vf' : ValueFactory T}

/-- The validator answers otherwise than it would without value types. -/
def ValidatorDiffers (types : Types) (v : Validator) (value : Value) : Prop :=
  v.validate types value ≠ v.validate types.objects value ∨
    v.validateValue types value ≠ v.validateValue types.objects value

/-- The array takes the value otherwise than it would without value types. -/
def StoreDiffers (types : Types) (element : ClrType) (value : Value) : Prop :=
  ArrayValue.stored types element value ≠
    ArrayValue.stored types.objects element value

/-- A string that is not ASCII has been read, or a value type that Java has a
class for has made a difference. -/
def Foreign (types : Types) (input : Input T) : Prop :=
  (∃ bytes ∈ input.strings, ∃ byte ∈ bytes, 128 ≤ byte) ∨
    (∃ check ∈ input.checks, ValidatorDiffers types check.1 check.2) ∨
    ∃ entry ∈ input.stores, StoreDiffers types entry.1 entry.2

/-- Null has been stored in an array of numbers or of `bool`. -/
def Defaulted (input : Input T) : Prop :=
  ∃ element : ClrType, element.isPrimitive = true ∧
    (element, Value.null) ∈ input.stores

/-- The bytes, the budget and the factories are the same, and null has not
been stored as a number. -/
structure SameInput (same : S → T → Prop) (input : Java.Input S)
    (input' : Input T) : Prop where
  unread : input.buf.unread = input'.buf.unread
  lengthBudget : input.lengthBudget = input'.lengthBudget
  factory : same input.factory input'.factory
  kept : ¬ Defaulted input'

/-- The second input has the trace of the first one. -/
structure Grown (input input' : Input T) : Prop where
  strings : input.strings ⊆ input'.strings
  checks : input.checks ⊆ input'.checks
  stores : input.stores ⊆ input'.stores

theorem Grown.refl (input : Input T) : Grown input input :=
  ⟨fun _ => id, fun _ => id, fun _ => id⟩

def comparison (types : Types) (same : S → T → Prop) :
    Comparison (Java.Input S) (Input T) where
  same := SameInput same
  grows := Grown
  refl := Grown.refl
  trans := fun first second =>
    ⟨List.Subset.trans first.strings second.strings,
      List.Subset.trans first.checks second.checks,
      List.Subset.trans first.stores second.stores⟩
  strays := Defaulted
  strays_of_grows := fun grown ⟨element, primitive, stored⟩ =>
    ⟨element, primitive, grown.stores stored⟩
  beyond := Foreign types
  beyond_of_grows := by
    rintro before after grown (⟨bytes, member, other⟩ |
      ⟨check, member, other⟩ | ⟨entry, member, other⟩)
    · exact .inl ⟨bytes, grown.strings member, other⟩
    · exact .inr (.inl ⟨check, grown.checks member, other⟩)
    · exact .inr (.inr ⟨entry, grown.stores member, other⟩)

section Traces

variable {α : Type} {types : Types} {same : S → T → Prop}

instance (m : EStateM Thrown T α) :
    Grows (comparison types same) (call m) := by
  constructor
  intro input
  unfold call
  split <;> exact ⟨fun _ => id, fun _ => id, fun _ => id⟩

instance (op : FlexBuffer → Except Thrown (α × FlexBuffer)) :
    Grows (comparison types same) (get op) := by
  constructor
  intro input
  unfold get
  split <;> exact ⟨fun _ => id, fun _ => id, fun _ => id⟩

instance (result : Except Thrown α) :
    Grows (comparison types same) (throwing result : Reader T α) := by
  cases result <;> exact ⟨(comparison types same).refl⟩

instance : Grows (comparison types same) (avail : Reader T Nat) :=
  ⟨(comparison types same).refl⟩

instance : Grows (comparison types same) (endOfBuffer : Reader T α) :=
  ⟨(comparison types same).refl⟩

instance (length : Int) :
    Grows (comparison types same) (takeLength length : Reader T Unit) := by
  constructor
  intro input
  unfold takeLength
  split <;> exact ⟨fun _ => id, fun _ => id, fun _ => id⟩

instance (v : Validator) (value : Value) :
    Grows (comparison types same) (ask v value : Reader T Unit) :=
  ⟨fun _ => ⟨fun _ => id, fun _ => List.mem_append_left _, fun _ => id⟩⟩

instance (element : ClrType) (value : Value) :
    Grows (comparison types same) (store element value : Reader T Unit) :=
  ⟨fun _ => ⟨fun _ => id, fun _ => id, fun _ => List.mem_append_left _⟩⟩

instance (bytes : List UInt8) :
    Grows (comparison types same) (getString vf' bytes) :=
  ⟨fun _ => ⟨fun _ => List.mem_append_left _, fun _ => id, fun _ => id⟩⟩

instance (value : Value) :
    Grows (comparison types same) (unbox value : Reader T Int) := by
  cases value <;> exact ⟨(comparison types same).refl⟩

instance (value : Value) :
    Grows (comparison types same) (findType vf' value) := by
  cases value <;> unfold findType <;> infer_instance

instance (type : XType) (value : Value) :
    Grows (comparison types same) (findField vf' type value) := by
  cases value <;> unfold findField <;> infer_instance

instance (value : Value) (v : Option Validator) :
    Grows (comparison types same) (checkEntry vf' value v) := by
  cases v <;> unfold checkEntry <;> infer_instance

instance (sv : StructValue) (key : Field) (value : Value) :
    Grows (comparison types same) (add vf' sv key value) := by
  cases value <;> unfold add <;> infer_instance

instance (av : ArrayValue) (value : Value) :
    Grows (comparison types same) (addValue vf' av value) := by
  unfold addValue
  infer_instance

instance (v : Option Validator) (value : Value) :
    Grows (comparison types same) (validateValue vf' v value) := by
  cases v <;> cases value <;> unfold validateValue <;> infer_instance

variable (readValue : Option Validator → Bool → Reader T Value)
  [∀ v noneOk, Grows (comparison types same) (readValue v noneOk)]

instance : Grows (comparison types same) (readIntegerValue readValue) := by
  unfold readIntegerValue
  infer_instance

instance : Grows (comparison types same) (readLength readValue) := by
  unfold readLength
  infer_instance

instance : Grows (comparison types same) (readType vf' readValue) := by
  unfold readType
  infer_instance

instance (type : XType) :
    Grows (comparison types same) (readField vf' readValue type) := by
  unfold readField
  infer_instance

instance : Grows (comparison types same) (startStruct vf' readValue) := by
  unfold startStruct
  infer_instance

instance : Grows (comparison types same) (readBytes readValue) := by
  unfold readBytes
  infer_instance

instance (sv : StructValue) (key : Field) (v : Option Validator) :
    Grows (comparison types same) (readEntry vf' readValue sv key v) := by
  cases v <;> unfold readEntry <;> infer_instance

instance (next : StructValue → Reader T StructValue)
    [∀ sv, Grows (comparison types same) (next sv)] (sv : StructValue)
    (key : Option Field) :
    Grows (comparison types same)
      (readEntriesFrom vf' readValue next sv key) := by
  cases key <;> unfold readEntriesFrom <;> infer_instance

instance grows_readEntries (bytes : Nat) (sv : StructValue) :
    Grows (comparison types same) (readEntries vf' readValue bytes sv) := by
  induction bytes generalizing sv with
  | zero =>
      unfold readEntries
      infer_instance
  | succ bytes ih =>
      unfold readEntries
      infer_instance

instance (sv : StructValue) :
    Grows (comparison types same) (readKeysAndValues vf' readValue sv) := by
  unfold readKeysAndValues
  infer_instance

instance : Grows (comparison types same) (readStruct vf' readValue) := by
  unfold readStruct
  infer_instance

instance (typeCode : Int8) (type : Option XType) (dim : Nat) :
    Grows (comparison types same)
      (getComponentType vf' typeCode type dim) := by
  unfold getComponentType
  cases type <;> unfold getBaseType <;> infer_instance

instance (type : Int8) :
    Grows (comparison types same) (readStructType vf' readValue type) := by
  unfold readStructType
  infer_instance

instance : Grows (comparison types same) (startArray vf' readValue) := by
  unfold startArray
  infer_instance

instance (next : ArrayValue → Reader T ArrayValue)
    [∀ av, Grows (comparison types same) (next av)] (av : ArrayValue)
    (value : Value) :
    Grows (comparison types same) (readElementsFrom vf' next av value) := by
  cases value <;> unfold readElementsFrom <;> infer_instance

instance grows_readElements (ev : Option Validator) (bytes : Nat)
    (av : ArrayValue) :
    Grows (comparison types same)
      (readElements vf' readValue ev bytes av) := by
  induction bytes generalizing av with
  | zero =>
      unfold readElements
      infer_instance
  | succ bytes ih =>
      unfold readElements
      infer_instance

instance (av : ArrayValue) (v : Option Validator) :
    Grows (comparison types same) (readValues vf' readValue av v) := by
  cases v <;> unfold readValues <;> infer_instance

instance (v : Option Validator) :
    Grows (comparison types same) (readArray vf' readValue v) := by
  unfold readArray
  infer_instance

instance (type : Int8) (v : Option Validator) (noneOk : Bool) :
    Grows (comparison types same)
      (readPayload vf' readValue type v noneOk) := by
  unfold readPayload
  infer_instance

end Traces

instance grows_readValue {types : Types} {same : S → T → Prop}
    (bytes : Nat) (v : Option Validator) (noneOk : Bool) :
    Grows (comparison types same)
      (BinaryTaggedDataInput.readValue vf' bytes v noneOk) := by
  induction bytes generalizing v noneOk with
  | zero =>
      unfold BinaryTaggedDataInput.readValue
      infer_instance
  | succ bytes ih =>
      unfold BinaryTaggedDataInput.readValue readValueBody
      infer_instance

end BinaryTaggedDataInput

end Etch.CSharp
