import Etch.Java.ReadCollections

/-!
# Writing collections

What is serializable is written, whatever is in it, as long as there is room on
the stack and in the buffer.  The validators inside of a collection take
everything that is given to them.
-/

namespace Etch.Java

open Etch.Library.Stateful BinaryTaggedData FloatingPoint
open BinaryTaggedDataOutput

/-- The stack or the buffer has no more room. -/
def Exhausted : Thrown → Prop
  | .stackOverflowError => True
  | .buffer _ => True
  | _ => False

namespace StandardFactory

variable {S : Type} (factory : StandardFactory S) (named : Bool)
  {write : Option Validator → Value → Writer S Unit}

theorem put_exhausts (op : FlexBuffer → Except Exception FlexBuffer) :
    ThrowsOnly Exhausted (BinaryTaggedDataOutput.put op : Writer S Unit) := by
  intro out thrown after threw
  unfold BinaryTaggedDataOutput.put at threw
  cases done : op out.buf with
  | ok buf =>
      rw [done] at threw
      exact nomatch threw
  | error exception =>
      rw [done] at threw
      obtain ⟨rfl, rfl⟩ := EStateM.Result.error.inj threw
      trivial

theorem call_pure {α : Type} (value : α) :
    BinaryTaggedDataOutput.call (pure value : EStateM Thrown S α) =
      pure value := rfl

/-! ## What is written without an exception of its own -/

/-- A value that is written with a validator that takes it. -/
inductive Accepted (v : Option Validator) : Value → Prop where
  | scalar {value : Value} {s : Scalar}
      (checked : check factory.vf v value = .ok ())
      (is : scalarOf factory.vf value = some s) : Accepted v value
  | array {w : Validator} {component : JavaClass} {elements : List Value}
      (checked : check factory.vf v (.array component elements) = .ok ())
      (is : v = some w) (element : w.elementValidator = .ok (some (.object 0)))
      (notBytes : component ≠ .byte)
      (serializable : factory.Serializable (.array component elements)) :
      Accepted v (.array component elements)
  | custom {clss : String} {state : List Value}
      (checked : check factory.vf v (.custom clss state) = .ok ())
      (serializable : factory.Serializable (.custom clss state)) :
      Accepted v (.custom clss state)

theorem Accepted.checked {v : Option Validator} {value : Value}
    (accepted : factory.Accepted v value) :
    check factory.vf v value = .ok () := by
  cases accepted with
  | scalar checked => exact checked
  | array checked => exact checked
  | custom checked => exact checked

theorem check_of_validate {w : Validator} {value : Value}
    (valid : w.validate factory.classes value = true) :
    check factory.vf (some w) value = .ok () := by
  unfold check
  cases value with
  | null => rfl
  | _ =>
      dsimp only
      split_ifs
      · rfl
      · rfl
      · rename_i invalid
        exact absurd valid invalid

theorem check_object (value : Value) :
    check factory.vf (some (.object 0)) value = .ok () := by
  cases value with
  | null => rfl
  | _ => exact factory.check_of_validate rfl

/-- Every serializable value, where objects are expected. -/
theorem accepted_object {value : Value}
    (serializable : factory.Serializable value) :
    factory.Accepted (some (.object 0)) value := by
  have checked := factory.check_object value
  cases value with
  | string s =>
      obtain ⟨scalar, is⟩ : ∃ scalar,
          scalarOf factory.vf (.string s) = some scalar := by
        unfold scalarOf
        dsimp only
        split_ifs <;> exact ⟨_, rfl⟩
      exact .scalar checked is
  | array component elements =>
      by_cases bytes : component = .byte
      · subst bytes
        exact .scalar checked rfl
      · exact .array checked rfl rfl bytes serializable
  | struct type fields => exact serializable.elim
  | custom clss state => exact .custom checked serializable
  | _ => exact .scalar checked rfl

/-- The value of the field of a struct. -/
theorem accepted_exported {kind : Kind} {state : List Value}
    (shaped : Shaped kind state)
    (serializable : factory.SerializableAll state) :
    factory.Accepted (some kind.validator) (exported kind state) := by
  have array : factory.Accepted (some (.object 1)) (.array .object state) :=
    .array (factory.check_of_validate rfl) rfl rfl nofun
      ⟨by decide, by decide, fun _ _ => trivial, serializable⟩
  cases kind with
  | date =>
      obtain ⟨time, rfl⟩ := shaped
      have inside : Width.long.InRange time.toInt :=
        ⟨time.le_toInt, time.toInt_lt⟩
      exact .scalar (factory.check_of_validate (decide_eq_true inside)) rfl
  | _ => exact array

/-- What is written for accepted values throws nothing of its own. -/
def Steady (write : Option Validator → Value → Writer S Unit) : Prop :=
  ∀ v value, factory.Accepted v value → ThrowsOnly Exhausted (write v value)

/-! ## Parts of an item -/

theorem integerPayload {value : Value} {number : Int}
    (is : value.integer? = some number) (v : Option Validator) :
    ThrowsOnly Exhausted
      (writePayload factory.vf named write (integerCode number) v value) := by
  have sized (size : Nat) : ThrowsOnly Exhausted (do
      let n ← BinaryTaggedDataOutput.number value
      BinaryTaggedDataOutput.put fun buf => buf.putNumber size n :
        Writer S Unit) := by
    rw [number_integer is, pure_bind]
    exact put_exhausts _
  by_cases tiny : -64 ≤ number ∧ number ≤ 127
  · have toInt := (integerCode_tiny tiny).2
    rw [writePayload_tiny (by omega)]
    exact .pure ()
  · unfold integerCode
    rw [if_neg tiny]
    split_ifs
    · exact sized 1
    · exact sized 2
    · exact sized 4
    · exact sized 8

section Steady

variable (steady : factory.Steady write)

include steady

theorem Steady.int (n : Int32) :
    ThrowsOnly Exhausted (writeIntValue write n) := by
  have inside : Width.int.InRange n.toInt := ⟨n.le_toInt, n.toInt_lt⟩
  exact steady _ _
    (.scalar (factory.check_of_validate (decide_eq_true inside)) rfl)

theorem Steady.none : ThrowsOnly Exhausted (writeNoneValue write) :=
  steady _ _ (.scalar (factory.check_of_validate rfl) rfl)

theorem Steady.string (s : JavaString) :
    ThrowsOnly Exhausted (writeStringValue write s) := by
  have checked : check factory.vf (some (.string 0)) (.string s) = .ok () :=
    factory.check_of_validate rfl
  by_cases empty : s.length = 0
  · exact steady _ _ (.scalar checked (if_pos empty))
  · exact steady _ _ (.scalar checked (if_neg empty))

theorem Steady.name (item : IdName) :
    ThrowsOnly Exhausted (if named then writeStringValue write item.name
      else writeIntValue write item.id) := by
  cases named with
  | true => exact steady.string factory _
  | false => exact steady.int factory _

theorem Steady.bytes (contents : List UInt8) :
    ThrowsOnly Exhausted (writeBytes write contents) :=
  (steady.int factory _).bind fun _ => put_exhausts _

theorem Steady.values {values : List Value}
    (serializable : factory.SerializableAll values) :
    ThrowsOnly Exhausted (writeValues write (some (.object 0)) values) := by
  induction values with
  | nil => exact .pure ()
  | cons value values ih =>
      obtain ⟨first, rest⟩ := serializable
      exact (steady _ _ (factory.accepted_object first)).bind fun _ =>
        ih rest

/-- The array that is written of a native array. -/
theorem Steady.array {w : Validator} {component : JavaClass}
    {elements : List Value}
    (element : w.elementValidator = .ok (some (.object 0)))
    (native : getNativeTypeCode component.base.1 ≠ TypeCode.CUSTOM)
    (serializable : factory.SerializableAll elements) :
    ThrowsOnly Exhausted (do
      let av ← toArrayValue factory.vf component elements (some w)
      writeArray named write av (some w)) := by
  have made : toArrayValue factory.vf component elements (some w) =
      (pure ⟨component, elements, getNativeTypeCode component.base.1, .none,
        (component.base.2 + 1 : Nat)⟩ : Writer S ArrayValue) :=
    if_neg (not_or.mpr ⟨native, getNativeTypeCode_ne_struct _⟩)
  have started : ThrowsOnly Exhausted (startArray named write
      ⟨component, elements, getNativeTypeCode component.base.1, .none,
        (component.base.2 + 1 : Nat)⟩) := by
    unfold startArray
    rw [if_neg native]
    exact (put_exhausts _).bind fun _ => (ThrowsOnly.pure ()).bind fun _ =>
      (steady.int factory _).bind fun _ => steady.int factory _
  rw [made, pure_bind]
  refine started.bind fun _ => ?_
  dsimp only
  rw [element]
  change ThrowsOnly Exhausted (do
    writeValues write (some (.object 0)) elements
    writeNoneValue write)
  exact (steady.values factory serializable).bind fun _ =>
    steady.none factory

theorem Steady.struct {kind : Kind} {state : List Value}
    (accepted : factory.Accepted (some kind.validator)
      (exported kind state)) :
    ThrowsOnly Exhausted
      (writeStruct factory.vf named write (factory.struct kind state)) := by
  have entries : ThrowsOnly Exhausted (writeKeysAndValues factory.vf named
      write (factory.typeOf kind) [(kind.field, exported kind state)]) := by
    refine (steady.name factory named _).bind fun _ => ?_
    rw [factory.getValidator_registered, call_pure, pure_bind]
    exact (steady _ _ accepted).bind fun _ => .pure ()
  exact ((steady.name factory named _).bind fun _ =>
    steady.int factory _).bind fun _ =>
      entries.bind fun _ => steady.none factory

/-- What follows the code of a value without others in it. -/
theorem Steady.scalarPayload {v : Option Validator} {value : Value}
    {s : Scalar} (is : scalarOf factory.vf value = some s) :
    ThrowsOnly Exhausted
      (writePayload factory.vf named write (checkValue value) v value) := by
  cases value with
  | boolean value => cases value <;> exact .pure ()
  | byte n =>
      rw [checkValue_integer rfl]
      exact factory.integerPayload named rfl v
  | short n =>
      rw [checkValue_integer rfl]
      exact factory.integerPayload named rfl v
  | int n =>
      rw [checkValue_integer rfl]
      exact factory.integerPayload named rfl v
  | long n =>
      rw [checkValue_integer rfl]
      exact factory.integerPayload named rfl v
  | float bits =>
      have code : checkValue (.float bits) = TypeCode.FLOAT := rfl
      have payload : writePayload factory.vf named write TypeCode.FLOAT v
          (.float bits) = BinaryTaggedDataOutput.put fun buf =>
            buf.putNumber 4 (floatToIntBits bits).toNat := rfl
      rw [code, payload]
      exact put_exhausts _
  | double bits =>
      have code : checkValue (.double bits) = TypeCode.DOUBLE := rfl
      have payload : writePayload factory.vf named write TypeCode.DOUBLE v
          (.double bits) = BinaryTaggedDataOutput.put fun buf =>
            buf.putLong (doubleToLongBits bits).toNat := rfl
      rw [code, payload]
      exact put_exhausts _
  | string s =>
      unfold checkValue
      dsimp only
      split_ifs
      · exact .pure ()
      · exact steady.bytes factory _
  | array component elements =>
      cases component with
      | byte => exact steady.bytes factory _
      | _ => exact nomatch is
  | struct type fields => exact nomatch is
  | custom clss state => exact nomatch is
  | _ => exact .pure ()

theorem Steady.body :
    factory.Steady (writeValueBody factory.vf named write) := by
  intro v value accepted
  unfold writeValueBody
  dsimp only
  rw [accepted.checked]
  refine (ThrowsOnly.pure ()).bind fun _ => (put_exhausts _).bind fun _ => ?_
  cases accepted with
  | scalar checked is => exact steady.scalarPayload factory named is
  | @array w component elements checked is element notBytes serializable =>
      obtain ⟨native, _, _, inside⟩ := serializable
      have code : checkValue (.array component elements) =
          TypeCode.ARRAY := by
        cases component with
        | byte => exact absurd rfl notBytes
        | _ => rfl
      rw [code, is]
      exact steady.array factory named element native inside
  | @custom clss state checked serializable =>
      obtain ⟨⟨kind, is, shaped⟩, inside⟩ := serializable
      have dated : kind = .date → ∃ time, state = [.long time] := by
        rintro rfl
        exact shaped
      change ThrowsOnly Exhausted (BinaryTaggedDataOutput.call
        (factory.vf.exportCustomValue (.custom clss state)) >>= _)
      rw [factory.exportCustomValue_eq is dated, call_pure, pure_bind]
      exact steady.struct factory named
        (factory.accepted_exported shaped inside)

end Steady

theorem steady_writeValue (depth : Nat) :
    factory.Steady (writeValue factory.vf named depth) := by
  induction depth with
  | zero => exact fun _ _ _ => .throw trivial
  | succ depth ih => exact ih.body factory named

end StandardFactory

end Etch.Java
