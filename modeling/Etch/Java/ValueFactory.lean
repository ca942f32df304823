import Etch.Java.Validator
import Etch.Library.Stateful

/-!
# The Java `ValueFactory` as the tagged data formats use it

A factory finds types, and types find fields and validators; a lookup by name
may add what it does not find.  Import and export helpers belong to the types.
All that these may change is the state of the factory.
-/

namespace Etch.Java

open Etch.Library.Stateful

/-- A `StructValue`, with its entries in the order of iteration. -/
structure StructValue where
  type : IdName
  fields : List (Field × Value)

structure ValueFactory (S : Type) where
  classes : Classes
  level : Level
  getTypeById (id : Int32) : EStateM Thrown S (Option IdName)
  getTypeByName (name : JavaString) : EStateM Thrown S (Option IdName)
  /-- `type.getField(id)` -/
  getFieldById (type : IdName) (id : Int32) :
    EStateM Thrown S (Option Field)
  /-- `type.getField(name)` -/
  getFieldByName (type : IdName) (name : JavaString) :
    EStateM Thrown S (Option Field)
  /-- `type.getValidator(key)` -/
  getValidator (type : IdName) (key : Field) :
    EStateM Thrown S (Option Validator)
  /-- `type.getComponentType()` -/
  getComponentType (type : IdName) : EStateM Thrown S (Option JavaClass)
  getCustomStructType (c : JavaClass) : EStateM Thrown S (Option IdName)
  exportCustomValue (value : Value) : EStateM Thrown S (Option StructValue)
  importCustomValue (struct : StructValue) : EStateM Thrown S Value
  /-- `s.getBytes(getStringEncoding())` -/
  getBytes (s : JavaString) : List UInt8
  /-- `new String(bytes, getStringEncoding())` -/
  newString (bytes : List UInt8) : JavaString

namespace ValueFactory

/-- The field with the id of a message. -/
def mf_messageId : Field :=
  .ofName (text "_messageId")

/-- The field with the id of the message that a reply belongs to. -/
def mf_inReplyTo : Field :=
  .ofName (text "_inReplyTo")

/-- A factory that knows nothing and checks nothing. -/
def unchecked : ValueFactory Unit where
  classes := ⟨fun _ _ => false, fun _ => []⟩
  level := .NONE
  getTypeById := fun _ => return none
  getTypeByName := fun _ => return none
  getFieldById := fun _ _ => return none
  getFieldByName := fun _ _ => return none
  getValidator := fun _ _ => return none
  getComponentType := fun _ => return none
  getCustomStructType := fun _ => return none
  exportCustomValue := fun _ => return none
  importCustomValue := fun _ => return .null
  getBytes := fun _ => []
  newString := fun _ => []

end ValueFactory

namespace StructValue

/-- `HashMap.remove(key)` -/
def remove (struct : StructValue) (key : Field) : StructValue :=
  { struct with fields := struct.fields.filter fun entry => entry.1 ≠ key }

/-- `HashMap.put(key, value)` -/
def set (struct : StructValue) (key : Field) (value : Value) :
    StructValue :=
  if struct.fields.any fun entry => entry.1 = key then
    { struct with
      fields := struct.fields.map fun entry =>
        if entry.1 = key then (key, value) else entry }
  else
    { struct with fields := struct.fields ++ [(key, value)] }

/-- `HashMap.get(key)` -/
def get (struct : StructValue) (key : Field) : Value :=
  (struct.fields.lookup key).getD .null

/-- The initial capacity that `new StructValue(type, vf, length)` asks for. -/
def capacity (length : Int) : Int :=
  if length > 0 then
    (Int.bmod (Int.bmod (length * 4) (2 ^ 32) + 2) (2 ^ 32)).tdiv 3
  else
    8

/-- `new StructValue(type, vf, length)` -/
def new (type : IdName) (length : Int) : Except Thrown StructValue :=
  if capacity length < 0 then
    .error (.illegalArgumentException (text "Illegal initial capacity: " ++
      text (ToString.toString (capacity length))))
  else
    .ok ⟨type, []⟩

variable {S : Type}

/-- `put(key, value)` -/
def put (vf : ValueFactory S) (struct : StructValue) (key : Field) :
    Value → EStateM Thrown S StructValue
  | .null => return struct.remove key
  | value => do
      if vf.level ≠ .NONE then
        let v ← vf.getValidator struct.type key
        match v with
        | none =>
            if vf.level = .FULL then
              throw (.illegalArgumentException (text "validator missing"))
        | some v =>
            if !v.validate vf.classes value then
              throw (.illegalArgumentException (text "validator failed"))
      return struct.set key value

theorem put_of_ne_null (vf : ValueFactory S) (struct : StructValue)
    (key : Field) {value : Value} (present : value ≠ .null) :
    struct.put vf key value = (do
      if vf.level ≠ .NONE then
        let v ← vf.getValidator struct.type key
        match v with
        | none =>
            if vf.level = .FULL then
              throw (.illegalArgumentException (text "validator missing"))
        | some v =>
            if !v.validate vf.classes value then
              throw (.illegalArgumentException (text "validator failed"))
      return struct.set key value) := by
  cases value with
  | null => exact absurd rfl present
  | _ => rfl

end StructValue

end Etch.Java
