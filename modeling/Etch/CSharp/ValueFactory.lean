import Etch.CSharp.Validator

/-!
# The C# `ValueFactory` as the decoder uses it

A factory finds types, and types find fields and validators; a lookup by name
may add what it does not find.  Import helpers belong to the types.  All that
these may change is the state of the factory.
-/

namespace Etch.CSharp

/-- A `StructValue`, with its entries in the order of enumeration. -/
structure StructValue where
  type : XType
  fields : List (Field × Value)

structure ValueFactory (S : Type) where
  types : Types
  level : Java.Level
  getTypeById (id : Int32) : EStateM Thrown S (Option XType)
  getTypeByName (name : ClrString) : EStateM Thrown S (Option XType)
  /-- `type.GetField(id)` -/
  getFieldById (type : XType) (id : Int32) : EStateM Thrown S (Option Field)
  /-- `type.GetField(name)` -/
  getFieldByName (type : XType) (name : ClrString) :
    EStateM Thrown S (Option Field)
  /-- `type.GetValidator(key)` -/
  getValidator (type : XType) (key : Field) :
    EStateM Thrown S (Option Validator)
  /-- `type.GetComponentType()` -/
  getComponentType (type : XType) : EStateM Thrown S (Option ClrType)
  importCustomValue (sv : StructValue) : EStateM Thrown S Value
  /-- `Encoding.UTF8.GetString(bytes)` -/
  getString (bytes : List UInt8) : ClrString

namespace StructValue

/-- `fields.Remove(key)` -/
def remove (sv : StructValue) (key : Field) : StructValue :=
  { sv with fields := sv.fields.filter fun entry => entry.1 ≠ key }

/-- `fields[key] = value` -/
def set (sv : StructValue) (key : Field) (value : Value) : StructValue :=
  if sv.fields.any fun entry => entry.1 = key then
    { sv with
      fields := sv.fields.map fun entry =>
        if entry.1 = key then (key, value) else entry }
  else
    { sv with fields := sv.fields ++ [(key, value)] }

/-- The capacity that `new StructValue(type, vf, length)` asks for. -/
def capacity (length : Int) : Int :=
  if length > 0 then
    (Int.bmod (Int.bmod (length * 4) (2 ^ 32) + 2) (2 ^ 32)).tdiv 3
  else
    8

/-- `new StructValue(type, vf, length)` -/
def new (type : XType) (length : Int) : Except Thrown StructValue :=
  if capacity length < 0 then
    .error (.argumentOutOfRangeException "capacity")
  else
    .ok ⟨type, []⟩

end StructValue

end Etch.CSharp
