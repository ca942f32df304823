import Etch.Cpp.EtchValidator

/-!
# The C++ `EtchValueFactory` as the tagged data formats use it

A factory finds types, and types find fields and validators; a lookup by name
may add what it does not find.  Import and export helpers belong to the types.
All that these may change is the state of the factory.
-/

namespace Etch.Cpp

/-- An `EtchStructValue`, with its entries in some order. -/
structure EtchStructValue where
  mType : EtchType
  fields : List (EtchField × EtchObject)

/-- A call that finds something, or fails, and may change the factory. -/
abbrev Lookup (S α : Type) := S → Option α × S

structure EtchValueFactory (S : Type) where
  getLevel : EtchLevel
  /-- `getType(id, result)` -/
  getTypeById (id : Int32) : Lookup S EtchType
  /-- `getType(name, result)` -/
  getTypeByName (name : EtchString) : Lookup S EtchType
  /-- `type->getField(id, field)` -/
  getFieldById (type : EtchType) (id : Int32) : Lookup S EtchField
  /-- `type->getField(name, field)` -/
  getFieldByName (type : EtchType) (name : EtchString) : Lookup S EtchField
  /-- `type->getValidator(key, validator)` -/
  getValidator (type : EtchType) (key : EtchField) : Lookup S EtchValidator
  /-- `type->getComponentType()` -/
  getComponentType (type : EtchType) : Lookup S EtchObjectType
  /-- whether there is a native array for the component type -/
  getNativeArrayForComponentType (type : EtchObjectType) : Bool
  getCustomStructType (c : EtchObjectType) : Lookup S EtchType
  importCustomValue (value : EtchStructValue) : Lookup S EtchObject
  /-- what has been imported is there -/
  import_ne_null : ∀ value state,
    (importCustomValue value state).1 ≠ some .null
  exportCustomValue (value : EtchObject) : Lookup S EtchStructValue

/-- A factory that knows no type, and one validator for all fields. -/
def EtchValueFactory.uniform (v : EtchValidator) : EtchValueFactory Unit where
  getLevel := .LEVEL_FULL
  getTypeById _ _ := (none, ())
  getTypeByName _ _ := (none, ())
  getFieldById _ _ _ := (none, ())
  getFieldByName _ _ _ := (none, ())
  getValidator _ _ _ := (some v, ())
  getComponentType _ _ := (none, ())
  getNativeArrayForComponentType _ := false
  getCustomStructType _ _ := (none, ())
  importCustomValue value _ := (some (.structValue value.mType value.fields), ())
  import_ne_null _ _ := nofun
  exportCustomValue _ _ := (none, ())

namespace EtchStructValue

variable {S : Type}

/-- `remove(key, value_old)` -/
def remove (sv : EtchStructValue) (key : EtchField) : EtchStructValue :=
  { sv with fields := sv.fields.filter fun entry => entry.1 ≠ key }

/-- `mTable.put(field, object)` -/
def set (sv : EtchStructValue) (key : EtchField) (value : EtchObject) :
    EtchStructValue :=
  if sv.fields.any fun entry => entry.1 = key then
    { sv with
      fields := sv.fields.map fun entry =>
        if entry.1 = key then (key, value) else entry }
  else
    { sv with fields := sv.fields ++ [(key, value)] }

/-- `put(field, object)` with its result ignored: a value that is refused is
not put. -/
def put (vf : EtchValueFactory S) (sv : EtchStructValue) (key : EtchField)
    (value : EtchObject) (state : S) : EtchStructValue × S :=
  match value with
  | .null => (sv.remove key, state)
  | value =>
      if vf.getLevel = .LEVEL_NONE then
        (sv.set key value, state)
      else
        match vf.getValidator sv.mType key state with
        | (none, state) =>
            if vf.getLevel = .LEVEL_FULL then (sv, state)
            else (sv.set key value, state)
        | (some v, state) =>
            if v.validate value then (sv.set key value, state)
            else (sv, state)

end EtchStructValue

end Etch.Cpp
