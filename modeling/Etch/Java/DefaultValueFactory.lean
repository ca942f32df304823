import Etch.Java.Serializers
import Etch.Java.TypeFields
import Etch.Java.Utf8

/-!
# The Java `DefaultValueFactory` as a value factory

What a factory answers about types that are locked is settled once and for
all.  Whatever it finds elsewhere, in types that are not locked, in mixins and
in its dynamic types, is left to another factory here.
-/

namespace Etch.Java

/-- The fields of a type that is locked, which no lookup changes. -/
structure LockedFields where
  fields : TypeFields
  locked : fields.fields.locked = true

/-- What a `DefaultValueFactory` is made of. -/
structure FactorySetup (S : Type) where
  classes : Classes
  level : Level
  charset : Charset
  /-- what `equals` says of the keys of sets and maps -/
  equals : Equality
  /-- the types that it is made with -/
  types : IdNameMap IdName
  /-- the fields of the types that are locked -/
  fields : IdName → Option LockedFields
  componentType : IdName → Option JavaClass
  importExportHelper : IdName → Option (ImportExportHelper S)
  class2type : JavaClass → Option IdName
  /-- what is not settled by all these -/
  others : ValueFactory S

namespace FactorySetup

variable {S : Type} (setup : FactorySetup S)

/-- `getType(id)` -/
def getTypeById (id : Int32) : EStateM Thrown S (Option IdName) :=
  match setup.types.getById id with
  | some type => return some type
  | none => setup.others.getTypeById id

/-- `getType(name)` -/
def getTypeByName (name : JavaString) : EStateM Thrown S (Option IdName) :=
  match setup.types.byName name with
  | some type => return some type
  | none => setup.others.getTypeByName name

/-- `type.getField(id)` -/
def getFieldById (type : IdName) (id : Int32) :
    EStateM Thrown S (Option Field) :=
  match setup.fields type with
  | some ⟨fields, _⟩ => return fields.getFieldById id
  | none => setup.others.getFieldById type id

/-- `type.getField(name)` -/
def getFieldByName (type : IdName) (name : JavaString) :
    EStateM Thrown S (Option Field) :=
  match setup.fields type with
  | some ⟨fields, _⟩ => return fields.fields.byName name
  | none => setup.others.getFieldByName type name

/-- `type.getValidator(key)` -/
def getValidator (type : IdName) (key : Field) :
    EStateM Thrown S (Option Validator) :=
  match setup.fields type with
  | some ⟨fields, _⟩ => return fields.getValidator key
  | none => setup.others.getValidator type key

/-- `getCustomStructType(c)` -/
def getCustomStructType (c : JavaClass) :
    EStateM Thrown S (Option IdName) :=
  match setup.class2type c with
  | some type => return some type
  | none => setup.others.getCustomStructType c

/-- What the helpers see of the factory, without its helpers. -/
def lookups : ValueFactory S where
  classes := setup.classes
  level := setup.level
  getTypeById := setup.getTypeById
  getTypeByName := setup.getTypeByName
  getFieldById := setup.getFieldById
  getFieldByName := setup.getFieldByName
  getValidator := setup.getValidator
  getComponentType type := return setup.componentType type
  getCustomStructType := setup.getCustomStructType
  exportCustomValue _ := return none
  importCustomValue _ := return .null
  getBytes := setup.charset.getBytes
  newString := setup.charset.newString

def listType : IdName := .ofName (text "_Etch_List")

def mapType : IdName := .ofName (text "_Etch_Map")

def setType : IdName := .ofName (text "_Etch_Set")

def datetimeType : IdName := .ofName (text "_Etch_Datetime")

def runtimeExceptionType : IdName := .ofName (text "_Etch_RuntimeException")

/-- The type of a class that has none of its own. -/
def interfaceType (clss : JavaClass) : Option IdName :=
  if JavaClass.Throwable.isAssignableFrom setup.classes.isSuper clss then
    some runtimeExceptionType
  else if JavaClass.List.isAssignableFrom setup.classes.isSuper clss then
    some listType
  else if JavaClass.Map.isAssignableFrom setup.classes.isSuper clss then
    some mapType
  else if JavaClass.Set.isAssignableFrom setup.classes.isSuper clss then
    some setType
  else
    none

/-- The type that an object is exported with. -/
def exportType (value : Value) (clss : JavaClass) :
    EStateM Thrown S (Option IdName) := do
  let type ← setup.getCustomStructType clss
  match type, value with
  | some type, _ => return some type
  | none, .struct type _ => return some type
  | none, _ => return setup.interfaceType clss

def exportCustomValue (value : Value) :
    EStateM Thrown S (Option StructValue) :=
  match value.getClass with
  | none => throw .nullPointerException
  | some clss => do
      let type ← setup.exportType value clss
      match type.bind setup.importExportHelper with
      | none => return none
      | some helper => some <$> helper.exportValue setup.lookups value

def importCustomValue (struct : StructValue) : EStateM Thrown S Value :=
  match setup.importExportHelper struct.type with
  | none => return .null
  | some helper => helper.importValue struct

def valueFactory : ValueFactory S :=
  { setup.lookups with
    exportCustomValue := setup.exportCustomValue
    importCustomValue := setup.importCustomValue }

end FactorySetup

end Etch.Java
