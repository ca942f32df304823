import Etch.Java.ValueFactory

/-!
# The Java serializers of lists, sets, maps and dates

A serializer exports an object as a struct with one field, and imports it from
there.  Lists, sets and maps have an array of objects in the field, and what is
in it is cast only by the two serializers of maps with `String` keys.
-/

namespace Etch.Java

/-! ## Collections -/

/-- An interface or a class of the Java library. -/
def JavaClass.Throwable : JavaClass := custom "java.lang.Throwable"

def JavaClass.List : JavaClass := custom "java.util.List"

def JavaClass.Map : JavaClass := custom "java.util.Map"

def JavaClass.Set : JavaClass := custom "java.util.Set"

/-- What `equals` says of two objects. -/
abbrev Equality := Value → Value → Bool

/-- The entries of a map, in the order of iteration. -/
def unpair (entries : List (Value × Value)) : List Value :=
  entries.flatMap fun (key, value) => [key, value]

/-- `map.put(key, value)`, which keeps a key that is equal. -/
def HashMap.put (equals : Equality) :
    List (Value × Value) → Value → Value → List (Value × Value)
  | [], key, value => [(key, value)]
  | (other, old) :: entries, key, value =>
      if equals key other then (other, value) :: entries
      else (other, old) :: HashMap.put equals entries key value

/-- `set.add(key)` -/
def HashSet.add (equals : Equality) (set : List Value) (key : Value) :
    List Value :=
  if set.any fun other => equals key other then set else set ++ [key]

/-- `(String) value` -/
def castString : Value → Except Thrown Value
  | .null => .ok .null
  | .string s => .ok (.string s)
  | _ => .error .classCastException

/-- `(Integer) value` -/
def castInteger : Value → Except Thrown Value
  | .null => .ok .null
  | .int n => .ok (.int n)
  | _ => .error .classCastException

/-- The elements of `(Object[]) value`, which is used at once. -/
def objects : Value → Except Thrown (List Value)
  | .null => .error .nullPointerException
  | .array component elements =>
      if component.isPrimitive then .error .classCastException
      else .ok elements
  | _ => .error .classCastException

/-- The loop over keys and values, with the casts of both. -/
def putAll (equals : Equality)
    (castKey castValue : Value → Except Thrown Value) :
    List Value → List (Value × Value) →
      Except Thrown (List (Value × Value))
  | [], map => .ok map
  | [key], _ => do
      let _ ← castKey key
      .error .arrayIndexOutOfBoundsException
  | key :: value :: keysAndValues, map => do
      let key ← castKey key
      let value ← castValue value
      putAll equals castKey castValue keysAndValues
        (HashMap.put equals map key value)

/-! ## Serializers -/

/-- An import and export helper.  None imports the end of an array. -/
structure ImportExportHelper (S : Type) where
  exportValue (vf : ValueFactory S) (value : Value) :
    EStateM Thrown S StructValue
  importValue (struct : StructValue) : EStateM Thrown S Value
  importValue_ne : ∀ struct before value after,
    importValue struct before = .ok value after → value ≠ .NONE

section Serializers

variable {S : Type}

/-- `new StructValue(type, vf)` with a value put in a field. -/
def structOf (vf : ValueFactory S) (type : IdName) (field : Field)
    (value : Value) : EStateM Thrown S StructValue :=
  StructValue.put vf ⟨type, []⟩ field value

/-- `struct.checkType(type)` -/
def StructValue.checkType (struct : StructValue) (type : IdName) :
    Except Thrown Unit :=
  if struct.type = type then .ok ()
  else .error (.illegalArgumentException (text ""))

/-- What a collection has in it, after a cast to its interface. -/
def elementsOf (classes : Classes) (clss : JavaClass) :
    Value → EStateM Thrown S (List Value)
  | .custom name elements =>
      if clss.isAssignableFrom classes.isSuper (.custom name) then
        return elements
      else
        throw .classCastException
  | .null => throw .nullPointerException
  | _ => throw .classCastException

/-- The object of a class that is made of a struct. -/
def importAs (name : String)
    (build : StructValue → Except Thrown (List Value))
    (struct : StructValue) : EStateM Thrown S Value :=
  match build struct with
  | .ok state => return .custom name state
  | .error thrown => throw thrown

theorem importAs_ne (name : String)
    (build : StructValue → Except Thrown (List Value)) :
    ∀ struct (before : S) value after,
      importAs name build struct before = .ok value after →
        value ≠ .NONE := by
  intro struct before value after done
  unfold importAs at done
  cases built : build struct with
  | ok state =>
      rw [built] at done
      obtain ⟨rfl, rfl⟩ := EStateM.Result.ok.inj done
      exact nofun
  | error thrown =>
      rw [built] at done
      exact nomatch done

/-- The serializer of a collection as an array of objects. -/
def collectionSerializer (clss : JavaClass) (type : IdName) (field : Field)
    (name : String) (build : StructValue → Except Thrown (List Value)) :
    ImportExportHelper S where
  exportValue vf value := do
    let elements ← elementsOf vf.classes clss value
    structOf vf type field (.array .object elements)
  importValue := importAs name build
  importValue_ne := importAs_ne name build

namespace ListSerializer

def FIELD_NAME : JavaString := text "values"

/-- The list that is imported. -/
def build (type : IdName) (field : Field) (struct : StructValue) :
    Except Thrown (List Value) := do
  struct.checkType type
  objects (struct.get field)

def helper (type : IdName) (field : Field) : ImportExportHelper S :=
  collectionSerializer .List type field "java.util.ArrayList"
    (build type field)

end ListSerializer

namespace SetSerializer

def FIELD_NAME : JavaString := text "keys"

/-- The set that is imported. -/
def build (equals : Equality) (type : IdName) (field : Field)
    (struct : StructValue) : Except Thrown (List Value) := do
  struct.checkType type
  let keys ← objects (struct.get field)
  return keys.foldl (HashSet.add equals) []

def helper (equals : Equality) (type : IdName) (field : Field) :
    ImportExportHelper S :=
  collectionSerializer .Set type field "java.util.HashSet"
    (build equals type field)

end SetSerializer

namespace MapSerializer

def FIELD_NAME : JavaString := text "keysAndValues"

/-- The map that is imported. -/
def build (equals : Equality) (type : IdName) (field : Field)
    (struct : StructValue) : Except Thrown (List Value) := do
  struct.checkType type
  let keysAndValues ← objects (struct.get field)
  unpair <$> putAll equals .ok .ok keysAndValues []

def helper (equals : Equality) (type : IdName) (field : Field) :
    ImportExportHelper S :=
  collectionSerializer .Map type field "java.util.HashMap"
    (build equals type field)

end MapSerializer

namespace StrIntHashMapSerializer

def FIELD_NAME : JavaString := text "keysAndValues"

/-- The map that is imported, whatever the type of the struct. -/
def build (equals : Equality) (field : Field) (struct : StructValue) :
    Except Thrown (List Value) := do
  let keysAndValues ← objects (struct.get field)
  unpair <$> putAll equals castString castInteger keysAndValues []

def helper (equals : Equality) (type : IdName) (field : Field) :
    ImportExportHelper S :=
  collectionSerializer (.custom "StrIntHashMap") type field "StrIntHashMap"
    (build equals field)

end StrIntHashMapSerializer

namespace StrStrHashMapSerializer

def FIELD_NAME : JavaString := text "keysAndValues"

/-- The map that is imported, whatever the type of the struct. -/
def build (equals : Equality) (field : Field) (struct : StructValue) :
    Except Thrown (List Value) := do
  let keysAndValues ← objects (struct.get field)
  unpair <$> putAll equals castString castString keysAndValues []

def helper (equals : Equality) (type : IdName) (field : Field) :
    ImportExportHelper S :=
  collectionSerializer (.custom "StrStrHashMap") type field "StrStrHashMap"
    (build equals field)

end StrStrHashMapSerializer

namespace DateSerializer

def FIELD_NAME : JavaString := text "dateTime"

/-- The `getTime()` of the date that is imported. -/
def build (field : Field) (struct : StructValue) :
    Except Thrown (List Value) :=
  match struct.get field with
  | .long time => .ok [.long time]
  | .null => .error .nullPointerException
  | _ => .error .classCastException

def helper (type : IdName) (field : Field) : ImportExportHelper S where
  exportValue vf value := do
    let state ← elementsOf vf.classes (.custom "java.util.Date") value
    -- the state of a date is its `getTime()`
    structOf vf type field (state.headD .null)
  importValue := importAs "java.util.Date" (build field)
  importValue_ne := importAs_ne _ _

end DateSerializer

end Serializers

end Etch.Java
