import Etch.Cpp.EtchNativeArray
import Etch.Cpp.EtchValidator
import Etch.Library.Keyed

/-!
# The C++ serializers of collections

`EtchListSerializer`, `EtchSetSerializer` and `EtchHashTableSerializer` export
a collection as a struct with an `EtchNativeArray` of its objects, and import
one from a struct with whatever array has been read.  A result of `none` is a
step for which the program has no defined behaviour.  The containers of `capu`
are parameters.
-/

namespace Etch.Cpp

variable {Object : Type}

/-- A smart pointer to an object, none for `NULL`. -/
abbrev EtchObjectPtr (Object : Type) := Option Object

/-- An `EtchNativeArray`, by its `mData` if its elements are pointers to
objects. -/
inductive NativeArray (Object : Type) where
  | objects (heap : Heap (EtchObjectPtr Object)) (mData : Nat)
  | others

/-- What a smart pointer to an object points to: `NULL`, an object of another
class, or a collection. -/
inductive Passed (Collection : Type) where
  | null
  | other
  | collection (collection : Collection)

/-! ## Arrays -/

def EtchArrayBase.getLength : EtchArrayBase (EtchObjectPtr Object) → Nat
  | etchArrayData mData => mData.length
  | etchArray _ mData => mData.length

section Items

variable (heap : Heap (EtchObjectPtr Object)) (mData : Nat)
  (stack : Nat → Fin 8 → Int)

/-- `set(i, item)` for one item after the other, with the status ignored. -/
def setItems (heap : Heap (EtchObjectPtr Object)) :
    Nat → List (EtchObjectPtr Object) → Option (Heap (EtchObjectPtr Object))
  | _, [] => some heap
  | i, item :: items => do
      let outcome ← (Call.setElement item).outcome heap mData
        (.single i (stack i))
      setItems outcome.heap (i + 1) items

/-- `get(i, &item)`, which leaves the item as it was where it fails. -/
def getItem (i : Nat) (item : EtchObjectPtr Object) :
    Option (EtchObjectPtr Object) := do
  let outcome ← (Call.getElement true).outcome heap mData
    (.single i (stack i))
  return outcome.result.getD item

end Items

namespace CollectionSerializer

/-- An `EtchStructValue` whose fields hold arrays. -/
structure StructValue (Object : Type) where
  mType : EtchType
  mTable : EtchField → Option (NativeArray Object)

/-- The array as far as a validator of objects looks at it. -/
def described : NativeArray Object → EtchObject
  | .objects heap mData =>
      .nativeArray true .object (heap.objects mData).getDim.toNat []
  | .others => .nativeArray true .structValue 1 []

/-- `put(field, array)`, none for a status other than `ETCH_OK`. -/
def StructValue.put (sv : StructValue Object) (level : EtchLevel)
    (getValidator : Option EtchValidator) (field : EtchField)
    (array : NativeArray Object) : Option (StructValue Object) :=
  let set :=
    { sv with mTable := Function.update sv.mTable field (some array) }
  if level = .LEVEL_NONE then
    some set
  else
    match getValidator with
    | none => if level = .LEVEL_FULL then none else some set
    | some v => if v.validate (described array) then some set else none

end CollectionSerializer

structure CollectionSerializer where
  mType : EtchType
  mField : EtchField

namespace CollectionSerializer

/-- The validator that `Init` puts for the field. -/
def validator : EtchValidator :=
  .object 1

variable (serializer : CollectionSerializer)

/-- What the bodies of `exportValue` share: the items of the collection are
set in a new array of some length. -/
def exportItems (level : EtchLevel) (heap : Heap (EtchObjectPtr Object))
    (stack : Nat → Fin 8 → Int) (length : Int)
    (items : List (EtchObjectPtr Object)) :
    Option (Status × Option (StructValue Object)) :=
  -- no `new[]` of a negative length
  if length < 0 then
    none
  else do
    let mData := heap.next
    let heap ← setItems mData stack (heap.allocate (.make length 1)) 0 items
    match StructValue.put ⟨serializer.mType, fun _ => none⟩ level
        (some validator) serializer.mField (.objects heap mData) with
    | some result => return (.ETCH_OK, some result)
    | none => return (.ETCH_ERROR, none)

/-- What the bodies of `importValue` share, with what is done with the array
behind the cast. -/
def importArray {Collection : Type} (value : Option (StructValue Object))
    (read : Heap (EtchObjectPtr Object) → Nat →
      Option (Status × Option Collection)) :
    Option (Status × Option Collection) :=
  match value with
  | none => some (.ETCH_EINVAL, none)
  | some value =>
      if value.mType ≠ serializer.mType then
        some (.ETCH_EINVAL, none)
      else
        match value.mTable serializer.mField with
        | none => some (.ETCH_ERROR, none)
        | some (.objects heap mData) => read heap mData
        -- the object is not of the class it is cast to
        | some .others => none

end CollectionSerializer

namespace EtchListSerializer

variable (serializer : CollectionSerializer)

/-- `exportValue(vf, value, result)`; `size()` is an `int32_t`. -/
def exportValue (vf : Option EtchLevel) (heap : Heap (EtchObjectPtr Object))
    (stack : Nat → Fin 8 → Int)
    (value : Passed (List (EtchObjectPtr Object))) :
    Option (Status × Option (CollectionSerializer.StructValue Object)) :=
  match vf, value with
  | some level, .collection list =>
      serializer.exportItems level heap stack
        (Int.bmod list.length (2 ^ 32)) list
  | _, _ => some (.ETCH_EINVAL, none)

/-- The loop of `importValue`, by the number of rounds that are left. -/
def addItems (heap : Heap (EtchObjectPtr Object)) (mData : Nat)
    (stack : Nat → Fin 8 → Int) :
    Nat → Nat → List (EtchObjectPtr Object) →
      Option (List (EtchObjectPtr Object))
  | 0, _, list => some list
  | rounds + 1, i, list => do
      let item ← getItem heap mData stack i none
      addItems heap mData stack rounds (i + 1) (list ++ [item])

def importValue (stack : Nat → Fin 8 → Int)
    (value : Option (CollectionSerializer.StructValue Object)) :
    Option (Status × Option (List (EtchObjectPtr Object))) :=
  serializer.importArray value fun heap mData => do
    let list ←
      addItems heap mData stack (heap.objects mData).getLength 0 []
    return (.ETCH_OK, some list)

end EtchListSerializer

/-! ## Sets -/

/-- `capu::HashSet`, with what `count`, `begin` and `next` say of it. -/
structure HashSets (Object : Type) where
  HashSet : Type
  new : HashSet
  put : HashSet → Object → Status × HashSet
  elements : HashSet → List Object

/-- A correct set, up to `EtchComparator`. -/
structure HashSets.Correct (sets : HashSets Object)
    (equals : Object → Object → Bool) : Prop where
  equality : Library.Keyed.IsEquality equals
  apart : ∀ set, Library.Keyed.Apart equals (sets.elements set)
  elements_new : sets.elements sets.new = []
  put_other : ∀ set value,
    (∀ element ∈ sets.elements set, equals element value = false) →
      (sets.put set value).1 = .ETCH_OK ∧
      ∀ element, element ∈ sets.elements (sets.put set value).2 ↔
        element ∈ sets.elements set ∨ element = value
  /-- `ETCH_ERROR` if value already exists in the set -/
  put_again : ∀ set value, ∀ element ∈ sets.elements set,
    equals element value = true → (sets.put set value).1 ≠ .ETCH_OK

namespace EtchSetSerializer

variable (serializer : CollectionSerializer) (sets : HashSets Object)

/-- `exportValue(vf, value, result)`; `count()` is an `uint32_t`. -/
def exportValue (vf : Option EtchLevel) (heap : Heap (EtchObjectPtr Object))
    (stack : Nat → Fin 8 → Int) (value : Passed sets.HashSet) :
    Option (Status × Option (CollectionSerializer.StructValue Object)) :=
  match vf, value with
  | some level, .collection set =>
      serializer.exportItems level heap stack
        (Int.bmod (sets.elements set).length (2 ^ 32))
        ((sets.elements set).map some)
  | _, _ => some (.ETCH_EINVAL, none)

/-- The loop of `importValue`, by the number of rounds that are left. -/
def putItems (heap : Heap (EtchObjectPtr Object)) (mData : Nat)
    (stack : Nat → Fin 8 → Int) :
    Nat → Nat → EtchObjectPtr Object → sets.HashSet →
      Option (Status × Option sets.HashSet)
  | 0, _, _, set => some (.ETCH_OK, some set)
  | rounds + 1, i, ptr, set => do
      let ptr ← getItem heap mData stack i ptr
      -- `EtchObjectHash` dereferences the pointer
      let value ← ptr
      let (res, set) := sets.put set value
      if res ≠ .ETCH_OK then
        return (res, none)
      else
        putItems heap mData stack rounds (i + 1) ptr set

def importValue (stack : Nat → Fin 8 → Int)
    (value : Option (CollectionSerializer.StructValue Object)) :
    Option (Status × Option sets.HashSet) :=
  serializer.importArray value fun heap mData =>
    putItems sets heap mData stack (heap.objects mData).getLength 0 none
      sets.new

end EtchSetSerializer

/-! ## Hash tables -/

/-- `capu::HashTable`, with what `count`, `begin` and `next` say of it. -/
structure HashTables (Object : Type) where
  HashTable : Type
  new : HashTable
  put : HashTable → Object → EtchObjectPtr Object → Status × HashTable
  get : HashTable → Object → Option (EtchObjectPtr Object)
  entries : HashTable → List (Object × EtchObjectPtr Object)

/-- A correct map, up to `EtchComparator`. -/
structure HashTables.Correct (tables : HashTables Object)
    (equals : Object → Object → Bool) : Prop where
  equality : Library.Keyed.IsEquality equals
  apart : ∀ table,
    Library.Keyed.Apart equals ((tables.entries table).map Prod.fst)
  get_new : ∀ key, tables.get tables.new key = none
  put_ok : ∀ table key value, (tables.put table key value).1 = .ETCH_OK
  get_put : ∀ table key value other,
    tables.get (tables.put table key value).2 other =
      if equals key other then some value else tables.get table other
  get_iff : ∀ table key value, tables.get table key = some value ↔
    ∃ entry ∈ tables.entries table,
      equals entry.1 key = true ∧ entry.2 = value

namespace EtchHashTableSerializer

variable (serializer : CollectionSerializer) (tables : HashTables Object)

/-- The keys and values, one after the other. -/
def keysAndValues (entries : List (Object × EtchObjectPtr Object)) :
    List (EtchObjectPtr Object) :=
  entries.flatMap fun entry => [some entry.1, entry.2]

/-- `exportValue(vf, value, result)`; `count() * 2` goes to an `int32_t`. -/
def exportValue (vf : Option EtchLevel) (heap : Heap (EtchObjectPtr Object))
    (stack : Nat → Fin 8 → Int) (value : Passed tables.HashTable) :
    Option (Status × Option (CollectionSerializer.StructValue Object)) :=
  match vf, value with
  | some level, .collection table =>
      serializer.exportItems level heap stack
        (Int.bmod ((tables.entries table).length * 2) (2 ^ 32))
        (keysAndValues (tables.entries table))
  | _, _ => some (.ETCH_EINVAL, none)

/-- The loop of `importValue`. -/
def putPairs (heap : Heap (EtchObjectPtr Object)) (mData : Nat)
    (stack : Nat → Fin 8 → Int) (i : Nat)
    (key hashValue : EtchObjectPtr Object) (table : tables.HashTable) :
    Option (Status × Option tables.HashTable) :=
  if i < (heap.objects mData).getLength then do
    let key ← getItem heap mData stack i key
    let hashValue ← getItem heap mData stack (i + 1) hashValue
    -- `EtchObjectHash` dereferences the pointer
    let (res, table) := tables.put table (← key) hashValue
    if res ≠ .ETCH_OK then
      return (res, none)
    else
      putPairs heap mData stack (i + 2) key hashValue table
  else
    some (.ETCH_OK, some table)
termination_by (heap.objects mData).getLength - i

def importValue (stack : Nat → Fin 8 → Int)
    (value : Option (CollectionSerializer.StructValue Object)) :
    Option (Status × Option tables.HashTable) :=
  serializer.importArray value fun heap mData =>
    putPairs tables heap mData stack 0 none none tables.new

end EtchHashTableSerializer

end Etch.Cpp
