import Etch.C.Nativearray

/-!
# The C `etch_arrayvalue` and native arrays

An array value is a list of objects: wrapped primitives, or array values of
one dimension less.  `new_arrayvalue_from` builds one from a native array,
each sub-array from a pointer into the vector of its parent, and
`arrayvalue_to_nativearray` fills a new native array with the items of an
array value, once it has released the native array that was attached.  A
result of `none` is an access or an `int` outside its bounds, for which the
program has no defined behaviour.
-/

namespace Etch.C

open EtchNativearray

attribute [local instance] neZero_dimensions

def ETCHTYPEB_ARRAYVAL : Nat := 0x18

/-- The fields of an array value beside its list. -/
structure ArrayvalueFields where
  classId : Nat
  contentObjType : Nat
  contentClassId : Nat
  dim : Int
  contentItemSize : Nat
  natarray : Option EtchNativearray

/-- What an entry of a list points to: a primitive holds its value. -/
inductive Element
  | null
  | primitive (value : List UInt8)
  | arrayvalue (fields : ArrayvalueFields) (list : List Element)

structure EtchArrayvalue where
  fields : ArrayvalueFields
  list : List Element

/-- `is_etch_arrayvalue`, with the array value -/
def Element.asArrayvalue : Element → Option EtchArrayvalue
  | .arrayvalue fields list => some ⟨fields, list⟩
  | _ => none

def EtchArrayvalue.element (av : EtchArrayvalue) : Element :=
  .arrayvalue av.fields av.list

/-- The objects that the bytes of an address lead to. -/
structure Addresses where
  object : List UInt8 → Element
  newStringw : List UInt8 → Element

/-! ## Wrapped components -/

def newBoolean (v : UInt8) : Element :=
  .primitive [if v ≠ 0 then 1 else 0]

/-- The object for the bytes of the union `v`, as the content type has it. -/
def wrap (addresses : Addresses) (objType : Nat) (v : List UInt8) : Element :=
  if objType = ETCHTYPEB_BYTE then
    .primitive (v.take 1)
  else if objType = ETCHTYPEB_BOOL then
    newBoolean (v.headD 0)
  else if objType = ETCHTYPEB_INT8 then
    .primitive (v.take 1)
  else if objType = ETCHTYPEB_INT16 then
    .primitive (v.take 2)
  else if objType = ETCHTYPEB_INT32 then
    .primitive (v.take 4)
  else if objType = ETCHTYPEB_INT64 then
    .primitive v
  else if objType = ETCHTYPEB_IEEE32 then
    .primitive (v.take 4)
  else if objType = ETCHTYPEB_IEEE64 then
    .primitive v
  else if objType = ETCHTYPEB_STRING then
    addresses.newStringw v
  else
    addresses.object v

/-- `etch_nativearray_get_wrapped_component`, with `*out` afterwards -/
def getWrappedComponent (addresses : Addresses) (array : EtchNativearray)
    (i : Int) (out : Element) : Option (Int × Element) :=
  if array.numdims ≠ 1 ∨ i ≥ toInt (array.dimension 0) then
    some (-1, out)
  else
    -- all members of the union begin at its first byte
    match array.get1 (some (List.replicate 8 0)) i with
    | some (result, some v) =>
        some (result,
          if array.contentClassId ≠ 0 then
            addresses.object v
          else
            wrap addresses array.contentObjType v)
    | _ => none

/-! ## From a native array -/

/-- The list that `populate_arrayvalue_from` fills. -/
def populateArrayvalueFrom (addresses : Addresses) (nat : EtchNativearray) :
    Option (List Element) := do
  let numentries := toInt (nat.dimension 0)
  let (list, _) ← (List.range numentries.toNat).foldlM
    (fun (list, wrappedValue) (i : Nat) => do
      let (_, wrappedValue) ←
        getWrappedComponent addresses nat i wrappedValue
      return (list ++ [wrappedValue], wrappedValue))
    ([], Element.null)
  return list

/-- `new_arrayvalue_from` by the number of dimensions of the sub-arrays -/
def newArrayvalueOf (addresses : Addresses) :
    Nat → EtchNativearray → Option (Option EtchArrayvalue)
  | 0, natarray =>
      if natarray.isNull then
        some none
      else do
        let list ← populateArrayvalueFrom addresses natarray
        return some
          { fields :=
              { classId := natarray.classId
                contentObjType := natarray.contentObjType
                contentClassId := 0
                dim := natarray.numdims
                contentItemSize := natarray.itemsize % 2 ^ 16
                natarray := some natarray }
            list := list }
  | subarrayNumdims + 1, natarray =>
      if natarray.isNull then
        some none
      else do
        let subarrayCount :=
          natarray.dimension (Fin.ofNat 3 (subarrayNumdims + 1))
        let subarrayBytelen :=
          natarray.dimsize (Fin.ofNat 3 (subarrayNumdims + 1))
        let list ← (List.range (toInt subarrayCount).toNat).foldlM
          (fun list i => do
            let subvector :=
              natarray.values.drop (i * subarrayBytelen % 2 ^ 64)
            -- a `NULL` is dereferenced, as one of `subav` is below
            let newarray ← (← newEtchNativearrayFrom subvector
              natarray.classId natarray.itemsize
              ((subarrayNumdims + 1 : Nat) : Int)
              (toInt (natarray.dimension 0)) (toInt (natarray.dimension 1))
              0)
            let subav ← (← newArrayvalueOf addresses subarrayNumdims
              { newarray with
                contentClassId := natarray.contentClassId
                contentObjType := natarray.contentObjType })
            return list ++ [subav.element])
          []
        return some
          { fields :=
              { classId := natarray.classId
                contentObjType := ETCHTYPEB_ARRAYVAL
                contentClassId := 0
                dim := natarray.numdims
                contentItemSize := 8
                natarray := some natarray }
            list := list }

/-- `new_arrayvalue_from`, which may return `NULL` -/
def newArrayvalueFrom (addresses : Addresses) (natarray : EtchNativearray) :
    Option (Option EtchArrayvalue) :=
  -- `dimension` and `dimsize` are read before the dimensions are checked
  if natarray.numdims < 1 ∨ natarray.numdims > 3 then
    none
  else
    newArrayvalueOf addresses (natarray.numdims - 1).toNat natarray

/-! ## To a native array -/

/-- `arrayvalue_count`: the unsigned count of the list as an `int` -/
def arrayvalueCount (list : List Element) : Int :=
  toInt list.length

/--
A loop of the conversions, with the native array and the items so far; no
items are left by a `return -1`.
-/
def rounds
    (body : Element → Int → EtchNativearray → Int →
      Option (EtchNativearray × Option Int)) :
    List Element → Int → EtchNativearray → Int →
      Option (EtchNativearray × Option Int)
  | [], _, natv, items => some (natv, some items)
  | element :: list, i, natv, items =>
      match body element i natv items with
      | some (natv, some items) => rounds body list (i + 1) natv items
      | returned => returned

/-- The rounds for `i` from `0` to the count of a list. -/
def loop
    (body : Element → Int → EtchNativearray → Int →
      Option (EtchNativearray × Option Int))
    (list : List Element) (natv : EtchNativearray) (items : Int) :
    Option (EtchNativearray × Option Int) :=
  rounds body (list.take (arrayvalueCount list).toNat) 0 natv items

/-- The body of the innermost loop, with the put of the item's place. -/
def putItem
    (put : EtchNativearray → Option (List UInt8) →
      Option (Int × EtchNativearray))
    (element : Element) (natv : EtchNativearray) (items : Int) :
    Option (EtchNativearray × Option Int) :=
  match element with
  | .null => some (natv, none)
  | .primitive value =>
      match put natv (some value) with
      | some (0, natv) =>
          if items + 1 < 2 ^ 31 then some (natv, some (items + 1)) else none
      | some (_, natv) => some (natv, none)
      | none => none
  -- the mask of a primitive would show a pointer
  | .arrayvalue _ _ => none

/-- The body of an outer loop, with the loop over the sub-array. -/
def putArray
    (inner : List Element → EtchNativearray → Int →
      Option (EtchNativearray × Option Int))
    (element : Element) (natv : EtchNativearray) (items : Int) :
    Option (EtchNativearray × Option Int) :=
  match element.asArrayvalue with
  | none => some (natv, none)
  | some av => inner av.list natv items

/-- `arrayvalue1_to_nativearray` -/
def arrayvalue1ToNativearray (list : List Element) (natv : EtchNativearray) :
    Option (EtchNativearray × Option Int) :=
  loop
    (fun element i =>
      putItem (fun natv value => natv.put1 value i) element)
    list natv 0

/-- `arrayvalue2_to_nativearray` -/
def arrayvalue2ToNativearray (list : List Element) (natv : EtchNativearray) :
    Option (EtchNativearray × Option Int) :=
  loop
    (fun element i =>
      putArray
        (loop fun element j =>
          putItem (fun natv value => natv.put2 value i j) element)
        element)
    list natv 0

/-- `arrayvalue3_to_nativearray` -/
def arrayvalue3ToNativearray (list : List Element) (natv : EtchNativearray) :
    Option (EtchNativearray × Option Int) :=
  loop
    (fun element i =>
      putArray
        (loop fun element j =>
          putArray
            (loop fun element k =>
              putItem (fun natv value => natv.put3 value i j k) element)
            element)
        element)
    list natv 0

def etchArrayvalClassids : List Nat :=
  [ CLASSID_ARRAY_OBJECT,
    CLASSID_ARRAY_BYTE,
    CLASSID_ARRAY_BOOL,
    CLASSID_ARRAY_BYTE,
    CLASSID_ARRAY_INT16,
    CLASSID_ARRAY_INT32,
    CLASSID_ARRAY_INT64,
    CLASSID_ARRAY_FLOAT,
    CLASSID_ARRAY_DOUBLE,
    CLASSID_ARRAY_STRING,
    0 ]

/-- `etch_itemtype_to_arrayclass` -/
def etchItemtypeToArrayclass (itemObjType : Nat) : Nat :=
  if 0 < itemObjType ∧ itemObjType ≤ ETCHTYPEB_STRING then
    etchArrayvalClassids.getD itemObjType 0
  else
    CLASSID_ARRAY_OBJECT

/-- What a conversion does to its array value. -/
structure Conversion where
  status : Int
  /-- The native array attached afterwards. -/
  natarray : Option EtchNativearray
  /-- The native array that was destroyed. -/
  destroyed : Option EtchNativearray

namespace EtchArrayvalue

/-- `arrayvalue_get(av, 0)` -/
def first (av : EtchArrayvalue) : Element :=
  av.list.headD .null

/-- `av0`, with `dim1count` and `dim2count` -/
def innermost (av : EtchArrayvalue) : Option EtchArrayvalue × Int × Int :=
  if av.fields.dim = 1 then
    (some av, 0, 0)
  else if av.fields.dim = 2 then
    (av.first.asArrayvalue, arrayvalueCount av.list, 0)
  else if av.fields.dim = 3 then
    match av.first.asArrayvalue with
    | none => (none, 0, arrayvalueCount av.list)
    | some av2 =>
        (av2.first.asArrayvalue, arrayvalueCount av2.list,
          arrayvalueCount av.list)
  else
    (none, 0, 0)

/-- The `switch` that fills the new native array. -/
def populate (av : EtchArrayvalue) (natv : EtchNativearray) :
    Option (EtchNativearray × Option Int) :=
  if av.fields.dim = 1 then
    arrayvalue1ToNativearray av.list natv
  else if av.fields.dim = 2 then
    arrayvalue2ToNativearray av.list natv
  else if av.fields.dim = 3 then
    arrayvalue3ToNativearray av.list natv
  else
    some (natv, some 0)

/-- `arrayvalue_to_nativearray` -/
def toNativearray (av : EtchArrayvalue) : Option Conversion := do
  let (av0, dim1count, dim2count) := av.innermost
  let (itemsize, dim0count, arrayClassId) :=
    match av0 with
    | some av0 =>
        (av0.fields.contentItemSize, arrayvalueCount av0.list,
          if av0.fields.contentClassId = CLASSID_UNWRAPPED then
            CLASSID_UNWRAPPED
          else
            etchItemtypeToArrayclass av0.fields.contentObjType)
    | none => (0, 0, 0)
  if dim0count = 0 ∨ itemsize = 0 then
    return ⟨0, av.fields.natarray, none⟩
  match ← newEtchNativearray arrayClassId itemsize
      av.fields.dim dim0count dim1count dim2count with
  | none => return ⟨0, av.fields.natarray, none⟩
  | some newna =>
      let (newna, items) ← av.populate newna
      return ⟨items.getD (-1), some newna, av.fields.natarray⟩

end EtchArrayvalue

end Etch.C
