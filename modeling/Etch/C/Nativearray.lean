import Etch.C.Flexbuffer
import Mathlib.Data.Fin.VecNotation
import Mathlib.Data.Fintype.Basic

/-!
# The C `etch_nativearray`

An array of one to three dimensions in a single byte vector.  The dimensions
are stored with the lowest first, so an `int x[2][3][4]` has the dimensions
`4, 3, 2`; every size is a `size_t`.  A result of `none` is an access outside
the vector, for which the program has no defined behaviour.
-/

namespace Etch.C

open Etch.Library.Window
open Etch.Packet

/-- The conversion of a `size_t` value to `int`. -/
def toInt (size : Nat) : Int :=
  signed32 (size % 2 ^ 32)

theorem toInt_of_lt {size : Nat} (small : size < 2 ^ 31) :
    toInt size = size := by
  rw [toInt, Nat.mod_eq_of_lt (by omega), signed32_of_lt small]

structure EtchNativearray where
  classId : Nat
  isNull : Bool
  values : List UInt8
  contentObjType : Nat
  contentClassId : Nat
  numdims : Int
  itemsize : Nat
  bytecount : Nat
  dimension : Fin 3 → Nat
  dimsize : Fin 3 → Nat

theorem neZero_dimensions : NeZero 3 :=
  ⟨by decide⟩

attribute [local instance] neZero_dimensions

namespace EtchNativearray

/-! ## Construction -/

/-- The body of the loop of `init_etch_nativearray`. -/
def level (array : EtchNativearray) (i j : Fin 3) : EtchNativearray :=
  { array with
    dimsize :=
      Function.update array.dimsize i
        (array.dimension j * array.dimsize j % 2 ^ 64)
    bytecount := array.bytecount * array.dimension i % 2 ^ 64 }

/-- The rounds `i = 1, j = 0; i < numdims; i++, j++` of that loop. -/
def levels (numdims : Int) (array : EtchNativearray) : EtchNativearray :=
  let array := if 1 < numdims then array.level 1 0 else array
  if 2 < numdims then array.level 2 1 else array

/--
The result of `init_etch_nativearray`, which may be `NULL`.  The loop has no
room for more than three dimensions.
-/
def initEtchNativearray (classId itemsize : Nat)
    (numdims dim0 dim1 dim2 : Int) : Option (Option EtchNativearray) :=
  if numdims < 1 ∨ itemsize < 1 then
    some none
  else if numdims > 1 ∧ dim1 < 1 then
    some none
  else if numdims > 2 ∧ dim2 < 1 then
    some none
  else if numdims > 3 then
    none
  else
    some (some (levels numdims
      { classId := classId
        isNull := false
        values := []
        contentObjType := 0
        contentClassId := 0
        numdims := numdims
        itemsize := itemsize
        bytecount := itemsize * toSize dim0 % 2 ^ 64
        dimension :=
          ![toSize dim0, if numdims > 1 then toSize dim1 else 0,
            if numdims > 2 then toSize dim2 else 0]
        dimsize := ![itemsize, 0, 0] }))

/-! ### Types and classes -/

def CLASSID_UNWRAPPED : Nat := 0x0
def CLASSID_STRING : Nat := 0x9
def CLASSID_OBJECT : Nat := 0xf
def CLASSID_ARRAY_OBJECT : Nat := 0x50
def CLASSID_ARRAY_BYTE : Nat := 0x51
def CLASSID_ARRAY_BOOL : Nat := 0x52
def CLASSID_ARRAY_INT8 : Nat := 0x53
def CLASSID_ARRAY_INT16 : Nat := 0x54
def CLASSID_ARRAY_INT32 : Nat := 0x55
def CLASSID_ARRAY_INT64 : Nat := 0x56
def CLASSID_ARRAY_FLOAT : Nat := 0x57
def CLASSID_ARRAY_DOUBLE : Nat := 0x58
def CLASSID_ARRAY_STRING : Nat := 0x59

def ETCHTYPEB_BYTE : Nat := 0x1
def ETCHTYPEB_BOOL : Nat := 0x2
def ETCHTYPEB_INT8 : Nat := 0x3
def ETCHTYPEB_INT16 : Nat := 0x4
def ETCHTYPEB_INT32 : Nat := 0x5
def ETCHTYPEB_INT64 : Nat := 0x6
def ETCHTYPEB_IEEE32 : Nat := 0x7
def ETCHTYPEB_IEEE64 : Nat := 0x8
def ETCHTYPEB_STRING : Nat := 0x9
def ETCHTYPEB_ETCHOBJECT : Nat := 0xe

/-- The type and the class of the content of an array of some class. -/
def contentType (classId : Nat) : Option (Nat × Nat) :=
  if classId = CLASSID_ARRAY_BYTE then
    some (ETCHTYPEB_BYTE, CLASSID_UNWRAPPED)
  else if classId = CLASSID_ARRAY_BOOL then
    some (ETCHTYPEB_BOOL, CLASSID_UNWRAPPED)
  else if classId = CLASSID_ARRAY_INT8 then
    some (ETCHTYPEB_INT8, CLASSID_UNWRAPPED)
  else if classId = CLASSID_ARRAY_INT16 then
    some (ETCHTYPEB_INT16, CLASSID_UNWRAPPED)
  else if classId = CLASSID_ARRAY_INT32 then
    some (ETCHTYPEB_INT32, CLASSID_UNWRAPPED)
  else if classId = CLASSID_ARRAY_INT64 then
    some (ETCHTYPEB_INT64, CLASSID_UNWRAPPED)
  else if classId = CLASSID_ARRAY_FLOAT then
    some (ETCHTYPEB_IEEE32, CLASSID_UNWRAPPED)
  else if classId = CLASSID_ARRAY_DOUBLE then
    some (ETCHTYPEB_IEEE64, CLASSID_UNWRAPPED)
  else if classId = CLASSID_ARRAY_OBJECT then
    some (ETCHTYPEB_ETCHOBJECT, CLASSID_OBJECT)
  else if classId = CLASSID_ARRAY_STRING then
    some (ETCHTYPEB_STRING, CLASSID_STRING)
  else
    none

/-- `etch_nativearray_set_content_type`, which may leave the type unset -/
def setContentType (array : EtchNativearray) : EtchNativearray :=
  match contentType array.classId with
  | some (objType, classId) =>
      { array with contentObjType := objType, contentClassId := classId }
  | none => array

/-- `new_etch_nativearray`: an array of zeros -/
def newEtchNativearray (classId itemsize : Nat)
    (numdims dim0 dim1 dim2 : Int) : Option (Option EtchNativearray) :=
  (initEtchNativearray classId itemsize numdims dim0 dim1 dim2).map
    fun result => result.map fun array =>
      { array with values := List.replicate array.bytecount 0 }.setContentType

/-- `new_etch_nativearray_from`: an array in a vector of the caller's -/
def newEtchNativearrayFrom (values : List UInt8) (classId itemsize : Nat)
    (numdims dim0 dim1 dim2 : Int) : Option (Option EtchNativearray) :=
  (initEtchNativearray classId itemsize numdims dim0 dim1 dim2).map
    fun result => result.map fun array =>
      { array with values := values }.setContentType

/-! ## Offsets -/

/-- `etch_nativearray_off1` -/
def off1 (array : EtchNativearray) (i : Int) : Nat :=
  if i ≥ toInt (array.dimension 0) ∨ i < 0 then
    toSize (-1)
  else
    toSize i * array.dimsize 0 % 2 ^ 64

/-- `etch_nativearray_off2` -/
def off2 (array : EtchNativearray) (i j : Int) : Nat :=
  if (i ≥ toInt (array.dimension 1) ∨ i < 0) ∨
      (j ≥ toInt (array.dimension 0) ∨ j < 0) then
    toSize (-1)
  else
    (toSize i * array.dimsize 1 + toSize j * array.dimsize 0) % 2 ^ 64

/-- `etch_nativearray_off3` -/
def off3 (array : EtchNativearray) (i j k : Int) : Nat :=
  if (i ≥ toInt (array.dimension 2) ∨ i < 0) ∨
      (j ≥ toInt (array.dimension 1) ∨ j < 0) ∨
      (k ≥ toInt (array.dimension 0) ∨ k < 0) then
    toSize (-1)
  else
    (toSize i * array.dimsize 2 + toSize j * array.dimsize 1 +
      toSize k * array.dimsize 0) % 2 ^ 64

/-! ## Access -/

/--
The body that the puts share: the status with the array afterwards.  A
`value` of `none` is `NULL`, any other points to at least `itemsize` bytes.
-/
def putAt (array : EtchNativearray) (value : Option (List UInt8))
    (offset : Nat) : Option (Int × EtchNativearray) :=
  match value with
  | none => some (-1, array)
  | some value =>
      -- `offset` is unsigned
      if offset < 0 then
        some (-1, array)
      else if offset + array.itemsize ≤ array.values.length ∧
          array.itemsize ≤ value.length then
        some (0,
          { array with
            values :=
              overwrite array.values offset (value.take array.itemsize) })
      else
        none

/-- The body that the gets share: the status with `value` afterwards. -/
def getAt (array : EtchNativearray) (value : Option (List UInt8))
    (offset : Nat) : Option (Int × Option (List UInt8)) :=
  match value with
  | none => some (-1, none)
  | some value =>
      if offset < 0 then
        some (-1, some value)
      else if offset + array.itemsize ≤ array.values.length ∧
          array.itemsize ≤ value.length then
        some (0, some (overwrite value 0
          (window array.values offset (offset + array.itemsize))))
      else
        none

/-- `etch_nativearray_put1` -/
def put1 (array : EtchNativearray) (value : Option (List UInt8)) (i : Int) :
    Option (Int × EtchNativearray) :=
  array.putAt value (array.off1 i)

/-- `etch_nativearray_put2` -/
def put2 (array : EtchNativearray) (value : Option (List UInt8))
    (i j : Int) : Option (Int × EtchNativearray) :=
  array.putAt value (array.off2 i j)

/-- `etch_nativearray_put3` -/
def put3 (array : EtchNativearray) (value : Option (List UInt8))
    (i j k : Int) : Option (Int × EtchNativearray) :=
  array.putAt value (array.off3 i j k)

/-- `etch_nativearray_get1` -/
def get1 (array : EtchNativearray) (value : Option (List UInt8)) (i : Int) :
    Option (Int × Option (List UInt8)) :=
  array.getAt value (array.off1 i)

/-- `etch_nativearray_get2` -/
def get2 (array : EtchNativearray) (value : Option (List UInt8))
    (i j : Int) : Option (Int × Option (List UInt8)) :=
  array.getAt value (array.off2 i j)

/-- `etch_nativearray_get3` -/
def get3 (array : EtchNativearray) (value : Option (List UInt8))
    (i j k : Int) : Option (Int × Option (List UInt8)) :=
  array.getAt value (array.off3 i j k)

end EtchNativearray

end Etch.C
