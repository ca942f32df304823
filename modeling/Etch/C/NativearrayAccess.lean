import Etch.C.Nativearray
import Etch.Library.RowMajor
import Mathlib.Data.Nat.ModEq

/-!
# In-bounds access of an `etch_nativearray`

A `Shape` fixes the extents of an array and the size of its items, and the
arrays made with it differ in their contents only.  Inside its extents an
index has the offset of its row-major rank, so the accesses are exact while
the items fit a `size_t`.  An index outside has the offset `(size_t) -1`,
which the test for a negative offset never finds.
-/

namespace Etch.C

open Etch.Library.RowMajor
open Etch.Library.Window

/-- Extents, the highest first as in `x[2][3][4]`, and an item size. -/
structure Shape where
  extents : List Nat
  itemsize : Nat
  dimensions :
    extents.length = 1 ∨ extents.length = 2 ∨ extents.length = 3
  positive : ∀ extent ∈ extents, 0 < extent ∧ extent < 2 ^ 31
  sized : 0 < itemsize ∧ itemsize < 2 ^ 64

namespace Shape

/-- The bytes of all items. -/
def bytes (shape : Shape) : Nat :=
  shape.extents.prod * shape.itemsize

/-- The array of the shape in a vector, made by `new_etch_nativearray_from`. -/
def create (shape : Shape) (values : List UInt8) (classId : Nat) :
    Option (Option EtchNativearray) :=
  match shape.extents with
  | [dim0] =>
      EtchNativearray.newEtchNativearrayFrom values classId shape.itemsize
        1 dim0 0 0
  | [dim1, dim0] =>
      EtchNativearray.newEtchNativearrayFrom values classId shape.itemsize
        2 dim0 dim1 0
  | [dim2, dim1, dim0] =>
      EtchNativearray.newEtchNativearrayFrom values classId shape.itemsize
        3 dim0 dim1 dim2
  | _ => some none

/-- An array of the shape whose vector is as long as it believes. -/
def Made (shape : Shape) (array : EtchNativearray) : Prop :=
  shape.create array.values array.classId = some (some array) ∧
    array.values.length = array.bytecount

def Valid (shape : Shape) (index : List Int) : Prop :=
  List.Forall₂
    (fun (coordinate : Int) (extent : Nat) =>
      0 ≤ coordinate ∧ coordinate < extent)
    index shape.extents

end Shape

namespace EtchNativearray

/-- The offset of an index of any number of dimensions. -/
def off (array : EtchNativearray) : List Int → Option Nat
  | [i] => some (array.off1 i)
  | [i, j] => some (array.off2 i j)
  | [i, j, k] => some (array.off3 i j k)
  | _ => none

/-- The put for an index of any number of dimensions. -/
def put (array : EtchNativearray) (value : Option (List UInt8)) :
    List Int → Option (Int × EtchNativearray)
  | [i] => array.put1 value i
  | [i, j] => array.put2 value i j
  | [i, j, k] => array.put3 value i j k
  | _ => none

/-- The get for an index of any number of dimensions. -/
def get (array : EtchNativearray) (value : Option (List UInt8)) :
    List Int → Option (Int × Option (List UInt8))
  | [i] => array.get1 value i
  | [i, j] => array.get2 value i j
  | [i, j, k] => array.get3 value i j k
  | _ => none

theorem put_eq (array : EtchNativearray) (value : Option (List UInt8))
    (index : List Int) :
    array.put value index = (array.off index).bind (array.putAt value) := by
  unfold put off
  split <;> rfl

theorem get_eq (array : EtchNativearray) (value : Option (List UInt8))
    (index : List Int) :
    array.get value index = (array.off index).bind (array.getAt value) := by
  unfold get off
  split <;> rfl

/-- What the accesses of one index have to do. -/
structure Exact (shape : Shape) (index : List Int)
    (array : EtchNativearray) : Prop where
  /-- An index outside is refused, and nothing is touched. -/
  refused : ¬ shape.Valid index →
    ∀ value : List UInt8, shape.itemsize ≤ value.length →
      array.put (some value) index = some (-1, array) ∧
        array.get (some value) index = some (-1, some value)
  /-- An index inside has bytes of its own in the array. -/
  stored : shape.Valid index →
    ∀ item : List UInt8, item.length = shape.itemsize →
      ∃ offset next, offset + item.length ≤ array.values.length ∧
        next =
          { array with values := overwrite array.values offset item } ∧
        array.put (some item) index = some (0, next) ∧
        (∀ value : List UInt8, value.length = shape.itemsize →
          next.get (some value) index = some (0, some item)) ∧
        ∀ other, shape.Valid other → other ≠ index →
          ∀ value : List UInt8, value.length = shape.itemsize →
            ∃ bytes, array.get (some value) other = some (0, some bytes) ∧
              next.get (some value) other = some (0, some bytes)

/-! ## The layout -/

section Fields

variable (array : EtchNativearray)

@[simp]
theorem itemsize_setContentType :
    array.setContentType.itemsize = array.itemsize := by
  unfold setContentType
  split <;> rfl

@[simp]
theorem bytecount_setContentType :
    array.setContentType.bytecount = array.bytecount := by
  unfold setContentType
  split <;> rfl

@[simp]
theorem dimension_setContentType :
    array.setContentType.dimension = array.dimension := by
  unfold setContentType
  split <;> rfl

@[simp]
theorem dimsize_setContentType :
    array.setContentType.dimsize = array.dimsize := by
  unfold setContentType
  split <;> rfl

end Fields

theorem laid_one {values : List UInt8} {classId size dim0 : Nat}
    {array : EtchNativearray} (nonempty : 0 < size)
    (small : dim0 < 2 ^ 31)
    (made : newEtchNativearrayFrom values classId size 1 dim0 0 0 =
      some (some array)) :
    array.itemsize = size ∧
      array.bytecount = dim0 * size % 2 ^ 64 ∧
      toInt (array.dimension 0) = dim0 ∧
      array.dimsize 0 = size := by
  have size0 : toSize dim0 = dim0 := toSize_natCast (by omega)
  simp only [newEtchNativearrayFrom, initEtchNativearray, size0] at made
  rw [if_neg (by omega), if_neg (by omega), if_neg (by omega),
    if_neg (by omega)] at made
  simp only [Option.map_some, Option.some.injEq] at made
  subst made
  simp [levels, toInt_of_lt small, Nat.mul_comm]

theorem laid_two {values : List UInt8} {classId size dim0 dim1 : Nat}
    {array : EtchNativearray} (nonempty : 0 < size)
    (small : dim0 < 2 ^ 31) (small' : 0 < dim1 ∧ dim1 < 2 ^ 31)
    (made : newEtchNativearrayFrom values classId size 2 dim0 dim1 0 =
      some (some array)) :
    array.itemsize = size ∧
      array.bytecount = dim1 * (dim0 * size) % 2 ^ 64 ∧
      toInt (array.dimension 0) = dim0 ∧
      toInt (array.dimension 1) = dim1 ∧
      array.dimsize 0 = size ∧
      array.dimsize 1 = dim0 * size % 2 ^ 64 := by
  have size0 : toSize dim0 = dim0 := toSize_natCast (by omega)
  have size1 : toSize dim1 = dim1 := toSize_natCast (by omega)
  simp only [newEtchNativearrayFrom, initEtchNativearray, size0, size1]
    at made
  rw [if_neg (by omega), if_neg (by omega), if_neg (by omega),
    if_neg (by omega)] at made
  simp only [Option.map_some, Option.some.injEq] at made
  subst made
  simp [levels, level, toInt_of_lt small, toInt_of_lt small'.2,
    Nat.mul_comm, Nat.mul_left_comm]

theorem laid_three {values : List UInt8}
    {classId size dim0 dim1 dim2 : Nat} {array : EtchNativearray}
    (nonempty : 0 < size) (small : dim0 < 2 ^ 31)
    (small' : 0 < dim1 ∧ dim1 < 2 ^ 31)
    (small'' : 0 < dim2 ∧ dim2 < 2 ^ 31)
    (made : newEtchNativearrayFrom values classId size 3 dim0 dim1 dim2 =
      some (some array)) :
    array.itemsize = size ∧
      array.bytecount = dim2 * (dim1 * (dim0 * size)) % 2 ^ 64 ∧
      toInt (array.dimension 0) = dim0 ∧
      toInt (array.dimension 1) = dim1 ∧
      toInt (array.dimension 2) = dim2 ∧
      array.dimsize 0 = size ∧
      array.dimsize 1 = dim0 * size % 2 ^ 64 ∧
      array.dimsize 2 = dim1 * (dim0 * size) % 2 ^ 64 := by
  have size0 : toSize dim0 = dim0 := toSize_natCast (by omega)
  have size1 : toSize dim1 = dim1 := toSize_natCast (by omega)
  have size2 : toSize dim2 = dim2 := toSize_natCast (by omega)
  simp only [newEtchNativearrayFrom, initEtchNativearray, size0, size1,
    size2] at made
  rw [if_neg (by omega), if_neg (by omega), if_neg (by omega),
    if_neg (by omega)] at made
  simp only [Option.map_some, Option.some.injEq] at made
  subst made
  simp [levels, level, toInt_of_lt small, toInt_of_lt small'.2,
    toInt_of_lt small''.2, Nat.mul_comm, Nat.mul_left_comm]

theorem toSize_coordinate {coordinate : Int} {extent : Nat}
    (inside : 0 ≤ coordinate ∧ coordinate < extent)
    (small : extent < 2 ^ 31) : toSize coordinate = coordinate.toNat := by
  unfold toSize
  omega

/-- What a shape says about the fields of an array and its offsets. -/
structure Laid (shape : Shape) (array : EtchNativearray) : Prop where
  itemsize : array.itemsize = shape.itemsize
  bytecount : array.bytecount = shape.bytes % 2 ^ 64
  off_valid : ∀ index, shape.Valid index →
    array.off index =
      some (rank shape.extents (index.map Int.toNat) * shape.itemsize %
        2 ^ 64)
  off_invalid : ∀ index, index.length = shape.extents.length →
    ¬ shape.Valid index → array.off index = some (toSize (-1))

theorem laid_of_made {shape : Shape} {array : EtchNativearray}
    (made : shape.Made array) : Laid shape array := by
  obtain ⟨create, -⟩ := made
  have nonempty := shape.sized.1
  unfold Shape.create at create
  split at create
  · rename_i dim0 extents
    have small0 := shape.positive dim0 (by simp [extents])
    obtain ⟨itemsize, bytecount, bound0, unit0⟩ :=
      laid_one nonempty small0.2 create
    refine ⟨itemsize, ?_, ?_, ?_⟩
    · simpa [Shape.bytes, extents] using bytecount
    · intro index valid
      rw [Shape.Valid, extents] at valid
      rcases valid with - | ⟨inside0, - | -⟩
      rw [off, off1, bound0, unit0, if_neg (by omega),
        toSize_coordinate inside0 small0.2]
      simp [extents, rank]
    · intro index arity invalid
      rw [extents] at arity
      obtain ⟨i, rfl⟩ := List.length_eq_one_iff.mp arity
      simp only [Shape.Valid, extents, List.forall₂_cons,
        List.Forall₂.nil, and_true] at invalid
      rw [off, off1, bound0, if_pos (by omega)]
  · rename_i dim1 dim0 extents
    have small0 := shape.positive dim0 (by simp [extents])
    have small1 := shape.positive dim1 (by simp [extents])
    obtain ⟨itemsize, bytecount, bound0, bound1, unit0, unit1⟩ :=
      laid_two nonempty small0.2 small1 create
    refine ⟨itemsize, ?_, ?_, ?_⟩
    · simpa [Shape.bytes, extents, Nat.mul_assoc] using bytecount
    · intro index valid
      rw [Shape.Valid, extents] at valid
      rcases valid with - | ⟨inside1, - | ⟨inside0, - | -⟩⟩
      rw [off, off2, bound0, bound1, unit0, unit1, if_neg (by omega),
        toSize_coordinate inside0 small0.2,
        toSize_coordinate inside1 small1.2]
      simp only [extents, rank, List.map_cons, List.map_nil,
        List.prod_cons, List.prod_nil, mul_one, Nat.add_zero, Nat.add_mul,
        Nat.mul_assoc]
      exact congrArg some (((Nat.mod_modEq _ _).mul_left _).add_right _)
    · intro index arity invalid
      rw [extents] at arity
      obtain ⟨i, j, rfl⟩ := List.length_eq_two.mp arity
      simp only [Shape.Valid, extents, List.forall₂_cons,
        List.Forall₂.nil, and_true] at invalid
      rw [off, off2, bound0, bound1, if_pos (by omega)]
  · rename_i dim2 dim1 dim0 extents
    have small0 := shape.positive dim0 (by simp [extents])
    have small1 := shape.positive dim1 (by simp [extents])
    have small2 := shape.positive dim2 (by simp [extents])
    obtain ⟨itemsize, bytecount, bound0, bound1, bound2, unit0, unit1,
      unit2⟩ := laid_three nonempty small0.2 small1 small2 create
    refine ⟨itemsize, ?_, ?_, ?_⟩
    · simpa [Shape.bytes, extents, Nat.mul_assoc] using bytecount
    · intro index valid
      rw [Shape.Valid, extents] at valid
      rcases valid with
        - | ⟨inside2, - | ⟨inside1, - | ⟨inside0, - | -⟩⟩⟩
      rw [off, off3, bound0, bound1, bound2, unit0, unit1, unit2,
        if_neg (by omega), toSize_coordinate inside0 small0.2,
        toSize_coordinate inside1 small1.2,
        toSize_coordinate inside2 small2.2]
      simp only [extents, rank, List.map_cons, List.map_nil,
        List.prod_cons, List.prod_nil, mul_one, Nat.add_zero, Nat.add_mul,
        Nat.mul_assoc, Nat.add_assoc]
      exact congrArg some (((Nat.mod_modEq _ _).mul_left _).add
        (((Nat.mod_modEq _ _).mul_left _).add_right _))
    · intro index arity invalid
      rw [extents] at arity
      obtain ⟨i, j, k, rfl⟩ := List.length_eq_three.mp arity
      simp only [Shape.Valid, extents, List.forall₂_cons,
        List.Forall₂.nil, and_true] at invalid
      rw [off, off3, bound0, bound1, bound2, if_pos (by omega)]
  · cases create

/-- The vector of an array has room for the items a `size_t` can count. -/
theorem length_values {shape : Shape} {array : EtchNativearray}
    (made : shape.Made array) :
    array.values.length = shape.bytes % 2 ^ 64 :=
  made.2.trans (laid_of_made made).bytecount

theorem newEtchNativearrayFrom_values {values other : List UInt8}
    {classId size : Nat} {numdims dim0 dim1 dim2 : Int}
    {array : EtchNativearray}
    (made : newEtchNativearrayFrom values classId size numdims dim0 dim1
      dim2 = some (some array)) :
    newEtchNativearrayFrom other classId size numdims dim0 dim1 dim2 =
      some (some { array with values := other }) := by
  simp only [newEtchNativearrayFrom, Option.map_eq_some_iff] at made ⊢
  obtain ⟨_, init, array', rfl, rfl⟩ := made
  refine ⟨_, init, array', rfl, ?_⟩
  simp only [setContentType]
  cases contentType array'.classId with
  | none => rfl
  | some type => rfl

/-- The contents of an array can be anything. -/
theorem create_values {shape : Shape} {values other : List UInt8}
    {classId : Nat} {array : EtchNativearray}
    (create : shape.create values classId = some (some array)) :
    shape.create other classId =
      some (some { array with values := other }) := by
  unfold Shape.create at create ⊢
  split at create
  · exact newEtchNativearrayFrom_values create
  · exact newEtchNativearrayFrom_values create
  · exact newEtchNativearrayFrom_values create
  · cases create

theorem putAt_status {array next : EtchNativearray} {value : List UInt8}
    {offset : Nat} {status : Int}
    (put : array.putAt (some value) offset = some (status, next)) :
    status = 0 := by
  unfold putAt at put
  simp only [Nat.not_lt_zero, if_false] at put
  split at put
  · simp only [Option.some.injEq, Prod.mk.injEq] at put
    exact put.1.symm
  · cases put

theorem putAt_inside {array next : EtchNativearray} {value : List UInt8}
    {offset : Nat} {status : Int}
    (put : array.putAt (some value) offset = some (status, next)) :
    offset + array.itemsize ≤ array.values.length := by
  unfold putAt at put
  simp only [Nat.not_lt_zero, if_false] at put
  split at put
  · rename_i inside
    exact inside.1
  · cases put

theorem putAt_ok {array : EtchNativearray} {item : List UInt8}
    {offset : Nat} (size : item.length = array.itemsize)
    (inside : offset + item.length ≤ array.values.length) :
    array.putAt (some item) offset =
      some (0,
        { array with values := overwrite array.values offset item }) := by
  unfold putAt
  simp only [Nat.not_lt_zero, if_false]
  rw [if_pos ⟨by omega, by omega⟩, ← size, List.take_length]

theorem getAt_ok {array : EtchNativearray} {value : List UInt8}
    {offset : Nat} (size : value.length = array.itemsize)
    (inside : offset + array.itemsize ≤ array.values.length) :
    array.getAt (some value) offset =
      some (0, some (window array.values offset
        (offset + array.itemsize))) := by
  have all : (window array.values offset
      (offset + array.itemsize)).length = value.length := by
    rw [length_window inside]
    omega
  unfold getAt
  simp only [Nat.not_lt_zero, if_false]
  rw [if_pos ⟨inside, by omega⟩, overwrite, all, Nat.zero_add,
    List.drop_length, List.take_zero, List.nil_append, List.append_nil]

theorem getAt_inside {array : EtchNativearray} {value bytes : List UInt8}
    {offset : Nat} (size : value.length = array.itemsize)
    (get : array.getAt (some value) offset = some (0, some bytes)) :
    offset + array.itemsize ≤ array.values.length ∧
      bytes = window array.values offset (offset + array.itemsize) := by
  by_cases inside : offset + array.itemsize ≤ array.values.length
  · rw [getAt_ok size inside] at get
    simp only [Option.some.injEq, Prod.mk.injEq, true_and] at get
    exact ⟨inside, get.symm⟩
  · simp [getAt, inside] at get

@[simp]
theorem classId_setContentType (array : EtchNativearray) :
    array.setContentType.classId = array.classId := by
  unfold setContentType
  split <;> rfl

theorem exists_newEtchNativearrayFrom (values : List UInt8)
    (classId : Nat) {size : Nat} {numdims dim0 dim1 dim2 : Int}
    (nonempty : 0 < size) (dimensions : 1 ≤ numdims ∧ numdims ≤ 3)
    (second : numdims > 1 → 0 < dim1) (third : numdims > 2 → 0 < dim2) :
    ∃ array, newEtchNativearrayFrom values classId size numdims dim0 dim1
        dim2 = some (some array) ∧ array.classId = classId := by
  simp only [newEtchNativearrayFrom, initEtchNativearray]
  rw [if_neg (by omega), if_neg (by omega), if_neg (by omega),
    if_neg (by omega)]
  refine ⟨_, rfl, ?_⟩
  rw [classId_setContentType]
  simp only [levels]
  split <;> split <;> rfl

/-- Every shape has an array of every class in every vector. -/
theorem exists_create (shape : Shape) (values : List UInt8)
    (classId : Nat) :
    ∃ array, shape.create values classId = some (some array) ∧
      array.classId = classId := by
  have nonempty := shape.sized.1
  unfold Shape.create
  split
  · exact exists_newEtchNativearrayFrom _ _ nonempty (by omega)
      (by omega) (by omega)
  · rename_i dim1 dim0 extents
    have small1 := shape.positive dim1 (by simp [extents])
    exact exists_newEtchNativearrayFrom _ _ nonempty (by omega)
      (by omega) (by omega)
  · rename_i dim2 dim1 dim0 extents
    have small1 := shape.positive dim1 (by simp [extents])
    have small2 := shape.positive dim2 (by simp [extents])
    exact exists_newEtchNativearrayFrom _ _ nonempty (by omega)
      (by omega) (by omega)
  · rename_i other one two three
    rcases shape.dimensions with length | length | length
    · obtain ⟨i, is⟩ := List.length_eq_one_iff.mp length
      exact absurd is (one i)
    · obtain ⟨i, j, is⟩ := List.length_eq_two.mp length
      exact absurd is (two i j)
    · obtain ⟨i, j, k, is⟩ := List.length_eq_three.mp length
      exact absurd is (three i j k)

/-- Every shape has an array of zeros of every class. -/
theorem exists_zeros (shape : Shape) (classId : Nat) :
    ∃ array, shape.Made array ∧
      array.values = List.replicate array.bytecount 0 ∧
      array.classId = classId := by
  obtain ⟨array, create, rfl⟩ := exists_create shape [] classId
  let zeros : EtchNativearray :=
    { array with values := List.replicate array.bytecount 0 }
  exact ⟨zeros, ⟨create_values create, List.length_replicate⟩, rfl, rfl⟩

theorem exists_made (shape : Shape) :
    ∃ array, shape.Made array ∧
      array.values = List.replicate array.bytecount 0 := by
  obtain ⟨array, made, zeros, -⟩ := exists_zeros shape 0
  exact ⟨array, made, zeros⟩

/-- The ranks below the number of items belong to valid indexes. -/
theorem exists_valid {shape : Shape} {number : Nat}
    (small : number < shape.extents.prod) :
    ∃ index, shape.Valid index ∧
      rank shape.extents (index.map Int.toNat) = number := by
  obtain ⟨index, inside, is⟩ := exists_rank small
  refine ⟨index.map Int.ofNat, ?_, ?_⟩
  · rw [Shape.Valid, List.forall₂_map_left_iff]
    exact inside.imp fun _ _ below =>
      ⟨Int.natCast_nonneg _, Int.ofNat_lt.mpr below⟩
  · rw [List.map_map]
    have same : Int.toNat ∘ Int.ofNat = id := by
      funext coordinate
      rfl
    rw [same, List.map_id, is]

theorem inside_of_valid {shape : Shape} {index : List Int}
    (valid : shape.Valid index) :
    Inside shape.extents (index.map Int.toNat) := by
  rw [Inside, List.forall₂_map_left_iff]
  exact valid.imp fun _ _ inside => by omega

theorem toNat_injective {shape : Shape} {left right : List Int}
    (validLeft : shape.Valid left) (validRight : shape.Valid right)
    (same : left.map Int.toNat = right.map Int.toNat) : left = right := by
  unfold Shape.Valid at validLeft validRight
  generalize shape.extents = extents at validLeft validRight
  induction validLeft generalizing right with
  | nil =>
      cases validRight
      rfl
  | cons inside rest ih =>
      cases validRight with
      | cons inside' rest' =>
          simp only [List.map_cons, List.cons.injEq] at same
          rw [ih same.2 rest']
          congr 1
          omega

/-! ## The accesses are exact -/

/-- No access refuses an index. -/
theorem put_status_ne {array next : EtchNativearray} {value : List UInt8}
    {index : List Int} : array.put (some value) index ≠ some (-1, next) := by
  intro put
  rw [put_eq, Option.bind_eq_some_iff] at put
  obtain ⟨offset, -, put⟩ := put
  cases putAt_status put

/-- The place of an index where all items fit a `size_t`. -/
def place (shape : Shape) (index : List Int) : Nat :=
  rank shape.extents (index.map Int.toNat) * shape.itemsize

section Fits

variable {shape : Shape} {array : EtchNativearray} {index : List Int}

theorem off_of_fits (made : shape.Made array)
    (fits : shape.bytes < 2 ^ 64) (valid : shape.Valid index) :
    array.off index = some (place shape index) ∧
      place shape index + shape.itemsize ≤ array.values.length := by
  have room := @slot_inside shape.itemsize _ _
    (rank_lt (inside_of_valid valid))
  rw [(laid_of_made made).off_valid index valid, length_values made,
    Nat.mod_eq_of_lt fits, place]
  rw [Shape.bytes] at fits
  exact ⟨by rw [Nat.mod_eq_of_lt (by omega)], room⟩

theorem put_of_fits (made : shape.Made array)
    (fits : shape.bytes < 2 ^ 64) (valid : shape.Valid index)
    {item : List UInt8} (size : item.length = shape.itemsize) :
    array.put (some item) index =
      some (0,
        { array with
          values :=
            overwrite array.values (place shape index) item }) := by
  obtain ⟨offset, room⟩ := off_of_fits made fits valid
  rw [put_eq, offset, Option.bind_some, putAt_ok _ (by omega)]
  exact size.trans (laid_of_made made).itemsize.symm

theorem get_of_fits (made : shape.Made array)
    (fits : shape.bytes < 2 ^ 64) (valid : shape.Valid index)
    {value : List UInt8} (size : value.length = shape.itemsize) :
    array.get (some value) index =
      some (0, some (window array.values (place shape index)
        (place shape index + shape.itemsize))) := by
  obtain ⟨offset, room⟩ := off_of_fits made fits valid
  have itemsize := (laid_of_made made).itemsize
  rw [get_eq, offset, Option.bind_some,
    getAt_ok (size.trans itemsize.symm) (by omega), itemsize]

/-- With room for all items, every index inside has its own bytes. -/
theorem exact_of_fits (made : shape.Made array)
    (fits : shape.bytes < 2 ^ 64) (valid : shape.Valid index) :
    Exact shape index array := by
  refine ⟨fun invalid => absurd valid invalid, fun _ item size => ?_⟩
  have room := (off_of_fits made fits valid).2
  let next : EtchNativearray :=
    { array with values := overwrite array.values (place shape index) item }
  have length : next.values.length = array.values.length :=
    length_overwrite (by omega)
  have made' : shape.Made next :=
    ⟨create_values made.1, length.trans made.2⟩
  refine ⟨place shape index, next, by omega, rfl,
    put_of_fits made fits valid size, ?_, ?_⟩
  · intro value size'
    rw [get_of_fits made' fits valid size', ← size,
      window_overwrite_self (by omega)]
  · intro other valid' distinct value size'
    have apart : place shape other + shape.itemsize ≤ place shape index ∨
        place shape index + shape.itemsize ≤ place shape other :=
      slots_apart fun same =>
        distinct (toNat_injective valid' valid (rank_injective
          (inside_of_valid valid') (inside_of_valid valid) same))
    have stored : next.values =
      overwrite array.values (place shape index) item := rfl
    refine ⟨_, get_of_fits made fits valid' size', ?_⟩
    rw [get_of_fits made' fits valid' size', stored]
    rcases apart with before | after
    · rw [window_overwrite_before (by omega) _ before]
    · rw [window_overwrite_after (by omega) (by omega)]

end Fits

/-- Without it, every item shares bytes with another or lies outside. -/
theorem not_exact_of_wraps {shape : Shape} {array : EtchNativearray}
    {index : List Int} (made : shape.Made array)
    (zeros : array.values = List.replicate array.bytecount 0)
    (valid : shape.Valid index) (wraps : 2 ^ 64 ≤ shape.bytes) :
    ¬ Exact shape index array := by
  intro exact
  have laid := laid_of_made made
  have length := length_values made
  have positive := shape.sized.1
  have ones : (List.replicate shape.itemsize (1 : UInt8)).length =
    shape.itemsize := List.length_replicate
  obtain ⟨start, next, inside, rfl, put, same, others⟩ :=
    exact.stored valid (List.replicate shape.itemsize 1) ones
  rw [put_eq, laid.off_valid index valid, Option.bind_some] at put
  have room := putAt_inside put
  rw [laid.itemsize] at room
  rw [putAt_ok (ones.trans laid.itemsize.symm) (by rwa [ones])] at put
  simp only [Option.some.injEq, Prod.mk.injEq, true_and] at put
  rw [length] at room
  -- another item starts among the bytes that were put
  obtain ⟨number, counted, distinct, from_, to_⟩ :=
    exists_overlap positive wraps (by decide) room
  obtain ⟨other, valid', is⟩ := exists_valid counted
  obtain ⟨bytes, get, get'⟩ := others other valid'
    (by
      rintro rfl
      exact distinct is.symm)
    (List.replicate shape.itemsize 1) ones
  rw [← put] at get'
  rw [get_eq, laid.off_valid other valid', is, Option.bind_some] at get
  have off : ({ array with
      values := overwrite array.values
        (rank shape.extents (index.map Int.toNat) * shape.itemsize %
          2 ^ 64)
        (List.replicate shape.itemsize 1) } : EtchNativearray).off other =
      array.off other := rfl
  rw [get_eq, off, laid.off_valid other valid', is, Option.bind_some]
    at get'
  obtain ⟨room', before⟩ := getAt_inside
    (by rw [ones, laid.itemsize]) get
  obtain ⟨-, after⟩ := getAt_inside
    (by rw [ones, laid.itemsize]) get'
  have first := congrArg (fun bytes => bytes[0]?) (before.symm.trans after)
  rw [laid.itemsize] at room' first
  simp only at first
  rw [getElem?_window (by omega), getElem?_window (by omega),
    Nat.add_zero, getElem?_overwrite (by omega) (by omega) (by omega),
    zeros, List.getElem?_replicate, List.getElem?_replicate,
    if_pos (by
      rw [zeros, List.length_replicate] at room'
      omega),
    if_pos (by omega)] at first
  cases first

/--
The accesses of an index are exact if and only if it lies inside the extents
and the items of the array fit a `size_t`.
-/
theorem exact_iff_valid (shape : Shape) (index : List Int) :
    (∀ array, shape.Made array → Exact shape index array) ↔
      shape.Valid index ∧ shape.bytes < 2 ^ 64 := by
  constructor
  · intro all
    obtain ⟨array, made, zeros⟩ := exists_made shape
    have valid : shape.Valid index := by
      by_contra invalid
      obtain ⟨put, -⟩ := (all array made).refused invalid
        (List.replicate shape.itemsize 0) (by simp)
      exact put_status_ne put
    refine ⟨valid, ?_⟩
    by_contra wraps
    exact not_exact_of_wraps made zeros valid (by omega) (all array made)
  · rintro ⟨valid, fits⟩ array made
    exact exact_of_fits made fits valid

/-- An `int x[2]` takes the index `-1` for an offset. -/
theorem negative_not_exact :
    ∃ shape : Shape, shape.extents = [2] ∧ shape.itemsize = 4 ∧
      ∃ array, shape.Made array ∧ ¬ Exact shape [-1] array := by
  refine ⟨⟨[2], 4, .inl rfl, by decide, by decide⟩, rfl, rfl, ?_⟩
  obtain ⟨array, made, -⟩ := exists_made
    ⟨[2], 4, .inl rfl, by decide, by decide⟩
  refine ⟨array, made, fun exact => ?_⟩
  obtain ⟨put, -⟩ := exact.refused (by simp [Shape.Valid]) [1, 0, 0, 0]
    (Nat.le_refl 4)
  exact put_status_ne put

end EtchNativearray

end Etch.C
