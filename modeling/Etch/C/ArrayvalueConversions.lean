import Etch.C.Arrayvalue
import Etch.C.NativearrayAccess
import Mathlib.Algebra.BigOperators.Ring.List

/-!
# The conversions of an `etch_arrayvalue`

An array value made from a native array is regular: its sub-arrays are as
long as the extents of the native array have it.  The loops that fill a native
array from a regular array value write its items one behind the other, so
what they write is the list of all its bytes.  Both conversions together keep
the bytes of an array of unwrapped primitives, but for a boolean that is
neither `0` nor `1`, and lose its class.
-/

namespace Etch.C

open Etch.Library.RowMajor
open Etch.Library.Window
open EtchNativearray

attribute [local instance] neZero_dimensions

/-! ## Regular array values -/

def Element.value : Element → List UInt8
  | .primitive value => value
  | _ => []

/-- An array value of primitives of one size, with its extents. -/
def Regular (size : Nat) : List Nat → EtchArrayvalue → Prop
  | [], _ => False
  | [extent], av =>
      av.list.length = extent ∧ av.fields.contentItemSize = size ∧
        av.fields.contentClassId = CLASSID_UNWRAPPED ∧
        ∀ element ∈ av.list, ∃ value,
          element = .primitive value ∧ value.length = size
  | extent :: extent' :: extents, av =>
      av.list.length = extent ∧ ∀ element ∈ av.list, ∃ sub,
        element.asArrayvalue = some sub ∧
          Regular size (extent' :: extents) sub

/-- The bytes of the items, by the depth of the list. -/
def bytesOf : Nat → List Element → List UInt8
  | 0, list => list.flatMap Element.value
  | depth + 1, list =>
      list.flatMap fun element =>
        match element.asArrayvalue with
        | some av => bytesOf depth av.list
        | none => []

theorem exists_cons_cons {extents : List Nat} {depth : Nat}
    (dimensions : extents.length = depth + 1 + 1) :
    ∃ extent extent' rest, extents = extent :: extent' :: rest := by
  rcases extents with _ | ⟨extent, _ | ⟨extent', rest⟩⟩
  · cases dimensions
  · cases dimensions
  · exact ⟨extent, extent', rest, rfl⟩

theorem length_flatMap_of_forall {list : List Element}
    {chunk : Element → List UInt8} {length : Nat}
    (each : ∀ element ∈ list, (chunk element).length = length) :
    (list.flatMap chunk).length = list.length * length := by
  rw [List.length_flatMap, List.map_congr_left each, List.map_const',
    List.sum_replicate_nat]

theorem length_bytesOf {size depth : Nat} {extents : List Nat}
    {av : EtchArrayvalue} (regular : Regular size extents av)
    (dimensions : extents.length = depth + 1) :
    (bytesOf depth av.list).length = extents.prod * size := by
  induction depth generalizing extents av with
  | zero =>
      obtain ⟨extent, rfl⟩ := List.length_eq_one_iff.mp dimensions
      obtain ⟨length, -, -, items⟩ := regular
      rw [bytesOf, @length_flatMap_of_forall _ _ size, length,
        List.prod_singleton]
      intro element member
      obtain ⟨value, rfl, is⟩ := items element member
      exact is
  | succ depth ih =>
      obtain - | ⟨extent, - | ⟨extent', extents⟩⟩ := extents
      · cases dimensions
      · simp at dimensions
      · obtain ⟨length, items⟩ := regular
        rw [bytesOf, @length_flatMap_of_forall _ _
          ((extent' :: extents).prod * size), length, ← Nat.mul_assoc,
          ← List.prod_cons]
        intro element member
        obtain ⟨sub, is, regular⟩ := items element member
        simp only [is]
        exact ih regular (by simpa using dimensions)

/-! ## The loops by depth -/

/-- The loops of the three conversions, below an outer index. -/
def convert : Nat → List Int → List Element → EtchNativearray → Int →
    Option (EtchNativearray × Option Int)
  | 0, outer =>
      loop fun element i =>
        putItem (fun natv value => natv.put value (outer ++ [i])) element
  | depth + 1, outer =>
      loop fun element i => putArray (convert depth (outer ++ [i])) element

theorem populate_eq {av : EtchArrayvalue} {depth : Nat}
    (natv : EtchNativearray) (dimension : av.fields.dim = depth + 1)
    (small : depth < 3) :
    av.populate natv = convert depth [] av.list natv 0 := by
  rw [EtchArrayvalue.populate, dimension]
  match depth, small with
  | 0, _ => rfl
  | 1, _ => rfl
  | 2, _ => rfl

/-- The list of a loop is all of it. -/
theorem loop_eq {list : List Element} (small : list.length < 2 ^ 31)
    (body : Element → Int → EtchNativearray → Int →
      Option (EtchNativearray × Option Int))
    (natv : EtchNativearray) (items : Int) :
    loop body list natv items = rounds body list 0 natv items := by
  rw [loop, arrayvalueCount, toInt_of_lt small, Int.toNat_natCast,
    List.take_length]

/-- An array whose first bytes are written. -/
def filled (natv : EtchNativearray) (done : List UInt8) : EtchNativearray :=
  { natv with values := overwrite natv.values 0 done }

/-- Rounds that each append a chunk of one length. -/
theorem rounds_filled
    {body : Element → Int → EtchNativearray → Int →
      Option (EtchNativearray × Option Int)}
    {chunk : Element → List UInt8} {natv : EtchNativearray}
    {length count first start : Nat} {list : List Element}
    {done : List UInt8} {items : Int}
    (step : ∀ (i : Nat) (element : Element) (done : List UInt8)
      (items : Int), list[i]? = some element →
      done.length = start + i * length → items + count < 2 ^ 31 →
      body element (first + i : Nat) (filled natv done) items =
          some (filled natv (done ++ chunk element), some (items + count)) ∧
        (chunk element).length = length)
    (position : done.length = start)
    (small : items + list.length * count < 2 ^ 31) :
    rounds body list first (filled natv done) items =
      some (filled natv (done ++ list.flatMap chunk),
        some (items + list.length * count)) := by
  induction list generalizing first start done items with
  | nil => simp [rounds]
  | cons element list ih =>
      have total : ((element :: list).length : Int) * count =
          list.length * count + count := by
        rw [List.length_cons]
        push_cast
        ring
      rw [total] at small
      have nonneg : 0 ≤ (list.length : Int) * count := by positivity
      obtain ⟨head, size⟩ := step 0 element done items rfl
        (by omega) (by omega)
      rw [Nat.add_zero] at head
      simp only [rounds, head]
      have rest := @ih (first + 1) (start + length) (done ++ chunk element)
        (items + count)
        (by
          intro i other done items is position small
          have next := step (i + 1) other done items is
            (by rw [position]; ring) small
          rwa [show first + 1 + i = first + (i + 1) by ring])
        (by rw [List.length_append, position, size]) (by omega)
      push_cast at rest
      rw [rest, List.flatMap_cons, List.append_assoc, total]
      congr 3
      ring

/-- What the indexes below an outer index have for places. -/
def Placed (shape : Shape) (outer : List Int) (extents : List Nat)
    (start : Nat) : Prop :=
  ∀ index : List Int,
    List.Forall₂
        (fun (coordinate : Int) (extent : Nat) =>
          0 ≤ coordinate ∧ coordinate < extent)
        index extents →
      shape.Valid (outer ++ index) ∧
        place shape (outer ++ index) =
          start + rank extents (index.map Int.toNat) * shape.itemsize

theorem placed_nil (shape : Shape) : Placed shape [] shape.extents 0 := by
  intro index valid
  exact ⟨valid, by rw [place, Nat.zero_add, List.nil_append]⟩

theorem Placed.down {shape : Shape} {outer : List Int} {extent : Nat}
    {extents : List Nat} {start i : Nat}
    (placed : Placed shape outer (extent :: extents) start)
    (inside : i < extent) :
    Placed shape (outer ++ [(i : Int)]) extents
      (start + i * (extents.prod * shape.itemsize)) := by
  intro index valid
  obtain ⟨valid', is⟩ := placed (i :: index) (.cons (by omega) valid)
  rw [List.append_assoc, List.singleton_append]
  refine ⟨valid', is.trans ?_⟩
  rw [List.map_cons, Int.toNat_natCast, rank_cons]
  ring

section Fills

variable {shape : Shape} {natv : EtchNativearray}

theorem made_filled (made : shape.Made natv) {done : List UInt8}
    (inside : done.length ≤ natv.values.length) :
    shape.Made (filled natv done) :=
  ⟨create_values made.1, (length_overwrite (by omega)).trans made.2⟩

/-- The put behind what is written. -/
theorem putItem_filled (made : shape.Made natv)
    (fits : shape.bytes < 2 ^ 64) {index : List Int}
    {done value : List UInt8} {items : Int} (valid : shape.Valid index)
    (behind : place shape index = done.length)
    (size : value.length = shape.itemsize) (small : items + 1 < 2 ^ 31) :
    putItem (fun natv value => natv.put value index) (.primitive value)
        (filled natv done) items =
      some (filled natv (done ++ value), some (items + 1)) := by
  have room := (off_of_fits made fits valid).2
  have short : done.length ≤ natv.values.length := by omega
  have made' := made_filled made short
  have written : overwrite (filled natv done).values (place shape index)
      value = overwrite natv.values 0 (done ++ value) := by
    rw [← overwrite_overwrite (by omega), Nat.zero_add, behind]
    rfl
  simp only [putItem, put_of_fits made' fits valid size]
  rw [if_pos small, written]
  rfl

/-- The loops over a regular array value write its bytes in order. -/
theorem convert_regular (made : shape.Made natv)
    (fits : shape.bytes < 2 ^ 64) {depth : Nat} {extents : List Nat}
    (dimensions : extents.length = depth + 1)
    (bounded : ∀ extent ∈ extents, extent < 2 ^ 31) {outer : List Int}
    {av : EtchArrayvalue} {done : List UInt8} {items : Int}
    (placed : Placed shape outer extents done.length)
    (regular : Regular shape.itemsize extents av)
    (small : items + extents.prod < 2 ^ 31) :
    convert depth outer av.list (filled natv done) items =
      some (filled natv (done ++ bytesOf depth av.list),
        some (items + extents.prod)) := by
  induction depth generalizing extents outer av done items with
  | zero =>
      obtain ⟨extent, rfl⟩ := List.length_eq_one_iff.mp dimensions
      obtain ⟨length, -, -, primitives⟩ := regular
      rw [List.prod_singleton] at small ⊢
      rw [convert, loop_eq (by rw [length]; exact bounded _ (by simp)),
        bytesOf]
      have run := @rounds_filled
        (fun element i =>
          putItem (fun natv value => natv.put value (outer ++ [i])) element)
        Element.value natv shape.itemsize 1 0 done.length av.list done items
        (by
          intro i element before items is position room
          obtain ⟨value, rfl, size⟩ :=
            primitives element (List.mem_of_getElem? is)
          have inside : i < extent := by
            rw [← length]
            exact (List.getElem?_eq_some_iff.mp is).1
          obtain ⟨valid, here⟩ := placed [(i : Int)]
            (.cons (by omega) .nil)
          simp only [rank, List.map_cons, List.map_nil, List.prod_nil,
            Int.toNat_natCast, mul_one, Nat.add_zero] at here
          rw [Nat.zero_add]
          exact ⟨putItem_filled made fits valid (by rw [here, position])
            size room, size⟩)
        rfl (by rw [length]; omega)
      rw [length] at run
      simpa using run
  | succ depth ih =>
      obtain - | ⟨extent, - | ⟨extent', extents⟩⟩ := extents
      · cases dimensions
      · simp at dimensions
      · obtain ⟨length, arrays⟩ := regular
        rw [List.length_cons, Nat.add_right_cancel_iff] at dimensions
        have total : ((extent :: extent' :: extents).prod : Int) =
            extent * ((extent' :: extents).prod : Nat) := by
          rw [List.prod_cons]
          push_cast
          ring
        rw [total] at small ⊢
        rw [convert,
          loop_eq (by rw [length]; exact bounded _ (by simp)), bytesOf]
        have run := @rounds_filled
          (fun element i => putArray (convert depth (outer ++ [i])) element)
          (fun element =>
            match element.asArrayvalue with
            | some av => bytesOf depth av.list
            | none => [])
          natv ((extent' :: extents).prod * shape.itemsize)
          (extent' :: extents).prod 0 done.length av.list done items
          (by
            intro i element before items is position room
            obtain ⟨sub, array, regular⟩ :=
              arrays element (List.mem_of_getElem? is)
            have inside : i < extent := by
              rw [← length]
              exact (List.getElem?_eq_some_iff.mp is).1
            have placed' := placed.down inside
            rw [← position] at placed'
            simp only [putArray, array, Nat.zero_add]
            refine ⟨ih dimensions
              (fun extent member => bounded extent (by simp [member]))
              placed' regular room, length_bytesOf regular dimensions⟩)
          rfl (by rw [length]; exact small)
        rw [length] at run
        exact run

end Fills

/-! ## The count of the items -/

theorem rounds_items
    {body : Element → Int → EtchNativearray → Int →
      Option (EtchNativearray × Option Int)} {count : Nat}
    {list : List Element} {first items items' : Int}
    {natv natv' : EtchNativearray}
    (step : ∀ element ∈ list, ∀ i natv natv' items items',
      body element i natv items = some (natv', some items') →
        items' = items + count ∧ (items < 2 ^ 31 → items' < 2 ^ 31))
    (run : rounds body list first natv items =
      some (natv', some items')) :
    items' = items + list.length * count ∧
      (items < 2 ^ 31 → items' < 2 ^ 31) := by
  induction list generalizing first natv items with
  | nil =>
      simp only [rounds, Option.some.injEq, Prod.mk.injEq] at run
      obtain ⟨-, rfl⟩ := run
      simp
  | cons element list ih =>
      rw [rounds] at run
      split at run
      · rename_i natv₁ items₁ head
        obtain ⟨more, below⟩ := step element (by simp) _ _ _ _ _ head
        obtain ⟨rest, below'⟩ := ih
          (fun element member => step element (by simp [member])) run
        refine ⟨?_, fun small => below' (below small)⟩
        rw [rest, more, List.length_cons]
        push_cast
        ring
      · rename_i returned
        exact absurd run (returned natv' items')

/-- A run that is defined and returns counts all items, with an `int`. -/
theorem convert_items {size depth : Nat} {extents : List Nat}
    (dimensions : extents.length = depth + 1)
    (bounded : ∀ extent ∈ extents, extent < 2 ^ 31) {outer : List Int}
    {av : EtchArrayvalue} {natv natv' : EtchNativearray}
    {items items' : Int} (regular : Regular size extents av)
    (run : convert depth outer av.list natv items =
      some (natv', some items')) :
    items' = items + extents.prod ∧ (items < 2 ^ 31 → items' < 2 ^ 31) := by
  induction depth generalizing extents outer av natv natv' items items' with
  | zero =>
      obtain ⟨extent, rfl⟩ := List.length_eq_one_iff.mp dimensions
      obtain ⟨length, -, -, primitives⟩ := regular
      rw [convert,
        loop_eq (by rw [length]; exact bounded _ (by simp))] at run
      have counted := @rounds_items _ 1 _ _ _ _ _ _
        (by
          intro element member i natv natv' items items' put
          obtain ⟨value, rfl, -⟩ := primitives element member
          simp only [putItem] at put
          split at put
          · split at put
            · rename_i small
              simp only [Option.some.injEq, Prod.mk.injEq] at put
              omega
            · cases put
          · cases put
          · cases put)
        run
      rw [length] at counted
      simpa using counted
  | succ depth ih =>
      obtain - | ⟨extent, - | ⟨extent', extents⟩⟩ := extents
      · cases dimensions
      · simp at dimensions
      · obtain ⟨length, arrays⟩ := regular
        rw [List.length_cons, Nat.add_right_cancel_iff] at dimensions
        rw [convert,
          loop_eq (by rw [length]; exact bounded _ (by simp))] at run
        have counted := @rounds_items _ (extent' :: extents).prod _ _ _ _ _ _
          (by
            intro element member i natv natv' items items' put
            obtain ⟨sub, array, regular⟩ := arrays element member
            simp only [putArray, array] at put
            exact ih dimensions
              (fun extent member => bounded extent (by simp [member]))
              regular put)
          run
        rw [length] at counted
        rw [List.prod_cons]
        push_cast at counted ⊢
        exact counted

/-! ## Native arrays of a shape -/

theorem initEtchNativearray_fields {classId size : Nat}
    {numdims dim0 dim1 dim2 : Int} {array : EtchNativearray}
    (init : initEtchNativearray classId size numdims dim0 dim1 dim2 =
      some (some array)) :
    array.classId = classId ∧ array.numdims = numdims ∧
      array.isNull = false ∧
      ∀ other, initEtchNativearray other size numdims dim0 dim1 dim2 =
        some (some { array with classId := other }) := by
  unfold initEtchNativearray at init ⊢
  split at init
  · cases init
  · split at init
    · cases init
    · split at init
      · cases init
      · split at init
        · cases init
        · simp only [Option.some.injEq] at init
          subst init
          simp only [*, if_false, levels]
          refine ⟨?_, ?_, ?_, fun other => ?_⟩ <;> split <;> split <;> rfl

/-- The fields that the arguments of the construction decide. -/
theorem newEtchNativearrayFrom_fields {values : List UInt8}
    {classId size : Nat} {numdims dim0 dim1 dim2 : Int}
    {array : EtchNativearray}
    (made : newEtchNativearrayFrom values classId size numdims dim0 dim1
      dim2 = some (some array)) :
    (array.values = values ∧ array.classId = classId) ∧
      array.numdims = numdims ∧ array.isNull = false ∧
      ∀ values' classId' array', newEtchNativearrayFrom values' classId'
          size numdims dim0 dim1 dim2 = some (some array') →
        array'.numdims = array.numdims ∧
          array'.dimension = array.dimension ∧
          array'.itemsize = array.itemsize := by
  simp only [newEtchNativearrayFrom, Option.map_eq_some_iff] at made
  obtain ⟨_, init, plain, rfl, rfl⟩ := made
  obtain ⟨is, dimensions, notNull, others⟩ :=
    initEtchNativearray_fields init
  have same : ∀ array : EtchNativearray,
      array.setContentType.values = array.values ∧
        array.setContentType.numdims = array.numdims ∧
        array.setContentType.isNull = array.isNull := by
    intro array
    unfold setContentType
    split <;> exact ⟨rfl, rfl, rfl⟩
  rw [(same _).1, classId_setContentType, (same _).2.1, (same _).2.2]
  refine ⟨⟨rfl, is⟩, dimensions, notNull,
    fun values' classId' array' made => ?_⟩
  simp only [newEtchNativearrayFrom, others, Option.map_some,
    Option.some.injEq] at made
  subst made
  simp [(same _).2.1]

theorem newEtchNativearrayFrom_one (values : List UInt8)
    (classId size : Nat) (dim0 dim1 dim2 : Int) :
    newEtchNativearrayFrom values classId size 1 dim0 dim1 dim2 =
      newEtchNativearrayFrom values classId size 1 dim0 0 0 := by
  simp [newEtchNativearrayFrom, initEtchNativearray]

/-- `new_etch_nativearray` makes a vector of its own. -/
theorem newEtchNativearray_of_from {values : List UInt8}
    {classId size : Nat} {numdims dim0 dim1 dim2 : Int}
    {array : EtchNativearray}
    (made : newEtchNativearrayFrom values classId size numdims dim0 dim1
      dim2 = some (some array)) :
    newEtchNativearray classId size numdims dim0 dim1 dim2 =
      some (some { array with
        values := List.replicate array.bytecount 0 }) := by
  simp only [newEtchNativearrayFrom, newEtchNativearray,
    Option.map_eq_some_iff] at made ⊢
  obtain ⟨_, init, plain, rfl, rfl⟩ := made
  refine ⟨_, init, plain, rfl, ?_⟩
  rw [bytecount_setContentType]
  simp only [setContentType]
  cases contentType plain.classId with
  | none => rfl
  | some type => rfl

theorem create_fields {shape : Shape} {left right : EtchNativearray}
    {values values' : List UInt8} {classId classId' : Nat}
    (made : shape.create values classId = some (some left))
    (made' : shape.create values' classId' = some (some right)) :
    right.numdims = left.numdims ∧ right.dimension = left.dimension ∧
      right.itemsize = left.itemsize := by
  unfold Shape.create at made made'
  split at made
  · rename_i extents
    simp only [extents] at made'
    exact (newEtchNativearrayFrom_fields made).2.2.2 _ _ _ made'
  · rename_i extents
    simp only [extents] at made'
    exact (newEtchNativearrayFrom_fields made).2.2.2 _ _ _ made'
  · rename_i extents
    simp only [extents] at made'
    exact (newEtchNativearrayFrom_fields made).2.2.2 _ _ _ made'
  · cases made

/-- An array of the shape, with a content type of its own. -/
def Created (shape : Shape) (array : EtchNativearray) : Prop :=
  ∃ contentObjType contentClassId,
    shape.create array.values array.classId =
      some (some { array with
        contentObjType := contentObjType
        contentClassId := contentClassId })

namespace Created

variable {shape : Shape} {array : EtchNativearray}

theorem single {extent : Nat} (created : Created shape array)
    (extents : shape.extents = [extent]) :
    array.itemsize = shape.itemsize ∧ array.numdims = 1 ∧
      array.isNull = false ∧ toInt (array.dimension 0) = extent ∧
      array.dimsize 0 = shape.itemsize := by
  obtain ⟨objType, classId, create⟩ := created
  rw [Shape.create, extents] at create
  have small := shape.positive extent (by simp [extents])
  obtain ⟨itemsize, -, bound, unit⟩ :=
    laid_one shape.sized.1 small.2 create
  obtain ⟨-, dimensions, notNull, -⟩ :=
    newEtchNativearrayFrom_fields create
  exact ⟨itemsize, dimensions, notNull, bound, unit⟩

/-- The extents and the sizes of an array of sub-arrays. -/
theorem nested {extent extent' : Nat} {extents : List Nat}
    (created : Created shape array)
    (is : shape.extents = extent :: extent' :: extents) :
    array.itemsize = shape.itemsize ∧
      array.numdims = ((extent' :: extents).length + 1 : Nat) ∧
      array.isNull = false ∧
      toInt (array.dimension (Fin.ofNat 3 (extent' :: extents).length)) =
        extent ∧
      array.dimsize (Fin.ofNat 3 (extent' :: extents).length) =
        (extent' :: extents).prod * shape.itemsize % 2 ^ 64 ∧
      ∃ rest : Shape, rest.extents = extent' :: extents ∧
        rest.itemsize = shape.itemsize ∧
        ∀ values, newEtchNativearrayFrom values array.classId
            array.itemsize ((extent' :: extents).length : Nat)
            (toInt (array.dimension 0)) (toInt (array.dimension 1)) 0 =
          rest.create values array.classId := by
  obtain ⟨objType, classId, create⟩ := created
  have dimensions := shape.dimensions
  have positive := shape.positive
  rw [is] at dimensions positive
  let rest : Shape :=
    { extents := extent' :: extents
      itemsize := shape.itemsize
      dimensions := by
        simp only [List.length_cons] at dimensions ⊢
        omega
      positive := fun extent member => positive extent (by simp [member])
      sized := shape.sized }
  rw [Shape.create, is] at create
  have small := positive extent (by simp)
  have small' := positive extent' (by simp)
  obtain - | ⟨extent'', - | ⟨extent₃, extents⟩⟩ := extents
  · obtain ⟨itemsize, -, bound0, bound1, -, unit1⟩ :=
      laid_two shape.sized.1 small'.2 small create
    obtain ⟨-, dimensions, notNull, -⟩ :=
      newEtchNativearrayFrom_fields create
    refine ⟨itemsize, dimensions, notNull, bound1, ?_, rest, rfl, rfl, ?_⟩
    · rw [List.prod_singleton]
      exact unit1
    · intro values
      change newEtchNativearrayFrom _ _ _ 1 _ _ _ = _
      simp only at itemsize bound0
      rw [newEtchNativearrayFrom_one, bound0, itemsize]
      rfl
  · have small'' := positive extent'' (by simp)
    obtain ⟨itemsize, -, bound0, bound1, bound2, -, -, unit2⟩ :=
      laid_three shape.sized.1 small''.2 small' small create
    obtain ⟨-, dimensions, notNull, -⟩ :=
      newEtchNativearrayFrom_fields create
    refine ⟨itemsize, dimensions, notNull, bound2, ?_, rest, rfl, rfl, ?_⟩
    · rw [List.prod_cons, List.prod_singleton, Nat.mul_assoc]
      exact unit2
    · intro values
      simp only at itemsize bound0 bound1
      rw [bound0, bound1, itemsize]
      rfl
  · simp at dimensions

end Created

/-! ## The array value of a native array -/

/-- A counted loop that appends what each of its rounds makes. -/
theorem collect {State Item : Type*} {entries : State → List Item}
    {push : State → Item → State} {body : State → Nat → Option State}
    {make : Nat → Option Item} {start : State} {count : Nat}
    (empty : entries start = [])
    (pushed : ∀ state item,
      entries (push state item) = entries state ++ [item])
    (each : ∀ state, ∀ i < count,
      body state i = (make i).map (push state)) :
    ((∀ i < count, (make i).isSome) →
        ∃ state, (List.range count).foldlM body start = some state) ∧
      ∀ state, (List.range count).foldlM body start = some state →
        (entries state).length = count ∧
          ∀ i < count, make i = (entries state)[i]? := by
  induction count with
  | zero =>
      refine ⟨fun _ => ⟨start, rfl⟩, fun state run => ?_⟩
      simp only [List.range_zero, List.foldlM_nil, pure,
        Option.some.injEq] at run
      subst run
      simp [empty]
  | succ count ih =>
      obtain ⟨total, described⟩ := ih fun state i below =>
        each state i (by omega)
      simp only [List.range_succ, List.foldlM_append, List.foldlM_cons,
        List.foldlM_nil, bind_pure]
      refine ⟨fun made => ?_, fun state run => ?_⟩
      · obtain ⟨state, run⟩ := total fun i below => made i (by omega)
        obtain ⟨item, is⟩ :=
          Option.isSome_iff_exists.mp (made count (by omega))
        refine ⟨push state item, ?_⟩
        rw [run]
        change body state count = _
        rw [each state count (by omega), is]
        rfl
      · obtain ⟨before, rounds, last⟩ := Option.bind_eq_some_iff.mp run
        rw [each before count (by omega), Option.map_eq_some_iff] at last
        obtain ⟨item, is, rfl⟩ := last
        obtain ⟨length, items⟩ := described before rounds
        refine ⟨by simp [pushed, length], fun i below => ?_⟩
        rw [pushed]
        rcases Nat.lt_succ_iff_lt_or_eq.mp below with below | rfl
        · rw [items i below, List.getElem?_append_left (by omega)]
        · rw [is, ← length, List.getElem?_append_right (by omega)]
          simp

/-- The eight types whose items are values, with the size of each. -/
def primitiveSize (objType : Nat) : Option Nat :=
  if objType = ETCHTYPEB_BYTE ∨ objType = ETCHTYPEB_BOOL ∨
      objType = ETCHTYPEB_INT8 then
    some 1
  else if objType = ETCHTYPEB_INT16 then
    some 2
  else if objType = ETCHTYPEB_INT32 ∨ objType = ETCHTYPEB_IEEE32 then
    some 4
  else if objType = ETCHTYPEB_INT64 ∨ objType = ETCHTYPEB_IEEE64 then
    some 8
  else
    none

/-- What becomes of a byte of an item when the item is wrapped. -/
def kept (objType : Nat) (byte : UInt8) : UInt8 :=
  if objType = ETCHTYPEB_BOOL then (if byte ≠ 0 then 1 else 0) else byte

theorem kept_of_ne {objType : Nat} (other : objType ≠ ETCHTYPEB_BOOL) :
    kept objType = id := by
  funext byte
  rw [kept, if_neg other, id]

theorem primitiveSize_le {objType size : Nat}
    (primitive : primitiveSize objType = some size) : size ≤ 8 := by
  unfold primitiveSize at primitive
  split_ifs at primitive <;> cases primitive <;> decide

theorem wrap_primitive (addresses : Addresses) {objType size : Nat}
    (primitive : primitiveSize objType = some size) {bytes : List UInt8}
    (length : bytes.length = size) :
    wrap addresses objType (overwrite (List.replicate 8 0) 0 bytes) =
      .primitive (bytes.map (kept objType)) := by
  have front : ∀ count ≤ 8, bytes.length = count →
      (overwrite (List.replicate 8 0) 0 bytes).take count = bytes := by
    intro count _ is
    rw [overwrite, List.take_zero, List.nil_append,
      List.take_left' is]
  unfold primitiveSize at primitive
  split_ifs at primitive with one two four eight <;> cases primitive
  · by_cases boolean : objType = ETCHTYPEB_BOOL
    · subst boolean
      obtain ⟨byte, rfl⟩ := List.length_eq_one_iff.mp length
      rfl
    · rw [kept_of_ne boolean, List.map_id]
      have first := front 1 (by decide) length
      rcases one with rfl | rfl | rfl
      · exact congrArg Element.primitive first
      · exact absurd rfl boolean
      · exact congrArg Element.primitive first
  · subst two
    rw [kept_of_ne (by decide), List.map_id]
    exact congrArg Element.primitive (front 2 (by decide) length)
  · have first := front 4 (by decide) length
    rcases four with rfl | rfl
    · rw [kept_of_ne (by decide), List.map_id]
      exact congrArg Element.primitive first
    · rw [kept_of_ne (by decide), List.map_id]
      exact congrArg Element.primitive first
  · have whole : overwrite (List.replicate 8 0) 0 bytes = bytes := by
      rw [overwrite, List.take_zero, List.nil_append,
        List.drop_eq_nil_of_le (by simp [length]), List.append_nil]
    rcases eight with rfl | rfl
    · rw [kept_of_ne (by decide), List.map_id, whole]
      rfl
    · rw [kept_of_ne (by decide), List.map_id, whole]
      rfl

/-- A component of an array of unwrapped primitives. -/
theorem getWrappedComponent_primitive (addresses : Addresses)
    {array : EtchNativearray} {size i : Nat} {out : Element}
    (numdims : array.numdims = 1)
    (inside : (i : Int) < toInt (array.dimension 0))
    (unwrapped : array.contentClassId = CLASSID_UNWRAPPED)
    (primitive : primitiveSize array.contentObjType = some size)
    (itemsize : array.itemsize = size) :
    getWrappedComponent addresses array i out =
      if array.off1 i + size ≤ array.values.length then
        some (0, .primitive
          ((window array.values (array.off1 i) (array.off1 i + size)).map
            (kept array.contentObjType)))
      else
        none := by
  have least := primitiveSize_le primitive
  rw [getWrappedComponent, if_neg (by omega), get1]
  by_cases room : array.off1 i + size ≤ array.values.length
  · have get : array.getAt (some (List.replicate 8 0)) (array.off1 i) =
        some (0, some (overwrite (List.replicate 8 0) 0
          (window array.values (array.off1 i) (array.off1 i + size)))) := by
      simp only [getAt, Nat.not_lt_zero, if_false]
      rw [if_pos ⟨by omega, by rw [List.length_replicate]; omega⟩, itemsize]
    have length : (window array.values (array.off1 i)
        (array.off1 i + size)).length = size := by
      rw [length_window room]
      omega
    rw [get, if_pos room]
    simp only
    rw [if_neg (by rw [unwrapped]; decide),
      wrap_primitive addresses primitive length]
  · have get : array.getAt (some (List.replicate 8 0)) (array.off1 i) =
        none := by
      simp only [getAt, Nat.not_lt_zero, if_false]
      rw [if_neg (by omega)]
    rw [get, if_neg room]

/-- What `newArrayvalueOf` needs of a native array. -/
structure Source (shape : Shape) (array : EtchNativearray) : Prop where
  created : Created shape array
  unwrapped : array.contentClassId = CLASSID_UNWRAPPED
  primitive : primitiveSize array.contentObjType = some shape.itemsize

/-- The list of an array of one dimension, where all reads are inside. -/
theorem populateArrayvalueFrom_eq (addresses : Addresses)
    (nat : EtchNativearray) :
    populateArrayvalueFrom addresses nat =
      (List.range (toInt (nat.dimension 0)).toNat).foldlM
        (fun (state : List Element × Element) i => do
          let got ← getWrappedComponent addresses nat i state.2
          return (state.1 ++ [got.2], got.2))
        ([], .null) >>= fun state => some state.1 := rfl

theorem populateArrayvalueFrom_primitive (addresses : Addresses)
    {shape : Shape} {array : EtchNativearray} {extent : Nat}
    (source : Source shape array) (is : shape.extents = [extent]) :
    ((∀ i < extent,
        array.off1 i + shape.itemsize ≤ array.values.length) →
      ∃ list, populateArrayvalueFrom addresses array = some list) ∧
    ∀ list, populateArrayvalueFrom addresses array = some list →
      list.length = extent ∧ ∀ i < extent,
        array.off1 i + shape.itemsize ≤ array.values.length ∧
          list[i]? = some (.primitive
            ((window array.values (array.off1 i)
                (array.off1 i + shape.itemsize)).map
              (kept array.contentObjType))) := by
  obtain ⟨itemsize, numdims, -, bound, -⟩ := source.created.single is
  let make (i : Nat) : Option Element :=
    if array.off1 i + shape.itemsize ≤ array.values.length then
      some (.primitive
        ((window array.values (array.off1 i)
            (array.off1 i + shape.itemsize)).map
          (kept array.contentObjType)))
    else
      none
  obtain ⟨total, described⟩ := @collect (List Element × Element) Element
    Prod.fst (fun state item => (state.1 ++ [item], item))
    (fun state i => do
      let got ← getWrappedComponent addresses array i state.2
      return (state.1 ++ [got.2], got.2))
    make ([], .null) extent rfl (fun _ _ => rfl)
    (by
      intro state i below
      have component := @getWrappedComponent_primitive addresses array
        shape.itemsize i state.2 numdims (by omega) source.unwrapped
        source.primitive itemsize
      simp only [make, component]
      split <;> rfl)
  rw [populateArrayvalueFrom_eq, bound, Int.toNat_natCast]
  refine ⟨fun inside => ?_, fun list run => ?_⟩
  · obtain ⟨state, run⟩ := total fun i below => by
      simp [make, inside i below]
    exact ⟨state.1, by rw [run]; rfl⟩
  · obtain ⟨state, rounds, same⟩ := Option.bind_eq_some_iff.mp run
    obtain rfl := Option.some.inj same
    obtain ⟨length, items⟩ := described state rounds
    refine ⟨length, fun i below => ?_⟩
    have item := items i below
    simp only [make] at item
    split at item
    · rename_i inside
      exact ⟨inside, item.symm⟩
    · rw [eq_comm, List.getElem?_eq_none_iff] at item
      omega

/-- The sub-array value for one round of the loop. -/
def subarray (addresses : Addresses) (depth : Nat) (array : EtchNativearray)
    (i : Nat) : Option EtchArrayvalue := do
  let newarray ← (← newEtchNativearrayFrom
    (array.values.drop
      (i * array.dimsize (Fin.ofNat 3 (depth + 1)) % 2 ^ 64))
    array.classId array.itemsize ((depth + 1 : Nat) : Int)
    (toInt (array.dimension 0)) (toInt (array.dimension 1)) 0)
  (← newArrayvalueOf addresses depth
    { newarray with
      contentClassId := array.contentClassId
      contentObjType := array.contentObjType })

/-- The list of an array of sub-arrays. -/
theorem newArrayvalueOf_succ (addresses : Addresses) {depth extent : Nat}
    {array : EtchNativearray} (notNull : array.isNull = false)
    (bound : toInt (array.dimension (Fin.ofNat 3 (depth + 1))) = extent) :
    ((∀ i < extent, (subarray addresses depth array i).isSome) →
      ∃ av, newArrayvalueOf addresses (depth + 1) array = some (some av)) ∧
    ∀ av, newArrayvalueOf addresses (depth + 1) array = some (some av) →
      av.fields.dim = array.numdims ∧ av.list.length = extent ∧
        ∀ i < extent, (subarray addresses depth array i).map
          EtchArrayvalue.element = av.list[i]? := by
  obtain ⟨total, described⟩ := @collect (List Element) Element id
    (fun list element => list ++ [element])
    (fun list i => do
      let newarray ← (← newEtchNativearrayFrom
        (array.values.drop
          (i * array.dimsize (Fin.ofNat 3 (depth + 1)) % 2 ^ 64))
        array.classId array.itemsize ((depth + 1 : Nat) : Int)
        (toInt (array.dimension 0)) (toInt (array.dimension 1)) 0)
      let subav ← (← newArrayvalueOf addresses depth
        { newarray with
          contentClassId := array.contentClassId
          contentObjType := array.contentObjType })
      return list ++ [subav.element])
    (fun i => (subarray addresses depth array i).map
      EtchArrayvalue.element)
    [] extent rfl (fun _ _ => rfl)
    (by
      intro list i _
      simp only [subarray, Option.bind_eq_bind, Option.bind_assoc,
        Option.pure_def, Function.comp_def, Option.map_eq_bind]
      rfl)
  simp only [newArrayvalueOf, notNull, bound, Int.toNat_natCast]
  refine ⟨fun made => ?_, fun av run => ?_⟩
  · obtain ⟨list, run⟩ := total fun i below => by simp [made i below]
    exact ⟨_, by
      simp only [Bool.false_eq_true, if_false]
      rw [run]
      rfl⟩
  · simp only [Bool.false_eq_true, if_false] at run
    obtain ⟨list, rounds, is⟩ := Option.bind_eq_some_iff.mp run
    simp only [pure, Option.some.injEq] at is
    subst is
    obtain ⟨length, items⟩ := described list rounds
    exact ⟨rfl, length, items⟩

theorem subarray_eq_some {addresses : Addresses} {depth i : Nat}
    {array : EtchNativearray} {sub : EtchArrayvalue} :
    subarray addresses depth array i = some sub ↔
      ∃ newarray, newEtchNativearrayFrom
          (array.values.drop
            (i * array.dimsize (Fin.ofNat 3 (depth + 1)) % 2 ^ 64))
          array.classId array.itemsize ((depth + 1 : Nat) : Int)
          (toInt (array.dimension 0)) (toInt (array.dimension 1)) 0 =
            some (some newarray) ∧
        newArrayvalueOf addresses depth
          { newarray with
            contentClassId := array.contentClassId
            contentObjType := array.contentObjType } =
            some (some sub) := by
  simp only [subarray, Option.bind_eq_bind, Option.bind_eq_some_iff]
  constructor
  · rintro ⟨_, new, newarray, rfl, _, sub, rfl⟩
    exact ⟨newarray, new, sub⟩
  · rintro ⟨newarray, new, sub⟩
    exact ⟨_, new, newarray, rfl, _, sub, rfl⟩

theorem flatMap_windows {list : List Element}
    {chunk : Element → List UInt8} {store : List UInt8} {length : Nat}
    {each : UInt8 → UInt8}
    (windows : ∀ i element, list[i]? = some element →
      chunk element =
        (window store (i * length) (i * length + length)).map each) :
    list.flatMap chunk = (store.take (list.length * length)).map each := by
  induction list using List.reverseRecOn with
  | nil => simp
  | append_singleton list element ih =>
      have before := ih fun i element is => windows i element (by
        rw [List.getElem?_append_left
          (List.getElem?_eq_some_iff.mp is).1, is])
      have last := windows list.length element (by simp)
      rw [List.flatMap_append, before, List.flatMap_singleton, last,
        ← List.map_append, ← window_zero, ← window_zero,
        window_append_window _ (Nat.zero_le _) (Nat.le_add_right _ _),
        List.length_append, List.length_singleton, Nat.add_mul,
        Nat.one_mul]

namespace Source

variable {addresses : Addresses} {shape : Shape} {array : EtchNativearray}

/-- A sub-array of a source is a source. -/
theorem sub {rest : Shape} {newarray : EtchNativearray}
    {values : List UInt8} (source : Source shape array)
    (size : rest.itemsize = shape.itemsize)
    (create : rest.create values array.classId = some (some newarray))
    (is : newarray.values = values ∧ newarray.classId = array.classId) :
    Source rest
      { newarray with
        contentClassId := array.contentClassId
        contentObjType := array.contentObjType } := by
  refine ⟨⟨newarray.contentObjType, newarray.contentClassId, ?_⟩,
    source.unwrapped, by rw [size]; exact source.primitive⟩
  obtain ⟨rfl, same⟩ := is
  change rest.create newarray.values newarray.classId =
    some (some newarray)
  rw [same, create]

/-- The array values of sources are regular. -/
theorem regular (source : Source shape array) {depth : Nat}
    (dimensions : shape.extents.length = depth + 1) {av : EtchArrayvalue}
    (run : newArrayvalueOf addresses depth array = some (some av)) :
    Regular shape.itemsize shape.extents av ∧
      av.fields.dim = depth + 1 := by
  induction depth generalizing shape array av with
  | zero =>
      obtain ⟨extent, is⟩ := List.length_eq_one_iff.mp dimensions
      obtain ⟨itemsize, numdims, notNull, -, -⟩ := source.created.single is
      have least := primitiveSize_le source.primitive
      simp only [newArrayvalueOf, notNull, Bool.false_eq_true, if_false]
        at run
      obtain ⟨list, populate, run⟩ := Option.bind_eq_some_iff.mp run
      simp only [pure, Option.some.injEq] at run
      subst run
      obtain ⟨length, items⟩ := (populateArrayvalueFrom_primitive addresses
        source is).2 list populate
      rw [is]
      refine ⟨⟨length, ?_, rfl, ?_⟩, numdims⟩
      · rw [itemsize, Nat.mod_eq_of_lt (by omega)]
      · intro element member
        obtain ⟨i, below, rfl⟩ := List.mem_iff_getElem.mp member
        obtain ⟨inside, item⟩ := items i (by rw [← length]; exact below)
        rw [List.getElem?_eq_getElem below, Option.some.injEq] at item
        refine ⟨_, item, ?_⟩
        rw [List.length_map, length_window inside]
        omega
  | succ depth ih =>
      obtain ⟨extent, extent', extents, is⟩ := exists_cons_cons dimensions
      rw [is, List.length_cons, Nat.add_right_cancel_iff] at dimensions
      obtain ⟨-, numdims, notNull, bound, -, rest, is', size, make⟩ :=
        source.created.nested is
      rw [dimensions] at numdims bound make
      obtain ⟨dim, length, items⟩ :=
        (newArrayvalueOf_succ addresses notNull bound).2 av run
      rw [is]
      refine ⟨⟨length, fun element member => ?_⟩, ?_⟩
      · obtain ⟨i, below, rfl⟩ := List.mem_iff_getElem.mp member
        have item := items i (by omega)
        rw [List.getElem?_eq_getElem below, Option.map_eq_some_iff] at item
        obtain ⟨sub, made, item⟩ := item
        obtain ⟨newarray, new, run⟩ := subarray_eq_some.mp made
        obtain ⟨fields, -⟩ := newEtchNativearrayFrom_fields new
        rw [make] at new
        have regular := (ih (source.sub size new fields)
          (by rw [is', dimensions]) run).1
        rw [is', size] at regular
        exact ⟨sub, by rw [← item]; rfl, regular⟩
      · rw [dim, numdims]
        push_cast
        rfl

/-- A source with all its bytes has an array value, of the same bytes. -/
theorem exists_arrayvalue (source : Source shape array)
    (fits : shape.bytes < 2 ^ 64)
    (room : shape.bytes ≤ array.values.length) {depth : Nat}
    (dimensions : shape.extents.length = depth + 1) :
    ∃ av, newArrayvalueOf addresses depth array = some (some av) ∧
      bytesOf depth av.list =
        (array.values.take shape.bytes).map (kept array.contentObjType) := by
  induction depth generalizing shape array with
  | zero =>
      obtain ⟨extent, is⟩ := List.length_eq_one_iff.mp dimensions
      obtain ⟨itemsize, numdims, notNull, bound, unit⟩ :=
        source.created.single is
      have bytes : shape.bytes = extent * shape.itemsize := by
        rw [Shape.bytes, is, List.prod_singleton]
      have small := (shape.positive extent (by simp [is])).2
      have offset : ∀ i < extent,
          array.off1 i = i * shape.itemsize ∧
            i * shape.itemsize + shape.itemsize ≤ shape.bytes := by
        intro i below
        have inside := @slot_inside shape.itemsize _ _ below
        rw [← bytes] at inside
        refine ⟨?_, inside⟩
        rw [off1, bound, if_neg (by omega), unit,
          toSize_natCast (by omega), Nat.mod_eq_of_lt (by omega)]
      obtain ⟨list, populate⟩ := (populateArrayvalueFrom_primitive addresses
        source is).1 fun i below => by
          rw [(offset i below).1]
          have := (offset i below).2
          omega
      obtain ⟨length, items⟩ := (populateArrayvalueFrom_primitive addresses
        source is).2 list populate
      simp only [newArrayvalueOf, notNull, Bool.false_eq_true, if_false,
        populate]
      refine ⟨_, rfl, ?_⟩
      rw [bytesOf, bytes, ← length]
      refine flatMap_windows fun i element item => ?_
      have below : i < extent := by
        rw [← length]
        exact (List.getElem?_eq_some_iff.mp item).1
      have is' := (items i below).2
      rw [item, Option.some.injEq, (offset i below).1] at is'
      rw [is']
      rfl
  | succ depth ih =>
      obtain ⟨extent, extent', extents, is⟩ := exists_cons_cons dimensions
      rw [is, List.length_cons, Nat.add_right_cancel_iff] at dimensions
      obtain ⟨-, numdims, notNull, bound, unit, rest, is', size, make⟩ :=
        source.created.nested is
      rw [dimensions] at numdims bound unit make
      have bytes : shape.bytes = extent * rest.bytes := by
        rw [Shape.bytes, Shape.bytes, is, is', size, List.prod_cons,
          Nat.mul_assoc]
      have offset : ∀ i < extent,
          i * array.dimsize (Fin.ofNat 3 (depth + 1)) % 2 ^ 64 =
              i * rest.bytes ∧
            i * rest.bytes + rest.bytes ≤ shape.bytes := by
        intro i below
        have inside := @slot_inside rest.bytes _ _ below
        rw [← bytes] at inside
        refine ⟨?_, inside⟩
        rw [unit, Nat.mul_mod_mod, ← size, ← is', ← Shape.bytes]
        exact Nat.mod_eq_of_lt (by omega)
      have made : ∀ i < extent, ∃ sub,
          subarray addresses depth array i = some sub ∧
            bytesOf depth sub.list =
              (window array.values (i * rest.bytes)
                (i * rest.bytes + rest.bytes)).map
                (kept array.contentObjType) := by
        intro i below
        obtain ⟨start, inside⟩ := offset i below
        obtain ⟨newarray, create, classId⟩ := exists_create rest
          (array.values.drop (i * rest.bytes)) array.classId
        have new := create
        rw [← make] at new
        obtain ⟨⟨values, -⟩, -⟩ := newEtchNativearrayFrom_fields new
        obtain ⟨sub, run, is⟩ := ih
          (source.sub size create ⟨values, classId⟩) (by omega)
          (by
            simp only [values, List.length_drop]
            omega)
          (by rw [is', dimensions])
        refine ⟨sub, subarray_eq_some.mpr ⟨newarray, ?_, run⟩, ?_⟩
        · rw [start, new]
        · rw [is, window_eq_take, Nat.add_sub_cancel_left]
          simp only [values]
      obtain ⟨av, run⟩ := (newArrayvalueOf_succ addresses notNull bound).1
        fun i below => by
          obtain ⟨sub, is, -⟩ := made i below
          rw [is]
          rfl
      obtain ⟨-, length, items⟩ :=
        (newArrayvalueOf_succ addresses notNull bound).2 av run
      refine ⟨av, run, ?_⟩
      rw [bytesOf, bytes, ← length]
      refine flatMap_windows fun i element item => ?_
      have below : i < extent := by
        rw [← length]
        exact (List.getElem?_eq_some_iff.mp item).1
      obtain ⟨sub, is, same⟩ := made i below
      have element_is := items i below
      rw [is, item, Option.map_some, Option.some.injEq] at element_is
      rw [← element_is, ← same]
      rfl

end Source

/-! ## Both conversions -/

theorem first_mem {av : EtchArrayvalue} (nonempty : 0 < av.list.length) :
    av.first ∈ av.list := by
  obtain ⟨element, list, is⟩ := List.exists_cons_of_length_pos nonempty
  rw [EtchArrayvalue.first, is]
  exact List.mem_cons_self

/-- The conversion of a regular array value fills an array of the shape. -/
theorem toNativearray_regular {shape : Shape} {av : EtchArrayvalue}
    {depth : Nat} (dimensions : shape.extents.length = depth + 1)
    (dim : av.fields.dim = depth + 1)
    (regular : Regular shape.itemsize shape.extents av) :
    ∃ newna, shape.Made newna ∧ newna.classId = CLASSID_UNWRAPPED ∧
      av.toNativearray =
        (convert depth [] av.list newna 0).map fun (newna, items) =>
          ⟨items.getD (-1), some newna, av.fields.natarray⟩ := by
  have positive := shape.positive
  have sized := shape.sized
  obtain ⟨array, create, classId⟩ :=
    exists_create shape [] CLASSID_UNWRAPPED
  let newna : EtchNativearray :=
    { array with values := List.replicate array.bytecount 0 }
  have made : shape.Made newna := by
    refine ⟨?_, List.length_replicate⟩
    change shape.create newna.values array.classId = _
    rw [classId]
    exact create_values create
  -- the size of the new array comes from its first items
  obtain ⟨av0, dim0count, dim1count, dim2count, innermost, size, wrapped,
      counted, new⟩ : ∃ (av0 : EtchArrayvalue) (dim0count : Nat)
        (dim1count dim2count : Int),
      av.innermost = (some av0, dim1count, dim2count) ∧
        av0.fields.contentItemSize = shape.itemsize ∧
        av0.fields.contentClassId = CLASSID_UNWRAPPED ∧
        (arrayvalueCount av0.list = dim0count ∧ 0 < dim0count) ∧
        newEtchNativearray CLASSID_UNWRAPPED shape.itemsize
          av.fields.dim dim0count dim1count dim2count =
            some (some newna) := by
    rw [Shape.create] at create
    split at create
    · rename_i dim0 extents
      obtain ⟨least, small⟩ := positive dim0 (by simp [extents])
      rw [extents] at regular dimensions
      obtain rfl : depth = 0 := by simpa using dimensions
      obtain ⟨length, size, wrapped, -⟩ := regular
      refine ⟨av, dim0, 0, 0, ?_, size, wrapped, ⟨?_, least⟩, ?_⟩
      · rw [EtchArrayvalue.innermost, if_pos (by rw [dim]; rfl)]
      · rw [arrayvalueCount, length, toInt_of_lt small]
      · rw [dim]
        exact newEtchNativearray_of_from create
    · rename_i dim1 dim0 extents
      obtain ⟨least, small⟩ := positive dim0 (by simp [extents])
      obtain ⟨least', small'⟩ := positive dim1 (by simp [extents])
      rw [extents] at regular dimensions
      obtain rfl : depth = 1 := by simpa using dimensions
      obtain ⟨length, arrays⟩ := regular
      obtain ⟨sub, is, length', size, wrapped, -⟩ :=
        arrays av.first (first_mem (by omega))
      refine ⟨sub, dim0, dim1, 0, ?_, size, wrapped, ⟨?_, least⟩, ?_⟩
      · rw [EtchArrayvalue.innermost, if_neg (by rw [dim]; decide),
          if_pos (by rw [dim]; rfl), is, arrayvalueCount, length,
          toInt_of_lt small']
      · rw [arrayvalueCount, length', toInt_of_lt small]
      · rw [dim]
        exact newEtchNativearray_of_from create
    · rename_i dim2 dim1 dim0 extents
      obtain ⟨least, small⟩ := positive dim0 (by simp [extents])
      obtain ⟨least', small'⟩ := positive dim1 (by simp [extents])
      obtain ⟨least'', small''⟩ := positive dim2 (by simp [extents])
      rw [extents] at regular dimensions
      obtain rfl : depth = 2 := by simpa using dimensions
      obtain ⟨length, arrays⟩ := regular
      obtain ⟨av2, is', length', arrays'⟩ :=
        arrays av.first (first_mem (by omega))
      obtain ⟨sub, is, length'', size, wrapped, -⟩ :=
        arrays' av2.first (first_mem (by omega))
      refine ⟨sub, dim0, dim1, dim2, ?_, size, wrapped, ⟨?_, least⟩, ?_⟩
      · rw [EtchArrayvalue.innermost, if_neg (by rw [dim]; decide),
          if_neg (by rw [dim]; decide), if_pos (by rw [dim]; rfl), is']
        simp only [is, arrayvalueCount, length, length',
          toInt_of_lt small', toInt_of_lt small'']
      · rw [arrayvalueCount, length'', toInt_of_lt small]
      · rw [dim]
        exact newEtchNativearray_of_from create
    · cases create
  refine ⟨newna, made, classId, ?_⟩
  rw [EtchArrayvalue.toNativearray, innermost]
  simp only [size, wrapped, counted.1, if_true]
  rw [if_neg (by omega), new]
  have populate := populate_eq newna dim (by
    have := shape.dimensions
    omega)
  simp only [Option.bind_eq_bind, Option.bind_some, populate]
  cases convert depth [] av.list newna 0 with
  | none => rfl
  | some result => rfl

/-- A native array of unwrapped primitives. -/
structure PrimitiveArray where
  shape : Shape
  array : EtchNativearray
  /-- The content type may be set after the array is made. -/
  made : ∃ contentObjType contentClassId,
    shape.Made { array with
      contentObjType := contentObjType
      contentClassId := contentClassId }
  unwrapped : array.contentClassId = CLASSID_UNWRAPPED
  primitive : primitiveSize array.contentObjType = some shape.itemsize

/-- Two native arrays with the same class, dimensions and contents. -/
structure SameArray (left right : EtchNativearray) : Prop where
  classId : right.classId = left.classId
  numdims : right.numdims = left.numdims
  dimension : right.dimension = left.dimension
  itemsize : right.itemsize = left.itemsize
  values : right.values = left.values

/-- The conversions there and back yield the same native array. -/
def RoundTrip (addresses : Addresses) (array : EtchNativearray) : Prop :=
  ∃ av conversion next,
    newArrayvalueFrom addresses array = some (some av) ∧
      av.toNativearray = some conversion ∧ 0 < conversion.status ∧
      conversion.natarray = some next ∧ SameArray array next

theorem values_filled {natv : EtchNativearray} {done : List UInt8}
    (length : done.length = natv.values.length) :
    (filled natv done).values = done := by
  simp only [filled, overwrite, List.take_zero, List.nil_append,
    Nat.zero_add, length, List.drop_length, List.append_nil]

theorem map_kept_eq_self_iff {objType : Nat} {values : List UInt8} :
    values.map (kept objType) = values ↔
      (objType = ETCHTYPEB_BOOL → ∀ byte ∈ values, byte = 0 ∨ byte = 1) := by
  by_cases boolean : objType = ETCHTYPEB_BOOL
  · have each : ∀ byte, kept objType byte = byte ↔ byte = 0 ∨ byte = 1 := by
      intro byte
      rw [kept, if_pos boolean]
      split <;> grind
    constructor
    · intro same _ byte member
      rw [← each]
      have mapped : values.map (kept objType) = values.map id := by
        rw [same, List.map_id]
      exact List.map_inj_left.mp mapped byte member
    · intro bits
      calc
        values.map (kept objType) = values.map id :=
          List.map_inj_left.mpr fun byte member =>
            (each byte).mpr (bits boolean byte member)
        _ = values := List.map_id values
  · simp [kept_of_ne boolean, boolean]

namespace PrimitiveArray

variable (addresses : Addresses) (primitives : PrimitiveArray)

theorem source : Source primitives.shape primitives.array := by
  obtain ⟨objType, classId, made⟩ := primitives.made
  exact ⟨⟨objType, classId, made.1⟩, primitives.unwrapped,
    primitives.primitive⟩

theorem newArrayvalueFrom_eq {depth : Nat}
    (dimensions : primitives.shape.extents.length = depth + 1) :
    newArrayvalueFrom addresses primitives.array =
      newArrayvalueOf addresses depth primitives.array := by
  have numdims : primitives.array.numdims = depth + 1 := by
    match is : primitives.shape.extents, dimensions with
    | [extent], dimensions =>
        rw [(primitives.source.created.single is).2.1]
        simp at dimensions
        omega
    | extent :: extent' :: extents, dimensions =>
        rw [(primitives.source.created.nested is).2.1]
        simp at dimensions ⊢
        omega
  have three := primitives.shape.dimensions
  rw [newArrayvalueFrom, if_neg (by omega), numdims, Int.add_sub_cancel,
    Int.toNat_natCast]

/-- With items that an `int` can count, only bytes and class may change. -/
theorem roundTrip_run
    (counted : primitives.shape.extents.prod < 2 ^ 31) :
    ∃ av next, newArrayvalueFrom addresses primitives.array =
        some (some av) ∧
      av.toNativearray = some
        ⟨primitives.shape.extents.prod, some next, av.fields.natarray⟩ ∧
      next.classId = CLASSID_UNWRAPPED ∧
      next.numdims = primitives.array.numdims ∧
      next.dimension = primitives.array.dimension ∧
      next.itemsize = primitives.array.itemsize ∧
      next.values = primitives.array.values.map
        (kept primitives.array.contentObjType) := by
  have source := primitives.source
  obtain ⟨objType, classId, made⟩ := primitives.made
  have three := primitives.shape.dimensions
  obtain ⟨depth, dimensions⟩ : ∃ depth,
      primitives.shape.extents.length = depth + 1 :=
    ⟨primitives.shape.extents.length - 1, by omega⟩
  have fits : primitives.shape.bytes < 2 ^ 64 := by
    have least := Nat.mul_le_mul_left primitives.shape.extents.prod
      (primitiveSize_le source.primitive)
    rw [Shape.bytes]
    omega
  have length : primitives.array.values.length = primitives.shape.bytes :=
    (length_values made).trans (Nat.mod_eq_of_lt fits)
  obtain ⟨av, run, bytes⟩ := @Source.exists_arrayvalue addresses _ _ source
    fits (by omega) depth dimensions
  rw [← length, List.take_length] at bytes
  obtain ⟨regular, dim⟩ := source.regular dimensions run
  obtain ⟨newna, made', classId', conversion⟩ :=
    toNativearray_regular dimensions dim regular
  have empty : filled newna [] = newna := by
    rw [filled, overwrite_nil]
  have fill := @convert_regular _ _ made' fits depth _ dimensions
    (fun extent member => (primitives.shape.positive extent member).2) []
    av [] 0 (placed_nil _) regular (by omega)
  rw [empty, List.nil_append, Int.zero_add] at fill
  rw [fill] at conversion
  obtain ⟨numdims, dimension, itemsize⟩ :=
    create_fields made.1 made'.1
  refine ⟨av, filled newna (bytesOf depth av.list), ?_, conversion,
    classId', numdims, dimension, itemsize, ?_⟩
  · rw [newArrayvalueFrom_eq _ _ dimensions, run]
  · rw [values_filled, bytes]
    rw [bytes, List.length_map, length, length_values made',
      Nat.mod_eq_of_lt fits]

/-- A round trip needs an `int` to count the items. -/
theorem counted_of_roundTrip
    (roundTrip : RoundTrip addresses primitives.array) :
    primitives.shape.extents.prod < 2 ^ 31 := by
  have three := primitives.shape.dimensions
  obtain ⟨depth, dimensions⟩ : ∃ depth,
      primitives.shape.extents.length = depth + 1 :=
    ⟨primitives.shape.extents.length - 1, by omega⟩
  obtain ⟨av, conversion, next, run, convert, success, -⟩ := roundTrip
  rw [newArrayvalueFrom_eq _ _ dimensions] at run
  obtain ⟨regular, dim⟩ := primitives.source.regular dimensions run
  obtain ⟨newna, -, -, is⟩ := toNativearray_regular dimensions dim regular
  rw [convert, eq_comm, Option.map_eq_some_iff] at is
  obtain ⟨⟨newna', items⟩, run', rfl⟩ := is
  cases items with
  | none =>
      change (0 : Int) < -1 at success
      omega
  | some items =>
      obtain ⟨counted, small⟩ := convert_items dimensions
        (fun extent member => (primitives.shape.positive extent member).2)
        regular run'
      have below := small (by decide)
      omega

theorem roundTrip_iff :
    RoundTrip addresses primitives.array ↔
      primitives.array.classId = CLASSID_UNWRAPPED ∧
        (primitives.array.contentObjType = ETCHTYPEB_BOOL →
          ∀ byte ∈ primitives.array.values, byte = 0 ∨ byte = 1) ∧
        primitives.shape.extents.prod < 2 ^ 31 := by
  rw [← map_kept_eq_self_iff]
  constructor
  · intro roundTrip
    have counted := counted_of_roundTrip addresses primitives roundTrip
    obtain ⟨av, conversion, next, run, convert, -, attached, same⟩ :=
      roundTrip
    obtain ⟨av', next', run', convert', classId, -, -, -, values⟩ :=
      roundTrip_run addresses primitives counted
    rw [run, Option.some.injEq, Option.some.injEq] at run'
    subst run'
    rw [convert, Option.some.injEq] at convert'
    subst convert'
    obtain rfl := Option.some.inj attached
    exact ⟨same.classId.symm.trans classId, values.symm.trans same.values,
      counted⟩
  · rintro ⟨unwrapped, bits, counted⟩
    obtain ⟨av, next, run, convert, classId, numdims, dimension, itemsize,
      values⟩ := roundTrip_run addresses primitives counted
    refine ⟨av, _, next, run, convert, ?_, rfl,
      ⟨classId.trans unwrapped.symm, numdims, dimension, itemsize,
        values.trans bits⟩⟩
    have positive : 0 < primitives.shape.extents.prod :=
      Nat.pos_of_ne_zero (List.prod_ne_zero fun zero =>
        Nat.lt_irrefl 0 (primitives.shape.positive 0 zero).1)
    exact Int.natCast_pos.mpr positive

end PrimitiveArray

/-! ## Array values that are not converted -/

/-- An array value of two or three dimensions, its lists as they may be. -/
structure NestedArrayvalue where
  av : EtchArrayvalue
  dimensions : av.fields.dim = 2 ∨ av.fields.dim = 3
  /-- The lists that are counted have a count that is an `int`. -/
  counts : av.list.length < 2 ^ 31 ∧
    ∀ sub, av.first.asArrayvalue = some sub →
      sub.list.length < 2 ^ 31 ∧
        ∀ sub', sub.first.asArrayvalue = some sub' →
          sub'.list.length < 2 ^ 31

/-- The conversion fails and leaves the attached native array in place. -/
def Kept (av : EtchArrayvalue) : Prop :=
  ∃ conversion, av.toNativearray = some conversion ∧
    conversion.status ≤ 0 ∧ conversion.natarray = av.fields.natarray ∧
    conversion.destroyed = none

/-- The sub-array that gives the sizes has no items, or none of a size. -/
def FirstEmpty (av : EtchArrayvalue) : Prop :=
  ∀ av0, av.innermost.1 = some av0 →
    av0.list = [] ∨ av0.fields.contentItemSize = 0

theorem pos_of_first {av sub : EtchArrayvalue}
    (is : av.first.asArrayvalue = some sub) : 0 < av.list.length := by
  rw [List.length_pos_iff]
  intro empty
  rw [EtchArrayvalue.first, empty] at is
  cases is

/-- The counts for a sub-array that gives the sizes. -/
theorem NestedArrayvalue.counted (nested : NestedArrayvalue)
    {av0 : EtchArrayvalue} {dim1count dim2count : Int}
    (innermost : nested.av.innermost = (some av0, dim1count, dim2count)) :
    av0.list.length < 2 ^ 31 ∧ 1 ≤ dim1count ∧
      (nested.av.fields.dim = 3 → 1 ≤ dim2count) := by
  obtain ⟨small, smaller⟩ := nested.counts
  rcases nested.dimensions with two | three
  · rw [EtchArrayvalue.innermost, if_neg (by omega), if_pos two]
      at innermost
    simp only [Prod.mk.injEq] at innermost
    obtain ⟨is, rfl, rfl⟩ := innermost
    have positive := pos_of_first is
    rw [arrayvalueCount, toInt_of_lt small]
    exact ⟨(smaller av0 is).1, by omega, by omega⟩
  · rw [EtchArrayvalue.innermost, if_neg (by omega), if_neg (by omega),
      if_pos three] at innermost
    split at innermost
    · simp at innermost
    · rename_i av2 is'
      simp only [Prod.mk.injEq] at innermost
      obtain ⟨is, rfl, rfl⟩ := innermost
      have positive := pos_of_first is
      have positive' := pos_of_first is'
      obtain ⟨small', smallest⟩ := smaller av2 is'
      rw [arrayvalueCount, arrayvalueCount, toInt_of_lt small,
        toInt_of_lt small']
      exact ⟨smallest av0 is, by omega, by omega⟩

/--
A conversion keeps the attached native array exactly where the first
innermost sub-array is missing or empty, whatever the other lengths are.
-/
theorem kept_iff (nested : NestedArrayvalue) :
    Kept nested.av ↔ FirstEmpty nested.av := by
  obtain ⟨⟨av0, dim1count, dim2count⟩, is⟩ :
      ∃ result, nested.av.innermost = result := ⟨_, rfl⟩
  cases av0 with
  | none =>
      refine ⟨fun _ av0 first => ?_, fun _ => ?_⟩
      · rw [is] at first
        cases first
      · refine ⟨⟨0, nested.av.fields.natarray, none⟩, ?_, Int.le_refl 0,
          rfl, rfl⟩
        rw [EtchArrayvalue.toNativearray, is]
        rfl
  | some av0 =>
      obtain ⟨small, least1, least2⟩ := nested.counted is
      have count : arrayvalueCount av0.list = av0.list.length := by
        rw [arrayvalueCount, toInt_of_lt small]
      have first : FirstEmpty nested.av ↔
          arrayvalueCount av0.list = 0 ∨
            av0.fields.contentItemSize = 0 := by
        rw [FirstEmpty, is, count]
        simp
      rw [first]
      constructor
      · rintro ⟨conversion, run, -, attached, destroyed⟩
        by_contra filled
        rw [EtchArrayvalue.toNativearray, is] at run
        simp only [if_neg filled] at run
        push Not at filled
        have dimensions := nested.dimensions
        obtain ⟨array, from_, -⟩ := @exists_newEtchNativearrayFrom []
          (if av0.fields.contentClassId = CLASSID_UNWRAPPED then
            CLASSID_UNWRAPPED
          else
            etchItemtypeToArrayclass av0.fields.contentObjType)
          av0.fields.contentItemSize nested.av.fields.dim
          (arrayvalueCount av0.list) dim1count dim2count
          (Nat.pos_of_ne_zero filled.2) (by omega) (by omega) (by
            intro three
            have := least2 (by omega)
            omega)
        rw [newEtchNativearray_of_from from_] at run
        simp only [Option.bind_eq_bind, Option.bind_some] at run
        -- from here on the old array is destroyed, the new one attached
        obtain ⟨⟨newna, items⟩, -, is'⟩ := Option.bind_eq_some_iff.mp run
        simp only [pure, Option.some.injEq] at is'
        subst is'
        have none_attached : some newna = none := attached.trans destroyed
        cases none_attached
      · intro empty
        refine ⟨⟨0, nested.av.fields.natarray, none⟩, ?_, Int.le_refl 0,
          rfl, rfl⟩
        rw [EtchArrayvalue.toNativearray, is]
        simp only [if_pos empty]
        rfl

end Etch.C
