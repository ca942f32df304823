import Etch.Cpp.EtchNativeArray
import Etch.Library.Window

/-!
# In-bounds access of an `EtchNativeArray`

The entries of a `Pos` lead from the root to an object as long as each of them
lies inside an array and finds a child there.  A call meets its purpose if it
is refused with nothing changed, or reads or writes exactly what its position
addresses.  Whether it does is decided at the objects that the entries lead
to: most checks let the entry behind the end pass, and none looks for a
negative one.
-/

namespace Etch.Cpp

open Etch.Library.Descent
open Etch.Library.Window

variable {T : Type}

/-! ## Positions -/

/-- The child of an array at an entry that lies inside. -/
def Heap.step (heap : Heap T) (address : Nat) (entry : Int) : Option Nat :=
  match heap.objects address with
  | .etchArrayData _ => none
  | .etchArray _ mData => (load mData entry).join

/-- The object that the first entries lead to. -/
def Leads (heap : Heap T) (root : Nat) (pos : Pos) (index object : Nat) :
    Prop :=
  Reached heap.step root pos.entries index object

/-- The position is that of an element. -/
structure ElementAt (heap : Heap T) (root : Nat) (pos : Pos) (object : Nat)
    (mData : List T) (position : Int) : Prop where
  leads : ∃ index, pos.size = index + 1 ∧ Leads heap root pos index object ∧
    pos.entries[index]? = some position
  data : heap.objects object = .etchArrayData mData
  inside : 0 ≤ position ∧ position < mData.length

/-- The position is that of a sub-array, which may be missing. -/
structure SlotAt (heap : Heap T) (root : Nat) (pos : Pos) (object : Nat)
    (mDim : Int) (mData : List (Option Nat)) (position : Int) : Prop where
  leads : ∃ index, pos.size = index + 1 ∧ Leads heap root pos index object ∧
    pos.entries[index]? = some position
  array : heap.objects object = .etchArray mDim mData
  inside : 0 ≤ position ∧ position < mData.length

/-- `result` is `target` with as many items of `source` from `start` on. -/
def Copied (target source result : List T) (start offset : Int)
    (count : Nat) : Prop :=
  (count = 0 ∧ result = target) ∨
    (0 ≤ start ∧ start + count ≤ target.length) ∧
      (0 ≤ offset ∧ offset + count ≤ source.length) ∧
      result = overwrite target start.toNat
        (window source offset.toNat (offset.toNat + count))

/-! ## What the calls are for -/

namespace Call

/-- What a call with the status `ETCH_OK` reads or writes. -/
def Effect [Inhabited T] (heap : Heap T) (root : Nat) (pos : Pos)
    (outcome : Outcome T) : Call T → Prop
  | setElement data =>
      ∃ object mData position,
        ElementAt heap root pos object mData position ∧
          outcome.heap = heap.put object
            (.etchArrayData (mData.set position.toNat data))
  | setBulk bulk _ =>
      (∃ object mData position buffer result,
        ElementAt heap root pos object mData position ∧
          bulk.data = some buffer ∧
          Copied mData buffer result position bulk.offset
            (bulk.count mData.length) ∧
          outcome.heap = heap.put object (.etchArrayData result)) ∨
        ∃ object, 0 < pos.size ∧ Leads heap root pos pos.size object ∧
          ((bulk.length ≤ 0 ∧ outcome.heap = heap) ∨
            ∃ mData buffer result,
              heap.objects object = .etchArrayData mData ∧
                bulk.data = some buffer ∧
                Copied mData buffer result 0 bulk.offset
                  bulk.length.toNat ∧
                outcome.heap = heap.put object (.etchArrayData result))
  | setArray data =>
      ∃ object mDim mData position,
        SlotAt heap root pos object mDim mData position ∧
          outcome.heap = heap.put object
            (.etchArray mDim (mData.set position.toNat (some data)))
  | getElement _ =>
      outcome.heap = heap ∧ ∃ object mData position,
        ElementAt heap root pos object mData position ∧
          outcome.result = mData[position.toNat]?
  | getBulk bulk =>
      outcome.heap = heap ∧ ∃ object mData position buffer result,
        ElementAt heap root pos object mData position ∧
          bulk.data = some buffer ∧
          Copied buffer mData result bulk.offset position
            (bulk.count mData.length) ∧
          outcome.data = some result
  | getArray =>
      outcome.heap = heap ∧ ∃ object mDim mData position child,
        SlotAt heap root pos object mDim mData position ∧
          mData[position.toNat]? = some (some child) ∧
          outcome.array = some child
  | createArray length =>
      ∃ object mDim mData position,
        SlotAt heap root pos object mDim mData position ∧
          mData[position.toNat]? = some none ∧
          outcome.heap =
            (heap.allocate
              (.make length ((heap.objects root).getDim - pos.size))).put
              object
              (.etchArray mDim
                (mData.set position.toNat (some heap.next)))

/-- A call is refused, or does to what it addresses what it is for. -/
def Meets [Inhabited T] (heap : Heap T) (root : Nat) (pos : Pos)
    (call : Call T) (outcome : Outcome T) : Prop :=
  (outcome.status ≠ .ETCH_OK ∧ outcome.heap = heap ∧
      outcome.result = none ∧ outcome.data = none ∧ outcome.array = none) ∨
    outcome.status = .ETCH_OK ∧ call.Effect heap root pos outcome

end Call

/-! ## What the calls need -/

/-- An entry that lies inside an array. -/
def Inside (length : Nat) (entry : Option Int) : Prop :=
  ∃ position, entry = some position ∧ 0 ≤ position ∧ position < length

/-- An entry that a check of the range refuses. -/
def Refused (length : Nat) (entry : Option Int) : Prop :=
  ∃ position, entry = some position ∧ (length : Int) < position

namespace Bulk

/-- The sum of the offset and the length is an `int`. -/
def Summable (bulk : Bulk T) : Prop :=
  -2 ^ 31 ≤ bulk.offset + bulk.length ∧ bulk.offset + bulk.length < 2 ^ 31

/-- The elements that are copied lie inside the array and the buffer. -/
def Fits (bulk : Bulk T) (length : Nat) (entry : Option Int) : Prop :=
  ∃ position, entry = some position ∧
    (bulk.count length = 0 ∨
      position + bulk.count length ≤ length ∧ 0 ≤ bulk.offset)

/-- The buffer has the same elements at its start and at the offset. -/
def Aligned (bulk : Bulk T) : Prop :=
  ∃ buffer, bulk.data = some buffer ∧ 0 ≤ bulk.offset ∧
    bulk.offset + bulk.length ≤ buffer.length ∧
    buffer.take bulk.length.toNat =
      window buffer bulk.offset.toNat
        (bulk.offset.toNat + bulk.length.toNat)

end Bulk

namespace Call

/-- A call that has come along `index` entries takes one more. -/
def Passes (heap : Heap T) (root : Nat) (pos : Pos) (index : Nat) :
    Call T → Prop
  | setElement _ => True
  | getElement _ | getBulk _ => index ≤ pos.size
  | setBulk _ _ | setArray _ | getArray =>
      index ≤ pos.size ∧ pos.size ≠ index + 1
  | createArray _ =>
      (heap.objects root).getDim - 1 - index ≠ 1 ∧ pos.size ≠ index + 1

/-- What a call needs of an object and the entry for it. -/
def Needs (heap : Heap T) (pos : Pos) (index : Nat) (entry : Option Int) :
    Call T → EtchArrayBase T → Prop
  | setElement _, .etchArrayData mData =>
      pos.size < index ∨ entry.isSome ∧
        (pos.size = index + 1 →
          Refused mData.length entry ∨ Inside mData.length entry)
  | setElement _, .etchArray _ mData => Inside mData.length entry
  | setBulk bulk _, .etchArrayData mData
  | getBulk bulk, .etchArrayData mData =>
      pos.size < index ∨ entry.isSome ∧
        (Refused mData.length entry ∨ pos.size ≠ index + 1 ∨
          bulk.Summable ∧
            (bulk.dataSize < bulk.offset + bulk.length ∨
              bulk.data = none ∨
              Inside mData.length entry ∧ bulk.Fits mData.length entry))
  | setBulk bulk _, .etchArray _ mData =>
      pos.size < index ∨ Refused mData.length entry ∨
        Inside mData.length entry ∧
          (pos.size = index + 1 → ∀ position child,
            entry = some position →
            mData[position.toNat]? = some (some child) →
              bulk.length ≤ 0 ∨
                bulk.length ≤ 127 ∧ bulk.Aligned ∧ ∃ elements,
                  heap.objects child = .etchArrayData elements ∧
                    bulk.length ≤ elements.length)
  | setArray _, .etchArrayData _ => True
  | setArray data, .etchArray mDim mData =>
      pos.size < index ∨ Refused mData.length entry ∨
        (if pos.size = index + 1 then
          mDim - 1 ≠ (heap.objects data).getDim ∧ entry.isSome ∨
            Inside mData.length entry
        else
          ∃ position child, entry = some position ∧ 0 ≤ position ∧
            mData[position.toNat]? = some (some child))
  | getElement result, .etchArrayData mData =>
      pos.size ≠ index + 1 ∨ Refused mData.length entry ∨
        entry.isSome ∧ result = false ∨ Inside mData.length entry
  | getElement _, .etchArray _ mData
  | getBulk _, .etchArray _ mData
  | getArray, .etchArray _ mData =>
      pos.size < index ∨ Refused mData.length entry ∨
        Inside mData.length entry
  | getArray, .etchArrayData _ => True
  | createArray _, .etchArrayData _ => True
  | createArray length, .etchArray _ mData =>
      Inside mData.length entry ∧
        ∀ position, entry = some position →
          mData[position.toNat]? = some none →
            pos.size = index + 1 ∧ 0 ≤ length

end Call

/-! ## Single accesses -/

theorem load_eq_some_iff {Item : Type} {list : List Item} {position : Int}
    {item : Item} :
    load list position = some item ↔
      0 ≤ position ∧ list[position.toNat]? = some item := by
  unfold load
  split <;> simp_all

theorem load_eq_none_iff {Item : Type} {list : List Item} {position : Int} :
    load list position = none ↔
      ¬ (0 ≤ position ∧ position < list.length) := by
  unfold load
  split
  · rw [List.getElem?_eq_none_iff]
    omega
  · grind

theorem inside_of_load {Item : Type} {list : List Item} {position : Int}
    {item : Item} (loaded : load list position = some item) :
    0 ≤ position ∧ position < list.length := by
  obtain ⟨low, is⟩ := load_eq_some_iff.mp loaded
  have high := (List.getElem?_eq_some_iff.mp is).1
  omega

theorem store_inside {Item : Type} {list : List Item} {position : Int}
    (inside : 0 ≤ position ∧ position < list.length) (item : Item) :
    store list position item = some (list.set position.toNat item) :=
  if_pos inside

theorem store_outside {Item : Type} {list : List Item} {position : Int}
    (outside : ¬ (0 ≤ position ∧ position < list.length)) (item : Item) :
    store list position item = none :=
  if_neg outside





section Descents

variable {heap : Heap T} {pos : Pos} {address index child : Nat}
  {entry : Option Int}

theorem setElement_descend_iff {data : T} :
    setElement heap pos data address entry index = some (.descend child) ↔
      ∃ key, entry = some key ∧ heap.step address key = some child := by
  cases is : heap.objects address with
  | etchArrayData mData =>
      cases entry with
      | none => simp [setElement, Heap.step, is, refuse]
      | some position =>
          simp only [setElement, Heap.step, is, refuse,
            Option.bind_eq_bind, Option.bind_some, Option.pure_def]
          cases store mData position data <;> grind
  | etchArray mDim mData =>
      cases entry with
      | none => simp [setElement, Heap.step, is, refuse]
      | some position =>
          rcases loaded : load mData position with _ | _ | other <;>
            simp [setElement, Heap.step, is, refuse, loaded]

theorem not_bulkData_descend {bulk : Bulk T} {mLength : Nat}
    {copied : List T → Int → Nat → Option (Outcome T)} :
    bulkData heap pos bulk mLength copied entry index ≠
      some (.descend child) := by
  cases entry with
  | none => simp [bulkData, refuse]
  | some position =>
      simp only [bulkData, refuse, Option.bind_eq_bind, Option.bind_some,
        Option.pure_def]
      cases int32Add bulk.offset bulk.length with
      | none => grind
      | some total =>
          cases bulk.data with
          | none => grind
          | some buffer =>
              simp only [Option.bind_some]
              cases copied buffer position (bulk.count mLength) <;> grind

theorem getFromArray_descend_iff {mDim : Int} {mData : List (Option Nat)}
    (is : heap.objects address = .etchArray mDim mData) :
    getFromArray heap pos mData entry index = some (.descend child) ↔
      ∃ key, entry = some key ∧ heap.step address key = some child ∧
        index ≤ pos.size := by
  cases entry with
  | none => simp [getFromArray, refuse]
  | some position =>
      simp only [getFromArray, Heap.step, is, refuse,
        Option.bind_eq_bind, Option.bind_some, Option.pure_def]
      rcases loaded : load mData position with _ | _ | other
      · grind
      · grind
      · have below := (inside_of_load loaded).2
        grind

theorem getElement_descend_iff {result : Bool} :
    getElement heap pos result address entry index =
        some (.descend child) ↔
      ∃ key, entry = some key ∧ heap.step address key = some child ∧
        index ≤ pos.size := by
  cases is : heap.objects address with
  | etchArrayData mData =>
      cases entry with
      | none => simp [getElement, Heap.step, is, refuse]
      | some position =>
          simp only [getElement, Heap.step, is, refuse,
            Option.bind_eq_bind, Option.bind_some, Option.pure_def]
          cases load mData position <;> grind
  | etchArray mDim mData =>
      rw [← getFromArray_descend_iff is]
      simp only [getElement, is]

theorem getBulk_descend_iff {bulk : Bulk T} :
    getBulk heap pos bulk address entry index = some (.descend child) ↔
      ∃ key, entry = some key ∧ heap.step address key = some child ∧
        index ≤ pos.size := by
  cases is : heap.objects address with
  | etchArrayData mData =>
      simp [getBulk, Heap.step, is, not_bulkData_descend]
  | etchArray mDim mData =>
      rw [← getFromArray_descend_iff is]
      simp only [getBulk, is]

theorem setBulk_descend_iff {bulk : Bulk T} {stack : Nat → Fin 8 → Int} :
    setBulk heap pos bulk stack address entry index =
        some (.descend child) ↔
      ∃ key, entry = some key ∧ heap.step address key = some child ∧
        index ≤ pos.size ∧ pos.size ≠ index + 1 := by
  cases is : heap.objects address with
  | etchArrayData mData =>
      simp [setBulk, Heap.step, is, not_bulkData_descend]
  | etchArray mDim mData =>
      cases entry with
      | none => simp [setBulk, Heap.step, is, refuse]
      | some position =>
          simp only [setBulk, Heap.step, is, refuse,
            Option.bind_eq_bind, Option.bind_some, Option.pure_def]
          rcases loaded : load mData position with _ | _ | other
          · grind
          · grind
          · have below := (inside_of_load loaded).2
            simp only [Option.bind_some]
            cases setEach heap other bulk.data stack bulk.length.toNat <;>
              grind

theorem setArray_descend_iff {data : Nat} :
    setArray heap pos data address entry index = some (.descend child) ↔
      ∃ key, entry = some key ∧ heap.step address key = some child ∧
        index ≤ pos.size ∧ pos.size ≠ index + 1 := by
  cases is : heap.objects address with
  | etchArrayData mData => simp [setArray, Heap.step, is, refuse]
  | etchArray mDim mData =>
      cases entry with
      | none => simp [setArray, Heap.step, is, refuse]
      | some position =>
          simp only [setArray, Heap.step, is, refuse,
            Option.bind_eq_bind, Option.bind_some, Option.pure_def]
          rcases loaded : load mData position with _ | _ | other
          · cases store mData position (some data) <;> grind
          · cases store mData position (some data) <;> grind
          · have below := (inside_of_load loaded).2
            cases store mData position (some data) <;> grind

theorem getArray_descend_iff :
    getArray heap pos address entry index = some (.descend child) ↔
      ∃ key, entry = some key ∧ heap.step address key = some child ∧
        index ≤ pos.size ∧ pos.size ≠ index + 1 := by
  cases is : heap.objects address with
  | etchArrayData mData => simp [getArray, Heap.step, is, refuse]
  | etchArray mDim mData =>
      cases entry with
      | none => simp [getArray, Heap.step, is, refuse]
      | some position =>
          simp only [getArray, Heap.step, is, refuse,
            Option.bind_eq_bind, Option.bind_some, Option.pure_def]
          rcases loaded : load mData position with _ | _ | other
          · grind
          · grind
          · have below := (inside_of_load loaded).2
            grind

theorem createArray_descend_iff [Inhabited T] {length dim : Int} :
    createArray heap pos length dim address entry index =
        some (.descend child) ↔
      ∃ key, entry = some key ∧ heap.step address key = some child ∧
        dim - index ≠ 1 ∧ pos.size ≠ index + 1 := by
  cases is : heap.objects address with
  | etchArrayData mData => simp [createArray, Heap.step, is, refuse]
  | etchArray mDim mData =>
      cases entry with
      | none => simp [createArray, Heap.step, is]
      | some position =>
          simp only [createArray, Heap.step, is, refuse,
            Option.bind_eq_bind, Option.bind_some, Option.pure_def]
          rcases loaded : load mData position with _ | _ | other
          · grind
          · simp only [Option.bind_some]
            cases store mData position (some heap.next) <;> grind
          · grind

end Descents

/-- How the calls go on: along a step, if they pass. -/
theorem Call.level_descend_iff [Inhabited T] {heap : Heap T}
    {root address index child : Nat} {pos : Pos} {call : Call T}
    {entry : Option Int} :
    call.level heap root pos address entry index = some (.descend child) ↔
      ∃ key, entry = some key ∧ heap.step address key = some child ∧
        call.Passes heap root pos index := by
  cases call with
  | setElement data =>
      simp only [Passes, and_true]
      exact setElement_descend_iff
  | setBulk bulk stack => exact setBulk_descend_iff
  | setArray data => exact setArray_descend_iff
  | getElement result => exact getElement_descend_iff
  | getBulk bulk => exact getBulk_descend_iff
  | getArray => exact getArray_descend_iff
  | createArray length => exact createArray_descend_iff

end Etch.Cpp
