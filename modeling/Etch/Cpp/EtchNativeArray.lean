import Etch.Cpp.Types
import Etch.Library.Descent
import Mathlib.Data.List.OfFn

/-!
# The C++ `EtchNativeArray`

An array of several dimensions is a tree of objects: an `EtchArray` holds
pointers to arrays of one dimension less, an `EtchArrayData` the elements.  A
call descends from the root, one entry of a `Pos` after the other, and every
object checks its entry by itself.  Objects may be shared, so they live in a
heap.  A result of `none` is an access outside the `new[]` of an object, of
`pos` or of the buffer of the caller, or an `int` that overflows: the program
has no defined behaviour there.
-/

namespace Etch.Cpp

open Etch.Library.Descent

/--
A `Pos`: nine entries, of which `size` are given.  The constructor leaves the
others as they were.
-/
structure Pos where
  pos : Fin 9 → Int
  size : Nat
  small : size ≤ 9

namespace Pos

def entries (pos : Pos) : List Int :=
  List.ofFn pos.pos

/-- The `Pos` of one entry, over what the stack held. -/
def single (i : Nat) (stack : Fin 8 → Int) : Pos where
  pos := Fin.cons (α := fun _ => Int) (i : Int) stack
  size := 1
  small := by decide

end Pos

variable {T : Type}

/-- The two classes below `EtchArrayBase`. -/
inductive EtchArrayBase (T : Type) where
  | etchArrayData (mData : List T)
  | etchArray (mDim : Int) (mData : List (Option Nat))

namespace EtchArrayBase

def getDim : EtchArrayBase T → Int
  | etchArrayData _ => 1
  | etchArray mDim _ => mDim

/-- `new EtchArrayData<T>(length)` or `new EtchArray<T>(length, dim)` -/
def make [Inhabited T] (length dim : Int) : EtchArrayBase T :=
  if dim = 1 then
    .etchArrayData (List.replicate length.toNat default)
  else
    .etchArray dim (List.replicate length.toNat none)

end EtchArrayBase

structure Heap (T : Type) where
  objects : Nat → EtchArrayBase T
  next : Nat

namespace Heap

def put (heap : Heap T) (address : Nat) (object : EtchArrayBase T) :
    Heap T :=
  { heap with objects := Function.update heap.objects address object }

def allocate (heap : Heap T) (object : EtchArrayBase T) : Heap T :=
  { objects := Function.update heap.objects heap.next object
    next := heap.next + 1 }

end Heap

/-- `list[position]` -/
def load {Item : Type} (list : List Item) (position : Int) : Option Item :=
  if 0 ≤ position then list[position.toNat]? else none

/-- `list[position] = item` -/
def store {Item : Type} (list : List Item) (position : Int) (item : Item) :
    Option (List Item) :=
  if 0 ≤ position ∧ position < list.length then
    some (list.set position.toNat item)
  else
    none

/-- The sum of two numbers of type `int32_t`. -/
def int32Add (left right : Int) : Option Int :=
  if -2 ^ 31 ≤ left + right ∧ left + right < 2 ^ 31 then
    some (left + right)
  else
    none

/-- The buffer of a bulk call; `dataSize` is its length unless it is `NULL`. -/
structure Bulk (T : Type) where
  data : Option (List T)
  dataSize : Int
  offset : Int
  length : Int
  sized : ∀ buffer, data = some buffer → dataSize = buffer.length

/-- The number of rounds of the copying loop at an array of some length. -/
def Bulk.count (bulk : Bulk T) (mLength : Nat) : Nat :=
  (min (mLength : Int) bulk.length).toNat

/-- What a call returns and leaves, with what it puts behind its pointers. -/
structure Outcome (T : Type) where
  status : Status
  heap : Heap T
  result : Option T := none
  data : Option (List T) := none
  count : Option Int := none
  array : Option Nat := none

/-- `return status`, with nothing changed -/
def refuse (heap : Heap T) (status : Status) : Move Nat (Outcome T) :=
  .finish { status := status, heap := heap }

/-! ## The calls at one object -/

/-- `set` of an element -/
def setElement (heap : Heap T) (pos : Pos) (data : T) (address : Nat)
    (entry : Option Int) (index : Nat) :
    Option (Move Nat (Outcome T)) :=
  match heap.objects address with
  | .etchArrayData mData =>
      if pos.size < index then
        return refuse heap .ETCH_ERANGE
      else do
        let position ← entry
        if position > mData.length ∨ pos.size ≠ index + 1 then
          return refuse heap .ETCH_ERANGE
        else
          let mData ← store mData position data
          return .finish
            { status := .ETCH_OK
              heap := heap.put address (.etchArrayData mData) }
  | .etchArray _ mData => do
      match ← load mData (← entry) with
      | some child => return .descend child
      | none => return refuse heap .ETCH_ERANGE

/-- The loop that copies, from the `offset` of the source to the `start`. -/
def copy (target source : List T) (start offset : Int) :
    Nat → Option (List T)
  | 0 => some target
  | i + 1 => do
      let target ← copy target source start offset i
      store target (start + i) (← load source (offset + i))

/-- The rounds of the loop that sets the elements of a sub-array. -/
def setEach (heap : Heap T) (child : Nat) (data : Option (List T))
    (stack : Nat → Fin 8 → Int) : Nat → Option (Heap T)
  | 0 => some heap
  | i + 1 => do
      let heap ← setEach heap child data stack i
      let item ← load (← data) i
      let pos := Pos.single i (stack i)
      -- the status is ignored
      let outcome ← run (setElement heap pos item) pos.entries 0 child
      return outcome.heap

/--
The body that the bulk calls share at an `EtchArrayData`, with what `copied`
does with the buffer, the position and the number of elements.
-/
def bulkData (heap : Heap T) (pos : Pos) (bulk : Bulk T) (mLength : Nat)
    (copied : List T → Int → Nat → Option (Outcome T)) (entry : Option Int)
    (index : Nat) : Option (Move Nat (Outcome T)) :=
  if pos.size < index then
    return refuse heap .ETCH_ERANGE
  else do
    let position ← entry
    if position > mLength ∨ pos.size ≠ index + 1 then
      return refuse heap .ETCH_ERANGE
    else if bulk.dataSize < (← int32Add bulk.offset bulk.length) then
      return refuse heap .ETCH_ERANGE
    else
      match bulk.data with
      | none => return refuse heap .ETCH_EINVAL
      | some data =>
          return .finish (← copied data position (bulk.count mLength))

/-- `set` of an array of elements -/
def setBulk (heap : Heap T) (pos : Pos) (bulk : Bulk T)
    (stack : Nat → Fin 8 → Int) (address : Nat) (entry : Option Int)
    (index : Nat) : Option (Move Nat (Outcome T)) :=
  match heap.objects address with
  | .etchArrayData mData =>
      bulkData heap pos bulk mData.length
        (fun data position count => do
          let mData ← copy mData data position bulk.offset count
          return {
            status := .ETCH_OK
            heap := heap.put address (.etchArrayData mData)
            count := some count })
        entry index
  | .etchArray _ mData =>
      if pos.size < index then
        return refuse heap .ETCH_ERANGE
      else do
        let position ← entry
        if position > mData.length then
          return refuse heap .ETCH_ERANGE
        else
          match ← load mData position with
          | none => return refuse heap .ETCH_EINVAL
          | some child =>
              if pos.size = index + 1 then
                -- behind `127` the counter of eight bits is negative
                if bulk.length > 127 then
                  none
                else
                  let heap ←
                    setEach heap child bulk.data stack bulk.length.toNat
                  return .finish { status := .ETCH_OK, heap := heap }
              else
                return .descend child

/-- `set` of a sub-array -/
def setArray (heap : Heap T) (pos : Pos) (data : Nat) (address : Nat)
    (entry : Option Int) (index : Nat) :
    Option (Move Nat (Outcome T)) :=
  match heap.objects address with
  | .etchArrayData _ => return refuse heap .ETCH_ERANGE
  | .etchArray mDim mData =>
      if pos.size < index then
        return refuse heap .ETCH_ERANGE
      else do
        let position ← entry
        if position > mData.length then
          return refuse heap .ETCH_ERANGE
        else if pos.size = index + 1 then
          if mDim - 1 = (heap.objects data).getDim then
            let mData ← store mData position (some data)
            return .finish
              { status := .ETCH_OK
                heap := heap.put address (.etchArray mDim mData) }
          else
            return refuse heap .ETCH_ERANGE
        else
          -- a `NULL` is dereferenced
          return .descend (← (← load mData position))

/-- The body that the calls which get elements share at an `EtchArray`. -/
def getFromArray (heap : Heap T) (pos : Pos) (mData : List (Option Nat))
    (entry : Option Int) (index : Nat) :
    Option (Move Nat (Outcome T)) :=
  if pos.size < index then
    return refuse heap .ETCH_ERANGE
  else do
    let position ← entry
    if position > mData.length then
      return refuse heap .ETCH_ERANGE
    else
      match ← load mData position with
      | some child => return .descend child
      | none => return refuse heap .ETCH_EINVAL

/-- `get` of an element, with whether `result` is not `NULL` -/
def getElement (heap : Heap T) (pos : Pos) (result : Bool) (address : Nat)
    (entry : Option Int) (index : Nat) :
    Option (Move Nat (Outcome T)) :=
  match heap.objects address with
  | .etchArrayData mData =>
      if pos.size < index ∨ pos.size ≠ index + 1 then
        return refuse heap .ETCH_ERANGE
      else do
        let position ← entry
        if position > mData.length then
          return refuse heap .ETCH_ERANGE
        else if result then
          let value ← load mData position
          return .finish
            { status := .ETCH_OK, heap := heap, result := some value }
        else
          return refuse heap .ETCH_EINVAL
  | .etchArray _ mData => getFromArray heap pos mData entry index

/-- `get` of an array of elements -/
def getBulk (heap : Heap T) (pos : Pos) (bulk : Bulk T) (address : Nat)
    (entry : Option Int) (index : Nat) :
    Option (Move Nat (Outcome T)) :=
  match heap.objects address with
  | .etchArrayData mData =>
      bulkData heap pos bulk mData.length
        (fun data position count => do
          let data ← copy data mData bulk.offset position count
          return {
            status := .ETCH_OK
            heap := heap
            data := some data
            count := some count })
        entry index
  | .etchArray _ mData => getFromArray heap pos mData entry index

/-- `get` of a sub-array -/
def getArray (heap : Heap T) (pos : Pos) (address : Nat)
    (entry : Option Int) (index : Nat) :
    Option (Move Nat (Outcome T)) :=
  match heap.objects address with
  | .etchArrayData _ => return refuse heap .ETCH_ERANGE
  | .etchArray _ mData =>
      if pos.size < index then
        return refuse heap .ETCH_ERANGE
      else do
        let position ← entry
        if position > mData.length then
          return refuse heap .ETCH_ERANGE
        else
          match ← load mData position with
          | none => return refuse heap .ETCH_ERANGE
          | some child =>
              if pos.size = index + 1 then
                return .finish
                  { status := .ETCH_OK, heap := heap, array := some child }
              else
                return .descend child

/-- `createArray`, with the `dim` of the call at the root -/
def createArray [Inhabited T] (heap : Heap T) (pos : Pos) (length dim : Int)
    (address : Nat) (entry : Option Int) (index : Nat) :
    Option (Move Nat (Outcome T)) :=
  let dim := dim - index
  match heap.objects address with
  | .etchArrayData _ => return refuse heap .ETCH_ERANGE
  | .etchArray mDim mData => do
      let position ← entry
      match ← load mData position with
      | none =>
          if dim = 1 ∨ pos.size = index + 1 then
            -- no `new[]` of a negative length
            if length < 0 then
              none
            else
              let mData ← store mData position (some heap.next)
              return .finish
                { status := .ETCH_OK
                  heap := (heap.allocate (.make length dim)).put address
                    (.etchArray mDim mData) }
          else
            return .finish { status := .ETCH_OK, heap := heap }
      | some child =>
          if dim = 1 ∨ pos.size = index + 1 then
            return refuse heap .ETCH_ERANGE
          else
            return .descend child

/-! ## The calls of an `EtchNativeArray` -/

/-- The calls with their arguments beside the `Pos`. -/
inductive Call (T : Type) where
  | setElement (data : T)
  | setBulk (bulk : Bulk T) (stack : Nat → Fin 8 → Int)
  | setArray (data : Nat)
  | getElement (result : Bool)
  | getBulk (bulk : Bulk T)
  | getArray
  | createArray (length : Int)

namespace Call

/-- What a call does at an object below the root. -/
def level [Inhabited T] (heap : Heap T) (root : Nat) (pos : Pos) :
    Call T → Nat → Option Int → Nat → Option (Move Nat (Outcome T))
  | setElement data => Cpp.setElement heap pos data
  | setBulk bulk stack => Cpp.setBulk heap pos bulk stack
  | setArray data => Cpp.setArray heap pos data
  | getElement result => Cpp.getElement heap pos result
  | getBulk bulk => Cpp.getBulk heap pos bulk
  | getArray => Cpp.getArray heap pos
  | createArray length =>
      Cpp.createArray heap pos length ((heap.objects root).getDim - 1)

/-- The call at `mData` of an `EtchNativeArray`. -/
def outcome [Inhabited T] (heap : Heap T) (root : Nat) (pos : Pos)
    (call : Call T) : Option (Outcome T) :=
  run (call.level heap root pos) pos.entries 0 root

end Call

end Etch.Cpp
