import Etch.Library.Linked

/-!
# The C `etch_linked_list`

The nodes are in a memory, where `etch_malloc` gives an address that is not in
use.  A call without an outcome has used a node that is not there, has gone on
where the language leaves undefined what happens, or has been cut off.
-/

namespace Etch.C

open Etch.Library.Loop
open Etch.Library.Linked

/-- The `etch_status_t` values that are returned. -/
inductive EtchStatus where
  | ETCH_SUCCESS
  | ETCH_ERROR
  | ETCH_EINVAL
  | ETCH_EOUTOFBOUNDS
deriving DecidableEq

/-- `ETCH_EINVAL` as a number -/
def EINVAL : Int32 := 2

/-- An `etch_linked_list_t` and the memory of its nodes. -/
structure EtchLinkedList (D : Type) where
  nodes : Nat → Option (Node Nat D)
  count : UInt32
  head : Option Nat
  tail : Option Nat

namespace EtchLinkedList

variable {D : Type}

/-- What a call returns; data that is found is that of the node. -/
inductive Result (D : Type) where
  | status (rv : EtchStatus)
  | got (rv : EtchStatus) (data : Option D)
  | index (index : Int32)
  | found (found : Bool)
deriving DecidableEq

/-- `etch_linked_list_create` -/
def create : EtchLinkedList D :=
  ⟨fun _ => none, 0, none, none⟩

/-- `etch_linked_list_add`; `data` is not `NULL`. -/
def add (list : EtchLinkedList D) (newnode : Nat) (data : D) :
    Option (EtchLinkedList D) := do
  let nodes := Function.update list.nodes newnode (some ⟨data, none⟩)
  match list.head with
  | none => return ⟨nodes, list.count + 1, some newnode, some newnode⟩
  | some head => do
      let tail ← list.tail
      let node ← nodes tail
      return ⟨Function.update nodes tail
          (some { node with next := some newnode }),
        list.count + 1, some head, some newnode⟩

/-- `(uint32) index >= list->count || index < 0` -/
def isOutside (list : EtchLinkedList D) (index : Int32) : Bool :=
  list.count ≤ index.toUInt32 || index < 0

/-- A pass of the loop in `etch_linked_list_insert`, which is left with the
list or, behind the last node, without one. -/
def insertPass (list : EtchLinkedList D) (index : Int32) (newnode : Nat)
    (data : D) : Option Nat × UInt32 →
      Pass (Option Nat × UInt32) (Option (EtchLinkedList D))
  | (none, _) => .leave none
  | (some node, i) =>
      if index = 0 then
        .leave (some { list with
          nodes := Function.update list.nodes newnode
            (some ⟨data, list.head⟩)
          head := some newnode })
      else
        match list.nodes node with
        | none => .leave none
        | some there =>
            if (index - 1).toUInt32 = i then
              .leave (some { list with
                nodes := Function.update
                  (Function.update list.nodes newnode
                    (some ⟨data, there.next⟩))
                  node (some { there with next := some newnode }) })
            else
              .again (there.next, i + 1)

def insert (rounds : Nat) (list : EtchLinkedList D) (newnode : Nat)
    (index : Int32) (data : D) :
    Option (EtchStatus × EtchLinkedList D) := do
  if list.isOutside index then
    return (.ETCH_EOUTOFBOUNDS, list)
  else if list.head.isNone then do
    let next ← list.add newnode data
    return (.ETCH_SUCCESS, next)
  else do
    let left ← run (list.insertPass index newnode data) rounds
      (list.head, 0)
    -- the assertion is that there is a list
    let next ← left
    return (.ETCH_SUCCESS, { next with count := next.count + 1 })

/-- A pass of the loop in `etch_linked_list_get`. -/
def getPass (list : EtchLinkedList D) (index : Int32) :
    Option Nat × UInt32 →
      Pass (Option Nat × UInt32) (Option (Option D))
  | (none, _) => .leave (some none)
  | (some node, i) =>
      match list.nodes node with
      | none => .leave none
      | some there =>
          if index.toUInt32 = i then
            .leave (some (some there.data))
          else
            .again (there.next, i + 1)

def get (rounds : Nat) (list : EtchLinkedList D) (index : Int32) :
    Option (EtchStatus × Option D) := do
  if list.isOutside index then
    return (.ETCH_EINVAL, none)
  else do
    let left ← run (list.getPass index) rounds (list.head, 0)
    let data ← left
    return (.ETCH_SUCCESS, data)

/-- A pass of the loop in `etch_linked_list_index_of`; the sum that does not
fit in an `int32` is undefined. -/
def indexOfPass [DecidableEq D] (list : EtchLinkedList D) (data : D) :
    Option Nat × Int32 → Pass (Option Nat × Int32) (Option Int32)
  | (none, _) => .leave (some (-1))
  | (some node, i) =>
      match list.nodes node with
      | none => .leave none
      | some there =>
          if there.data = data then
            .leave (some i)
          else if i = Int32.maxValue then
            .leave none
          else
            .again (there.next, i + 1)

/-- `etch_linked_list_index_of`; no data is `NULL`. -/
def indexOf [DecidableEq D] (rounds : Nat) (list : EtchLinkedList D)
    (data : Option D) : Option Int32 := do
  match data with
  | none => return EINVAL
  | some data => (← run (list.indexOfPass data) rounds (list.head, 0))

/-- A pass of the loop in `etch_linked_list_contains`. -/
def containsPass [DecidableEq D] (list : EtchLinkedList D) (data : D) :
    Option Nat × Unit → Pass (Option Nat × Unit) (Option Bool)
  | (none, _) => .leave (some false)
  | (some node, _) =>
      match list.nodes node with
      | none => .leave none
      | some there =>
          if there.data = data then
            .leave (some true)
          else
            .again (there.next, ())

def contains [DecidableEq D] (rounds : Nat) (list : EtchLinkedList D)
    (data : Option D) : Option Bool := do
  match data with
  | none => return false
  | some data => (← run (list.containsPass data) rounds (list.head, ()))

/-- A pass of the loop in `etch_linked_list_remove_at`, which is left with the
node that is removed and the list without it. -/
def removePass (list : EtchLinkedList D) (index : Int32) :
    Option Nat × UInt32 →
      Pass (Option Nat × UInt32) (Option (Nat × EtchLinkedList D))
  | (none, _) => .leave none
  | (some node, i) =>
      match list.nodes node with
      | none => .leave none
      | some there =>
          if index = 0 then
            .leave (some (node, { list with head := there.next }))
          else if (index - 1).toUInt32 = i ∧
              index.toUInt32 = list.count - 1 then
            .leave (there.next.map fun rmnode => (rmnode,
              { list with
                nodes := Function.update list.nodes node
                  (some { there with next := none })
                tail := some node }))
          else if (index - 1).toUInt32 = i then
            .leave (there.next.bind fun rmnode =>
              (list.nodes rmnode).map fun removed => (rmnode,
                { list with
                  nodes := Function.update list.nodes node
                    (some { there with next := removed.next }) }))
          else
            .again (there.next, i + 1)

def removeAt (rounds : Nat) (list : EtchLinkedList D) (index : Int32) :
    Option (EtchStatus × EtchLinkedList D) := do
  if list.isOutside index then
    return (.ETCH_EOUTOFBOUNDS, list)
  else if list.count = 1 then do
    let head ← list.head
    let _ ← list.nodes head
    return (.ETCH_SUCCESS,
      ⟨Function.update list.nodes head none, 0, none, none⟩)
  else do
    let left ← run (list.removePass index) rounds (list.head, 0)
    let (rmnode, next) ← left
    return (.ETCH_SUCCESS,
      { next with
        nodes := Function.update next.nodes rmnode none
        count := next.count - 1 })

/-- `etch_linked_list_remove` -/
def remove [DecidableEq D] (rounds : Nat) (list : EtchLinkedList D)
    (data : Option D) : Option (EtchStatus × EtchLinkedList D) := do
  match data with
  | none => return (.ETCH_EINVAL, list)
  | some data => do
      let index ← list.indexOf rounds (some data)
      list.removeAt rounds index

/-- A pass of the loop in `etch_linked_list_clear`, which frees the node. -/
def clearPass : Option Nat × (Nat → Option (Node Nat D)) →
    Pass (Option Nat × (Nat → Option (Node Nat D)))
      (Option (Nat → Option (Node Nat D)))
  | (none, nodes) => .leave (some nodes)
  | (some temp, nodes) =>
      match nodes temp with
      | none => .leave none
      | some there => .again (there.next, Function.update nodes temp none)

def clear (rounds : Nat) (list : EtchLinkedList D) :
    Option (EtchStatus × EtchLinkedList D) := do
  let left ← run clearPass rounds (list.head, list.nodes)
  let nodes ← left
  return (.ETCH_SUCCESS, ⟨nodes, 0, none, none⟩)

/-! ## Calls -/

/-- A call of the list; no data is `NULL`. -/
inductive Call (D : Type) where
  | add (data : Option D)
  | insert (index : Int32) (data : Option D)
  | removeAt (index : Int32)
  | remove (data : Option D)
  | clear
  | get (index : Int32)
  | indexOf (data : Option D)
  | contains (data : Option D)

/-- What a call returns, and the list afterwards; `newnode` is where a node is
made if one is. -/
def perform [DecidableEq D] (rounds : Nat) (newnode : Nat)
    (list : EtchLinkedList D) :
    Call D → Option (Result D × EtchLinkedList D)
  | .add none => some (.status .ETCH_EINVAL, list)
  | .add (some data) => do
      let next ← list.add newnode data
      return (.status .ETCH_SUCCESS, next)
  | .insert _ none => some (.status .ETCH_EINVAL, list)
  | .insert index (some data) => do
      let (rv, next) ← list.insert rounds newnode index data
      return (.status rv, next)
  | .removeAt index => do
      let (rv, next) ← list.removeAt rounds index
      return (.status rv, next)
  | .remove data => do
      let (rv, next) ← list.remove rounds data
      return (.status rv, next)
  | .clear => do
      let (rv, next) ← list.clear rounds
      return (.status rv, next)
  | .get index => do
      let (rv, data) ← list.get rounds index
      return (.got rv data, list)
  | .indexOf data => do
      return (.index (← list.indexOf rounds data), list)
  | .contains data => do
      return (.found (← list.contains rounds data), list)

end EtchLinkedList

end Etch.C
