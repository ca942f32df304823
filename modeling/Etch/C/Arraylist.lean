import Etch.C.Hashtable

/-!
# The C `etch_arraylist`

The buffer of a list has so many bytes, in slots of the size of a pointer; the
number of entries, the bytes and the bytes that it grows by are `unsigned int`.
What would be written outside of the buffer, or read through `NULL`, is
`none`.
-/

namespace Etch.C

/-! ## Lists -/

/-- `sizeof(void*)` -/
def Pointer.size : Pointer → Nat
  | bits32 => 4
  | bits64 => 8

/-- The pointers, and whether `malloc(0)` is no `NULL`. -/
structure Machine where
  pointer : Pointer
  mallocZero : Bool

abbrev Machine.slot (machine : Machine) : Nat :=
  machine.pointer.size

variable {Item : Type}

/-- A list whose slots are pointers or `NULL`. -/
structure EtchArraylist (Item : Type) where
  base : List (Option Item)
  count : Nat
  delta : Nat
  size : Nat
  isReadonly : Bool
  /-- `content_type == ETCHARRAYLIST_CONTENT_OBJECT` -/
  objectContent : Bool
  /-- whether the callback handles what is to be freed -/
  freehook : Option (Nat → Option Item → Bool)

/-- A comparator: 0 for what is equal. -/
abbrev Comparator (Item : Type) := Option Item → Option Item → Int32

namespace EtchArraylist

variable (machine : Machine) (list : EtchArraylist Item)

def ETCHARRAYLIST_DEFSIZE : Nat := 128

/-- `new_etch_arraylist(initsize, deltsize)` of two `unsigned int` -/
def new (initsize deltsize : Nat) : EtchArraylist Item :=
  let size := if initsize > 0 then initsize else ETCHARRAYLIST_DEFSIZE
  let delta := if deltsize > 0 then deltsize else size
  let size := size * machine.slot % 2 ^ 32
  let delta := delta * machine.slot % 2 ^ 32
  { base := List.replicate (size / machine.slot) none
    count := 0
    delta
    size
    isReadonly := false
    objectContent := false
    freehook := none }

/-- Whether `list->base` is no `NULL`. -/
def based : Bool :=
  list.size ≠ 0 || machine.mallocZero

/-- `new_etch_arraylist_from(thatlist)` -/
def newFrom (thatlist : EtchArraylist Item) : Option (EtchArraylist Item) :=
  let thislist := new machine thatlist.size thatlist.delta
  if thatlist.count * machine.slot ≤ thislist.size then
    some { thislist with
      isReadonly := thatlist.isReadonly
      objectContent := thatlist.objectContent
      freehook := thatlist.freehook
      base := thatlist.base.take thatlist.count ++
        thislist.base.drop thatlist.count
      count := thatlist.count }
  else
    none

/-- `_arraylist_realloc(list, size)` -/
def realloc (size : Nat) : Option (EtchArraylist Item) :=
  let newsize :=
    if size > list.size then size else (list.size + list.delta) % 2 ^ 32
  let copylength := list.count * machine.slot % 2 ^ 32
  if copylength ≤ newsize then
    let copied := copylength / machine.slot
    some { list with
      base := list.base.take copied ++
        List.replicate (newsize / machine.slot - copied) none
      size := newsize }
  else
    none

/-- `_arraylist_checksize(list, 1, ..)` -/
def checksize : Option (EtchArraylist Item) :=
  let newspace := machine.slot
  let currsize := list.count * machine.slot % 2 ^ 32
  if (currsize + newspace) % 2 ^ 32 > list.size then
    list.realloc machine (if newspace > list.delta then newspace else 0)
  else
    some list

/-- `base[index] = content` -/
def write (base : List (Option Item)) (index : Nat) (content : Option Item) :
    Option (List (Option Item)) :=
  if index < base.length then some (base.set index content) else none

/-- `etch_arraylist_add(list, content)` -/
def add (content : Option Item) : Option (Int32 × EtchArraylist Item) :=
  if list.based machine then do
    let list ← list.checksize machine
    let base ← write list.base list.count content
    some (0, { list with base, count := list.count + 1 })
  else
    some (-1, list)

/-- So many entries below a slot, and the one behind them into it. -/
def shiftUp (base : List (Option Item)) (q : Nat) :
    Nat → Option (List (Option Item))
  | 0 => some base
  | shiftcount + 1 => do
      let base ← write base q (base.getD (q - 1) none)
      shiftUp base (q - 1) shiftcount

/-- `etch_arraylist_insert(list, i, content)` -/
def insert (i : Nat) (content : Option Item) :
    Option (Int32 × EtchArraylist Item) := do
  let list ← list.checksize machine
  if i ≤ list.count then
    let base ← shiftUp list.base list.count (list.count - i)
    let base ← write base i content
    some (0, { list with base, count := list.count + 1 })
  else
    some (-1, list)

/-- `etch_arraylist_indexof(list, content, startat, compare)` -/
def indexof (content : Option Item) (startat : Nat)
    (compare : Comparator Item) : Option Nat :=
  (List.range' startat (list.count - startat)).find? fun i =>
    compare content (list.base.getD i none) = 0

/-- `etch_arraylist_contains(list, content, 0, compare)` -/
def contains (content : Option Item) (compare : Comparator Item) : Bool :=
  (list.indexof content 0 compare).isSome

/-- `etch_arraylist_set(list, i, content)` -/
def set (i : Nat) (content : Option Item) : Int32 × EtchArraylist Item :=
  if i < list.count then
    (0, { list with base := list.base.set i content })
  else
    (-1, list)

/-- `etch_arraylist_get(list, i)` -/
def get (i : Nat) : Option Item :=
  if i < list.count then list.base.getD i none else none

/-- The entries behind a slot, one after another, each one down. -/
def shiftDown (base : List (Option Item)) (p : Nat) :
    Nat → List (Option Item)
  | 0 => base
  | shiftcount + 1 =>
      shiftDown (base.set p (base.getD (p + 1) none)) (p + 1) shiftcount

/-- `etch_arraylist_remove(list, i, ..)`; what is freed is no slot. -/
def remove (i : Nat) : Int32 × EtchArraylist Item :=
  if i < list.count then
    let newcount := list.count - 1
    let base := shiftDown list.base i (newcount - i)
    (0, { list with base := base.set newcount none, count := newcount })
  else
    (-1, list)

/-- `etch_arraylist_remove_content(list, content, startat, compare)` -/
def removeContent (content : Option Item) (startat : Nat)
    (compare : Comparator Item) : Int32 × EtchArraylist Item :=
  match list.indexof content startat compare with
  | some index => list.remove index
  | none => (-1, list)

/-- An entry that is freed by a call through it. -/
def destroyed (i : Nat) : Bool :=
  let content := list.base.getD i none
  !(match list.freehook with
    | some callback => callback i content
    | none => false) && list.objectContent

/-- `etch_arraylist_clear(list, is_free_content)` -/
def clear (is_free_content : Bool) : Option (EtchArraylist Item) :=
  if list.based machine then
    if is_free_content && !list.isReadonly &&
        (List.range list.count).any fun i =>
          list.destroyed i && (list.base.getD i none).isNone then
      -- `((etch_object*)*p)->destroy(*p)` of `NULL`
      none
    else
      some { list with
        base := List.replicate list.count none ++ list.base.drop list.count
        count := 0 }
  else
    some list

end EtchArraylist

/-! ## Adding from a list -/

/-- An `etch_iterator` over a list. -/
structure ListIterator (Item : Type) where
  ordinal : Nat
  currentValue : Option Item

namespace ListIterator

/-- `etch_arraylist_iterable_first`, once `set_iterator` cleared it -/
def first (machine : Machine) (list : EtchArraylist Item) :
    ListIterator Item :=
  if list.based machine ∧ list.count ≠ 0 then
    let value := list.get 0
    ⟨if value.isSome then 1 else 0, value⟩
  else
    ⟨0, none⟩

/-- `etch_arraylist_iterable_next` -/
def next (list : EtchArraylist Item) (iterator : ListIterator Item) :
    ListIterator Item :=
  if list.count = 0 ∨ iterator.ordinal = 0 then
    iterator
  else
    let value := list.get iterator.ordinal
    ⟨if value.isSome then iterator.ordinal + 1 else 0, value⟩

/-- `etch_arraylist_iterable_has_next` -/
def hasNext (list : EtchArraylist Item) (iterator : ListIterator Item) : Bool :=
  list.count ≠ 0 && iterator.ordinal ≠ 0 && iterator.ordinal ≤ list.count

end ListIterator

/-- The lists of a program, by their numbers. -/
abbrev Arraylists (Item : Type) := List (EtchArraylist Item)

namespace Arraylists

variable (machine : Machine)

/-- The loop of `etch_arraylist_add_from`, so many rounds of it at most; the
two lists may be one. -/
def addFromLoop (compare : Comparator Item) (target source : Nat) : Nat →
    Arraylists Item → ListIterator Item → Nat → Option (Nat × Arraylists Item)
  | 0, _, _, _ => none
  | fuel + 1, lists, iterator, count => do
      let newitems ← lists[source]?
      let list ← lists[target]?
      if iterator.hasNext newitems then
        if list.contains iterator.currentValue compare then
          -- `continue`
          addFromLoop compare target source fuel lists iterator count
        else
          let list ← list.checksize machine
          let base ← EtchArraylist.write list.base list.count
            iterator.currentValue
          let lists := lists.set target
            { list with base, count := list.count + 1 }
          let newitems ← lists[source]?
          addFromLoop compare target source fuel lists
            (iterator.next newitems) (count + 1)
      else
        some (count, lists)

/-- `etch_arraylist_add_from(list, newitems, compare)` -/
def addFrom (fuel : Nat) (lists : Arraylists Item) (target source : Nat)
    (compare : Comparator Item) : Option (Int × Arraylists Item) := do
  let list ← lists[target]?
  let newitems ← lists[source]?
  if !list.based machine then
    some (-1, lists)
  else if newitems.count = 0 then
    some (0, lists)
  else
    let (count, lists) ← addFromLoop machine compare target source fuel lists
      (.first machine newitems) 0
    some (count, lists)

end Arraylists

/-! ## Calls -/

/-- A call on the lists of these numbers. -/
inductive ListCall (Item : Type) where
  | new (initsize deltsize : UInt32) (isReadonly objectContent : Bool)
      (freehook : Option (Nat → Option Item → Bool))
  | newFrom (list : Nat)
  | add (list : Nat) (content : Option Item)
  | insert (list : Nat) (i : UInt32) (content : Option Item)
  | set (list : Nat) (i : UInt32) (content : Option Item)
  | remove (list : Nat) (i : UInt32) (is_free_content : Bool)
  | removeContent (list : Nat) (content : Option Item) (startat : UInt32)
      (compare : Comparator Item)
  | clear (list : Nat) (is_free_content : Bool)
  | addFrom (list newitems : Nat) (compare : Comparator Item)

namespace Arraylists

variable (machine : Machine) (lists : Arraylists Item)

/-- An operation on one of the lists. -/
def on (list : Nat)
    (operation : EtchArraylist Item → Option (Int32 × EtchArraylist Item)) :
    Option (Int × Arraylists Item) := do
  let found ← lists[list]?
  let (result, changed) ← operation found
  some (result.toInt, lists.set list changed)

/-- A call, with what it gives back; `void` is 0, and so is a new list, which
is the last one. -/
def perform (fuel : Nat) : ListCall Item → Option (Int × Arraylists Item)
  | .new initsize deltsize isReadonly objectContent freehook =>
      some (0, lists ++ [{ EtchArraylist.new machine initsize.toNat
        deltsize.toNat with isReadonly, objectContent, freehook }])
  | .newFrom list => do
      let found ← lists[list]?
      let copy ← found.newFrom machine
      some (0, lists ++ [copy])
  | .add list content => lists.on list fun list => list.add machine content
  | .insert list i content =>
      lists.on list fun list => list.insert machine i.toNat content
  | .set list i content =>
      lists.on list fun list => some (list.set i.toNat content)
  | .remove list i _ => lists.on list fun list => some (list.remove i.toNat)
  | .removeContent list content startat compare => lists.on list fun list =>
      some (list.removeContent content startat.toNat compare)
  | .clear list is_free_content => lists.on list fun list => do
      let list ← list.clear machine is_free_content
      some (0, list)
  | .addFrom list newitems compare =>
      lists.addFrom machine fuel list newitems compare

end Arraylists

end Etch.C
