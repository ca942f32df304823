import Etch.Java.FlexBuffer
import Etch.Library.Ring

/-!
# The Java `CircularQueue`

The array with its indices, and what a thread does to it between entering the
monitor and waiting or leaving.  `Represents` relates the array to the list of
elements that have been put and not yet got.
-/

namespace Etch.Java

open Etch.Library

/-- What `Assertion.check` throws, with the description it is given. -/
structure AssertionException where
  msg : String
deriving DecidableEq

/-- `items` holds `none` for null. -/
structure CircularQueue (T : Type) where
  items : List (Option T)
  closed : Bool
  count : Nat
  head : Nat
  tail : Nat

namespace CircularQueue

variable {T : Type}

def new (size : Nat) : Except Exception (CircularQueue T) :=
  if size < 1 then
    .error (.illegalArgumentException "size < 1")
  else
    .ok ⟨List.replicate size none, false, 0, 0, 0⟩

def size (queue : CircularQueue T) : Nat :=
  queue.items.length

def isEmpty (queue : CircularQueue T) : Bool :=
  queue.count == 0

def isFull (queue : CircularQueue T) : Bool :=
  queue.count == queue.size

def isClosed (queue : CircularQueue T) : Bool :=
  queue.closed

/-- `items[index]`, null outside the array. -/
def item (queue : CircularQueue T) (index : Nat) : Option T :=
  (queue.items[index]?).join

/-- The assignments of `get0`. -/
def taken (queue : CircularQueue T) : CircularQueue T :=
  let head := queue.head + 1
  { queue with
    items := queue.items.set queue.head none
    count := queue.count - 1
    head := if head = queue.size then 0 else head }

/-- The assignments of `put0`. -/
def added (queue : CircularQueue T) (obj : T) : CircularQueue T :=
  let tail := queue.tail + 1
  { queue with
    items := queue.items.set queue.tail (some obj)
    count := queue.count + 1
    tail := if tail = queue.size then 0 else tail }

def get0 (queue : CircularQueue T) :
    Except AssertionException (T × CircularQueue T) :=
  if queue.count = 0 then
    .error ⟨"count > 0"⟩
  else
    match queue.item queue.head with
    | none => .error ⟨"obj != null"⟩
    | some obj => .ok (obj, queue.taken)

/-- `put0(obj)`, whose callers have checked that `obj` is not null. -/
def put0 (queue : CircularQueue T) (obj : T) :
    Except AssertionException (CircularQueue T) :=
  if queue.size ≤ queue.count then
    .error ⟨"count < size"⟩
  else if (queue.item queue.tail).isSome then
    .error ⟨"items[tail] == null"⟩
  else
    .ok (queue.added obj)

/-- `getAndNotify()`, with whether it calls `notify`. -/
def getAndNotify (queue : CircularQueue T) :
    Except AssertionException (T × Bool × CircularQueue T) := do
  let notify := queue.isFull
  let (obj, queue) ← queue.get0
  return (obj, notify || !queue.isEmpty, queue)

/-- `putAndNotify(obj)`, with whether it calls `notify`. -/
def putAndNotify (queue : CircularQueue T) (obj : T) :
    Except AssertionException (Bool × CircularQueue T) := do
  let notify := queue.isEmpty
  let queue ← queue.put0 obj
  return (notify || !queue.isFull, queue)

/-- The assignment in `close()`, which then calls `notifyAll`. -/
def close (queue : CircularQueue T) : CircularQueue T :=
  { queue with closed := true }

/-! ## The queue it stands for -/

/-- A queue that has been given elements, and may have been closed. -/
structure Fifo (T : Type) where
  contents : List T
  closed : Bool

/-- The array holds the elements of a queue, from the oldest on. -/
structure Represents (queue : CircularQueue T) (fifo : Fifo T) :
    Prop where
  holds : Ring.Holds queue.items queue.head fifo.contents
  count_eq : queue.count = fifo.contents.length
  tail_eq : queue.tail =
    (queue.head + fifo.contents.length) % queue.items.length
  closed_eq : queue.closed = fifo.closed

theorem new_ok {size : Nat} {queue : CircularQueue T}
    (built : new size = .ok queue) :
    1 ≤ size ∧ queue = ⟨List.replicate size none, false, 0, 0, 0⟩ := by
  unfold new at built
  split_ifs at built with small
  exact ⟨Nat.le_of_not_lt small, (Except.ok.inj built).symm⟩

theorem represents_new {size : Nat} {queue : CircularQueue T}
    (built : new size = .ok queue) : queue.Represents ⟨[], false⟩ := by
  obtain ⟨positive, rfl⟩ := new_ok built
  exact ⟨Ring.Holds.empty positive, rfl, by simp, rfl⟩

theorem size_new {size : Nat} {queue : CircularQueue T}
    (built : new size = .ok queue) : queue.size = size := by
  obtain ⟨_, rfl⟩ := new_ok built
  exact List.length_replicate

namespace Represents

variable {queue : CircularQueue T} {fifo : Fifo T}

theorem length_le (represents : queue.Represents fifo) :
    fifo.contents.length ≤ queue.size :=
  represents.holds.fits

theorem isEmpty_iff (represents : queue.Represents fifo) :
    queue.isEmpty = true ↔ fifo.contents = [] := by
  rw [isEmpty, beq_iff_eq, represents.count_eq, List.length_eq_zero_iff]

theorem isFull_iff (represents : queue.Represents fifo) :
    queue.isFull = true ↔ fifo.contents.length = queue.size := by
  rw [isFull, beq_iff_eq, represents.count_eq]

theorem close (represents : queue.Represents fifo) :
    queue.close.Represents { fifo with closed := true } :=
  { represents with closed_eq := rfl }

/-- What `get0` returns while the queue is not empty. -/
theorem get0_ok {first : T} {rest : List T} {closed : Bool}
    (represents : queue.Represents ⟨first :: rest, closed⟩) :
    ∃ next, queue.get0 = .ok (first, next) ∧
      next.Represents ⟨rest, closed⟩ ∧ next.size = queue.size ∧
      queue.count = next.count + 1 := by
  have count : queue.count = rest.length + 1 := represents.count_eq
  have found : queue.item queue.head = some first := by
    rw [item, represents.holds.getElem?_head]
    rfl
  refine ⟨queue.taken, ?_, ?_, ?_, ?_⟩
  · rw [get0, if_neg (by omega), found]
  · refine ⟨represents.holds.pop, ?_, ?_, represents.closed_eq⟩
    · exact Nat.sub_eq_of_eq_add count
    · have tail := represents.tail_eq
      rw [List.length_cons] at tail
      change queue.tail = (Ring.next queue.items.length queue.head +
        rest.length) % (queue.items.set queue.head none).length
      rw [List.length_set, tail, Ring.next_eq_mod represents.holds.head_lt,
        Nat.mod_add_mod, Nat.add_assoc, Nat.add_comm 1]
  · exact List.length_set
  · exact (Nat.sub_add_cancel (by omega)).symm

/-- What `put0` does while the queue is not full. -/
theorem put0_ok (represents : queue.Represents fifo)
    (room : fifo.contents.length < queue.size) (obj : T) :
    ∃ next, queue.put0 obj = .ok next ∧
      next.Represents { fifo with contents := fifo.contents ++ [obj] } ∧
      next.size = queue.size ∧ next.count = queue.count + 1 := by
  have count := represents.count_eq
  have vacant : queue.item queue.tail = none := by
    rw [item, represents.tail_eq, represents.holds.getElem?_tail room]
    rfl
  refine ⟨queue.added obj, ?_, ?_, ?_, ?_⟩
  · rw [put0, if_neg (by omega), vacant]
    exact if_neg Bool.false_ne_true
  · refine ⟨?_, ?_, ?_, represents.closed_eq⟩
    · have pushed := represents.holds.push room obj
      rwa [← represents.tail_eq] at pushed
    · change queue.count + 1 = _
      rw [count, List.length_append, List.length_singleton]
    · have tail_lt : queue.tail < queue.items.length := by
        rw [represents.tail_eq]
        exact Nat.mod_lt _ represents.holds.size_pos
      change Ring.next queue.items.length queue.tail =
        (queue.head + (fifo.contents ++ [obj]).length) %
          (queue.items.set queue.tail (some obj)).length
      rw [List.length_set, Ring.next_eq_mod tail_lt, represents.tail_eq,
        Nat.mod_add_mod, List.length_append, List.length_singleton,
        Nat.add_assoc]
  · exact List.length_set
  · rfl

/-- `getAndNotify` notifies unless it took the last of several slots. -/
theorem getAndNotify_ok {first : T} {rest : List T} {closed : Bool}
    (represents : queue.Represents ⟨first :: rest, closed⟩) :
    ∃ next, queue.getAndNotify =
        .ok (first, decide (queue.count = queue.size ∨ 1 < queue.count),
          next) ∧
      next.Represents ⟨rest, closed⟩ ∧ next.size = queue.size ∧
      queue.count = next.count + 1 := by
  obtain ⟨next, taken, after, size, count⟩ := represents.get0_ok
  refine ⟨next, ?_, after, size, count⟩
  rw [getAndNotify, taken, Fallible.ok_bind]
  change Except.ok (first, _, next) = _
  congr 3
  rw [isFull, isEmpty, Bool.eq_iff_iff, Bool.or_eq_true, beq_iff_eq,
    Bool.not_eq_true', beq_eq_false_iff_ne, decide_eq_true_iff]
  omega

/-- `putAndNotify` notifies unless it filled the last of several slots. -/
theorem putAndNotify_ok (represents : queue.Represents fifo)
    (room : fifo.contents.length < queue.size) (obj : T) :
    ∃ next, queue.putAndNotify obj =
        .ok (decide (queue.count = 0 ∨ queue.count + 1 < queue.size),
          next) ∧
      next.Represents { fifo with contents := fifo.contents ++ [obj] } ∧
      next.size = queue.size ∧ next.count = queue.count + 1 := by
  obtain ⟨next, put, after, size, count⟩ := represents.put0_ok room obj
  have fits := after.length_le
  have same := after.count_eq
  refine ⟨next, ?_, after, size, count⟩
  rw [putAndNotify, put, Fallible.ok_bind]
  change Except.ok (_, next) = _
  congr 2
  rw [isFull, isEmpty, Bool.eq_iff_iff, Bool.or_eq_true, beq_iff_eq,
    Bool.not_eq_true', beq_eq_false_iff_ne, decide_eq_true_iff]
  omega

end Represents

end CircularQueue

end Etch.Java
