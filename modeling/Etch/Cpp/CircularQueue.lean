import Etch.Cpp.Types

/-!
# The C++ `EtchCircularQueue`

The array with its indices, and what `get` and `put` do to it between their
waits.  The mutex and the condition variable are modelled with the threads
that use them.
-/

namespace Etch.Cpp

/-- `mItems` holds `none` for a null pointer. -/
structure EtchCircularQueue (Element : Type) where
  mItems : List (Option Element)
  mClosed : Bool
  mCount : Nat
  mHead : Nat
  mTail : Nat

namespace EtchCircularQueue

variable {Element : Type}

def new (size : Nat) : EtchCircularQueue Element :=
  ⟨List.replicate size none, false, 0, 0, 0⟩

def mSize (queue : EtchCircularQueue Element) : Nat :=
  queue.mItems.length

def isEmpty (queue : EtchCircularQueue Element) : Bool :=
  queue.mCount == 0

def isFull (queue : EtchCircularQueue Element) : Bool :=
  queue.mCount == queue.mSize

def isClosed (queue : EtchCircularQueue Element) : Bool :=
  queue.mClosed

/-- `mItems[index]`, null outside the array. -/
def item (queue : EtchCircularQueue Element) (index : Nat) :
    Option Element :=
  (queue.mItems[index]?).join

/-- `get0(element)`, with the element that has been taken. -/
def get0 (queue : EtchCircularQueue Element) :
    Status × Option Element × EtchCircularQueue Element :=
  if queue.mCount < 1 then
    (.ETCH_EINVAL, none, queue)
  else
    match queue.item queue.mHead with
    | none => (.ETCH_EINVAL, none, queue)
    | some obj =>
        let mHead := queue.mHead + 1
        (.ETCH_OK, some obj,
          { queue with
            mItems := queue.mItems.set queue.mHead none
            mCount := queue.mCount - 1
            mHead := if mHead = queue.mSize then 0 else mHead })

/-- `put0(obj)` -/
def put0 (queue : EtchCircularQueue Element) (obj : Element) :
    Status × EtchCircularQueue Element :=
  if queue.mCount ≥ queue.mSize ∨ (queue.item queue.mTail).isSome then
    (.ETCH_EINVAL, queue)
  else
    let mTail := queue.mTail + 1
    (.ETCH_OK,
      { queue with
        mItems := queue.mItems.set queue.mTail (some obj)
        mCount := queue.mCount + 1
        mTail := if mTail = queue.mSize then 0 else mTail })

/-- `put(obj, maxDelay)` with a negative delay, which never waits. -/
def putNow (queue : EtchCircularQueue Element) (obj : Element) :
    Status × EtchCircularQueue Element :=
  if queue.isClosed then
    (.ETCH_ERROR, queue)
  else if !queue.isFull then
    queue.put0 obj
  else
    (.ETCH_EINVAL, queue)

/-- `close()` -/
def close (queue : EtchCircularQueue Element) :
    EtchCircularQueue Element :=
  { queue with mClosed := true }

end EtchCircularQueue

end Etch.Cpp
