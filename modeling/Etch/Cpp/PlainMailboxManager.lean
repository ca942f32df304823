import Etch.Cpp.PlainMailbox
import Etch.Library.Deadlock

/-!
# The C++ `EtchPlainMailboxManager` under any schedule

Any number of threads call the manager and the mailboxes that it has given
them.  A thread is a stack of operations, each at the place it has come to; a
mailbox runs as it does alone, but that it calls `unregisterMailbox` before it
closes its queue.  No listener is registered, and neither session nor transport
calls back.
-/

namespace Etch.Cpp.EtchPlainMailboxManager

open Etch.Library Etch.Library.Monitor

variable {Thread Element : Type} [DecidableEq Thread]

/-! ## Places -/

/-- The places at which an operation stops. -/
inductive Place (Element : Type) where
  | at_ (mailbox : Nat) (place : EtchPlainMailbox.Place Element)
  | callLock (mailbox : Nat)
  | callRegister (mailbox : Nat)
  | callTransport (mailbox : Nat)
  | messageLock (mailbox : Nat) (element : Element)
  | messageFind (mailbox : Nat) (element : Element)
  | notifyLock (up : Bool)
  | notifyChange (up : Bool)
  | unregisterLock (mailbox : Nat)
  | unregisterRemove (mailbox : Nat)
  /-- where `mMailboxesMutex` is given back -/
  | unlock

/-- Where `mMailboxesMutex` is taken, with the place after it. -/
def Place.locked : Place Element → Option (Place Element)
  | .callLock mailbox => some (.callRegister mailbox)
  | .messageLock mailbox element => some (.messageFind mailbox element)
  | .notifyLock up => some (.notifyChange up)
  | .unregisterLock mailbox => some (.unregisterRemove mailbox)
  | _ => none

/-- A place of a mailbox: its queue is closed behind `unregisterMailbox`. -/
def within (mailbox : Nat) :
    EtchPlainMailbox.Place Element → List (Place Element)
  | .closeQueue withNotification closing =>
      [.unregisterLock mailbox,
        .at_ mailbox (.closeQueue withNotification closing)]
  | place => [.at_ mailbox place]

/-- `mb->closeDelivery()` -/
def closeDelivery (mailbox : Nat) : Place Element :=
  .at_ mailbox (.closeLock true false)

/-! ## Steps -/

/-- What the threads share.  Mailboxes have the numbers that `mIdGen` gives
them. -/
structure Shared (Thread Element : Type) where
  mUp : Bool
  mMailboxes : List Nat
  mMailboxesMutex : Lock Thread
  mQueueMutex : Nat → Lock Thread
  /-- the mutexes of the queues -/
  mMutex : Nat → Lock Thread
  mQueue : Nat → EtchCircularQueue Element
  /-- how many mailboxes have been made -/
  made : Nat
  /-- the mailboxes that have been returned by `transportCall` -/
  results : List Nat

namespace Shared

variable (shared : Shared Thread Element)

/-- What the threads share in one mailbox. -/
def of (mailbox : Nat) : EtchPlainMailbox.Shared Thread Element :=
  ⟨false, shared.mQueueMutex mailbox, shared.mMutex mailbox,
    shared.mQueue mailbox⟩

/-- One mailbox has changed. -/
def set (mailbox : Nat) (next : EtchPlainMailbox.Shared Thread Element) :
    Shared Thread Element :=
  { shared with
    mQueueMutex :=
      Function.update shared.mQueueMutex mailbox next.mQueueMutex
    mMutex := Function.update shared.mMutex mailbox next.mMutex
    mQueue := Function.update shared.mQueue mailbox next.mQueue }

end Shared

/-- What `thread` does at a place, and the places that take over from it. -/
inductive Run (thread : Thread) (shared : Shared Thread Element) :
    Place Element → Shared Thread Element → List (Place Element) →
      Prop where
  | run {mailbox : Nat} {place : EtchPlainMailbox.Place Element}
      {next : EtchPlainMailbox.Shared Thread Element}
      {places : List (EtchPlainMailbox.Place Element)}
      (runs : EtchPlainMailbox.Run thread (shared.of mailbox) place next
        places) :
      Run thread shared (.at_ mailbox place) (shared.set mailbox next)
        (places.flatMap (within mailbox))
  | lock {place next : Place Element} {lock : Lock Thread}
      (goes : place.locked = some next)
      (acquired : shared.mMailboxesMutex.acquire thread = some lock) :
      Run thread shared place { shared with mMailboxesMutex := lock } [next]
  | unlock {lock : Lock Thread}
      (released : shared.mMailboxesMutex.release thread = some lock) :
      Run thread shared .unlock { shared with mMailboxesMutex := lock } []
  | register (mailbox : Nat) (up : shared.mUp = true)
      (fresh : mailbox ∉ shared.mMailboxes) :
      Run thread shared (.callRegister mailbox)
        { shared with mMailboxes := mailbox :: shared.mMailboxes }
        [.callTransport mailbox]
  | notRegistered (mailbox : Nat)
      (fails : shared.mUp = false ∨ mailbox ∈ shared.mMailboxes) :
      Run thread shared (.callRegister mailbox) shared [.unlock]
  | transported (mailbox : Nat) :
      Run thread shared (.callTransport mailbox)
        { shared with results := mailbox :: shared.results } [.unlock]
  | refused (mailbox : Nat) :
      Run thread shared (.callTransport mailbox) shared
        [closeDelivery mailbox, .unlock]
  | found (mailbox : Nat) (element : Element)
      (registered : mailbox ∈ shared.mMailboxes) :
      Run thread shared (.messageFind mailbox element) shared
        [.unlock, .at_ mailbox (.messageLock element)]
  | missing (mailbox : Nat) (element : Element)
      (unregistered : mailbox ∉ shared.mMailboxes) :
      Run thread shared (.messageFind mailbox element) shared [.unlock]
  | up : Run thread shared (.notifyChange true)
      { shared with mUp := true } [.unlock]
  /-- The walk may leave mailboxes out, since they are removed on it. -/
  | down (mailboxes : List Nat)
      (registered : mailboxes ⊆ shared.mMailboxes) :
      Run thread shared (.notifyChange false) { shared with mUp := false }
        (mailboxes.map closeDelivery ++ [.unlock])
  | remove (mailbox : Nat) :
      Run thread shared (.unregisterRemove mailbox)
        { shared with
          mMailboxes := shared.mMailboxes.filter (· ≠ mailbox) }
        [.unlock]

structure State (Thread Element : Type) where
  shared : Shared Thread Element
  /-- The places of a thread, the innermost operation first. -/
  places : Thread → List (Place Element)

/-- The state with `thread` at other places. -/
def State.go (state : State Thread Element) (thread : Thread)
    (shared : Shared Thread Element) (places : List (Place Element)) :
    State Thread Element :=
  ⟨shared, Function.update state.places thread places⟩

@[simp]
theorem State.shared_go (state : State Thread Element) (thread : Thread)
    (shared : Shared Thread Element) (places : List (Place Element)) :
    (state.go thread shared places).shared = shared := rfl

@[simp]
theorem State.places_go_self (state : State Thread Element)
    (thread : Thread) (shared : Shared Thread Element)
    (places : List (Place Element)) :
    (state.go thread shared places).places thread = places :=
  Function.update_self ..

theorem State.places_go_of_ne (state : State Thread Element)
    {thread other : Thread} (different : other ≠ thread)
    (shared : Shared Thread Element) (places : List (Place Element)) :
    (state.go thread shared places).places other = state.places other :=
  Function.update_of_ne different ..

/-- A thread calls an operation, or goes on with the innermost one. -/
inductive ThreadStep (thread : Thread) :
    State Thread Element → State Thread Element → Prop where
  | transportCall {state : State Thread Element}
      (idle : state.places thread = []) :
      ThreadStep thread state (state.go thread
        { state.shared with made := state.shared.made + 1 }
        [.callLock state.shared.made])
  | sessionMessage {state : State Thread Element} (mailbox : Nat)
      (element : Element) (idle : state.places thread = []) :
      ThreadStep thread state
        (state.go thread state.shared [.messageLock mailbox element])
  | sessionNotify {state : State Thread Element} (up : Bool)
      (idle : state.places thread = []) :
      ThreadStep thread state
        (state.go thread state.shared [.notifyLock up])
  | call {state : State Thread Element} {mailbox : Nat}
      {place : EtchPlainMailbox.Place Element}
      (idle : state.places thread = [])
      (returned : mailbox ∈ state.shared.results)
      (call : EtchPlainMailbox.Call place) :
      ThreadStep thread state
        (state.go thread state.shared [.at_ mailbox place])
  | run {state : State Thread Element} {place : Place Element}
      {outer next : List (Place Element)}
      {shared : Shared Thread Element}
      (at_place : state.places thread = place :: outer)
      (runs : Run thread state.shared place shared next) :
      ThreadStep thread state (state.go thread shared (next ++ outer))

def Step (state next : State Thread Element) : Prop :=
  ∃ thread, ThreadStep thread state next

/-- A manager without mailboxes, not up yet. -/
def initial : State Thread Element where
  shared :=
    { mUp := false
      mMailboxes := []
      mMailboxesMutex := .free
      mQueueMutex := fun _ => .free
      mMutex := fun _ => .free
      mQueue := fun _ => .new 1
      made := 0
      results := [] }
  places := fun _ => []

abbrev Reaches (state next : State Thread Element) : Prop :=
  Relation.ReflTransGen Step state next

/-! ## Locks -/

inductive Mutex where
  | mMailboxesMutex
  | mQueueMutex (mailbox : Nat)
  | mMutex (mailbox : Nat)
deriving DecidableEq

def Shared.lock (shared : Shared Thread Element) : Mutex → Lock Thread
  | .mMailboxesMutex => shared.mMailboxesMutex
  | .mQueueMutex mailbox => shared.mQueueMutex mailbox
  | .mMutex mailbox => shared.mMutex mailbox

/-- The mutex that is acquired at a place. -/
def Place.acquires : Place Element → Option Mutex
  | .at_ mailbox place =>
      if place.locked.isSome then some (.mQueueMutex mailbox)
      else if place.entered.isSome then some (.mMutex mailbox)
      else none
  | place =>
      if place.locked.isSome then some .mMailboxesMutex else none

def Holds (state : State Thread Element) (thread : Thread) (mutex : Mutex) :
    Prop :=
  0 < (state.shared.lock mutex).count thread

def Waits (state : State Thread Element) (thread : Thread) (mutex : Mutex) :
    Prop :=
  ∃ place outer, state.places thread = place :: outer ∧
    place.acquires = some mutex

/-- Threads wait for each other in a cycle. -/
def Deadlocked (state : State Thread Element) : Prop :=
  Deadlock.Cyclic (Holds state) (Waits state)

end Etch.Cpp.EtchPlainMailboxManager
