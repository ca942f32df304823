import Etch.Library.Census
import Etch.Library.Ring
import Etch.Library.Transition

/-!
# The C `etch_apr_queue_t`

A ring with a lock and two conditions.  `terminated` is tested before the lock
is taken, and a thread that has been woken looks at the ring once: what a
signal has promised it may be gone by then.
-/

namespace Etch.C

open Etch.Library Etch.Library.Transition

structure EtchAprQueue (T : Type) where
  data : Nat → T
  nelts : Nat
  /-- the next empty location -/
  input : Nat
  /-- the next filled location -/
  out : Nat
  bounds : Nat
  full_waiters : Nat
  empty_waiters : Nat
  terminated : Bool

namespace EtchAprQueue

variable {T Thread : Type}

/-- `etch_apr_queue_create(q, queue_capacity, a)` -/
def create (null : T) (queue_capacity : Nat) : EtchAprQueue T :=
  ⟨fun _ => null, 0, 0, 0, queue_capacity, 0, 0, false⟩

def full (queue : EtchAprQueue T) : Bool :=
  queue.nelts == queue.bounds

def empty (queue : EtchAprQueue T) : Bool :=
  queue.nelts == 0

/-- The assignments of a push. -/
def stored (queue : EtchAprQueue T) (data : T) : EtchAprQueue T :=
  { queue with
    data := Function.update queue.data queue.input data
    input := (queue.input + 1) % queue.bounds
    nelts := queue.nelts + 1 }

/-- The assignments of a pop. -/
def taken (queue : EtchAprQueue T) : EtchAprQueue T :=
  { queue with
    nelts := queue.nelts - 1
    out := (queue.out + 1) % queue.bounds }

/-- The statuses that are returned without success. -/
inductive Status where
  | eagain
  | eof
  | eintr
  | timeup
deriving DecidableEq

/-! ## Threads -/

/-- What has happened to a thread in its wait. -/
inductive Wake where
  | asleep
  | signalled
  /-- `interrupt_all` has been called while it waited -/
  | interrupted
deriving DecidableEq

/-- Where a thread is.  A push or a pop has found that the queue is not
terminated, and has not got the lock yet. -/
inductive Call (T : Type) where
  | idle
  | push (timeout : Int) (data : T)
  | trypush (data : T)
  | pop (timeout : Int)
  | trypop
  /-- in the wait for `not_full` -/
  | notFull (timeout : Int) (data : T) (wake : Wake)
  /-- in the wait for `not_empty` -/
  | notEmpty (timeout : Int) (wake : Wake)
  /-- in `term`, between its two sections -/
  | term

/-- What has been returned. -/
inductive Event (T : Type) where
  | pushed (data : T)
  | popped (data : T)
  | failed (timeout : Int) (wake : Wake) (status : Status)
  | terminated
deriving DecidableEq

/-- The queue, its threads, and what has been returned, the latest first. -/
structure System (T Thread : Type) where
  queue : EtchAprQueue T
  calls : Thread → Call T
  events : List (Event T)

namespace Call

/-- A thread that waits for room, asleep or not. -/
def waitsFull : Call T → Option Wake
  | notFull _ _ wake => some wake
  | _ => none

/-- A thread that waits for an element, asleep or not. -/
def waitsEmpty : Call T → Option Wake
  | notEmpty _ wake => some wake
  | _ => none

/-- The same wait, once the thread has been woken. -/
def woken (wake : Wake) : Call T → Call T
  | notFull timeout data _ => notFull timeout data wake
  | notEmpty timeout _ => notEmpty timeout wake
  | call => call

end Call

section Steps

variable [DecidableEq Thread] [Fintype Thread]

/-- `apr_thread_cond_signal`, which wakes any thread that is asleep in a wait
of the condition. -/
def signal (waits : Call T → Option Wake) (calls : Thread → Call T) :
    Option Thread → Option (Thread → Call T)
  | some thread =>
      if waits (calls thread) = some .asleep then
        some (Function.update calls thread
          ((calls thread).woken .signalled))
      else
        none
  | none =>
      if ∀ thread, waits (calls thread) ≠ some .asleep then some calls
      else none

/-- A signal is given where there are waiters. -/
def signalWaiters (waiters : Nat) (waits : Call T → Option Wake)
    (calls : Thread → Call T) (wakes : Option Thread) :
    Option (Thread → Call T) :=
  if waiters = 0 then
    if wakes = none then some calls else none
  else
    signal waits calls wakes

namespace System

variable (system : System T Thread)

/-- A thread is somewhere else. -/
def goes (thread : Thread) (call : Call T) : System T Thread :=
  { system with calls := Function.update system.calls thread call }

/-- A thread returns without success. -/
def fails (thread : Thread) (timeout : Int) (wake : Wake)
    (status : Status) : System T Thread :=
  { system with
    calls := Function.update system.calls thread .idle
    events := .failed timeout wake status :: system.events }

/-- A thread stores its data, signals and returns. -/
def stores (thread : Thread) (data : T) (wakes : Option Thread) :
    Option (System T Thread) := do
  let calls ← signalWaiters system.queue.empty_waiters Call.waitsEmpty
    (Function.update system.calls thread .idle) wakes
  return ⟨system.queue.stored data, calls, .pushed data :: system.events⟩

/-- A thread takes an element, signals and returns. -/
def takes (thread : Thread) (wakes : Option Thread) :
    Option (System T Thread) := do
  let calls ← signalWaiters system.queue.full_waiters Call.waitsFull
    (Function.update system.calls thread .idle) wakes
  return ⟨system.queue.taken, calls,
    .popped (system.queue.data system.queue.out) :: system.events⟩

/-- `etch_apr_queue_push` behind the lock, up to its wait. -/
def push (thread : Thread) (timeout : Int) (data : T)
    (wakes : Option Thread) : Option (System T Thread) :=
  if system.queue.full then
    if system.queue.terminated then
      some (system.fails thread timeout .asleep .eof)
    else if timeout = -1 then
      some (system.fails thread timeout .asleep .eagain)
    else
      some
        { system.goes thread (.notFull timeout data .asleep) with
          queue := { system.queue with
            full_waiters := system.queue.full_waiters + 1 } }
  else
    system.stores thread data wakes

/-- `etch_apr_queue_push` behind its wait. -/
def pushWoken (thread : Thread) (timeout : Int) (data : T) (wake : Wake)
    (wakes : Option Thread) : Option (System T Thread) :=
  let system := { system with
    queue := { system.queue with
      full_waiters := system.queue.full_waiters - 1 } }
  if system.queue.full then
    if system.queue.terminated then
      some (system.fails thread timeout wake .eof)
    else
      some (system.fails thread timeout wake .eintr)
  else
    system.stores thread data wakes

def trypush (thread : Thread) (data : T) (wakes : Option Thread) :
    Option (System T Thread) :=
  if system.queue.full then
    some (system.fails thread (-1) .asleep .eagain)
  else
    system.stores thread data wakes

/-- `etch_apr_queue_pop` behind the lock, up to its wait. -/
def pop (thread : Thread) (timeout : Int) (wakes : Option Thread) :
    Option (System T Thread) :=
  if system.queue.empty then
    if timeout = -1 then
      some (system.fails thread timeout .asleep .eagain)
    else if system.queue.terminated then
      some (system.fails thread timeout .asleep .eof)
    else
      some
        { system.goes thread (.notEmpty timeout .asleep) with
          queue := { system.queue with
            empty_waiters := system.queue.empty_waiters + 1 } }
  else
    system.takes thread wakes

/-- `etch_apr_queue_pop` behind its wait. -/
def popWoken (thread : Thread) (timeout : Int) (wake : Wake)
    (wakes : Option Thread) : Option (System T Thread) :=
  let system := { system with
    queue := { system.queue with
      empty_waiters := system.queue.empty_waiters - 1 } }
  if system.queue.empty then
    if system.queue.terminated then
      some (system.fails thread timeout wake .eof)
    else
      some (system.fails thread timeout wake .eintr)
  else
    system.takes thread wakes

def trypop (thread : Thread) (wakes : Option Thread) :
    Option (System T Thread) :=
  if system.queue.empty then
    some (system.fails thread (-1) .asleep .eagain)
  else
    system.takes thread wakes

/-- `etch_apr_queue_interrupt_all` -/
def interruptAll : System T Thread :=
  { system with
    calls := fun thread => (system.calls thread).woken .interrupted }

end System

/-- A call tests `terminated`, gets the lock, or goes on after its wait. -/
inductive Action (T Thread : Type) where
  | push (thread : Thread) (timeout : Int) (data : T)
  | trypush (thread : Thread) (data : T)
  | pop (thread : Thread) (timeout : Int)
  | trypop (thread : Thread)
  | interruptAll (thread : Thread)
  | term (thread : Thread)
  | lock (thread : Thread) (wakes : Option Thread)
  | wake (thread : Thread) (wakes : Option Thread)
  | timeUp (thread : Thread)

/-- The timeout that pops what a queue has when it is terminated. -/
def ETCHQUEUE_CLEARING_CLOSED_QUEUE : Int := -2

def step (system : System T Thread) :
    Action T Thread → Option (System T Thread)
  | .push thread timeout data =>
      match system.calls thread with
      | .idle =>
          if system.queue.terminated then
            some (system.fails thread timeout .asleep .eof)
          else
            some (system.goes thread (.push timeout data))
      | _ => none
  | .trypush thread data =>
      match system.calls thread with
      | .idle =>
          if system.queue.terminated then
            some (system.fails thread (-1) .asleep .eof)
          else
            some (system.goes thread (.trypush data))
      | _ => none
  | .pop thread timeout =>
      match system.calls thread with
      | .idle =>
          if system.queue.terminated ∧
              timeout ≠ ETCHQUEUE_CLEARING_CLOSED_QUEUE then
            some (system.fails thread timeout .asleep .eof)
          else
            some (system.goes thread (.pop timeout))
      | _ => none
  | .trypop thread =>
      match system.calls thread with
      | .idle =>
          if system.queue.terminated then
            some (system.fails thread (-1) .asleep .eof)
          else
            some (system.goes thread .trypop)
      | _ => none
  | .interruptAll thread =>
      match system.calls thread with
      | .idle => some system.interruptAll
      | _ => none
  | .term thread =>
      match system.calls thread with
      | .idle =>
          some
            { system.goes thread .term with
              queue := { system.queue with terminated := true } }
      | _ => none
  | .lock thread wakes =>
      match system.calls thread with
      | .push timeout data => system.push thread timeout data wakes
      | .trypush data => system.trypush thread data wakes
      | .pop timeout => system.pop thread timeout wakes
      | .trypop => system.trypop thread wakes
      | .term =>
          some
            { system.interruptAll.goes thread .idle with
              events := .terminated :: system.events }
      | _ => none
  | .wake thread wakes =>
      match system.calls thread with
      | .notFull timeout data wake =>
          system.pushWoken thread timeout data wake wakes
      | .notEmpty timeout wake => system.popWoken thread timeout wake wakes
      | _ => none
  | .timeUp thread =>
      match system.calls thread with
      | .notFull timeout _ .asleep =>
          if timeout = 0 then none
          else
            some
              { system.fails thread timeout .asleep .timeup with
                queue := { system.queue with
                  full_waiters := system.queue.full_waiters - 1 } }
      | .notEmpty timeout .asleep =>
          if timeout = 0 then none
          else
            some
              { system.fails thread timeout .asleep .timeup with
                queue := { system.queue with
                  empty_waiters := system.queue.empty_waiters - 1 } }
      | _ => none

/-- A queue that no thread has used. -/
def System.start (null : T) (queue_capacity : Nat) : System T Thread :=
  ⟨create null queue_capacity, fun _ => .idle, []⟩

/-! ## Promises -/

namespace Call

/-- A thread that may store data as soon as it has the lock. -/
def stores : Call T → Bool
  | push _ _ => true
  | trypush _ => true
  | notFull _ _ _ => true
  | _ => false

/-- A thread that may take an element as soon as it has the lock. -/
def takes : Call T → Bool
  | pop _ => true
  | trypop => true
  | notEmpty _ _ => true
  | _ => false

/-- A thread asleep that is to wait for ever. -/
def sleepsForEver : Call T → Bool
  | notFull 0 _ .asleep => true
  | notEmpty 0 .asleep => true
  | _ => false

/-- A thread that was to wait for ever and has been signalled that there is
room. -/
def promisedRoom : Call T → Bool
  | notFull 0 _ .signalled => true
  | _ => false

/-- A thread that was to wait for ever and has been signalled that there is an
element. -/
def promisedElement : Call T → Bool
  | notEmpty 0 .signalled => true
  | _ => false

end Call

/-- How many threads have been given a promise. -/
def promised (kind : Call T → Bool) (calls : Thread → Call T) : Nat :=
  Census.census (fun _ => kind) calls

/-- A thread stores nothing in a queue that has been terminated, and leaves to
the others what they have been promised. -/
structure Fair (system : System T Thread) (thread : Thread) : Prop where
  open_stores : (system.calls thread).stores = true →
    system.queue.full = false → system.queue.terminated = false
  room : (system.calls thread).stores = true →
    system.queue.full = false →
      (system.calls thread).promisedRoom = true ∨
        promised Call.promisedRoom system.calls + system.queue.nelts <
          system.queue.bounds
  elements : (system.calls thread).takes = true →
    system.queue.empty = false →
      (system.calls thread).promisedElement = true ∨
        promised Call.promisedElement system.calls < system.queue.nelts

def Sound (system : System T Thread) : Action T Thread → Prop
  | .lock thread _ => Fair system thread
  | .wake thread _ => Fair system thread ∧
      (system.calls thread).sleepsForEver = false
  | _ => True

/-! ## What the queue is for -/

/-- What has been pushed, from the first element on. -/
def pushed (events : List (Event T)) : List T :=
  (events.filterMap fun
    | .pushed data => some data
    | _ => none).reverse

/-- What has been popped, from the first element on. -/
def popped (events : List (Event T)) : List T :=
  (events.filterMap fun
    | .popped data => some data
    | _ => none).reverse

/-- Nothing has been pushed behind the return of a `term`. -/
def Closed : List (Event T) → Prop
  | [] => True
  | .pushed _ :: events => .terminated ∉ events ∧ Closed events
  | _ :: events => Closed events

/-- The promises of a closable bounded queue. -/
structure Promises (events : List (Event T)) : Prop where
  inOrder : popped events <+: pushed events
  closed : Closed events
  interrupted : ∀ wake, .failed 0 wake .eintr ∈ events →
    wake = .interrupted

end Steps

end EtchAprQueue

end Etch.C
