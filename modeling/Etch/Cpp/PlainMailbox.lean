import Etch.Cpp.CircularQueue
import Etch.Library.Monitor
import Mathlib.Logic.Function.Basic
import Mathlib.Tactic.SplitIfs

/-!
# The C++ `EtchPlainMailbox` under any schedule

Any number of threads call the operations of one mailbox.  A thread is a stack
of operations, each at the place it has come to: only a registered listener,
which `fireNotify` calls with `mQueueMutex` held, calls further ones.  One step
of a thread runs to the next place at which another thread may come between.
A wait gives back `mMutex` of the queue alone, and may end at any time.  The
calls of the mailbox manager are left out.
-/

namespace Etch.Cpp.EtchPlainMailbox

open Etch.Library.Monitor

variable {Thread Element : Type} [DecidableEq Thread]

/-! ## Places -/

/--
The places at which an operation stops.  Those of `read` carry `maxDelay`, and
`closing` is set where `closeRead` has called `read` or `closeDelivery`.
-/
inductive Place (Element : Type) where
  | messageLock (element : Element)
  | messagePut (element : Element)
  | messagePutting (element : Element)
  | messageUnlock (status : Status)
  | notifyLock
  | notifyListener
  | readLock (maxDelay : Int) (closing : Bool)
  | readGet (maxDelay : Int) (closing : Bool)
  | readGetting (maxDelay : Int) (closing : Bool)
  | readWait (maxDelay : Int) (closing : Bool)
  | readWoken (maxDelay : Int) (closing : Bool)
  | readUnlock (closing : Bool) (status : Status)
      (element : Option Element)
  | closeLock (withNotification closing : Bool)
  | closeTest (withNotification closing : Bool)
  | closeQueue (withNotification closing : Bool)
  | closeClosing (withNotification closing : Bool)
  | closeUnlock (withNotification closing : Bool) (status : Status)

/-- The calls of `message`, `read`, `closeDelivery` and `closeRead`. -/
inductive Call : Place Element → Prop where
  | message (element : Element) : Call (.messageLock element)
  | read (maxDelay : Int) : Call (.readLock maxDelay false)
  | closeDelivery (withNotification : Bool) :
      Call (.closeLock withNotification false)
  | closeRead : Call (.closeLock false true)

/-- Whether `mQueueMutex` is held, by this operation, at a place. -/
def Place.holds : Place Element → Bool
  | .messageLock _ => false
  | .notifyLock => false
  | .readLock _ _ => false
  | .closeLock _ _ => false
  | _ => true

/-- The places within `get` of the queue once it has started to wait. -/
inductive Waiting (maxDelay : Int) : Place Element → Prop where
  | wait (closing : Bool) : Waiting maxDelay (.readWait maxDelay closing)
  | woken (closing : Bool) :
      Waiting maxDelay (.readWoken maxDelay closing)

/-! ## Steps -/

/-- Where `mQueueMutex` is taken, with the place after it. -/
def Place.locked : Place Element → Option (Place Element)
  | .messageLock element => some (.messagePut element)
  | .notifyLock => some .notifyListener
  | .readLock maxDelay closing => some (.readGet maxDelay closing)
  | .closeLock withNotification closing =>
      some (.closeTest withNotification closing)
  | _ => none

/-- Where `mQueueMutex` is given back, with the places after it. -/
def Place.unlocked : Place Element → Option (List (Place Element))
  | .messageUnlock status =>
      some (if status = .ETCH_OK then [.notifyLock] else [])
  | .notifyListener => some []
  | .readUnlock closing status _ =>
      -- `closeRead` redelivers an element and reads the next one
      some (if closing ∧ status = .ETCH_OK then [.readLock 0 true]
        else [])
  | .closeUnlock withNotification closing status =>
      some (if status ≠ .ETCH_OK then []
        else if closing then [.readLock 0 true]
        else if withNotification then [.notifyLock]
        else [])
  | _ => none

/-- Where `mMutex` is taken, on the way into the queue or after a wait. -/
def Place.entered : Place Element → Option (Place Element)
  | .messagePut element => some (.messagePutting element)
  | .readGet maxDelay closing => some (.readGetting maxDelay closing)
  | .readWait maxDelay closing => some (.readWoken maxDelay closing)
  | .closeQueue withNotification closing =>
      some (.closeClosing withNotification closing)
  | _ => none

/-- What is done with the queue while `mMutex` is held. -/
inductive Work (queue : EtchCircularQueue Element) :
    Place Element → EtchCircularQueue Element → Place Element →
      Prop where
  | put (element : Element) :
      Work queue (.messagePutting element) (queue.putNow element).2
        (.messageUnlock (queue.putNow element).1)
  | get (maxDelay : Int) (closing : Bool)
      (some : queue.isEmpty = false) :
      Work queue (.readGetting maxDelay closing) queue.get0.2.2
        (.readUnlock closing queue.get0.1 queue.get0.2.1)
  | getNow (maxDelay : Int) (closing : Bool)
      (empty : queue.isEmpty = true) (now : maxDelay < 0) :
      Work queue (.readGetting maxDelay closing) queue
        (.readUnlock closing .ETCH_EINVAL none)
  | getClosed (maxDelay : Int) (closing : Bool)
      (empty : queue.isEmpty = true) (delay : 0 ≤ maxDelay)
      (closed : queue.isClosed = true) :
      Work queue (.readGetting maxDelay closing) queue
        (.readUnlock closing .ETCH_ERROR none)
  | wait (maxDelay : Int) (closing : Bool)
      (empty : queue.isEmpty = true) (delay : 0 ≤ maxDelay)
      (opened : queue.isClosed = false) :
      Work queue (.readGetting maxDelay closing) queue
        (.readWait maxDelay closing)
  | wokenGet (maxDelay : Int) (closing : Bool)
      (some : queue.isEmpty = false) :
      Work queue (.readWoken maxDelay closing) queue.get0.2.2
        (.readUnlock closing queue.get0.1 queue.get0.2.1)
  | wokenClosed (maxDelay : Int) (closing : Bool)
      (empty : queue.isEmpty = true) (closed : queue.isClosed = true) :
      Work queue (.readWoken maxDelay closing) queue
        (.readUnlock closing .ETCH_OK none)
  /-- The time has elapsed; with 0 the end is never reached. -/
  | wokenTimeout (maxDelay : Int) (closing : Bool)
      (empty : queue.isEmpty = true) (opened : queue.isClosed = false)
      (limited : 0 < maxDelay) :
      Work queue (.readWoken maxDelay closing) queue
        (.readUnlock closing .ETCH_TIMEOUT none)
  | wokenAgain (maxDelay : Int) (closing : Bool)
      (empty : queue.isEmpty = true)
      (opened : queue.isClosed = false) :
      Work queue (.readWoken maxDelay closing) queue
        (.readWait maxDelay closing)
  | close (withNotification closing : Bool) :
      Work queue (.closeClosing withNotification closing) queue.close
        (.closeUnlock withNotification closing .ETCH_OK)

/-- What the threads share; `mMutex` is the mutex of the queue. -/
structure Shared (Thread Element : Type) where
  mNotify : Bool
  mQueueMutex : Lock Thread
  mMutex : Lock Thread
  mQueue : EtchCircularQueue Element

/-- What `thread` does at a place, and the places that take over from it. -/
inductive Run (thread : Thread) (shared : Shared Thread Element) :
    Place Element → Shared Thread Element → List (Place Element) →
      Prop where
  | lock {place next : Place Element} {lock : Lock Thread}
      (goes : place.locked = some next)
      (acquired : shared.mQueueMutex.acquire thread = some lock) :
      Run thread shared place { shared with mQueueMutex := lock } [next]
  | unlock {place : Place Element} {next : List (Place Element)}
      {lock : Lock Thread} (goes : place.unlocked = some next)
      (released : shared.mQueueMutex.release thread = some lock) :
      Run thread shared place { shared with mQueueMutex := lock } next
  | enter {place next : Place Element} {lock : Lock Thread}
      (goes : place.entered = some next)
      (acquired : shared.mMutex.acquire thread = some lock) :
      Run thread shared place { shared with mMutex := lock } [next]
  | work {place next : Place Element} {lock : Lock Thread}
      {queue : EtchCircularQueue Element}
      (works : Work shared.mQueue place queue next)
      (released : shared.mMutex.release thread = some lock) :
      Run thread shared place
        { shared with mMutex := lock, mQueue := queue } [next]
  | test (withNotification closing : Bool) :
      Run thread shared (.closeTest withNotification closing) shared
        [if shared.mQueue.isClosed then
          .closeUnlock withNotification closing .ETCH_EINVAL
        else
          .closeQueue withNotification closing]
  | notify {place : Place Element} (registered : shared.mNotify = true)
      (call : Call place) :
      Run thread shared .notifyListener shared [place, .notifyListener]

structure State (Thread Element : Type) where
  shared : Shared Thread Element
  /-- The places of a thread, the innermost operation first. -/
  places : Thread → List (Place Element)

/-- The state with `thread` at other places. -/
def State.go (state : State Thread Element) (thread : Thread)
    (shared : Shared Thread Element) (places : List (Place Element)) :
    State Thread Element :=
  ⟨shared, Function.update state.places thread places⟩

@[simp]
theorem State.shared_go (state : State Thread Element) (thread : Thread)
    (shared : Shared Thread Element) (places : List (Place Element)) :
    (state.go thread shared places).shared = shared := rfl

@[simp]
theorem State.places_go_self (state : State Thread Element)
    (thread : Thread) (shared : Shared Thread Element)
    (places : List (Place Element)) :
    (state.go thread shared places).places thread = places :=
  Function.update_self ..

theorem State.places_go_of_ne (state : State Thread Element)
    {thread other : Thread} (different : other ≠ thread)
    (shared : Shared Thread Element) (places : List (Place Element)) :
    (state.go thread shared places).places other = state.places other :=
  Function.update_of_ne different ..

/-- A thread calls an operation, or goes on with the innermost one. -/
inductive ThreadStep (thread : Thread) :
    State Thread Element → State Thread Element → Prop where
  | call {state : State Thread Element} {place : Place Element}
      (idle : state.places thread = []) (call : Call place) :
      ThreadStep thread state (state.go thread state.shared [place])
  | run {state : State Thread Element} {place : Place Element}
      {outer next : List (Place Element)}
      {shared : Shared Thread Element}
      (at_place : state.places thread = place :: outer)
      (runs : Run thread state.shared place shared next) :
      ThreadStep thread state (state.go thread shared (next ++ outer))

def Step (state next : State Thread Element) : Prop :=
  ∃ thread, ThreadStep thread state next

/-- A new mailbox, with a listener registered or not. -/
def initial (mNotify : Bool) : State Thread Element where
  shared := ⟨mNotify, .free, .free, .new 1⟩
  places := fun _ => []

abbrev Reaches (state next : State Thread Element) : Prop :=
  Relation.ReflTransGen Step state next

/-! ## Who holds the mutex -/

/-- How many operations of a thread hold `mQueueMutex`. -/
def holding (places : List (Place Element)) : Nat :=
  places.countP Place.holds

theorem holds_of_locked {place next : Place Element}
    (goes : place.locked = some next) :
    place.holds = false ∧ next.holds = true := by
  cases place <;> cases goes <;> exact ⟨rfl, rfl⟩

theorem holds_of_unlocked {place : Place Element}
    {next : List (Place Element)} (goes : place.unlocked = some next) :
    place.holds = true ∧
      (next = [] ∨ ∃ later, next = [later] ∧ later.holds = false) := by
  cases place <;> cases goes <;> refine ⟨rfl, ?_⟩
  case messageUnlock.refl =>
    split_ifs
    · exact .inr ⟨_, rfl, rfl⟩
    · exact .inl rfl
  case notifyListener.refl => exact .inl rfl
  case readUnlock.refl =>
    split_ifs
    · exact .inr ⟨_, rfl, rfl⟩
    · exact .inl rfl
  case closeUnlock.refl =>
    split_ifs
    · exact .inl rfl
    · exact .inr ⟨_, rfl, rfl⟩
    · exact .inr ⟨_, rfl, rfl⟩
    · exact .inl rfl

theorem holds_of_entered {place next : Place Element}
    (goes : place.entered = some next) :
    place.holds = true ∧ next.holds = true := by
  cases place <;> cases goes <;> exact ⟨rfl, rfl⟩

theorem Work.holds {queue queue' : EtchCircularQueue Element}
    {place next : Place Element} (work : Work queue place queue' next) :
    place.holds = true ∧ next.holds = true := by
  cases work <;> exact ⟨rfl, rfl⟩

theorem Call.holds {place : Place Element} (call : Call place) :
    place.holds = false := by
  cases call <;> rfl

/-- A thread takes the mutex as it comes to hold it, and no other time. -/
theorem Run.count {thread : Thread} {shared next : Shared Thread Element}
    {place : Place Element} {places : List (Place Element)}
    (runs : Run thread shared place next places) (other : Thread) :
    next.mQueueMutex.count other +
        (if other = thread then holding [place] else 0) =
      shared.mQueueMutex.count other +
        (if other = thread then holding places else 0) := by
  cases runs with
  | lock goes acquired =>
      obtain ⟨before, after⟩ := holds_of_locked goes
      rw [Lock.count_acquire acquired other]
      simp [holding, before, after]
  | unlock goes released =>
      obtain ⟨before, after⟩ := holds_of_unlocked goes
      rw [Lock.count_release released other]
      rcases after with rfl | ⟨later, rfl, free⟩
      · simp [holding, before]
      · simp [holding, before, free]
  | enter goes acquired =>
      obtain ⟨before, after⟩ := holds_of_entered goes
      simp [holding, before, after]
  | work works released =>
      obtain ⟨before, after⟩ := works.holds
      simp [holding, before, after]
  | test withNotification closing =>
      cases shared.mQueue.isClosed <;> rfl
  | notify registered call =>
      simp [holding, call.holds]

/-! ## What holds in every state -/

theorem Waiting.holds {maxDelay : Int} {place : Place Element}
    (waiting : Waiting maxDelay place) : place.holds = true := by
  cases waiting <;> rfl

theorem Call.not_waiting {maxDelay : Int} {place : Place Element}
    (call : Call place) : ¬ Waiting maxDelay place := by
  intro waiting
  have held := waiting.holds
  rw [call.holds] at held
  exact nomatch held

/-- The queue is only changed by a thread that holds `mQueueMutex`. -/
theorem Run.queue {thread : Thread} {shared next : Shared Thread Element}
    {place : Place Element} {places : List (Place Element)}
    (runs : Run thread shared place next places) :
    next.mQueue = shared.mQueue ∨ place.holds = true := by
  cases runs with
  | work works released => exact .inr works.holds.1
  | _ => exact .inl rfl

/-- Only a listener calls an operation from within another one. -/
theorem Run.outer {thread : Thread} {shared next : Shared Thread Element}
    {place first : Place Element} {others : List (Place Element)}
    (runs : Run thread shared place next (first :: others)) :
    ∀ other ∈ others, other = .notifyListener := by
  generalize same : first :: others = places at runs
  cases runs with
  | unlock goes released =>
      rcases (holds_of_unlocked goes).2 with rfl | ⟨later, rfl, -⟩
      · exact nomatch same
      · obtain ⟨-, rfl⟩ := List.cons.inj same
        intro other member
        exact nomatch member
  | notify registered call =>
      obtain ⟨-, rfl⟩ := List.cons.inj same
      intro other member
      exact List.mem_singleton.mp member
  | _ =>
      obtain ⟨-, rfl⟩ := List.cons.inj same
      intro other member
      exact nomatch member

theorem Work.waiting {queue queue' : EtchCircularQueue Element}
    {place next : Place Element} {maxDelay : Int}
    (works : Work queue place queue' next)
    (waiting : Waiting maxDelay next) :
    queue'.isEmpty = true ∧ queue'.isClosed = false := by
  cases works with
  | wait _ _ empty _ opened => exact ⟨empty, opened⟩
  | wokenAgain _ _ empty opened => exact ⟨empty, opened⟩
  | _ => exact nomatch waiting

/-- A wait begins, or goes on, with the queue empty and open. -/
theorem Run.waiting {thread : Thread}
    {shared next : Shared Thread Element} {place first : Place Element}
    {others : List (Place Element)} {maxDelay : Int}
    (runs : Run thread shared place next (first :: others))
    (waiting : Waiting maxDelay first) :
    (next.mQueue.isEmpty = true ∧ next.mQueue.isClosed = false) ∨
      (Waiting maxDelay place ∧ next.mQueue = shared.mQueue) := by
  have held := waiting.holds
  generalize same : first :: others = places at runs
  cases runs with
  | lock goes acquired =>
      obtain ⟨rfl, -⟩ := List.cons.inj same
      cases place <;> cases goes <;> exact nomatch waiting
  | unlock goes released =>
      rcases (holds_of_unlocked goes).2 with rfl | ⟨later, rfl, free⟩
      · exact nomatch same
      · obtain ⟨rfl, -⟩ := List.cons.inj same
        rw [free] at held
        exact nomatch held
  | enter goes acquired =>
      obtain ⟨rfl, -⟩ := List.cons.inj same
      refine .inr ⟨?_, rfl⟩
      cases waiting with
      | wait closing => cases place <;> cases goes
      | woken closing =>
          cases place <;> cases goes
          exact .wait closing
  | work works released =>
      obtain ⟨rfl, -⟩ := List.cons.inj same
      exact .inl (works.waiting waiting)
  | test withNotification closing =>
      obtain ⟨rfl, -⟩ := List.cons.inj same
      cases closed : shared.mQueue.isClosed <;>
        simp only [closed, if_true] at waiting <;> exact nomatch waiting
  | notify registered call =>
      obtain ⟨rfl, -⟩ := List.cons.inj same
      exact absurd waiting call.not_waiting

structure Invariant (state : State Thread Element) : Prop where
  count : ∀ thread, state.shared.mQueueMutex.count thread =
    holding (state.places thread)
  outer : ∀ thread place outer, state.places thread = place :: outer →
    ∀ other ∈ outer, other = .notifyListener
  waiting : ∀ thread place outer maxDelay,
    state.places thread = place :: outer → Waiting maxDelay place →
    state.shared.mQueue.isEmpty = true ∧
      state.shared.mQueue.isClosed = false

theorem invariant_initial (mNotify : Bool) :
    Invariant (initial mNotify : State Thread Element) where
  count _ := rfl
  outer _ _ _ absent := nomatch absent
  waiting _ _ _ _ absent := nomatch absent

theorem Invariant.step {state next : State Thread Element}
    (invariant : Invariant state) (step : Step state next) :
    Invariant next := by
  obtain ⟨thread, step⟩ := step
  cases step with
  | @call place idle call =>
      constructor
      · intro other
        by_cases mine : other = thread
        · subst mine
          rw [State.places_go_self, State.shared_go, invariant.count, idle]
          simp [holding, call.holds]
        · rw [State.places_go_of_ne _ mine]
          exact invariant.count other
      · intro other first others at_place
        by_cases mine : other = thread
        · subst mine
          rw [State.places_go_self] at at_place
          obtain ⟨-, rfl⟩ := List.cons.inj at_place
          exact fun _ absent => by cases absent
        · rw [State.places_go_of_ne _ mine] at at_place
          exact invariant.outer other first others at_place
      · intro other first others maxDelay at_place waiting
        by_cases mine : other = thread
        · subst mine
          rw [State.places_go_self] at at_place
          obtain ⟨rfl, -⟩ := List.cons.inj at_place
          exact absurd waiting call.not_waiting
        · rw [State.places_go_of_ne _ mine] at at_place
          exact invariant.waiting other first others maxDelay at_place
            waiting
  | @run place outer places shared at_place runs =>
      have outer_listens := invariant.outer thread place outer at_place
      constructor
      · intro other
        have count := runs.count other
        have before := invariant.count other
        by_cases mine : other = thread
        · subst mine
          rw [State.places_go_self, State.shared_go, holding,
            List.countP_append]
          rw [at_place, ← List.singleton_append, holding,
            List.countP_append] at before
          simp only [if_true, holding] at count
          omega
        · rw [State.places_go_of_ne _ mine, State.shared_go]
          rw [if_neg mine, if_neg mine] at count
          exact count.trans before
      · intro other first others at_place'
        by_cases mine : other = thread
        · subst mine
          rw [State.places_go_self] at at_place'
          cases places with
          | nil =>
              rw [List.nil_append] at at_place'
              subst at_place'
              intro o member
              exact outer_listens o (List.mem_cons_of_mem _ member)
          | cons top inner =>
              obtain ⟨-, rfl⟩ := List.cons.inj at_place'
              intro o member
              rcases List.mem_append.mp member with member | member
              · exact runs.outer o member
              · exact outer_listens o member
        · rw [State.places_go_of_ne _ mine] at at_place'
          exact invariant.outer other first others at_place'
      · intro other first others maxDelay at_place' waiting
        by_cases mine : other = thread
        · subst mine
          rw [State.places_go_self] at at_place'
          cases places with
          | nil =>
              rw [List.nil_append] at at_place'
              subst at_place'
              obtain rfl := outer_listens first List.mem_cons_self
              cases waiting
          | cons top inner =>
              obtain ⟨rfl, -⟩ := List.cons.inj at_place'
              rcases runs.waiting waiting with found | ⟨before, same⟩
              · exact found
              · rw [State.shared_go, same]
                exact invariant.waiting other place outer maxDelay
                  at_place before
        · rw [State.places_go_of_ne _ mine] at at_place'
          have before := invariant.waiting other first others maxDelay
            at_place' waiting
          rcases runs.queue with same | held
          · rw [State.shared_go, same]
            exact before
          · -- both threads would hold the mutex
            refine absurd (@Lock.count_pos_unique _ _
              state.shared.mQueueMutex _ _ ?_ ?_) mine
            · rw [invariant.count, at_place', holding,
                List.countP_cons_of_pos waiting.holds]
              exact Nat.succ_pos _
            · rw [invariant.count, at_place, holding,
                List.countP_cons_of_pos held]
              exact Nat.succ_pos _

theorem invariant_of_initial {mNotify : Bool}
    {state : State Thread Element}
    (reaches : Reaches (initial mNotify) state) : Invariant state :=
  invariant_of_reaches Invariant (fun _ _ held step => held.step step)
    reaches (invariant_initial mNotify)

/-! ## Readers and the threads that deliver -/

/-- `thread` can take a step. -/
def Enabled (thread : Thread) (state : State Thread Element) : Prop :=
  ∃ next, ThreadStep thread state next

/-- The reader waits, and no other thread can take `mQueueMutex`. -/
structure Blocked (reader : Thread) (maxDelay : Int)
    (state : State Thread Element) : Prop where
  waiting : ∃ place outer, state.places reader = place :: outer ∧
    Waiting maxDelay place
  empty : state.shared.mQueue.isEmpty = true
  opened : state.shared.mQueue.isClosed = false
  excluded : ∀ other ≠ reader,
    state.shared.mQueueMutex.acquire other = none

/-- The reader returns without a message since its time has elapsed. -/
def TimedOut (reader : Thread) (maxDelay : Int)
    (state : State Thread Element) : Prop :=
  0 < maxDelay ∧ ∃ closing outer,
    state.places reader =
      .readUnlock closing .ETCH_TIMEOUT none :: outer

theorem Invariant.blocked {state : State Thread Element}
    (invariant : Invariant state) {reader : Thread}
    {place : Place Element} {outer : List (Place Element)}
    {maxDelay : Int} (at_place : state.places reader = place :: outer)
    (waiting : Waiting maxDelay place) :
    Blocked reader maxDelay state := by
  obtain ⟨empty, opened⟩ :=
    invariant.waiting reader place outer maxDelay at_place waiting
  refine ⟨⟨place, outer, at_place, waiting⟩, empty, opened, ?_⟩
  intro other different
  refine Lock.acquire_eq_none ?_ different
  rw [invariant.count, at_place, holding,
    List.countP_cons_of_pos waiting.holds]
  exact Nat.succ_pos _

/-- A thread that is about to take `mQueueMutex` cannot go on. -/
theorem Blocked.not_enabled {reader other : Thread} {maxDelay : Int}
    {state : State Thread Element} (blocked : Blocked reader maxDelay state)
    (different : other ≠ reader) {place next : Place Element}
    {outer : List (Place Element)}
    (at_place : state.places other = place :: outer)
    (goes : place.locked = some next) : ¬ Enabled other state := by
  rintro ⟨later, step⟩
  cases step with
  | call idle =>
      rw [at_place] at idle
      exact nomatch idle
  | run at_place' runs =>
      obtain ⟨rfl, -⟩ := List.cons.inj (at_place.symm.trans at_place')
      have free := (holds_of_locked goes).1
      cases runs with
      | lock _ acquired =>
          rw [blocked.excluded other different] at acquired
          exact nomatch acquired
      | unlock goes' =>
          rw [(holds_of_unlocked goes').1] at free
          exact nomatch free
      | enter goes' =>
          rw [(holds_of_entered goes').1] at free
          exact nomatch free
      | work works =>
          rw [works.holds.1] at free
          exact nomatch free
      | test => exact nomatch goes
      | notify => exact nomatch goes

/-- A reader that waits goes on waiting, or its time elapses. -/
theorem Blocked.step {reader : Thread} {maxDelay : Int}
    {state next : State Thread Element}
    (blocked : Blocked reader maxDelay state)
    (invariant : Invariant state) (step : Step state next) :
    Blocked reader maxDelay next ∨ TimedOut reader maxDelay next := by
  have invariant' := invariant.step step
  obtain ⟨place, outer, at_place, waiting⟩ := blocked.waiting
  obtain ⟨thread, step⟩ := step
  cases step with
  | @call called idle call =>
      have different : reader ≠ thread := by
        rintro rfl
        rw [at_place] at idle
        exact nomatch idle
      have stays : (state.go thread state.shared [called]).places reader =
          place :: outer :=
        (state.places_go_of_ne different ..).trans at_place
      exact .inl (invariant'.blocked stays waiting)
  | @run _ inner places shared at_place' runs =>
      by_cases mine : reader = thread
      · subst mine
        obtain ⟨rfl, rfl⟩ := List.cons.inj (at_place.symm.trans at_place')
        cases runs with
        | lock goes => cases waiting <;> exact nomatch goes
        | unlock goes => cases waiting <;> exact nomatch goes
        | enter goes acquired =>
            cases waiting with
            | wait closing =>
                obtain rfl := Option.some.inj goes
                exact .inl (invariant'.blocked
                  (State.places_go_self ..) (.woken closing))
            | woken closing => exact nomatch goes
        | work works released =>
            cases waiting with
            | wait closing => exact nomatch works
            | woken closing =>
                cases works with
                | wokenGet _ _ filled =>
                    rw [blocked.empty] at filled
                    exact nomatch filled
                | wokenClosed _ _ _ closed =>
                    rw [blocked.opened] at closed
                    exact nomatch closed
                | wokenTimeout _ _ _ _ limited =>
                    exact .inr ⟨limited, closing, _,
                      State.places_go_self ..⟩
                | wokenAgain =>
                    exact .inl (invariant'.blocked
                      (State.places_go_self ..) (.wait closing))
        | test => exact nomatch waiting
        | notify => exact nomatch waiting
      · have stays : (state.go thread shared (places ++ inner)).places
            reader = place :: outer :=
          (state.places_go_of_ne mine ..).trans at_place
        exact .inl (invariant'.blocked stays waiting)

theorem Blocked.reaches {reader : Thread} {maxDelay : Int}
    {state later : State Thread Element}
    (blocked : Blocked reader maxDelay state)
    (invariant : Invariant state) (reaches : Reaches state later) :
    Blocked reader maxDelay later ∨ ∃ middle, Reaches state middle ∧
      Reaches middle later ∧ TimedOut reader maxDelay middle := by
  induction reaches with
  | refl => exact .inl blocked
  | @tail middle next front last ih =>
      rcases ih with blocked' | ⟨earlier, before, after, out⟩
      · have invariant' := invariant_of_reaches Invariant
          (fun _ _ held step => held.step step) front invariant
        rcases blocked'.step invariant' last with blocked'' | out
        · exact .inl blocked''
        · exact .inr ⟨next, front.tail last, .refl, out⟩
      · exact .inr ⟨earlier, before, after.tail last, out⟩

/--
Whenever a reader waits, the queue is empty and open; no other thread can
begin to deliver a message or to close the mailbox; and the reader waits for
ever or until its time has elapsed, and so never returns a message.
-/
theorem waiting_excludes_delivery {mNotify : Bool}
    {state : State Thread Element}
    (reaches : Reaches (initial mNotify) state) {reader : Thread}
    {maxDelay : Int} {closing : Bool} {outer : List (Place Element)}
    (waits : state.places reader = .readWait maxDelay closing :: outer) :
    (state.shared.mQueue.isEmpty = true ∧
      state.shared.mQueue.isClosed = false) ∧
    (∀ other ≠ reader, ∀ element outer',
      state.places other = .messageLock element :: outer' →
        ¬ Enabled other state) ∧
    (∀ other ≠ reader, ∀ withNotification closing' outer',
      state.places other = .closeLock withNotification closing' :: outer' →
        ¬ Enabled other state) ∧
    ∀ later, Reaches state later →
      Blocked reader maxDelay later ∨ ∃ middle, Reaches state middle ∧
        Reaches middle later ∧ TimedOut reader maxDelay middle := by
  have invariant := invariant_of_initial reaches
  have blocked := invariant.blocked waits (.wait closing)
  refine ⟨⟨blocked.empty, blocked.opened⟩, ?_, ?_, ?_⟩
  · intro other different element outer' at_place
    exact blocked.not_enabled different at_place rfl
  · intro other different withNotification closing' outer' at_place
    exact blocked.not_enabled different at_place rfl
  · intro later reaches'
    exact blocked.reaches invariant reaches'

/-! ## A reader that came first -/

/-- The first thread has called `read`. -/
def askedState : State Bool Nat :=
  (initial false).go false (initial false).shared [.readLock 0 false]

/-- It waits, with `mQueueMutex` still held. -/
def waitingState : State Bool Nat :=
  ((askedState.go false
        ⟨false, .held false 0, .free, .new 1⟩ [.readGet 0 false]).go false
      ⟨false, .held false 0, .held false 0, .new 1⟩
      [.readGetting 0 false]).go false
    ⟨false, .held false 0, .free, .new 1⟩ [.readWait 0 false]

/-- The second thread has called `message`. -/
def deliveringState : State Bool Nat :=
  waitingState.go true waitingState.shared [.messageLock 7]

theorem reaches_deliveringState :
    Reaches (initial false) deliveringState := by
  have asked : Step (initial false) askedState :=
    ⟨false, .call rfl (.read 0)⟩
  have locked : Step askedState (askedState.go false
      ⟨false, .held false 0, .free, .new 1⟩ [.readGet 0 false]) :=
    ⟨false, .run (State.places_go_self ..) (.lock rfl rfl)⟩
  have entered := ThreadStep.run
    (State.places_go_self askedState false
      ⟨false, .held false 0, .free, .new 1⟩ [.readGet 0 false])
    (.enter rfl rfl)
  have waiting := ThreadStep.run
    (State.places_go_self (askedState.go false
        ⟨false, .held false 0, .free, .new 1⟩ [.readGet 0 false]) false
      ⟨false, .held false 0, .held false 0, .new 1⟩
      [.readGetting 0 false])
    (.work (.wait 0 false rfl (Int.le_refl 0) rfl) rfl)
  have called : Step waitingState deliveringState :=
    ⟨true, .call rfl (.message 7)⟩
  exact ((((Relation.ReflTransGen.single asked).tail locked).tail
    ⟨false, entered⟩).tail ⟨false, waiting⟩).tail called

/-- The second thread cannot deliver, and the first never returns it. -/
theorem waiting_excludes_delivery_first :
    ¬ Enabled true deliveringState ∧
    ∀ later, Reaches deliveringState later →
      Blocked false 0 later ∨ ∃ middle, Reaches deliveringState middle ∧
        Reaches middle later ∧ TimedOut false 0 middle := by
  obtain ⟨-, messages, -, forever⟩ :=
    @waiting_excludes_delivery Bool Nat _ false deliveringState
      reaches_deliveringState false 0 false [] rfl
  exact ⟨messages true (by decide) 7 [] rfl, forever⟩

/-- Not every reader that waits lets a message be delivered. -/
theorem not_waiting_lets_deliver :
    ¬ ∀ state : State Bool Nat, Reaches (initial false) state →
      ∀ reader maxDelay closing outer,
        state.places reader = .readWait maxDelay closing :: outer →
        ∀ other ≠ reader, ∀ element outer',
          state.places other = .messageLock element :: outer' →
          Enabled other state := by
  intro lets
  obtain ⟨next, step⟩ := lets deliveringState reaches_deliveringState
    false 0 false [] rfl true (by decide) 7 [] rfl
  cases step with
  | call idle => exact nomatch idle
  | run at_place runs =>
      obtain ⟨rfl, -⟩ := List.cons.inj at_place
      cases runs with
      | lock goes acquired => exact nomatch acquired
      | unlock goes => exact nomatch goes
      | enter goes => exact nomatch goes
      | work works => exact nomatch works

end Etch.Cpp.EtchPlainMailbox
