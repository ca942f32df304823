import Etch.Java.CircularQueue
import Etch.Library.Monitor
import Mathlib.Data.Fintype.Basic

/-!
# The Java `CircularQueue` under any schedule

A method of the queue runs from the entry of the monitor, or from the end of a
wait, to the next wait or to its return, and no other thread comes between.
The log has what each method returned, in the order in which they left the
monitor.  A wait may end without a call of `notify`: by its delay, or as the
virtual machine pleases.
-/

namespace Etch.Java.CircularQueue

open Etch.Library.Monitor

variable {Thread T : Type}

/-! ## Time -/

/-- `Timer.NANOS_PER_MILLI` -/
def NANOS_PER_MILLI : Int := 1000000

/-- `Long.MAX_VALUE` -/
def MAX_VALUE : Int := 2 ^ 63 - 1

/-- A result of `long` arithmetic. -/
def long (value : Int) : Int :=
  Int.bmod value (2 ^ 64)

/--
The values of `System.nanoTime()`: nanoseconds since an origin that lies in the
past, by less than the 146 years after which sums with a delay could overflow.
-/
def Reading (now : Int) : Prop :=
  0 ≤ now ∧ now < 2 ^ 62

instance (now : Int) : Decidable (Reading now) :=
  inferInstanceAs (Decidable (0 ≤ now ∧ now < 2 ^ 62))

def getEndTime (now : Int) (maxDelay : Int32) : Int :=
  if maxDelay.toInt > 0 then
    long (now + long (maxDelay.toInt * NANOS_PER_MILLI))
  else
    MAX_VALUE

theorem long_eq {value : Int} (lower : -2 ^ 63 ≤ value)
    (upper : value < 2 ^ 63) : long value = value := by
  unfold long
  rw [Int.bmod_eq_of_le] <;> omega

theorem now_lt_getEndTime {now : Int} (reading : Reading now)
    (maxDelay : Int32) : now < getEndTime now maxDelay := by
  obtain ⟨lower, upper⟩ := reading
  have small : maxDelay.toInt < 2 ^ 31 := maxDelay.toInt_lt
  unfold getEndTime
  split_ifs with delay
  · have nanos : long (maxDelay.toInt * NANOS_PER_MILLI) =
        maxDelay.toInt * NANOS_PER_MILLI := by
      apply long_eq <;> unfold NANOS_PER_MILLI <;> omega
    rw [nanos, long_eq] <;> unfold NANOS_PER_MILLI <;> omega
  · unfold MAX_VALUE
    omega

/-! ## The methods -/

/-- What a method returned. -/
inductive Event (T : Type) where
  | put (obj : T) (accepted : Bool)
  | get (obj : Option T)
  | close
deriving DecidableEq

/-- Where a thread is. -/
inductive Place (T : Type) where
  | idle
  | get (maxDelay : Int32)
  | getWait (endTime : Int)
  | getWoken (endTime : Int)
  | put (obj : Option T) (maxDelay : Int32)
  | putWait (obj : T) (endTime : Int)
  | putWoken (obj : T) (endTime : Int)
  | close
  | failed (exception : AssertionException)
deriving DecidableEq

/-- The calls a thread may make. -/
inductive Call : Place T → Prop where
  | get (maxDelay : Int32) : Call (.get maxDelay)
  | put (obj : Option T) (maxDelay : Int32) : Call (.put obj maxDelay)
  | close : Call .close

def Place.isCall : Place T → Bool
  | .get _ => true
  | .put _ _ => true
  | .close => true
  | _ => false

theorem Place.isCall_iff {place : Place T} :
    place.isCall = true ↔ Call place := by
  constructor
  · intro call
    cases place with
    | get maxDelay => exact .get maxDelay
    | put obj maxDelay => exact .put obj maxDelay
    | close => exact .close
    | _ => exact nomatch call
  · rintro (_ | _ | _) <;> rfl

/-- Whether a thread is in the wait set of the monitor. -/
def Place.waits : Place T → Bool
  | .getWait _ => true
  | .putWait _ _ => true
  | _ => false

/-- A thread taken out of the wait set, if it is there. -/
def Place.woken : Place T → Place T
  | .getWait endTime => .getWoken endTime
  | .putWait obj endTime => .putWoken obj endTime
  | place => place

/-- Whom a method wakes before it leaves the monitor. -/
inductive Notice where
  | nobody
  | notify
  | notifyAll

/-- What a method has done when it waits or returns. -/
structure Effect (T : Type) where
  place : Place T
  queue : CircularQueue T
  notice : Notice
  event : Option (Event T)

/-- A check that failed. -/
def fails (queue : CircularQueue T) (msg : String) : Effect T :=
  ⟨.failed ⟨msg⟩, queue, .nobody, none⟩

def returns (queue : CircularQueue T) (event : Event T) : Effect T :=
  ⟨.idle, queue, .nobody, some event⟩

/-- `return getAndNotify();` -/
def gets (queue : CircularQueue T) : Effect T :=
  match queue.getAndNotify with
  | .error exception => ⟨.failed exception, queue, .nobody, none⟩
  | .ok (obj, notify, next) =>
      ⟨.idle, next, if notify then .notify else .nobody,
        some (.get (some obj))⟩

/-- `putAndNotify( obj ); return true;` -/
def puts (queue : CircularQueue T) (obj : T) : Effect T :=
  match queue.putAndNotify obj with
  | .error exception => ⟨.failed exception, queue, .nobody, none⟩
  | .ok (notify, next) =>
      ⟨.idle, next, if notify then .notify else .nobody,
        some (.put obj true)⟩

/-- `(end - now) / Timer.NANOS_PER_MILLI` -/
def remaining (endTime now : Int) : Int :=
  (long (endTime - now)).tdiv NANOS_PER_MILLI

/-- The head of the loop in `get`, up to the wait. -/
def awaitGet (queue : CircularQueue T) (now endTime : Int) : Effect T :=
  let d := remaining endTime now
  if d > 0 then
    if !queue.isEmpty then fails queue "isEmpty()"
    else if queue.isClosed then fails queue "!isClosed()"
    else if ¬ d > 0 then fails queue "d > 0"
    else ⟨.getWait endTime, queue, .nobody, none⟩
  else
    returns queue (.get none)

/-- The head of the loop in `put`, up to the wait. -/
def awaitPut (queue : CircularQueue T) (obj : T) (now endTime : Int) :
    Effect T :=
  let d := remaining endTime now
  if d > 0 then
    if !queue.isFull then fails queue "isFull()"
    else if queue.isClosed then fails queue "!isClosed()"
    else if ¬ d > 0 then fails queue "d > 0"
    else ⟨.putWait obj endTime, queue, .nobody, none⟩
  else
    returns queue (.put obj false)

/-- `get( maxDelay )`, from the entry of the monitor on. -/
def enterGet (queue : CircularQueue T) (now : Int) (maxDelay : Int32) :
    Effect T :=
  if !queue.isEmpty then
    gets queue
  else if queue.isClosed ∨ maxDelay.toInt < 0 then
    returns queue (.get none)
  else
    let endTime := getEndTime now maxDelay
    if ¬ endTime > now then fails queue "end > now"
    else awaitGet queue now endTime

/-- `get( maxDelay )`, after a wait. -/
def resumeGet (queue : CircularQueue T) (now endTime : Int) : Effect T :=
  if !queue.isEmpty then
    gets queue
  else if queue.isClosed then
    returns queue (.get none)
  else
    awaitGet queue now endTime

/-- `put( obj, maxDelay )`, from the entry of the monitor on. -/
def enterPut (queue : CircularQueue T) (now : Int) (maxDelay : Int32) :
    Option T → Effect T
  | none =>
      -- the `NullPointerException` leaves the queue as it is
      ⟨.idle, queue, .nobody, none⟩
  | some obj =>
      if queue.isClosed then
        returns queue (.put obj false)
      else if !queue.isFull then
        puts queue obj
      else if maxDelay.toInt < 0 then
        returns queue (.put obj false)
      else
        let endTime := getEndTime now maxDelay
        if ¬ endTime > now then fails queue "end > now"
        else awaitPut queue obj now endTime

/-- `put( obj, maxDelay )`, after a wait. -/
def resumePut (queue : CircularQueue T) (obj : T) (now endTime : Int) :
    Effect T :=
  if queue.isClosed then
    returns queue (.put obj false)
  else if !queue.isFull then
    puts queue obj
  else
    awaitPut queue obj now endTime

/-- `close()` -/
def enterClose (queue : CircularQueue T) : Effect T :=
  if !queue.isClosed then
    ⟨.idle, queue.close, .notifyAll, some .close⟩
  else
    returns queue .close

/-- What a thread does at its place once it has the monitor. -/
def effect (queue : CircularQueue T) (now : Int) :
    Place T → Option (Effect T)
  | .get maxDelay => some (enterGet queue now maxDelay)
  | .getWoken endTime => some (resumeGet queue now endTime)
  | .put obj maxDelay => some (enterPut queue now maxDelay obj)
  | .putWoken obj endTime => some (resumePut queue obj now endTime)
  | .close => some (enterClose queue)
  | _ => none

/-! ## The threads -/

structure State (Thread T : Type) where
  queue : CircularQueue T
  places : Thread → Place T
  log : List (Event T)

/-- Before any call. -/
def State.initial (queue : CircularQueue T) : State Thread T :=
  ⟨queue, fun _ => .idle, []⟩

/--
A thread calls a method, has the monitor at a reading of the clock and wakes
another thread by `notify`, or finds its wait ended.
-/
inductive Action (Thread T : Type) where
  | call (thread : Thread) (place : Place T)
  | enter (thread : Thread) (now : Int) (woken : Option Thread)
  | wake (thread : Thread)

variable [Fintype Thread] [DecidableEq Thread]

/-- The places after a notice, where `notify` has picked a thread. -/
def noticed (places : Thread → Place T) :
    Notice → Option Thread → Option (Thread → Place T)
  | .nobody, none => some places
  | .notify, none =>
      if ∀ thread, (places thread).waits = false then some places else none
  | .notify, some thread =>
      if (places thread).waits then
        some (Function.update places thread (places thread).woken)
      else
        none
  | .notifyAll, none => some fun thread => (places thread).woken
  | _, _ => none

/-- The state after an action, none if the action is not possible. -/
def perform (state : State Thread T) :
    Action Thread T → Option (State Thread T)
  | .call thread place =>
      match state.places thread with
      | .idle =>
          if place.isCall then
            some { state with
              places := Function.update state.places thread place }
          else
            none
      | _ => none
  | .enter thread now woken =>
      if Reading now then do
        let done ← effect state.queue now (state.places thread)
        let places ← noticed
          (Function.update state.places thread done.place) done.notice woken
        return ⟨done.queue, places, state.log ++ done.event.toList⟩
      else
        none
  | .wake thread =>
      if (state.places thread).waits then
        some { state with
          places := Function.update state.places thread
            (state.places thread).woken }
      else
        none

/-- The states reached by actions of a kind. -/
def Reaches (allowed : Action Thread T → Prop) :
    State Thread T → State Thread T → Prop :=
  Relation.ReflTransGen fun state next =>
    ∃ action, allowed action ∧ perform state action = some next

/-- The state after a list of actions. -/
def execute (state : State Thread T) :
    List (Action Thread T) → Option (State Thread T)
  | [] => some state
  | action :: actions => (perform state action).bind (execute · actions)

theorem reaches_of_execute {allowed : Action Thread T → Prop}
    {actions : List (Action Thread T)} {state final : State Thread T}
    (legal : ∀ action ∈ actions, allowed action)
    (executed : execute state actions = some final) :
    Reaches allowed state final := by
  induction actions generalizing state with
  | nil =>
      obtain rfl := Option.some.inj executed
      exact .refl
  | cons action actions ih =>
      obtain ⟨next, performed, executed'⟩ :=
        Option.bind_eq_some_iff.mp executed
      exact .head ⟨action, legal action List.mem_cons_self, performed⟩
        (ih (fun other inside => legal other (List.mem_cons_of_mem _ inside))
          executed')

/-! ## The queue seen from outside -/

/-- What a method may return, and what it does to the elements. -/
inductive Fifo.Takes (size : Nat) :
    Fifo T → Event T → Fifo T → Prop where
  | put (contents : List T) (obj : T) (room : contents.length < size) :
      Takes size ⟨contents, false⟩ (.put obj true)
        ⟨contents ++ [obj], false⟩
  | refused (fifo : Fifo T) (obj : T)
      (why : fifo.closed = true ∨ fifo.contents.length = size) :
      Takes size fifo (.put obj false) fifo
  | get (obj : T) (rest : List T) (closed : Bool) :
      Takes size ⟨obj :: rest, closed⟩ (.get (some obj)) ⟨rest, closed⟩
  | nothing (closed : Bool) :
      Takes size ⟨[], closed⟩ (.get none) ⟨[], closed⟩
  | close (fifo : Fifo T) :
      Takes size fifo .close { fifo with closed := true }

/-- A log of a queue that was empty and open at first. -/
inductive Fifo.Replays (size : Nat) : List (Event T) → Fifo T → Prop where
  | nil : Replays size [] ⟨[], false⟩
  | snoc {log : List (Event T)} {event : Event T} {fifo next : Fifo T}
      (replays : Replays size log fifo)
      (takes : Takes size fifo event next) :
      Replays size (log ++ [event]) next

/-- The elements of the successful puts. -/
def accepted (log : List (Event T)) : List T :=
  log.filterMap fun
    | .put obj true => some obj
    | _ => none

/-- The elements that have been got. -/
def given (log : List (Event T)) : List T :=
  log.filterMap fun
    | .get obj => obj
    | _ => none

/-- The elements got and those still there are those put, in order. -/
theorem Fifo.Replays.accepted_eq {size : Nat} {log : List (Event T)}
    {fifo : Fifo T} (replays : Fifo.Replays size log fifo) :
    accepted log = given log ++ fifo.contents := by
  induction replays with
  | nil => rfl
  | snoc _ takes ih =>
      unfold accepted given at ih ⊢
      rw [List.filterMap_append, List.filterMap_append, ih]
      cases takes <;> simp

/-! ## The array refines the queue -/

/-- What an effect has done to the elements, with no check failed. -/
def Effect.Refines (done : Effect T) (size : Nat) (fifo : Fifo T) : Prop :=
  ∃ next : Fifo T, done.queue.Represents next ∧ done.queue.size = size ∧
    (match done.event with
      | none => next = fifo
      | some event => Fifo.Takes size fifo event next) ∧
    ∀ exception, done.place ≠ .failed exception

section Refinement

variable {queue : CircularQueue T} {fifo : Fifo T} {size : Nat}

theorem Represents.refines_silent (represents : queue.Represents fifo)
    (same : queue.size = size) (place : Place T) (notice : Notice)
    (sound : ∀ exception, place ≠ .failed exception) :
    (⟨place, queue, notice, none⟩ : Effect T).Refines size fifo :=
  ⟨fifo, represents, same, rfl, sound⟩

theorem Represents.refines_returns (represents : queue.Represents fifo)
    (same : queue.size = size) {event : Event T}
    (takes : Fifo.Takes size fifo event fifo) :
    (returns queue event).Refines size fifo :=
  ⟨fifo, represents, same, takes, nofun⟩

theorem Represents.takes_nothing (represents : queue.Represents fifo)
    (empty : queue.isEmpty = true) :
    Fifo.Takes size fifo (.get none) fifo := by
  obtain ⟨contents, closed⟩ := fifo
  obtain rfl := represents.isEmpty_iff.mp empty
  exact .nothing closed

theorem Represents.gets_refines (represents : queue.Represents fifo)
    (same : queue.size = size) (some : queue.isEmpty = false) :
    (gets queue).Refines size fifo := by
  obtain ⟨contents, closed⟩ := fifo
  cases contents with
  | nil =>
      rw [represents.isEmpty_iff.mpr rfl] at some
      exact absurd some Bool.true_eq_false.mp
  | cons first rest =>
      obtain ⟨next, taken, after, size', _⟩ := represents.getAndNotify_ok
      unfold gets
      rw [taken]
      exact ⟨_, after, size'.trans same, .get first rest closed, nofun⟩

theorem Represents.puts_refines (represents : queue.Represents fifo)
    (same : queue.size = size) (opened : queue.isClosed = false)
    (room : queue.isFull = false) (obj : T) :
    (puts queue obj).Refines size fifo := by
  have closed : fifo.closed = false := represents.closed_eq.symm.trans opened
  have short : fifo.contents.length < queue.size := by
    apply Nat.lt_of_le_of_ne represents.length_le
    intro full
    rw [represents.isFull_iff.mpr full] at room
    exact absurd room Bool.true_eq_false.mp
  obtain ⟨next, put, after, size', _⟩ :=
    represents.putAndNotify_ok short obj
  unfold puts
  rw [put]
  obtain ⟨contents, _⟩ := fifo
  obtain rfl := closed
  exact ⟨_, after, size'.trans same, .put contents obj (same ▸ short),
    nofun⟩

theorem Represents.awaitGet_refines (represents : queue.Represents fifo)
    (same : queue.size = size) (empty : queue.isEmpty = true)
    (opened : queue.isClosed = false) (now endTime : Int) :
    (awaitGet queue now endTime).Refines size fifo := by
  unfold awaitGet
  by_cases delay : remaining endTime now > 0
  · simp only [delay, empty, opened, if_true, not_true_eq_false, if_false,
      Bool.not_true, Bool.false_eq_true]
    exact represents.refines_silent same _ _ nofun
  · rw [if_neg delay]
    exact represents.refines_returns same (represents.takes_nothing empty)

theorem Represents.takes_refused (represents : queue.Represents fifo)
    (same : queue.size = size)
    (why : queue.isClosed = true ∨ queue.isFull = true) (obj : T) :
    Fifo.Takes size fifo (.put obj false) fifo := by
  apply Fifo.Takes.refused
  rcases why with closed | full
  · exact Or.inl (represents.closed_eq.symm.trans closed)
  · exact Or.inr ((represents.isFull_iff.mp full).trans same)

theorem Represents.awaitPut_refines (represents : queue.Represents fifo)
    (same : queue.size = size) (full : queue.isFull = true)
    (opened : queue.isClosed = false) (obj : T) (now endTime : Int) :
    (awaitPut queue obj now endTime).Refines size fifo := by
  unfold awaitPut
  by_cases delay : remaining endTime now > 0
  · simp only [delay, full, opened, if_true, not_true_eq_false, if_false,
      Bool.not_true, Bool.false_eq_true]
    exact represents.refines_silent same _ _ nofun
  · rw [if_neg delay]
    exact represents.refines_returns same
      (represents.takes_refused same (Or.inr full) obj)

/-- A method keeps to what the queue it stands for allows. -/
theorem effect_refines (represents : queue.Represents fifo)
    (same : queue.size = size) {now : Int} (reading : Reading now)
    {place : Place T} {done : Effect T}
    (does : effect queue now place = some done) :
    done.Refines size fifo := by
  cases place with
  | get maxDelay =>
      obtain rfl := Option.some.inj does
      simp only [enterGet]
      split_ifs with some closed late
      · exact represents.gets_refines same (by simpa using some)
      · exact represents.refines_returns same
          (represents.takes_nothing (by simpa using some))
      · rw [not_or] at closed
        exact represents.awaitGet_refines same (by simpa using some)
          (by simpa using closed.1) now _
      · exact absurd (now_lt_getEndTime reading maxDelay) late
  | getWoken endTime =>
      obtain rfl := Option.some.inj does
      unfold resumeGet
      split_ifs with some closed
      · exact represents.gets_refines same (by simpa using some)
      · exact represents.refines_returns same
          (represents.takes_nothing (by simpa using some))
      · exact represents.awaitGet_refines same (by simpa using some)
          (by simpa using closed) now endTime
  | put given maxDelay =>
      obtain rfl := Option.some.inj does
      cases given with
      | none => exact represents.refines_silent same _ _ nofun
      | some obj =>
          simp only [enterPut]
          split_ifs with closed room short late
          · exact represents.refines_returns same
              (represents.takes_refused same (Or.inl closed) obj)
          · exact represents.puts_refines same (by simpa using closed)
              (by simpa using room) obj
          · exact represents.refines_returns same
              (represents.takes_refused same
                (Or.inr (by simpa using room)) obj)
          · exact represents.awaitPut_refines same (by simpa using room)
              (by simpa using closed) obj now _
          · exact absurd (now_lt_getEndTime reading maxDelay) late
  | putWoken obj endTime =>
      obtain rfl := Option.some.inj does
      unfold resumePut
      split_ifs with closed room
      · exact represents.refines_returns same
          (represents.takes_refused same (Or.inl closed) obj)
      · exact represents.puts_refines same (by simpa using closed)
          (by simpa using room) obj
      · exact represents.awaitPut_refines same (by simpa using room)
          (by simpa using closed) obj now endTime
  | close =>
      obtain rfl := Option.some.inj does
      unfold enterClose
      split_ifs with opened
      · exact ⟨_, represents.close, same, .close fifo, nofun⟩
      · have closed : fifo.closed = true := by
          rw [← represents.closed_eq]
          simpa [isClosed] using opened
        have takes : Fifo.Takes size fifo .close fifo := by
          obtain ⟨contents, _⟩ := fifo
          obtain rfl := closed
          exact .close _
        exact represents.refines_returns same takes
  | idle => exact nomatch does
  | getWait endTime => exact nomatch does
  | putWait obj endTime => exact nomatch does
  | failed exception => exact nomatch does

end Refinement

/-- What holds between the steps of the threads. -/
structure Invariant (size : Nat) (state : State Thread T) : Prop where
  refines : ∃ fifo, Fifo.Replays size state.log fifo ∧
    state.queue.Represents fifo ∧ state.queue.size = size
  sound : ∀ thread exception, state.places thread ≠ .failed exception

omit [Fintype Thread] [DecidableEq Thread] in
theorem invariant_initial {size : Nat} {queue : CircularQueue T}
    (built : new size = .ok queue) :
    Invariant size (State.initial queue : State Thread T) where
  refines := ⟨⟨[], false⟩, .nil, represents_new built, size_new built⟩
  sound := nofun

theorem Place.woken_sound {place : Place T}
    (sound : ∀ exception, place ≠ .failed exception)
    (exception : AssertionException) :
    place.woken ≠ .failed exception := by
  cases place with
  | failed thrown => exact absurd rfl (sound thrown)
  | _ => exact nofun

omit [Fintype Thread] in
theorem update_sound {places : Thread → Place T} {thread : Thread}
    {place : Place T}
    (sound : ∀ thread exception, places thread ≠ .failed exception)
    (sound' : ∀ exception, place ≠ .failed exception)
    (other : Thread) (exception : AssertionException) :
    Function.update places thread place other ≠ .failed exception := by
  by_cases same : other = thread
  · rw [same, Function.update_self]
    exact sound' exception
  · rw [Function.update_of_ne same]
    exact sound other exception

/-- No notice makes a check fail. -/
theorem noticed_sound {places next : Thread → Place T} {notice : Notice}
    {woken : Option Thread}
    (notified : noticed places notice woken = some next)
    (sound : ∀ thread exception, places thread ≠ .failed exception)
    (thread : Thread) (exception : AssertionException) :
    next thread ≠ .failed exception := by
  unfold noticed at notified
  split at notified
  · obtain rfl := Option.some.inj notified
    exact sound thread exception
  · split_ifs at notified
    obtain rfl := Option.some.inj notified
    exact sound thread exception
  · split_ifs at notified
    obtain rfl := Option.some.inj notified
    exact update_sound sound (Place.woken_sound (sound _)) thread exception
  · obtain rfl := Option.some.inj notified
    exact Place.woken_sound (sound thread) exception
  · exact nomatch notified

/-- What each action comes to. -/
theorem perform_cases {state next : State Thread T}
    {action : Action Thread T}
    (performed : perform state action = some next) :
    (∃ thread place, action = .call thread place ∧
      state.places thread = .idle ∧ Call place ∧
      next = { state with
        places := Function.update state.places thread place }) ∨
    (∃ thread now woken done places, action = .enter thread now woken ∧
      Reading now ∧
      effect state.queue now (state.places thread) = some done ∧
      noticed (Function.update state.places thread done.place) done.notice
        woken = some places ∧
      next = ⟨done.queue, places, state.log ++ done.event.toList⟩) ∨
    (∃ thread, action = .wake thread ∧
      (state.places thread).waits = true ∧
      next = { state with
        places := Function.update state.places thread
          (state.places thread).woken }) := by
  cases action with
  | call thread place =>
      left
      simp only [perform] at performed
      split at performed
      · rename_i idle
        split_ifs at performed with call
        exact ⟨thread, place, rfl, idle, Place.isCall_iff.mp call,
          (Option.some.inj performed).symm⟩
      · exact nomatch performed
  | enter thread now woken =>
      right
      left
      simp only [perform] at performed
      split_ifs at performed with reading
      simp only [Option.bind_eq_bind, Option.bind_eq_some_iff,
        Option.pure_def, Option.some.injEq] at performed
      obtain ⟨done, does, places, notified, rfl⟩ := performed
      exact ⟨thread, now, woken, done, places, rfl, reading, does, notified,
        rfl⟩
  | wake thread =>
      right
      right
      simp only [perform] at performed
      split_ifs at performed with waits
      exact ⟨thread, rfl, waits, (Option.some.inj performed).symm⟩

/-- Every action keeps the invariant. -/
theorem Invariant.step {size : Nat} {state next : State Thread T}
    {action : Action Thread T} (holds : Invariant size state)
    (performed : perform state action = some next) :
    Invariant size next := by
  rcases perform_cases performed with
    ⟨thread, place, _, idle, call, rfl⟩ |
    ⟨thread, now, woken, done, places, _, reading, does, notified, rfl⟩ |
    ⟨thread, _, waits, rfl⟩
  · refine ⟨holds.refines, update_sound holds.sound ?_⟩
    rintro exception rfl
    exact nomatch call
  · obtain ⟨fifo, replays, represents, same⟩ := holds.refines
    obtain ⟨after, represents', same', takes, sound⟩ :=
      effect_refines represents same reading does
    refine ⟨⟨after, ?_, represents', same'⟩,
      noticed_sound notified (update_sound holds.sound sound)⟩
    cases event : done.event with
    | none =>
        rw [event] at takes
        rw [takes, Option.toList_none, List.append_nil]
        exact replays
    | some event' =>
        rw [event] at takes
        exact replays.snoc takes
  · exact ⟨holds.refines,
      update_sound holds.sound (Place.woken_sound (holds.sound thread))⟩

theorem invariant_reached {size : Nat} {queue : CircularQueue T}
    (built : new size = .ok queue)
    {allowed : Action Thread T → Prop} {state : State Thread T}
    (reaches : Reaches allowed (State.initial queue) state) :
    Invariant size state :=
  invariant_of_reaches (Invariant size)
    (fun _ _ holds ⟨_, _, performed⟩ => holds.step performed)
    reaches (invariant_initial built)

/-- A get returns the oldest element there is, also once closed. -/
theorem Represents.enterGet_head {queue : CircularQueue T} {first : T}
    {rest : List T} {closed : Bool}
    (represents : queue.Represents ⟨first :: rest, closed⟩) (now : Int)
    (maxDelay : Int32) :
    (enterGet queue now maxDelay).event = some (.get (some first)) := by
  have some : queue.isEmpty = false := by
    rw [Bool.eq_false_iff, ne_eq, represents.isEmpty_iff]
    exact List.cons_ne_nil first rest
  obtain ⟨next, taken, _⟩ := represents.getAndNotify_ok
  simp only [enterGet, some, Bool.not_false, if_true, gets, taken]

/-- A put is refused once closed, and changes nothing. -/
theorem Represents.enterPut_closed {queue : CircularQueue T}
    {contents : List T} (represents : queue.Represents ⟨contents, true⟩)
    (now : Int) (maxDelay : Int32) (obj : T) :
    enterPut queue now maxDelay (some obj) =
      returns queue (.put obj false) :=
  if_pos represents.closed_eq

/-- One thread puts two elements and gets the first. -/
def putPutGet : List (Action (Fin 1) Nat) :=
  [.call 0 (.put (some 7) 0), .enter 0 5 none,
    .call 0 (.put (some 8) 0), .enter 0 6 none,
    .call 0 (.get 0), .enter 0 7 none]

end Etch.Java.CircularQueue
