import Etch.Cpp.PlainMailbox
import Etch.Library.Ring
import Etch.Library.Transition

/-!
# The C++ `EtchCircularQueue` under any schedule

A method runs with `mMutex` from its entry, or from the end of a wait, to the
next wait or to its return, and no other thread comes between.  A wait may end
at any time: signalled, since its time has elapsed, or for nothing.  The log
has what the methods returned, in the order in which they gave the mutex back.
-/

namespace Etch.Cpp.EtchCircularQueue

open Etch.Library

variable {Thread Element : Type}

/-! ## The methods -/

/-- What a method has returned, and what `get` has stored. -/
inductive Event (Element : Type) where
  | put (obj : Option Element) (status : Status)
  | get (status : Status) (element : Option Element)
  | close

/-- Where a thread is. -/
inductive Place (Element : Type) where
  | idle
  | getWait (endTime : Int)
  | putWait (obj : Element) (endTime : Int)

/-- What a method has done when it waits or returns. -/
structure Effect (Element : Type) where
  place : Place Element
  queue : EtchCircularQueue Element
  event : Option (Event Element)

/-- `capu::NumericLimits::Max<capu::int64_t>()` -/
def MAX : Int := 2 ^ 63 - 1

/-- `end`, at a reading of the clock -/
def deadline (now : Int) (maxDelay : Int32) : Int :=
  if 0 < maxDelay.toInt then now + maxDelay.toInt else MAX

section Methods

variable (queue : EtchCircularQueue Element)

def returns (event : Event Element) : Effect Element :=
  ⟨.idle, queue, some event⟩

/-- `status = getAndNotify(element);` -/
def gets : Effect Element :=
  let (status, element, next) := queue.get0
  next.returns (.get status element)

/-- `status = putAndNotify(obj);` -/
def puts (obj : Element) : Effect Element :=
  let (status, next) := queue.put0 obj
  next.returns (.put obj status)

/-- The head of the loop in `get`, up to the wait. -/
def awaitGet (now end_ : Int) : Effect Element :=
  let d := end_ - now
  if d > 0 then
    if !queue.isEmpty || queue.isClosed || d ≤ 0 then
      queue.returns (.get .ETCH_ERROR none)
    else
      ⟨.getWait end_, queue, none⟩
  else
    queue.returns (.get .ETCH_TIMEOUT none)

/-- `get(element, maxDelay)`, where `element` may be `NULL` -/
def enterGet (element : Bool) (maxDelay : Int32) (now : Int) :
    Effect Element :=
  if !element then
    queue.returns (.get .ETCH_EINVAL none)
  else if !queue.isEmpty then
    queue.gets
  else if maxDelay.toInt < 0 then
    queue.returns (.get .ETCH_EINVAL none)
  else if queue.isClosed then
    queue.returns (.get .ETCH_ERROR none)
  else
    queue.awaitGet now (deadline now maxDelay)

/-- `get(element, maxDelay)`, after a wait -/
def resumeGet (end_ now : Int) : Effect Element :=
  if !queue.isEmpty then
    queue.gets
  else if queue.isClosed then
    -- `ETCH_OK`, with `*element = NULL`
    queue.returns (.get .ETCH_OK none)
  else
    queue.awaitGet now end_

/-- The head of the loop in `put`, up to the wait. -/
def awaitPut (obj : Element) (now end_ : Int) : Effect Element :=
  let d := end_ - now
  if d > 0 then
    if !queue.isFull || queue.isClosed || d ≤ 0 then
      queue.returns (.put obj .ETCH_ERROR)
    else
      ⟨.putWait obj end_, queue, none⟩
  else
    queue.returns (.put obj .ETCH_TIMEOUT)

/-- `put(obj, maxDelay)` -/
def enterPut (obj : Option Element) (maxDelay : Int32) (now : Int) :
    Effect Element :=
  match obj with
  | none => queue.returns (.put none .ETCH_EINVAL)
  | some obj =>
      if queue.isClosed then
        queue.returns (.put obj .ETCH_ERROR)
      else if !queue.isFull then
        queue.puts obj
      else if maxDelay.toInt < 0 then
        queue.returns (.put obj .ETCH_EINVAL)
      else
        queue.awaitPut obj now (deadline now maxDelay)

/-- `put(obj, maxDelay)`, after a wait -/
def resumePut (obj : Element) (end_ now : Int) : Effect Element :=
  if queue.isClosed then
    queue.returns (.put obj .ETCH_ERROR)
  else if !queue.isFull then
    queue.puts obj
  else
    queue.awaitPut obj now end_

end Methods

/-! ## The threads -/

/-- What a thread may do: call a method, or find its wait ended. -/
inductive Request (Element : Type) where
  | put (obj : Option Element) (maxDelay : Int32) (now : Int)
  | get (element : Bool) (maxDelay : Int32) (now : Int)
  | close
  | wake (now : Int)

/-- What a request does at a place, where it can be made. -/
def effect (queue : EtchCircularQueue Element) :
    Place Element → Request Element → Option (Effect Element)
  | .idle, .put obj maxDelay now => some (queue.enterPut obj maxDelay now)
  | .idle, .get element maxDelay now =>
      some (queue.enterGet element maxDelay now)
  | .idle, .close => some (queue.close.returns .close)
  | .getWait end_, .wake now => some (queue.resumeGet end_ now)
  | .putWait obj end_, .wake now => some (queue.resumePut obj end_ now)
  | _, _ => none

structure State (Thread Element : Type) where
  queue : EtchCircularQueue Element
  places : Thread → Place Element
  log : List (Event Element)

/-- A new queue, before any call. -/
def State.initial (size : Nat) : State Thread Element :=
  ⟨.new size, fun _ => .idle, []⟩

/-- The state after a request of a thread. -/
def step [DecidableEq Thread] (state : State Thread Element) :
    Thread × Request Element → Option (State Thread Element)
  | (thread, request) => do
      let done ← effect state.queue (state.places thread) request
      some ⟨done.queue, Function.update state.places thread done.place,
        state.log ++ done.event.toList⟩

/-! ## The queue seen from outside -/

/-- A queue that has been given elements, and may have been closed. -/
structure Fifo (Element : Type) where
  contents : List Element
  closed : Bool

/-- Why nothing is put. -/
inductive Fifo.Refuses (size : Nat) (fifo : Fifo Element) : Status → Prop where
  | closed (closed : fifo.closed = true) : Refuses size fifo .ETCH_ERROR
  | invalid : Refuses size fifo .ETCH_EINVAL
  | late (full : fifo.contents.length = size) :
      Refuses size fifo .ETCH_TIMEOUT

/-- Why nothing is got. -/
inductive Fifo.Lacks (fifo : Fifo Element) : Status → Prop where
  | closed (empty : fifo.contents = []) (closed : fifo.closed = true) :
      Lacks fifo .ETCH_ERROR
  | invalid : Lacks fifo .ETCH_EINVAL
  | late (empty : fifo.contents = []) : Lacks fifo .ETCH_TIMEOUT

/-- What a method may return, and what it does to the elements. -/
inductive Fifo.Takes (size : Nat) :
    Fifo Element → Event Element → Fifo Element → Prop where
  | put (contents : List Element) (obj : Element)
      (room : contents.length < size) :
      Takes size ⟨contents, false⟩ (.put obj .ETCH_OK)
        ⟨contents ++ [obj], false⟩
  | refused (fifo : Fifo Element) (obj : Option Element) {status : Status}
      (why : fifo.Refuses size status) : Takes size fifo (.put obj status) fifo
  | get (obj : Element) (rest : List Element) (closed : Bool) :
      Takes size ⟨obj :: rest, closed⟩ (.get .ETCH_OK obj) ⟨rest, closed⟩
  | nothing (fifo : Fifo Element) {status : Status}
      (why : fifo.Lacks status) : Takes size fifo (.get status none) fifo
  | close (fifo : Fifo Element) :
      Takes size fifo .close { fifo with closed := true }

/-- What was returned tells the truth of a queue that was empty and open at
first, and leaves it so. -/
inductive Fifo.Replays (size : Nat) :
    List (Event Element) → Fifo Element → Prop where
  | nil : Replays size [] ⟨[], false⟩
  | snoc {log : List (Event Element)} {event : Event Element}
      {fifo next : Fifo Element} (replays : Replays size log fifo)
      (takes : Takes size fifo event next) : Replays size (log ++ [event]) next

/-- The elements of the successful puts. -/
def accepted (log : List (Event Element)) : List Element :=
  log.filterMap fun
    | .put obj .ETCH_OK => obj
    | _ => none

/-- The elements that have been got. -/
def given (log : List (Event Element)) : List Element :=
  log.filterMap fun
    | .get .ETCH_OK element => element
    | _ => none

/-- The elements got and those still there are those put, in order. -/
def Ordered (log : List (Event Element)) (fifo : Fifo Element) : Prop :=
  accepted log = given log ++ fifo.contents

theorem Fifo.Takes.ordered {size : Nat} {log : List (Event Element)}
    {event : Event Element} {fifo next : Fifo Element}
    (takes : Takes size fifo event next) (ordered : Ordered log fifo) :
    Ordered (log ++ [event]) next := by
  unfold Ordered accepted given at *
  rw [List.filterMap_append, List.filterMap_append, ordered]
  cases takes with
  | put contents obj room => simp
  | refused _ obj why => cases why <;> simp
  | get obj rest closed => simp
  | nothing _ why => cases why <;> simp
  | close => simp

/-! ## The array -/

/-- The array holds the elements of a queue, from the oldest on. -/
structure Represents (queue : EtchCircularQueue Element)
    (fifo : Fifo Element) : Prop where
  holds : queue.mSize ≠ 0 → Ring.Holds queue.mItems queue.mHead fifo.contents
  fits : fifo.contents.length ≤ queue.mSize
  count_eq : queue.mCount = fifo.contents.length
  tail_eq : queue.mTail =
    (queue.mHead + fifo.contents.length) % queue.mItems.length
  closed_eq : queue.mClosed = fifo.closed

theorem represents_new (size : Nat) :
    (new size : EtchCircularQueue Element).Represents ⟨[], false⟩ where
  holds some := by
    refine Ring.Holds.empty (Nat.pos_of_ne_zero ?_)
    rwa [mSize, new, List.length_replicate] at some
  fits := Nat.zero_le _
  count_eq := rfl
  tail_eq := (Nat.zero_mod _).symm
  closed_eq := rfl

theorem mSize_new (size : Nat) :
    (new size : EtchCircularQueue Element).mSize = size :=
  List.length_replicate

namespace Represents

variable {queue : EtchCircularQueue Element} {fifo : Fifo Element}

theorem isEmpty_iff (represents : queue.Represents fifo) :
    queue.isEmpty = true ↔ fifo.contents = [] := by
  rw [isEmpty, beq_iff_eq, represents.count_eq, List.length_eq_zero_iff]

theorem isFull_iff (represents : queue.Represents fifo) :
    queue.isFull = true ↔ fifo.contents.length = queue.mSize := by
  rw [isFull, beq_iff_eq, represents.count_eq]

theorem close (represents : queue.Represents fifo) :
    queue.close.Represents { fifo with closed := true } :=
  { represents with closed_eq := rfl }

/-- `get0` while the queue is not empty. -/
theorem get0_eq {first : Element} {rest : List Element} {closed : Bool}
    (represents : queue.Represents ⟨first :: rest, closed⟩) :
    ∃ next, queue.get0 = (.ETCH_OK, some first, next) ∧
      next.Represents ⟨rest, closed⟩ ∧ next.mSize = queue.mSize := by
  have count : queue.mCount = rest.length + 1 := represents.count_eq
  have some : queue.mSize ≠ 0 := by
    have fits := represents.fits
    rw [List.length_cons] at fits
    omega
  have holds := represents.holds some
  have found : queue.item queue.mHead = first := by
    rw [item, holds.getElem?_head]
    rfl
  unfold get0
  rw [if_neg (by omega), found]
  refine ⟨_, rfl, ⟨fun _ => holds.pop, ?_, ?_, ?_, represents.closed_eq⟩,
    List.length_set⟩
  · change rest.length ≤ (queue.mItems.set queue.mHead none).length
    rw [List.length_set]
    exact (Nat.le_succ _).trans represents.fits
  · exact Nat.sub_eq_of_eq_add count
  · have tail := represents.tail_eq
    rw [List.length_cons] at tail
    change queue.mTail = (Ring.next queue.mItems.length queue.mHead +
      rest.length) % (queue.mItems.set queue.mHead none).length
    rw [List.length_set, tail, Ring.next_eq_mod holds.head_lt,
      Nat.mod_add_mod, Nat.add_assoc, Nat.add_comm 1]

/-- `put0` while the queue is not full. -/
theorem put0_eq (represents : queue.Represents fifo)
    (room : fifo.contents.length < queue.mSize) (obj : Element) :
    ∃ next, queue.put0 obj = (.ETCH_OK, next) ∧
      next.Represents { fifo with contents := fifo.contents ++ [obj] } ∧
      next.mSize = queue.mSize := by
  have holds := represents.holds (Nat.ne_of_gt (Nat.zero_lt_of_lt room))
  have vacant : queue.item queue.mTail = none := by
    rw [item, represents.tail_eq, holds.getElem?_tail room]
    rfl
  have inside : ¬ (queue.mCount ≥ queue.mSize ∨
      (queue.item queue.mTail).isSome = true) := by
    rw [represents.count_eq, vacant]
    simpa using room
  unfold put0
  rw [if_neg inside]
  refine ⟨_, rfl, ⟨fun _ => ?_, ?_, ?_, ?_, represents.closed_eq⟩,
    List.length_set⟩
  · have pushed := holds.push room obj
    rwa [← represents.tail_eq] at pushed
  · change (fifo.contents ++ [obj]).length ≤
      (queue.mItems.set queue.mTail (some obj)).length
    rw [List.length_set, List.length_append]
    exact room
  · change queue.mCount + 1 = _
    rw [represents.count_eq, List.length_append, List.length_singleton]
  · have tail_lt : queue.mTail < queue.mItems.length := by
      rw [represents.tail_eq]
      exact Nat.mod_lt _ holds.size_pos
    change Ring.next queue.mItems.length queue.mTail =
      (queue.mHead + (fifo.contents ++ [obj]).length) %
        (queue.mItems.set queue.mTail (some obj)).length
    rw [List.length_set, Ring.next_eq_mod tail_lt, represents.tail_eq,
      Nat.mod_add_mod, List.length_append, List.length_singleton,
      Nat.add_assoc]

end Represents

/-! ## The array refines the queue -/

/-- What an effect has done to the elements tells the truth. -/
def Effect.Refines (done : Effect Element) (size : Nat)
    (fifo : Fifo Element) : Prop :=
  ∃ next : Fifo Element, done.queue.Represents next ∧
    done.queue.mSize = size ∧
      match done.event with
      | none => next = fifo
      | some event => Fifo.Takes size fifo event next

/-- A `get` finds its wait ended with the queue empty and closed. -/
def Stranded (queue : EtchCircularQueue Element) :
    Place Element → Request Element → Prop
  | .getWait _, .wake _ => queue.isEmpty = true ∧ queue.isClosed = true
  | _, _ => False

section Refinement

variable {queue : EtchCircularQueue Element} {fifo : Fifo Element} {size : Nat}

theorem Represents.refines_returns (represents : queue.Represents fifo)
    (same : queue.mSize = size) {event : Event Element}
    (takes : Fifo.Takes size fifo event fifo) :
    (queue.returns event).Refines size fifo :=
  ⟨fifo, represents, same, takes⟩

theorem Represents.refines_waits (represents : queue.Represents fifo)
    (same : queue.mSize = size) (place : Place Element) :
    (⟨place, queue, none⟩ : Effect Element).Refines size fifo :=
  ⟨fifo, represents, same, rfl⟩

theorem Represents.gets_refines (represents : queue.Represents fifo)
    (same : queue.mSize = size) (some : queue.isEmpty = false) :
    queue.gets.Refines size fifo := by
  obtain ⟨contents, closed⟩ := fifo
  cases contents with
  | nil =>
      rw [represents.isEmpty_iff.mpr rfl] at some
      exact nomatch some
  | cons first rest =>
      obtain ⟨next, taken, after, size'⟩ := represents.get0_eq
      unfold gets
      rw [taken]
      exact ⟨_, after, size'.trans same, .get first rest closed⟩

theorem Represents.puts_refines (represents : queue.Represents fifo)
    (same : queue.mSize = size) (opened : queue.isClosed = false)
    (room : queue.isFull = false) (obj : Element) :
    (queue.puts obj).Refines size fifo := by
  have closed : fifo.closed = false := represents.closed_eq.symm.trans opened
  have short : fifo.contents.length < queue.mSize := by
    refine Nat.lt_of_le_of_ne represents.fits fun full => ?_
    rw [represents.isFull_iff.mpr full] at room
    exact nomatch room
  obtain ⟨next, put, after, size'⟩ := represents.put0_eq short obj
  unfold puts
  rw [put]
  obtain ⟨contents, _⟩ := fifo
  obtain rfl := closed
  exact ⟨_, after, size'.trans same, .put contents obj (same ▸ short)⟩

theorem Represents.awaitGet_refines (represents : queue.Represents fifo)
    (same : queue.mSize = size) (empty : queue.isEmpty = true)
    (opened : queue.isClosed = false) (now end_ : Int) :
    (queue.awaitGet now end_).Refines size fifo := by
  unfold awaitGet
  by_cases delay : end_ - now > 0
  · have waits : ¬ (!queue.isEmpty || queue.isClosed ||
        decide (end_ - now ≤ 0)) = true := by
      rw [empty, opened]
      simpa using delay
    dsimp only
    rw [if_pos delay, if_neg waits]
    exact represents.refines_waits same _
  · dsimp only
    rw [if_neg delay]
    exact represents.refines_returns same
      (.nothing fifo (.late (represents.isEmpty_iff.mp empty)))

theorem Represents.awaitPut_refines (represents : queue.Represents fifo)
    (same : queue.mSize = size) (full : queue.isFull = true)
    (opened : queue.isClosed = false) (obj : Element) (now end_ : Int) :
    (queue.awaitPut obj now end_).Refines size fifo := by
  unfold awaitPut
  by_cases delay : end_ - now > 0
  · have waits : ¬ (!queue.isFull || queue.isClosed ||
        decide (end_ - now ≤ 0)) = true := by
      rw [full, opened]
      simpa using delay
    dsimp only
    rw [if_pos delay, if_neg waits]
    exact represents.refines_waits same _
  · dsimp only
    rw [if_neg delay]
    exact represents.refines_returns same
      (.refused fifo obj (.late ((represents.isFull_iff.mp full).trans same)))

theorem Represents.enterGet_refines (represents : queue.Represents fifo)
    (same : queue.mSize = size) (element : Bool) (maxDelay : Int32)
    (now : Int) : (queue.enterGet element maxDelay now).Refines size fifo := by
  unfold enterGet
  split_ifs with null some negative closed
  · exact represents.refines_returns same (.nothing fifo .invalid)
  · exact represents.gets_refines same (by simpa using some)
  · exact represents.refines_returns same (.nothing fifo .invalid)
  · have empty : fifo.contents = [] :=
      represents.isEmpty_iff.mp (by simpa using some)
    exact represents.refines_returns same
      (.nothing fifo (.closed empty (represents.closed_eq.symm.trans closed)))
  · exact represents.awaitGet_refines same (by simpa using some)
      (by simpa using closed) now _

theorem Represents.enterPut_refines (represents : queue.Represents fifo)
    (same : queue.mSize = size) (obj : Option Element) (maxDelay : Int32)
    (now : Int) : (queue.enterPut obj maxDelay now).Refines size fifo := by
  cases obj with
  | none =>
      exact represents.refines_returns same (.refused fifo none .invalid)
  | some obj =>
      unfold enterPut
      dsimp only
      split_ifs with closed room negative
      · exact represents.refines_returns same
          (.refused fifo obj (.closed (represents.closed_eq.symm.trans closed)))
      · exact represents.puts_refines same (by simpa using closed)
          (by simpa using room) obj
      · exact represents.refines_returns same (.refused fifo obj .invalid)
      · exact represents.awaitPut_refines same (by simpa using room)
          (by simpa using closed) obj now _

theorem Represents.resumePut_refines (represents : queue.Represents fifo)
    (same : queue.mSize = size) (obj : Element) (end_ now : Int) :
    (queue.resumePut obj end_ now).Refines size fifo := by
  unfold resumePut
  split_ifs with closed room
  · exact represents.refines_returns same
      (.refused fifo obj (.closed (represents.closed_eq.symm.trans closed)))
  · exact represents.puts_refines same (by simpa using closed)
      (by simpa using room) obj
  · exact represents.awaitPut_refines same (by simpa using room)
      (by simpa using closed) obj now end_

theorem Represents.resumeGet_refines (represents : queue.Represents fifo)
    (same : queue.mSize = size)
    (heeded : ¬ (queue.isEmpty = true ∧ queue.isClosed = true))
    (end_ now : Int) : (queue.resumeGet end_ now).Refines size fifo := by
  unfold resumeGet
  split_ifs with some closed
  · exact represents.gets_refines same (by simpa using some)
  · exact absurd ⟨by simpa using some, closed⟩ heeded
  · exact represents.awaitGet_refines same (by simpa using some)
      (by simpa using closed) now end_

/-- A method tells the truth, unless it is a `get` whose wait was ended by
`close`. -/
theorem Represents.effect_refines (represents : queue.Represents fifo)
    (same : queue.mSize = size) {place : Place Element}
    {request : Request Element} {done : Effect Element}
    (does : effect queue place request = some done)
    (heeded : ¬ Stranded queue place request) : done.Refines size fifo := by
  cases place with
  | idle =>
      cases request with
      | put obj maxDelay now =>
          obtain rfl := Option.some.inj does
          exact represents.enterPut_refines same obj maxDelay now
      | get element maxDelay now =>
          obtain rfl := Option.some.inj does
          exact represents.enterGet_refines same element maxDelay now
      | close =>
          obtain rfl := Option.some.inj does
          exact ⟨_, represents.close, same, .close fifo⟩
      | wake now => exact nomatch does
  | getWait end_ =>
      cases request with
      | wake now =>
          obtain rfl := Option.some.inj does
          exact represents.resumeGet_refines same heeded end_ now
      | _ => exact nomatch does
  | putWait obj end_ =>
      cases request with
      | wake now =>
          obtain rfl := Option.some.inj does
          exact represents.resumePut_refines same obj end_ now
      | _ => exact nomatch does

/-- A `get` whose wait was ended by `close` gives `ETCH_OK` and `NULL`. -/
theorem effect_stranded {place : Place Element} {request : Request Element}
    (stranded : Stranded queue place request) :
    effect queue place request =
      some (queue.returns (.get .ETCH_OK none)) := by
  cases place with
  | getWait end_ =>
      cases request with
      | wake now =>
          obtain ⟨empty, closed⟩ := stranded
          have resumed : queue.resumeGet end_ now =
              queue.returns (.get .ETCH_OK none) := by
            unfold resumeGet
            rw [empty, closed]
            rfl
          exact congrArg some resumed
      | _ => exact stranded.elim
  | _ => exact stranded.elim

end Refinement

section Runs

variable [DecidableEq Thread] {size : Nat}
  {state next final : State Thread Element}
  {action : Thread × Request Element}
  {actions : List (Thread × Request Element)}

/-- What an action does, by the place of its thread. -/
theorem step_eq_some (does : step state action = some next) :
    ∃ done, effect state.queue (state.places action.1) action.2 = some done ∧
      next.queue = done.queue ∧ next.log = state.log ++ done.event.toList := by
  obtain ⟨thread, request⟩ := action
  obtain ⟨done, did, rest⟩ := Option.bind_eq_some_iff.mp does
  obtain rfl := Option.some.inj rest
  exact ⟨done, did, rfl, rfl⟩

/-- An action that does not end the wait of a `get` on a queue that is empty
and closed. -/
def Heeded (state : State Thread Element)
    (action : Thread × Request Element) : Prop :=
  ¬ Stranded state.queue (state.places action.1) action.2

/-- The log tells the truth of the queue that there is. -/
def Truthful (size : Nat) (state : State Thread Element) : Prop :=
  ∃ fifo, Fifo.Replays size state.log fifo ∧ state.queue.Represents fifo ∧
    state.queue.mSize = size

/-- The elements that have been got are those put first, and the queue has the
others. -/
def Kept (size : Nat) (state : State Thread Element) : Prop :=
  ∃ fifo, Ordered state.log fifo ∧ state.queue.Represents fifo ∧
    state.queue.mSize = size

omit [DecidableEq Thread] in
theorem truthful_initial (size : Nat) :
    Truthful size (State.initial size : State Thread Element) :=
  ⟨⟨[], false⟩, .nil, represents_new size, mSize_new size⟩

omit [DecidableEq Thread] in
theorem kept_initial (size : Nat) :
    Kept size (State.initial size : State Thread Element) :=
  ⟨⟨[], false⟩, rfl, represents_new size, mSize_new size⟩

theorem Truthful.step (truthful : Truthful size state)
    (heeded : Heeded state action) (does : step state action = some next) :
    Truthful size next := by
  obtain ⟨fifo, replays, represents, same⟩ := truthful
  obtain ⟨done, does, queue_eq, log_eq⟩ := step_eq_some does
  obtain ⟨after, represents', same', takes⟩ :=
    represents.effect_refines same does heeded
  refine ⟨after, ?_, queue_eq ▸ represents', queue_eq ▸ same'⟩
  rw [log_eq]
  cases event : done.event with
  | none =>
      rw [event] at takes
      rw [takes, Option.toList_none, List.append_nil]
      exact replays
  | some event' =>
      rw [event] at takes
      exact replays.snoc takes

theorem Kept.step (kept : Kept size state)
    (does : EtchCircularQueue.step state action = some next) :
    Kept size next := by
  obtain ⟨fifo, ordered, represents, same⟩ := kept
  obtain ⟨done, does, queue_eq, log_eq⟩ := step_eq_some does
  by_cases stranded : Stranded state.queue (state.places action.1) action.2
  · cases (effect_stranded stranded).symm.trans does
    refine ⟨fifo, ?_, queue_eq ▸ represents, queue_eq ▸ same⟩
    rw [log_eq]
    -- nothing was given
    unfold Ordered accepted given at *
    rw [List.filterMap_append, List.filterMap_append, ordered]
    simp [returns]
  · obtain ⟨after, represents', same', takes⟩ :=
      represents.effect_refines same does stranded
    refine ⟨after, ?_, queue_eq ▸ represents', queue_eq ▸ same'⟩
    rw [log_eq]
    cases event : done.event with
    | none =>
        rw [event] at takes
        rw [takes, Option.toList_none, List.append_nil]
        exact ordered
    | some event' =>
        rw [event] at takes
        exact takes.ordered ordered

omit [DecidableEq Thread] in
/-- `ETCH_OK` without an element is no truth. -/
theorem Fifo.Replays.not_mem {log : List (Event Element)}
    {fifo : Fifo Element} (replays : Fifo.Replays size log fifo) :
    Event.get .ETCH_OK none ∉ log := by
  induction replays with
  | nil => exact List.not_mem_nil
  | snoc _ takes ih =>
      intro mem
      rcases List.mem_append.mp mem with mem | mem
      · exact ih mem
      · rw [← List.mem_singleton.mp mem] at takes
        cases takes with
        | nothing _ why => exact nomatch why

/-- A run tells the truth exactly when no `get` finds its wait ended with the
queue empty and closed. -/
theorem truthful_iff
    (runs : Transition.run step (State.initial size) actions = some final) :
    Truthful size final ↔
      Transition.Allowed step Heeded (State.initial size) actions := by
  constructor
  · rintro ⟨fifo, replays, _⟩
    refine Transition.allowed_of_shows (Event.get .ETCH_OK none ∈ ·.log) ?_ ?_
      runs replays.not_mem
    · intro state action next stranded does
      obtain ⟨done, does, _, log_eq⟩ := step_eq_some does
      have stranded := Classical.not_not.mp stranded
      cases (effect_stranded stranded).symm.trans does
      rw [log_eq]
      exact List.mem_append_right _ (List.mem_singleton_self _)
    · intro state action next mem does
      obtain ⟨done, _, _, log_eq⟩ := step_eq_some does
      rw [log_eq]
      exact List.mem_append_left _ mem
  · intro heeded
    exact Transition.invariant_of_allowed (Truthful size)
      (fun _ _ _ truthful heeded does => truthful.step heeded does) runs heeded
      (truthful_initial size)

theorem kept_of_run
    (runs : Transition.run step (State.initial size) actions = some final) :
    Kept size final :=
  Transition.invariant_of_run (Kept size) (fun _ _ _ kept does => kept.step does)
    runs (kept_initial size)

end Runs

end Etch.Cpp.EtchCircularQueue

/-! ## The queue of a mailbox -/

namespace Etch.Cpp.EtchPlainMailbox

open Etch.Library.Monitor

variable {Thread Element : Type} [DecidableEq Thread]

/-- A `read` with `ETCH_OK` has an element. -/
def Place.Given : Place Element → Prop
  | .readUnlock _ status element => status = .ETCH_OK → element ≠ none
  | _ => True

theorem given_get0 (queue : EtchCircularQueue Element) :
    queue.get0.1 = .ETCH_OK → queue.get0.2.1 ≠ none := by
  unfold EtchCircularQueue.get0
  split_ifs
  · exact nofun
  · split <;> exact nofun

/-- An element is given, since a queue is not closed during a wait. -/
theorem Work.given {queue queue' : EtchCircularQueue Element}
    {place next : Place Element} (works : Work queue place queue' next)
    (opened : ∀ maxDelay, Waiting maxDelay place →
      queue.isClosed = false) : next.Given := by
  cases works with
  | get => exact given_get0 queue
  | wokenGet => exact given_get0 queue
  | wokenClosed maxDelay closing _ closed =>
      exact nomatch closed.symm.trans (opened maxDelay (.woken closing))
  | getNow => exact nofun
  | getClosed => exact nofun
  | wokenTimeout => exact nofun
  | _ => trivial

theorem Run.given {thread : Thread} {shared next : Shared Thread Element}
    {place : Place Element} {places : List (Place Element)}
    (runs : Run thread shared place next places)
    (opened : ∀ maxDelay, Waiting maxDelay place →
      shared.mQueue.isClosed = false) :
    ∀ later ∈ places, later = .notifyListener ∨ later.Given := by
  intro later mem
  cases runs with
  | lock goes acquired =>
      obtain rfl := List.mem_singleton.mp mem
      cases place <;> cases goes <;> exact .inr trivial
  | unlock goes released =>
      rcases (holds_of_unlocked goes).2 with rfl | ⟨other, rfl, free⟩
      · exact nomatch mem
      · obtain rfl := List.mem_singleton.mp mem
        cases later with
        | readUnlock => exact nomatch free
        | _ => exact .inr trivial
  | enter goes acquired =>
      obtain rfl := List.mem_singleton.mp mem
      cases place <;> cases goes <;> exact .inr trivial
  | work works released =>
      obtain rfl := List.mem_singleton.mp mem
      exact .inr (works.given opened)
  | test withNotification closing =>
      obtain rfl := List.mem_singleton.mp mem
      split_ifs <;> exact .inr trivial
  | notify registered call =>
      rcases List.mem_cons.mp mem with rfl | mem
      · cases call <;> exact .inr trivial
      · exact .inl (List.mem_singleton.mp mem)

/-- Every `read` that has come back with `ETCH_OK` has an element. -/
def AllGiven (state : State Thread Element) : Prop :=
  ∀ thread, ∀ place ∈ state.places thread, place.Given

theorem AllGiven.step {state next : State Thread Element}
    (given : AllGiven state) (invariant : Invariant state)
    (step : Step state next) : AllGiven next := by
  obtain ⟨thread, step⟩ := step
  cases step with
  | @call place idle call =>
      intro other later mem
      by_cases mine : other = thread
      · subst mine
        rw [State.places_go_self] at mem
        obtain rfl := List.mem_singleton.mp mem
        cases call <;> trivial
      · rw [State.places_go_of_ne _ mine] at mem
        exact given other later mem
  | @run place outer places shared at_place runs =>
      intro other later mem
      by_cases mine : other = thread
      · subst mine
        rw [State.places_go_self] at mem
        rcases List.mem_append.mp mem with mem | mem
        · rcases runs.given (fun maxDelay waiting =>
            (invariant.waiting other place outer maxDelay at_place
              waiting).2) later mem with rfl | given'
          · trivial
          · exact given'
        · refine given other later ?_
          rw [at_place]
          exact List.mem_cons_of_mem _ mem
      · rw [State.places_go_of_ne _ mine] at mem
        exact given other later mem

/-- What `closeRead` and `endcall` use after `ETCH_OK` is never null. -/
theorem allGiven_of_initial {mNotify : Bool} {state : State Thread Element}
    (reaches : Reaches (initial mNotify) state) : AllGiven state := by
  have both : Invariant state ∧ AllGiven state :=
    invariant_of_reaches (fun state => Invariant state ∧ AllGiven state)
      (fun _ _ held step => ⟨held.1.step step, held.2.step held.1 step⟩)
      reaches ⟨invariant_initial mNotify, fun _ _ mem => nomatch mem⟩
  exact both.2

end Etch.Cpp.EtchPlainMailbox

/-! ## What the queue keeps to -/

namespace Etch.Cpp.EtchCircularQueue

open Etch.Library

variable {Thread Element : Type} [DecidableEq Thread]

/--
Under any schedule the elements are got in the order in which they were put,
none lost and none twice.  What the methods return is the truth exactly when
no `get` finds its wait ended with the queue empty and closed; in a mailbox
none does, and no `read` that gives `ETCH_OK` lacks its element.
-/
theorem truthful_unless_stranded {size : Nat}
    {actions : List (Thread × Request Element)} {final : State Thread Element}
    (runs : Transition.run step (State.initial size) actions = some final) :
    Kept size final ∧
      (Truthful size final ↔
        Transition.Allowed step Heeded (State.initial size) actions) ∧
      ∀ (mNotify : Bool) (state : EtchPlainMailbox.State Thread Element),
        EtchPlainMailbox.Reaches (EtchPlainMailbox.initial mNotify) state →
          ∀ thread closing element outer, state.places thread =
            .readUnlock closing .ETCH_OK element :: outer →
              element ≠ none := by
  refine ⟨kept_of_run runs, truthful_iff runs, ?_⟩
  intro mNotify state reaches thread closing element outer at_place
  have given := EtchPlainMailbox.allGiven_of_initial reaches thread
    (.readUnlock closing .ETCH_OK element)
    (at_place ▸ List.mem_cons_self)
  exact given rfl

/-- One thread waits to get, the other one closes the queue. -/
def closedWhileWaiting : List (Bool × Request Nat) :=
  [(false, .get true 0 5), (true, .close), (false, .wake 6)]

theorem closedWhileWaiting_kept :
    ∃ final : State Bool Nat,
      Transition.run step (State.initial 1) closedWhileWaiting = some final ∧
        final.log = [.close, .get .ETCH_OK none] ∧ Kept 1 final := by
  refine ⟨_, rfl, rfl, ?_⟩
  exact (@truthful_unless_stranded Bool Nat _ 1 closedWhileWaiting _ rfl).1

/-- Then `get` gives `ETCH_OK` without an element. -/
theorem closedWhileWaiting_not_truthful :
    ¬ ∀ final : State Bool Nat,
      Transition.run step (State.initial 1) closedWhileWaiting = some final →
        Truthful 1 final := by
  intro truthful
  obtain ⟨fifo, replays, _⟩ := truthful _ rfl
  exact replays.not_mem (List.mem_cons_of_mem _ (List.mem_singleton_self _))

end Etch.Cpp.EtchCircularQueue
