import Etch.Java.CircularQueueMonitor
import Etch.Java.IdName

/-!
# The Java `PlainMailbox` under any schedule

Any number of threads call the methods of one mailbox.  Its queue of one
element is also the monitor of the mailbox, so that a method runs from one
entry of this monitor to the next without another thread in between.  A
listener that is notified is free to call the mailbox: its calls are those of
another thread.
-/

namespace Etch.Java

open Etch.Library.Fallible Etch.Library.Monitor

structure PlainMailbox (Element Notify Object : Type) where
  messageId : Int
  queue : CircularQueue Element
  notify : Option (Notify × Object)
  alarmSet : Bool

namespace PlainMailbox

open CircularQueue (Reading effect Fifo)

variable {Thread Element Notify Object : Type}

/-- `new PlainMailbox(mailboxManager, messageId)` -/
def new (messageId : Int) : PlainMailbox Element Notify Object :=
  ⟨messageId, ⟨[none], false, 0, 0, 0⟩, none, false⟩

/--
The synchronized part of `closeDelivery()`, none if the mailbox is closed.  An
alarm that was set is removed, and the mailbox is unregistered.
-/
def closed (mailbox : PlainMailbox Element Notify Object) :
    Option (PlainMailbox Element Notify Object) :=
  if mailbox.queue.isClosed then
    none
  else
    some { mailbox with
      alarmSet := false
      queue := (CircularQueue.enterClose mailbox.queue).queue }

/-- `registerNotify(newNotify, newState, maxDelay)`, up to `fireNotify()`. -/
def registerNotify (mailbox : PlainMailbox Element Notify Object)
    (newNotify : Option Notify) (newState : Object) (maxDelay : Int32) :
    Except Thrown (Bool × PlainMailbox Element Notify Object) :=
  match newNotify with
  | none => .error .nullPointerException
  | some newNotify =>
      if maxDelay < 0 then
        .error (.illegalArgumentException (text "maxDelay < 0"))
      else if mailbox.notify.isSome then
        .error (.illegalStateException (text "this.notify != null"))
      else
        .ok (!mailbox.queue.isEmpty || mailbox.queue.isClosed,
          { mailbox with
            notify := some (newNotify, newState)
            alarmSet := mailbox.alarmSet || decide (maxDelay > 0) })

/-- `unregisterNotify(oldNotify)` -/
def unregisterNotify [DecidableEq Notify]
    (mailbox : PlainMailbox Element Notify Object)
    (oldNotify : Option Notify) :
    Except Thrown (PlainMailbox Element Notify Object) :=
  match oldNotify with
  | none => .error .nullPointerException
  | some oldNotify =>
      match mailbox.notify with
      | none => .ok mailbox
      | some (notify, _) =>
          if oldNotify ≠ notify then
            .error (.illegalStateException (text "oldNotify != this.notify"))
          else
            .ok { mailbox with notify := none, alarmSet := false }

/-! ## The threads -/

/-- Where a thread is.  `closing` is set within `closeRead`. -/
inductive Place (Element : Type) where
  | idle
  | message (element : Element)
  | closeDelivery (closing : Bool)
  | read (place : CircularQueue.Place Element) (closing : Bool)
  /-- `closeRead` has taken an element and passes it on -/
  | redeliver (element : Element)
  | fireNotify (next : Place Element)
  | failed (exception : AssertionException)
deriving DecidableEq

/-- The calls of `message`, `read`, `closeDelivery` and `closeRead`. -/
inductive Call : Place Element → Prop where
  | message (element : Element) : Call (.message element)
  | read (maxDelay : Int32) : Call (.read (.get maxDelay) false)
  | closeDelivery : Call (.closeDelivery false)
  | closeRead : Call (.closeDelivery true)

def Place.isCall : Place Element → Bool
  | .message _ => true
  | .read (.get _) false => true
  | .closeDelivery _ => true
  | _ => false

theorem Place.isCall_iff {place : Place Element} :
    place.isCall = true ↔ Call place := by
  constructor
  · intro calls
    unfold isCall at calls
    split at calls
    · exact .message _
    · exact .read _
    · rename_i closing
      cases closing
      · exact .closeDelivery
      · exact .closeRead
    · exact nomatch calls
  · rintro (_ | _ | _ | _) <;> rfl

/-- What the methods have done, as far as it can be seen from outside. -/
inductive Event (Element : Type) where
  | message (element : Element) (accepted : Bool)
  | read (element : Option Element)
  /-- the mailbox has been closed and unregistered -/
  | closed
  | redelivered (element : Element)
  | closeDelivery (closed : Bool)
  | closeRead (closed : Bool)
  | notified
deriving DecidableEq

structure State (Thread Element Notify Object : Type) where
  mailbox : PlainMailbox Element Notify Object
  places : Thread → Place Element
  log : List (Event Element)

/-- What follows on the `put` of `message`. -/
def putDone (done : CircularQueue.Effect Element) :
    Place Element × List (Event Element) :=
  match done.event with
  | some (.put element true) =>
      (.fireNotify .idle, [.message element true])
  | some (.put element false) => (.idle, [.message element false])
  | _ =>
      match done.place with
      | .failed exception => (.failed exception, [])
      | _ => (.idle, [])

/-- What follows on a `get` that has returned, or waits. -/
def getDone (closing : Bool) (done : CircularQueue.Effect Element) :
    Place Element × List (Event Element) :=
  match done.event with
  | some (.get element) =>
      if closing then
        match element with
        | some element => (.redeliver element, [])
        | none => (.idle, [.closeRead true])
      else
        (.idle, [.read element])
  | _ =>
      match done.place with
      | .failed exception => (.failed exception, [])
      -- the wait may end at any time
      | place => (.read place.woken closing, [])

variable [DecidableEq Thread]

/-- A thread has got somewhere. -/
def State.go (state : State Thread Element Notify Object) (thread : Thread)
    (mailbox : PlainMailbox Element Notify Object)
    (next : Place Element × List (Event Element)) :
    State Thread Element Notify Object :=
  ⟨mailbox, Function.update state.places thread next.1,
    state.log ++ next.2⟩

/-- The next thing that a thread does, at a reading of the clock. -/
def State.proceed (state : State Thread Element Notify Object)
    (thread : Thread) (now : Int) (throws : Bool) :
    Option (State Thread Element Notify Object) :=
  match state.places thread with
  | .message element =>
      let done := CircularQueue.enterPut state.mailbox.queue now (-1)
        (some element)
      some (state.go thread { state.mailbox with queue := done.queue }
        (putDone done))
  | .closeDelivery closing =>
      match state.mailbox.closed with
      | none =>
          some (state.go thread state.mailbox
            (.idle, [if closing then .closeRead false
              else .closeDelivery false]))
      | some mailbox =>
          some (state.go thread mailbox
            (if closing then
              (.fireNotify (.read (.get 0) true), [.closed])
            else
              (.fireNotify .idle, [.closed, .closeDelivery true])))
  | .read place closing =>
      match effect state.mailbox.queue now place with
      | none => none
      | some done =>
          some (state.go thread { state.mailbox with queue := done.queue }
            (getDone closing done))
  | .redeliver element =>
      some (state.go thread state.mailbox
        (if throws then .idle else .read (.get 0) true,
          [.redelivered element]))
  | .fireNotify next =>
      some (state.go thread state.mailbox
        (next, if state.mailbox.notify.isSome then [.notified] else []))
  | _ => none

/--
A thread calls a method, or goes on, at a reading of the clock.  The session
may throw what it has been passed on.
-/
inductive Action (Thread Element Notify Object : Type) where
  | call (thread : Thread) (place : Place Element)
  | proceed (thread : Thread) (now : Int) (throws : Bool)
  | registerNotify (thread : Thread) (newNotify : Option Notify)
      (newState : Object) (maxDelay : Int32)
  | unregisterNotify (oldNotify : Option Notify)

def step [DecidableEq Notify]
    (state : State Thread Element Notify Object) :
    Action Thread Element Notify Object →
      Option (State Thread Element Notify Object)
  | .call thread place =>
      match state.places thread with
      | .idle =>
          if place.isCall then
            some (state.go thread state.mailbox (place, []))
          else
            none
      | _ => none
  | .proceed thread now throws =>
      if Reading now then state.proceed thread now throws else none
  | .registerNotify thread newNotify newState maxDelay =>
      match state.places thread with
      | .idle =>
          match state.mailbox.registerNotify newNotify newState maxDelay with
          | .error _ => some state
          | .ok (fire, mailbox) =>
              some (state.go thread mailbox
                (if fire then .fireNotify .idle else .idle, []))
      | _ => none
  | .unregisterNotify oldNotify =>
      match state.mailbox.unregisterNotify oldNotify with
      | .error _ => some state
      | .ok mailbox => some { state with mailbox := mailbox }

/-- A new mailbox. -/
def State.start (messageId : Int) :
    State Thread Element Notify Object :=
  ⟨new messageId, fun _ => .idle, []⟩

/-! ## Conservation -/

/-- The messages for which `message` returned true. -/
def accepted (log : List (Event Element)) : List Element :=
  log.filterMap fun
    | .message element true => some element
    | _ => none

/-- The messages that `read` returned. -/
def given (log : List (Event Element)) : List Element :=
  log.filterMap fun
    | .read element => element
    | _ => none

/-- The messages that `closeRead` passed on. -/
def redelivered (log : List (Event Element)) : List Element :=
  log.filterMap fun
    | .redelivered element => some element
    | _ => none

namespace Place

/-- A thread that has closed the mailbox to read it empty. -/
def closes : Place Element → Bool
  | read _ closing => closing
  | redeliver _ => true
  | fireNotify next => next.closes
  | _ => false

/-- The message that a thread is about to pass on. -/
def hand : Place Element → Option Element
  | redeliver element => some element
  | _ => none

end Place

/--
Each message accepted is returned by `read`, passed on, about to be passed on
or in the queue, as often as it was accepted; none is accepted once the mailbox
has been closed; and none is left when `closeRead` has returned and no other
call of it is still passing messages on.
-/
structure Conserves (state : State Thread Element Notify Object) :
    Prop where
  balance : ∃ contents hand,
    state.mailbox.queue.Represents
      ⟨contents, state.mailbox.queue.closed⟩ ∧
    (∀ element, hand = some element ↔
      ∃ thread, (state.places thread).hand = some element) ∧
    (accepted state.log).Perm
      (given state.log ++
        (redelivered state.log ++ (hand.toList ++ contents)))
  refused : state.log.Pairwise fun first second =>
    first = .closed → ∀ element, second ≠ .message element true
  settled : (∃ closed, .closeRead closed ∈ state.log) →
    (∀ thread, (state.places thread).closes = false) →
      state.mailbox.queue.isEmpty = true

/--
A call of `closeRead` that finds the mailbox closed finds no message there, or
another call of it that is passing the messages on.
-/
def Sound (state : State Thread Element Notify Object) :
    Action Thread Element Notify Object → Prop
  | .proceed thread _ _ =>
      match state.places thread with
      | .closeDelivery true =>
          state.mailbox.queue.isClosed = true →
            state.mailbox.queue.isEmpty = true ∨
              ∃ other, (state.places other).closes = true
      | _ => True
  | _ => True

def SoundStep [DecidableEq Notify]
    (state next : State Thread Element Notify Object) : Prop :=
  ∃ action, Sound state action ∧ step state action = some next

/-! ## The sections of the queue -/

/-- A place within `get` at which a thread is about to have the monitor. -/
def AtGet : CircularQueue.Place Element → Prop
  | .get _ => True
  | .getWoken _ => True
  | _ => False

section Sections

variable {queue : CircularQueue Element} {contents : List Element}
  {closed : Bool} {now : Int}

/-- A `put` that does not wait puts the element or leaves the queue alone. -/
theorem enterPut_cases
    (represents : queue.Represents ⟨contents, closed⟩) (now : Int)
    (element : Element) :
    (closed = false ∧ ∃ next notice,
        CircularQueue.enterPut queue now (-1) (some element) =
          ⟨.idle, next, notice, some (.put element true)⟩ ∧
        next.Represents ⟨contents ++ [element], closed⟩ ∧
        next.size = queue.size) ∨
      CircularQueue.enterPut queue now (-1) (some element) =
        ⟨.idle, queue, .nobody, some (.put element false)⟩ := by
  have isClosed : queue.isClosed = closed := represents.closed_eq
  have negative : (-1 : Int32).toInt < 0 := by decide
  unfold CircularQueue.enterPut
  dsimp only
  cases closed with
  | true =>
      rw [if_pos isClosed]
      exact Or.inr rfl
  | false =>
      rw [if_neg (ne_true_of_eq_false isClosed)]
      by_cases full : queue.isFull = true
      · rw [full, Bool.not_true, if_neg Bool.false_ne_true, if_pos negative]
        exact Or.inr rfl
      · have room : contents.length < queue.size :=
          Nat.lt_of_le_of_ne represents.length_le
            fun same => full (represents.isFull_iff.mpr same)
        obtain ⟨next, put, after, size, _⟩ :=
          represents.putAndNotify_ok room element
        rw [eq_false_of_ne_true full, Bool.not_false, if_pos rfl]
        unfold CircularQueue.puts
        rw [put]
        exact Or.inl ⟨rfl, next, _, rfl, after, size⟩

/-- What a `get` does where there is nothing to get. -/
theorem awaitGet_cases (empty : queue.isEmpty = true)
    (opened : queue.isClosed = false) (endTime : Int) :
    CircularQueue.awaitGet queue now endTime =
        ⟨.getWait endTime, queue, .nobody, none⟩ ∨
      CircularQueue.awaitGet queue now endTime =
        ⟨.idle, queue, .nobody, some (.get none)⟩ := by
  unfold CircularQueue.awaitGet
  by_cases delay : CircularQueue.remaining endTime now > 0
  · simp only [delay, empty, opened, if_true, not_true_eq_false, if_false,
      Bool.not_true, Bool.false_eq_true]
    exact Or.inl trivial
  · rw [if_neg delay]
    exact Or.inr rfl

/-- A `get` returns an element, or nothing if there is none, or waits. -/
theorem effect_cases
    (represents : queue.Represents ⟨contents, closed⟩)
    (reading : Reading now) {place : CircularQueue.Place Element}
    (atGet : AtGet place) {done : CircularQueue.Effect Element}
    (does : effect queue now place = some done) :
    (∃ element rest next notice, contents = element :: rest ∧
        done = ⟨.idle, next, notice, some (.get (some element))⟩ ∧
        next.Represents ⟨rest, closed⟩ ∧ next.size = queue.size) ∨
      (contents = [] ∧
        (done = ⟨.idle, queue, .nobody, some (.get none)⟩ ∨
          (closed = false ∧ ∃ endTime,
            done = ⟨.getWait endTime, queue, .nobody, none⟩))) := by
  have isClosed : queue.isClosed = closed := represents.closed_eq
  cases contents with
  | cons element rest =>
      have some : queue.isEmpty = false := by
        apply eq_false_of_ne_true
        intro empty
        exact nomatch represents.isEmpty_iff.mp empty
      obtain ⟨next, taken, after, size, _⟩ := represents.getAndNotify_ok
      have gets : done = CircularQueue.gets queue := by
        cases place with
        | get maxDelay =>
            obtain rfl := Option.some.inj does
            rw [CircularQueue.enterGet, some]
            rfl
        | getWoken endTime =>
            obtain rfl := Option.some.inj does
            rw [CircularQueue.resumeGet, some]
            rfl
        | _ => exact atGet.elim
      rw [CircularQueue.gets, taken] at gets
      exact Or.inl ⟨element, rest, next, _, rfl, gets, after, size⟩
  | nil =>
      have empty : queue.isEmpty = true := represents.isEmpty_iff.mpr rfl
      refine Or.inr ⟨rfl, ?_⟩
      have waits (opened : closed = false) {endTime : Int}
          (is : done = CircularQueue.awaitGet queue now endTime) :
          done = ⟨.idle, queue, .nobody, Option.some (.get none)⟩ ∨
            (closed = false ∧ ∃ endTime,
              done = ⟨.getWait endTime, queue, .nobody, none⟩) := by
        rcases awaitGet_cases empty (isClosed.trans opened) endTime with
          wait | nothing
        · exact Or.inr ⟨opened, endTime, is.trans wait⟩
        · exact Or.inl (is.trans nothing)
      cases place with
      | get maxDelay =>
          obtain rfl := Option.some.inj does
          simp only [CircularQueue.enterGet, empty, isClosed, Bool.not_true,
            Bool.false_eq_true, if_false] at waits ⊢
          by_cases now' : closed = true ∨ maxDelay.toInt < 0
          · rw [if_pos now']
            exact Or.inl rfl
          · rw [if_neg now',
              if_neg (not_not.mpr
                (CircularQueue.now_lt_getEndTime reading maxDelay))]
              at waits ⊢
            rw [not_or] at now'
            exact waits (eq_false_of_ne_true now'.1) rfl
      | getWoken endTime =>
          obtain rfl := Option.some.inj does
          simp only [CircularQueue.resumeGet, empty, isClosed, Bool.not_true,
            Bool.false_eq_true, if_false] at waits ⊢
          by_cases now' : closed = true
          · rw [if_pos now']
            exact Or.inl rfl
          · rw [if_neg now'] at waits ⊢
            exact waits (eq_false_of_ne_true now') rfl
      | _ => exact atGet.elim

end Sections

/-! ## Runs -/

namespace Place

/-- A place at which no check has failed. -/
def Proper : Place Element → Prop
  | read place _ => AtGet place
  | fireNotify next => next.hand = none ∧ next.Proper
  | failed _ => False
  | _ => True

end Place

/-- The message in the hand of the thread that has closed the mailbox. -/
def State.hand (state : State Thread Element Notify Object)
    (closer : Option Thread) : Option Element :=
  closer.bind fun thread => (state.places thread).hand

/-- `closer` is the thread that has closed the mailbox to read it empty. -/
structure Invariant (state : State Thread Element Notify Object)
    (contents : List Element) (closer : Option Thread) : Prop where
  represents : state.mailbox.queue.Represents
    ⟨contents, state.mailbox.queue.closed⟩
  size : state.mailbox.queue.size = 1
  proper : ∀ thread, (state.places thread).Proper
  closer_iff : ∀ thread,
    (state.places thread).closes = true ↔ closer = some thread
  isClosed : closer ≠ none → state.mailbox.queue.closed = true
  emptied : state.hand closer ≠ none → contents = []
  balance : (accepted state.log).Perm
    (given state.log ++
      (redelivered state.log ++
        ((state.hand closer).toList ++ contents)))
  refused : state.log.Pairwise fun first second =>
    first = .closed → ∀ element, second ≠ .message element true
  opened : state.mailbox.queue.closed = false →
    .closed ∉ state.log ∧ ∀ closed, .closeRead closed ∉ state.log
  settled : (∃ closed, .closeRead closed ∈ state.log) →
    contents = [] ∨ closer ≠ none

section Runs

variable {state next : State Thread Element Notify Object}
  {contents : List Element} {closer : Option Thread} {thread : Thread}

omit [DecidableEq Thread] in
theorem Place.closes_of_hand {place : Place Element} {element : Element}
    (has : place.hand = some element) : place.closes = true := by
  cases place with
  | redeliver _ => rfl
  | _ => exact nomatch has

omit [DecidableEq Thread] in
theorem Invariant.conserved (invariant : Invariant state contents closer) :
    Conserves state where
  balance := by
    refine ⟨contents, state.hand closer, invariant.represents,
      fun element => ?_, invariant.balance⟩
    constructor
    · intro has
      obtain ⟨thread, _, has⟩ := Option.bind_eq_some_iff.mp has
      exact ⟨thread, has⟩
    · rintro ⟨thread, has⟩
      have is := (invariant.closer_iff thread).mp
        (Place.closes_of_hand has)
      rw [is]
      exact has
  refused := invariant.refused
  settled returned calm := by
    refine invariant.represents.isEmpty_iff.mpr ?_
    refine (invariant.settled returned).resolve_right fun some => ?_
    obtain ⟨thread, is⟩ := Option.ne_none_iff_exists'.mp some
    have closes := (invariant.closer_iff thread).mpr is
    exact nomatch (calm thread).symm.trans closes

omit [DecidableEq Thread] in
theorem invariant_start (messageId : Int) :
    Invariant (.start messageId : State Thread Element Notify Object) []
      none where
  represents := by
    have built : CircularQueue.new 1 =
        .ok (⟨[none], false, 0, 0, 0⟩ : CircularQueue Element) := rfl
    exact CircularQueue.represents_new built
  size := rfl
  proper _ := trivial
  closer_iff _ := iff_of_false Bool.false_ne_true nofun
  isClosed := absurd rfl
  emptied := absurd rfl
  balance := .refl _
  refused := .nil
  opened _ := ⟨List.not_mem_nil, fun _ => List.not_mem_nil⟩
  settled := fun ⟨_, mem⟩ => absurd mem List.not_mem_nil

/-! ### Where the threads are -/

/-- A thread that goes on and closes as before. -/
theorem closer_iff_same
    (closer_iff : ∀ thread,
      (state.places thread).closes = true ↔ closer = some thread)
    {place : Place Element}
    (same : place.closes = (state.places thread).closes) (other : Thread) :
    (Function.update state.places thread place other).closes = true ↔
      closer = some other := by
  by_cases is : other = thread
  · subst is
    rw [Function.update_self, same]
    exact closer_iff other
  · rw [Function.update_of_ne is]
    exact closer_iff other

/-- A thread that does not close any more. -/
theorem closer_iff_left
    (closer_iff : ∀ thread,
      (state.places thread).closes = true ↔ closer = some thread)
    {place : Place Element}
    (closed : (state.places thread).closes = true)
    (left : place.closes = false) (other : Thread) :
    (Function.update state.places thread place other).closes = true ↔
      none = some other := by
  refine iff_of_false (fun closes => ?_) nofun
  by_cases is : other = thread
  · subst is
    rw [Function.update_self, left] at closes
    exact Bool.false_ne_true closes
  · rw [Function.update_of_ne is] at closes
    have first := (closer_iff thread).mp closed
    have second := (closer_iff other).mp closes
    exact is (Option.some.inj (second.symm.trans first))

/-- A thread that is the first one to close. -/
theorem closer_iff_entered
    (closer_iff : ∀ thread,
      (state.places thread).closes = true ↔ none = some thread)
    {place : Place Element} (closes : place.closes = true)
    (other : Thread) :
    (Function.update state.places thread place other).closes = true ↔
      some thread = some other := by
  by_cases is : other = thread
  · subst is
    rw [Function.update_self, closes]
    exact iff_of_true rfl rfl
  · rw [Function.update_of_ne is, closer_iff other]
    exact iff_of_false nofun fun same => is (Option.some.inj same).symm

theorem proper_update
    (proper : ∀ thread, (state.places thread).Proper)
    {place : Place Element} (isProper : place.Proper) (other : Thread) :
    (Function.update state.places thread place other).Proper := by
  by_cases is : other = thread
  · subst is
    rw [Function.update_self]
    exact isProper
  · rw [Function.update_of_ne is]
    exact proper other

/-- What is in the hand of the closer is there while another thread goes on. -/
theorem hand_update_same {mailbox : PlainMailbox Element Notify Object}
    {place : Place Element} {events : List (Event Element)}
    (same : place.hand = (state.places thread).hand) :
    (state.go thread mailbox (place, events)).hand closer =
      state.hand closer := by
  refine Option.bind_congr fun other _ => ?_
  dsimp only [State.go]
  by_cases is : other = thread
  · subst is
    rw [Function.update_self, same]
  · rw [Function.update_of_ne is]

/-! ### Steps -/

omit [DecidableEq Thread] in
@[simp]
theorem accepted_append (first second : List (Event Element)) :
    accepted (first ++ second) = accepted first ++ accepted second :=
  List.filterMap_append

@[simp]
theorem given_append (first second : List (Event Element)) :
    given (first ++ second) = given first ++ given second :=
  List.filterMap_append

@[simp]
theorem redelivered_append (first second : List (Event Element)) :
    redelivered (first ++ second) =
      redelivered first ++ redelivered second :=
  List.filterMap_append

/-- An event that moves no message and closes nothing. -/
inductive Silent : Event Element → Prop where
  | message (element : Element) : Silent (.message element false)
  | read : Silent (.read none)
  | closeDelivery (closed : Bool) : Silent (.closeDelivery closed)
  | notified : Silent .notified

theorem accepted_silent {events : List (Event Element)}
    (silent : ∀ event ∈ events, Silent event) :
    accepted events = [] ∧ given events = [] ∧ redelivered events = [] := by
  refine ⟨?_, ?_, ?_⟩
  all_goals
    refine List.filterMap_eq_nil_iff.mpr fun event mem => ?_
    cases silent event mem <;> rfl

/-- A log goes on in which no message was accepted once closed. -/
theorem refused_append {log events : List (Event Element)}
    (refused : log.Pairwise fun first second =>
      first = .closed → ∀ element, second ≠ .message element true)
    (none : ∀ element, .message element true ∉ events) :
    (log ++ events).Pairwise fun first second =>
      first = .closed → ∀ element, second ≠ .message element true := by
  refine List.pairwise_append.mpr ⟨refused, ?_, ?_⟩
  · refine List.pairwise_of_forall_mem_list fun _ _ second mem => ?_
    rintro _ element rfl
    exact none element mem
  · rintro _ _ second mem _ element rfl
    exact none element mem

/-- A step that moves no message and closes nothing. -/
theorem Invariant.quiet (invariant : Invariant state contents closer)
    {mailbox : PlainMailbox Element Notify Object} {place : Place Element}
    {events : List (Event Element)}
    (queue : mailbox.queue = state.mailbox.queue) (proper : place.Proper)
    (closes : place.closes = (state.places thread).closes)
    (hand : place.hand = (state.places thread).hand)
    (silent : ∀ event ∈ events, Silent event) :
    Invariant (state.go thread mailbox (place, events)) contents closer := by
  obtain ⟨accepts, gives, redelivers⟩ := accepted_silent silent
  refine ⟨?_, ?_, proper_update invariant.proper proper,
    closer_iff_same invariant.closer_iff closes, ?_, ?_, ?_, ?_, ?_, ?_⟩
  · change mailbox.queue.Represents ⟨contents, mailbox.queue.closed⟩
    rw [queue]
    exact invariant.represents
  · change mailbox.queue.size = 1
    rw [queue]
    exact invariant.size
  · change closer ≠ none → mailbox.queue.closed = true
    rw [queue]
    exact invariant.isClosed
  · rw [hand_update_same hand]
    exact invariant.emptied
  · rw [hand_update_same hand]
    simpa [State.go, accepts, gives, redelivers] using invariant.balance
  · exact refused_append invariant.refused
      fun element mem => nomatch silent _ mem
  · intro isOpen
    change mailbox.queue.closed = false at isOpen
    rw [queue] at isOpen
    obtain ⟨notClosed, notReturned⟩ := invariant.opened isOpen
    refine ⟨fun mem => ?_, fun closed mem => ?_⟩
    · rcases List.mem_append.mp mem with mem | mem
      · exact notClosed mem
      · exact nomatch silent _ mem
    · rcases List.mem_append.mp mem with mem | mem
      · exact notReturned closed mem
      · exact nomatch silent _ mem
  · rintro ⟨closed, mem⟩
    rcases List.mem_append.mp mem with mem | mem
    · exact invariant.settled ⟨closed, mem⟩
    · exact nomatch silent _ mem

/-- A message is accepted. -/
theorem Invariant.accept (invariant : Invariant state contents closer)
    (calls : (state.places thread).closes = false) {element : Element}
    {queue : CircularQueue Element}
    (isOpen : state.mailbox.queue.closed = false)
    (represents : queue.Represents ⟨contents ++ [element], false⟩)
    (size : queue.size = state.mailbox.queue.size) :
    Invariant (state.go thread { state.mailbox with queue := queue }
      (.fireNotify .idle, [.message element true]))
      (contents ++ [element]) closer := by
  have nobody : closer = none := by
    by_contra some
    exact nomatch isOpen.symm.trans (invariant.isClosed some)
  subst nobody
  obtain ⟨notClosed, notReturned⟩ := invariant.opened isOpen
  have isOpen' : queue.closed = false := represents.closed_eq
  refine ⟨?_, size.trans invariant.size,
    proper_update invariant.proper ⟨rfl, trivial⟩,
    closer_iff_same invariant.closer_iff calls.symm, absurd rfl, absurd rfl,
    ?_, ?_, ?_, ?_⟩
  · change queue.Represents ⟨_, queue.closed⟩
    rw [isOpen']
    exact represents
  · have balance := invariant.balance.append_right [element]
    simpa [State.go, State.hand, accepted, given, redelivered] using balance
  · refine List.pairwise_append.mpr
      ⟨invariant.refused, List.pairwise_singleton .., ?_⟩
    rintro first mem second _ rfl
    exact absurd mem notClosed
  · intro _
    refine ⟨fun mem => ?_, fun closed mem => ?_⟩
    · rcases List.mem_append.mp mem with mem | mem
      · exact notClosed mem
      · exact nomatch List.mem_singleton.mp mem
    · rcases List.mem_append.mp mem with mem | mem
      · exact notReturned closed mem
      · exact nomatch List.mem_singleton.mp mem
  · rintro ⟨closed, mem⟩
    rcases List.mem_append.mp mem with mem | mem
    · exact absurd mem (notReturned closed)
    · exact nomatch List.mem_singleton.mp mem

/-- The mailbox is closed. -/
theorem Invariant.close (invariant : Invariant state contents closer)
    {closing : Bool} (at' : state.places thread = .closeDelivery closing)
    {mailbox : PlainMailbox Element Notify Object}
    (closes : state.mailbox.closed = some mailbox) :
    Invariant (state.go thread mailbox
        (if closing then
          (.fireNotify (.read (.get 0) true), [.closed])
        else
          (.fireNotify .idle, [.closed, .closeDelivery true])))
      contents (if closing then some thread else closer) := by
  unfold closed at closes
  split_ifs at closes with isClosed
  obtain rfl := Option.some.inj closes
  have isOpen : state.mailbox.queue.closed = false :=
    eq_false_of_ne_true isClosed
  have nobody : closer = none := by
    by_contra some
    exact isClosed (invariant.isClosed some)
  subst nobody
  have queue : (CircularQueue.enterClose state.mailbox.queue).queue =
      state.mailbox.queue.close := by
    unfold CircularQueue.enterClose
    rw [if_pos (by simpa using isClosed)]
  obtain ⟨notClosed, notReturned⟩ := invariant.opened isOpen
  have balance := invariant.balance
  have calls : (state.places thread).closes = false := by
    rw [at']
    rfl
  have settled {events : List (Event Element)}
      (none : ∀ closed, .closeRead closed ∉ events) :
      ¬∃ closed, .closeRead closed ∈ state.log ++ events := by
    rintro ⟨closed, mem⟩
    exact (List.mem_append.mp mem).elim (notReturned closed) (none closed)
  rw [queue]
  cases closing with
  | true =>
      refine ⟨invariant.represents.close, invariant.size,
        proper_update invariant.proper ⟨rfl, trivial⟩,
        closer_iff_entered invariant.closer_iff rfl, fun _ => rfl, ?_, ?_,
        refused_append invariant.refused (by simp), nofun,
        fun returned => absurd returned (settled (by simp))⟩
      · intro some
        simp [State.hand, State.go, Place.hand] at some
      · simpa [State.go, State.hand, Place.hand, accepted, given,
          redelivered] using balance
  | false =>
      refine ⟨invariant.represents.close, invariant.size,
        proper_update invariant.proper ⟨rfl, trivial⟩,
        closer_iff_same invariant.closer_iff calls.symm, absurd rfl,
        absurd rfl, ?_, refused_append invariant.refused (by simp), nofun,
        fun returned => absurd returned (settled (by simp))⟩
      simpa [State.go, State.hand, accepted, given, redelivered]
        using balance

/-- `closeRead` finds the mailbox closed. -/
theorem Invariant.tooLate (invariant : Invariant state contents closer)
    (at' : state.places thread = .closeDelivery true)
    (isClosed : state.mailbox.queue.isClosed = true)
    (sound : state.mailbox.queue.isEmpty = true ∨
      ∃ other, (state.places other).closes = true) :
    Invariant (state.go thread state.mailbox (.idle, [.closeRead false]))
      contents closer := by
  have calls : (Place.idle : Place Element).closes =
      (state.places thread).closes := by
    rw [at']
    rfl
  have hand : (Place.idle : Place Element).hand =
      (state.places thread).hand := by
    rw [at']
    rfl
  refine ⟨invariant.represents, invariant.size,
    proper_update invariant.proper trivial,
    closer_iff_same invariant.closer_iff calls, invariant.isClosed, ?_, ?_,
    refused_append invariant.refused (by simp), ?_, fun _ => ?_⟩
  · rw [hand_update_same hand]
    exact invariant.emptied
  · rw [hand_update_same hand]
    simpa [State.go, accepted, given, redelivered] using invariant.balance
  · exact fun isOpen => nomatch isOpen.symm.trans isClosed
  · rcases sound with empty | ⟨other, closes⟩
    · exact Or.inl (invariant.represents.isEmpty_iff.mp empty)
    · have is := (invariant.closer_iff other).mp closes
      exact Or.inr (is ▸ Option.some_ne_none other)

/-- A message is taken out of the queue. -/
theorem Invariant.take {element : Element}
    (invariant : Invariant state (element :: contents) closer)
    {place : CircularQueue.Place Element} {closing : Bool}
    (at' : state.places thread = .read place closing)
    {queue : CircularQueue Element}
    (represents : queue.Represents
      ⟨contents, state.mailbox.queue.closed⟩)
    (size : queue.size = state.mailbox.queue.size) :
    Invariant (state.go thread { state.mailbox with queue := queue }
        (if closing then (.redeliver element, [])
          else (.idle, [.read (some element)])))
      contents closer := by
  have represents' : queue.Represents ⟨contents, queue.closed⟩ := by
    rw [represents.closed_eq]
    exact represents
  have closed : queue.closed = state.mailbox.queue.closed :=
    represents.closed_eq
  have size' : queue.size = 1 := size.trans invariant.size
  have closes : (state.places thread).closes = closing := by
    rw [at']
    rfl
  have last : contents = [] := by
    have fits := invariant.represents.length_le
    rw [invariant.size] at fits
    simpa using fits
  subst last
  cases closing with
  | true =>
      have is : closer = some thread := (invariant.closer_iff thread).mp closes
      subst is
      refine ⟨represents', size', proper_update invariant.proper trivial,
        closer_iff_same invariant.closer_iff closes.symm,
        fun some => closed.trans (invariant.isClosed some), fun _ => rfl,
        ?_, refused_append invariant.refused (by simp), ?_,
        fun _ => Or.inr (Option.some_ne_none thread)⟩
      · have balance := invariant.balance
        simpa [State.go, State.hand, Place.hand, at'] using balance
      · intro isOpen
        have isClosed := invariant.isClosed (Option.some_ne_none thread)
        exact nomatch isOpen.symm.trans (closed.trans isClosed)
  | false =>
      have hand : (Place.idle : Place Element).hand =
          (state.places thread).hand := by
        rw [at']
        rfl
      have free : state.hand closer = none := by
        by_contra some
        exact nomatch invariant.emptied some
      refine ⟨represents', size', proper_update invariant.proper trivial,
        closer_iff_same invariant.closer_iff closes.symm,
        fun some => closed.trans (invariant.isClosed some), fun _ => rfl,
        ?_, refused_append invariant.refused (by simp), ?_,
        fun returned => ?_⟩
      · have balance := invariant.balance
        rw [if_neg Bool.false_ne_true, hand_update_same hand, free]
        rw [free] at balance
        have moved := (List.perm_append_singleton element
          (redelivered state.log)).append_left (given state.log)
        have event : accepted [Event.read (some element)] = [] ∧
            given [Event.read (some element)] = [element] ∧
              redelivered [Event.read (some element)] = [] :=
          ⟨rfl, rfl, rfl⟩
        simpa [State.go, event] using balance.trans moved
      · intro isOpen
        obtain ⟨notClosed, notReturned⟩ :=
          invariant.opened (closed.symm.trans isOpen)
        refine ⟨fun mem => ?_, fun result mem => ?_⟩
        · exact notClosed (by simpa [State.go] using mem)
        · exact notReturned result (by simpa [State.go] using mem)
      · exact Or.inl rfl

/-- `closeRead` has read all. -/
theorem Invariant.finish (invariant : Invariant state [] closer)
    {place : CircularQueue.Place Element}
    (at' : state.places thread = .read place true) :
    Invariant (state.go thread state.mailbox (.idle, [.closeRead true]))
      [] none := by
  have closes : (state.places thread).closes = true := by
    rw [at']
    rfl
  have is : closer = some thread := (invariant.closer_iff thread).mp closes
  subst is
  have isClosed := invariant.isClosed (Option.some_ne_none thread)
  refine ⟨invariant.represents, invariant.size,
    proper_update invariant.proper trivial,
    closer_iff_left invariant.closer_iff closes rfl, absurd rfl, absurd rfl,
    ?_, refused_append invariant.refused (by simp), ?_,
    fun _ => Or.inl rfl⟩
  · have balance := invariant.balance
    simpa [State.go, State.hand, Place.hand, at', accepted, given,
      redelivered] using balance
  · exact fun isOpen => nomatch isOpen.symm.trans isClosed

/-- A message is passed on. -/
theorem Invariant.redeliver (invariant : Invariant state contents closer)
    {element : Element} (at' : state.places thread = .redeliver element)
    (throws : Bool) :
    Invariant (state.go thread state.mailbox
        (if throws then .idle else .read (.get 0) true,
          [.redelivered element]))
      contents (if throws then none else closer) := by
  have closes : (state.places thread).closes = true := by
    rw [at']
    rfl
  have is : closer = some thread := (invariant.closer_iff thread).mp closes
  subst is
  have isClosed := invariant.isClosed (Option.some_ne_none thread)
  have hand : state.hand (some thread) = some element := by
    simp [State.hand, at', Place.hand]
  have last : contents = [] := by
    apply invariant.emptied
    rw [hand]
    exact Option.some_ne_none element
  subst last
  have balance := invariant.balance
  rw [hand] at balance
  have opened (isOpen : state.mailbox.queue.closed = false) {P : Prop} : P :=
    nomatch isOpen.symm.trans isClosed
  cases throws with
  | true =>
      refine ⟨invariant.represents, invariant.size,
        proper_update invariant.proper trivial,
        closer_iff_left invariant.closer_iff closes rfl, absurd rfl,
        absurd rfl, ?_, refused_append invariant.refused (by simp),
        fun isOpen => opened isOpen, fun _ => Or.inl rfl⟩
      simpa [State.go, State.hand, accepted, given, redelivered]
        using balance
  | false =>
      refine ⟨invariant.represents, invariant.size,
        proper_update invariant.proper trivial,
        closer_iff_same invariant.closer_iff closes.symm, fun _ => isClosed,
        fun _ => rfl, ?_, refused_append invariant.refused (by simp),
        fun isOpen => opened isOpen, fun _ => Or.inl rfl⟩
      simpa [State.go, State.hand, Place.hand, accepted, given, redelivered]
        using balance

omit [DecidableEq Thread] in
theorem registerNotify_queue
    {mailbox after : PlainMailbox Element Notify Object}
    {newNotify : Option Notify} {newState : Object} {maxDelay : Int32}
    {fire : Bool}
    (registered : mailbox.registerNotify newNotify newState maxDelay =
      .ok (fire, after)) : after.queue = mailbox.queue := by
  unfold registerNotify at registered
  cases newNotify with
  | none => exact nomatch registered
  | some newNotify =>
      dsimp only at registered
      split_ifs at registered
      obtain ⟨_, rfl⟩ := Prod.mk.inj (Except.ok.inj registered)
      rfl

omit [DecidableEq Thread] in
theorem unregisterNotify_queue [DecidableEq Notify]
    {mailbox after : PlainMailbox Element Notify Object}
    {oldNotify : Option Notify}
    (unregistered : mailbox.unregisterNotify oldNotify = .ok after) :
    after.queue = mailbox.queue := by
  unfold unregisterNotify at unregistered
  cases oldNotify with
  | none => exact nomatch unregistered
  | some oldNotify =>
      dsimp only at unregistered
      split at unregistered
      · obtain rfl := Except.ok.inj unregistered
        rfl
      · split_ifs at unregistered
        obtain rfl := Except.ok.inj unregistered
        rfl

/-- What a thread keeps as it goes on. -/
theorem Invariant.proceed (invariant : Invariant state contents closer)
    {now : Int} (reading : Reading now) {throws : Bool}
    (sound : Sound state (.proceed thread now throws))
    (does : state.proceed thread now throws = some next) :
    ∃ contents closer, Invariant next contents closer := by
  have proper := invariant.proper thread
  unfold State.proceed at does
  unfold Sound at sound
  dsimp only at sound
  cases at' : state.places thread with
  | idle =>
      rw [at'] at does
      exact nomatch does
  | failed exception =>
      rw [at'] at proper
      exact proper.elim
  | message element =>
      rw [at'] at does
      obtain rfl := Option.some.inj does
      have calls : (state.places thread).closes = false := by
        rw [at']
        rfl
      rcases enterPut_cases invariant.represents now element with
        ⟨isOpen, queue, notice, put, after, size⟩ | put
      · rw [put]
        rw [isOpen] at after
        exact ⟨_, _, invariant.accept calls isOpen after size⟩
      · rw [put]
        refine ⟨contents, closer, invariant.quiet rfl trivial calls.symm ?_ ?_⟩
        · rw [at']
          rfl
        · intro event mem
          obtain rfl := List.mem_singleton.mp mem
          exact .message element
  | closeDelivery closing =>
      rw [at'] at does sound
      dsimp only at does
      cases closes : state.mailbox.closed with
      | some mailbox =>
          rw [closes] at does
          obtain rfl := Option.some.inj does
          exact ⟨_, _, invariant.close at' closes⟩
      | none =>
          rw [closes] at does
          obtain rfl := Option.some.inj does
          have isClosed : state.mailbox.queue.isClosed = true := by
            by_contra isOpen
            rw [closed, if_neg isOpen] at closes
            exact nomatch closes
          cases closing with
          | true => exact ⟨_, _, invariant.tooLate at' isClosed (sound isClosed)⟩
          | false =>
              refine ⟨contents, closer, invariant.quiet rfl trivial ?_ ?_ ?_⟩
              · rw [at']
                rfl
              · rw [at']
                rfl
              · intro event mem
                obtain rfl := List.mem_singleton.mp mem
                exact .closeDelivery false
  | read place closing =>
      rw [at'] at does proper
      dsimp only at does
      cases done : effect state.mailbox.queue now place with
      | none =>
          rw [done] at does
          exact nomatch does
      | some after =>
          rw [done] at does
          obtain rfl := Option.some.inj does
          rcases effect_cases invariant.represents reading proper done with
            ⟨element, rest, queue, notice, rfl, rfl, represents, size⟩ |
            ⟨rfl, rfl | ⟨isOpen, endTime, rfl⟩⟩
          · refine ⟨rest, closer, ?_⟩
            cases closing
            · exact invariant.take at' represents size
            · exact invariant.take at' represents size
          · cases closing with
            | true => exact ⟨_, _, invariant.finish at'⟩
            | false =>
                refine ⟨[], closer, invariant.quiet rfl trivial ?_ ?_ ?_⟩
                · rw [at']
                  rfl
                · rw [at']
                  rfl
                · intro event mem
                  obtain rfl := List.mem_singleton.mp mem
                  exact .read
          · refine ⟨[], closer, invariant.quiet rfl trivial ?_ ?_ nofun⟩
            · rw [at']
              rfl
            · rw [at']
              rfl
  | redeliver element =>
      rw [at'] at does
      obtain rfl := Option.some.inj does
      exact ⟨_, _, invariant.redeliver at' throws⟩
  | fireNotify after =>
      rw [at'] at does proper
      obtain rfl := Option.some.inj does
      refine ⟨contents, closer, invariant.quiet rfl proper.2 ?_ ?_ ?_⟩
      · rw [at']
        rfl
      · rw [at']
        exact proper.1
      · intro event mem
        split_ifs at mem
        · obtain rfl := List.mem_singleton.mp mem
          exact .notified
        · exact nomatch mem

/-- What any step keeps. -/
theorem Invariant.step [DecidableEq Notify]
    (invariant : Invariant state contents closer)
    {action : Action Thread Element Notify Object}
    (sound : Sound state action) (does : step state action = some next) :
    ∃ contents closer, Invariant next contents closer := by
  cases action with
  | call thread place =>
      dsimp only [PlainMailbox.step] at does
      cases at' : state.places thread with
      | idle =>
          rw [at'] at does
          obtain ⟨isCall, rfl⟩ := Option.ite_some_none_eq_some.mp does
          have call := Place.isCall_iff.mp isCall
          refine ⟨contents, closer, invariant.quiet rfl ?_ ?_ ?_ nofun⟩
          · cases call <;> trivial
          · rw [at']
            cases call <;> rfl
          · rw [at']
            cases call <;> rfl
      | _ =>
          rw [at'] at does
          exact nomatch does
  | proceed thread now throws =>
      dsimp only [PlainMailbox.step] at does
      split_ifs at does with reading
      exact invariant.proceed reading sound does
  | registerNotify thread newNotify newState maxDelay =>
      dsimp only [PlainMailbox.step] at does
      cases at' : state.places thread with
      | idle =>
          rw [at'] at does
          dsimp only at does
          cases registered : state.mailbox.registerNotify newNotify newState
              maxDelay with
          | error thrown =>
              rw [registered] at does
              obtain rfl := Option.some.inj does
              exact ⟨_, _, invariant⟩
          | ok pair =>
              obtain ⟨fire, mailbox⟩ := pair
              rw [registered] at does
              obtain rfl := Option.some.inj does
              refine ⟨contents, closer,
                invariant.quiet (registerNotify_queue registered) ?_ ?_ ?_
                  nofun⟩
              · cases fire
                · trivial
                · exact ⟨rfl, trivial⟩
              · rw [at']
                cases fire <;> rfl
              · rw [at']
                cases fire <;> rfl
      | _ =>
          rw [at'] at does
          exact nomatch does
  | unregisterNotify oldNotify =>
      dsimp only [PlainMailbox.step] at does
      cases unregistered : state.mailbox.unregisterNotify oldNotify with
      | error thrown =>
          rw [unregistered] at does
          obtain rfl := Option.some.inj does
          exact ⟨_, _, invariant⟩
      | ok mailbox =>
          rw [unregistered] at does
          obtain rfl := Option.some.inj does
          have queue := unregisterNotify_queue unregistered
          refine ⟨contents, closer, ?_⟩
          obtain ⟨represents, size, proper, closer_iff, isClosed, emptied,
            balance, refused, opened, settled⟩ := invariant
          rw [← queue] at represents size isClosed opened
          exact ⟨represents, size, proper, closer_iff, isClosed, emptied,
            balance, refused, opened, settled⟩

/-- Any step, also one that is not sound. -/
def Step [DecidableEq Notify]
    (state next : State Thread Element Notify Object) : Prop :=
  ∃ action, step state action = some next

def run [DecidableEq Notify]
    (state : State Thread Element Notify Object) :
    List (Action Thread Element Notify Object) →
      Option (State Thread Element Notify Object)
  | [] => some state
  | action :: actions => do
      let next ← step state action
      run next actions

theorem reaches_of_run [DecidableEq Notify]
    {actions : List (Action Thread Element Notify Object)}
    (runs : run state actions = some next) :
    Relation.ReflTransGen Step state next := by
  induction actions generalizing state with
  | nil =>
      obtain rfl := Option.some.inj runs
      exact .refl
  | cons action actions ih =>
      obtain ⟨middle, first, rest⟩ := Option.bind_eq_some_iff.mp runs
      exact .head ⟨action, first⟩ (ih rest)

end Runs

/-- The mailbox of the message 1, with two threads. -/
def duo : State Bool Nat Unit Unit :=
  .start 1

/-- A message arrives, the connection goes down, and `closeRead` is called. -/
def downThenClosed : List (Action Bool Nat Unit Unit) :=
  [.call false (.message 5), .proceed false 0 false, .proceed false 0 false,
    .call false (.closeDelivery false), .proceed false 0 false,
    .proceed false 0 false, .call true (.closeDelivery true),
    .proceed true 0 false]

end PlainMailbox

end Etch.Java
