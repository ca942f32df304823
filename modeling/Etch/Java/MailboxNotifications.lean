import Etch.Java.PlainMailbox
import Etch.Library.Transition

/-!
# The notifications of a Java `PlainMailbox`

While messages arrive, the mailbox is closed and a listener is registered, on
any threads, nothing is left that the listener has not been told of.  What has
happened is recorded beside the mailbox, in the order of the entries of its
monitor.
-/

namespace Etch.Java.PlainMailbox

open Etch.Library
open Transition (StepBy invariant_of_steps reaches_of_allowed)
open CircularQueue (Reading)

variable {Thread Element Notify Object : Type} [DecidableEq Thread]
  [DecidableEq Notify]

/-! ## What happens -/

/-- What a listener waits for, and what it is told. -/
inductive Occurrence where
  | registered
  | received
  | closed
  | notified (closed : Bool)
deriving DecidableEq

omit [DecidableEq Thread] in
/-- What happens as a thread goes on. -/
def State.proceeds (state : State Thread Element Notify Object)
    (thread : Thread) (now : Int) : List Occurrence :=
  match state.places thread with
  | .message element =>
      match (CircularQueue.enterPut state.mailbox.queue now (-1)
          (some element)).event with
      | some (.put _ true) => [.received]
      | _ => []
  | .closeDelivery _ =>
      if state.mailbox.queue.isClosed then [] else [.closed]
  | .fireNotify _ =>
      if state.mailbox.notify.isSome then
        [.notified state.mailbox.queue.isClosed]
      else
        []
  | _ => []

omit [DecidableEq Thread] in
/-- What happens as an action is taken. -/
def State.occurs (state : State Thread Element Notify Object) :
    Action Thread Element Notify Object → List Occurrence
  | .proceed thread now _ => state.proceeds thread now
  | .registerNotify _ newNotify newState maxDelay =>
      match state.mailbox.registerNotify newNotify newState maxDelay with
      | .ok _ => [.registered]
      | .error _ => []
  | _ => []

/-- A mailbox and what has happened to it. -/
structure Watched (Thread Element Notify Object : Type) where
  state : State Thread Element Notify Object
  history : List Occurrence

/-- A step of the mailbox, with what it does. -/
def Watched.step (watched : Watched Thread Element Notify Object)
    (action : Action Thread Element Notify Object) :
    Option (Watched Thread Element Notify Object) :=
  (PlainMailbox.step watched.state action).map fun next =>
    ⟨next, watched.history ++ watched.state.occurs action⟩

/-- The calls of `registerNotify`, `message` and `closeDelivery`. -/
def Delivers : Action Thread Element Notify Object → Prop
  | .call _ place =>
      (∃ element, place = .message element) ∨ place = .closeDelivery false
  | .unregisterNotify _ => False
  | _ => True

/-- A step by one of these calls. -/
def Delivery : Watched Thread Element Notify Object →
    Watched Thread Element Notify Object → Prop :=
  StepBy Watched.step fun _ action => Delivers action

def Watched.start (messageId : Int) :
    Watched Thread Element Notify Object :=
  ⟨.start messageId, []⟩

/-! ## What the listener is told -/

/-- The listener has been told, after it was registered and after the event,
with a flag that flag as much. -/
def Told (history : List Occurrence) (event : Occurrence)
    (flag : Bool → Prop) : Prop :=
  ∃ before closed after, history = before ++ .notified closed :: after ∧
    .registered ∈ before ∧ event ∈ before ∧ flag closed

/-- Nothing has happened that a registered listener has not been told of. -/
structure Notified (history : List Occurrence) : Prop where
  received : .registered ∈ history → .received ∈ history →
    Told history .received fun _ => True
  closed : .registered ∈ history → .closed ∈ history →
    Told history .closed (· = true)

/-- How many more steps a thread has to take. -/
def Place.steps : Place Element → Nat
  | .message _ => 2
  | .closeDelivery _ => 2
  | .fireNotify _ => 1
  | _ => 0

/-! ## Runs -/

/-- The places within the three calls. -/
inductive Underway : Place Element → Prop where
  | idle : Underway .idle
  | message (element : Element) : Underway (.message element)
  | closeDelivery : Underway (.closeDelivery false)
  | fireNotify : Underway (.fireNotify .idle)

/-- A thread is about to call the listener. -/
def Firing (state : State Thread Element Notify Object) : Prop :=
  ∃ thread, state.places thread = .fireNotify .idle

/-- What has happened has been told, or is about to be. -/
def Owed (watched : Watched Thread Element Notify Object)
    (event : Occurrence) (flag : Bool → Prop) : Prop :=
  .registered ∈ watched.history → event ∈ watched.history →
    Firing watched.state ∨ Told watched.history event flag

/-- What the queue and the threads are, as far as the history knows. -/
structure Watching (watched : Watched Thread Element Notify Object)
    (contents : List Element) : Prop where
  represents : watched.state.mailbox.queue.Represents
    ⟨contents, watched.state.mailbox.queue.closed⟩
  underway : ∀ thread, Underway (watched.state.places thread)
  registered : .registered ∈ watched.history ↔
    watched.state.mailbox.notify.isSome = true
  arrived : .received ∈ watched.history → contents ≠ []
  shut : .closed ∈ watched.history →
    watched.state.mailbox.queue.closed = true
  received : Owed watched .received fun _ => True
  closed : Owed watched .closed (· = true)

section Steps

variable {state : State Thread Element Notify Object}
  {watched next : Watched Thread Element Notify Object}
  {contents : List Element} {thread : Thread} {event : Occurrence}
  {flag : Bool → Prop}

omit [DecidableEq Notify] in
theorem underway_go {mailbox : PlainMailbox Element Notify Object}
    {place : Place Element} {events : List (Event Element)}
    (underway : ∀ thread, Underway (state.places thread))
    (goes : Underway place) (other : Thread) :
    Underway ((state.go thread mailbox (place, events)).places other) := by
  by_cases same : other = thread
  · subst same
    simpa [State.go] using goes
  · simpa [State.go, same] using underway other

omit [DecidableEq Notify] in
theorem firing_go {mailbox : PlainMailbox Element Notify Object}
    {events : List (Event Element)} :
    Firing (state.go thread mailbox (.fireNotify .idle, events)) :=
  ⟨thread, by simp [State.go]⟩

omit [DecidableEq Notify] in
/-- Another thread is still about to call the listener. -/
theorem Firing.go {mailbox : PlainMailbox Element Notify Object}
    {place : Place Element} {events : List (Event Element)}
    (firing : Firing state) (not : state.places thread ≠ .fireNotify .idle) :
    Firing (state.go thread mailbox (place, events)) := by
  obtain ⟨other, fires⟩ := firing
  refine ⟨other, ?_⟩
  have different : other ≠ thread := fun same => not (same ▸ fires)
  simpa [State.go, different] using fires

omit [DecidableEq Thread] [DecidableEq Notify] in
theorem Owed.of_firing (firing : Firing next.state) :
    Owed next event flag :=
  fun _ _ => .inl firing

omit [DecidableEq Thread] [DecidableEq Notify] in
/-- Nothing happens that the listener waits for. -/
theorem Owed.quiet (owed : Owed watched event flag)
    (history : next.history = watched.history)
    (firing : Firing watched.state → Firing next.state) :
    Owed next event flag := by
  intro registered happened
  rw [history] at registered happened ⊢
  exact (owed registered happened).imp_left firing

omit [DecidableEq Thread] [DecidableEq Notify] in
theorem Owed.notified {closed : Bool}
    (history : next.history = watched.history ++ [.notified closed])
    (other : event ≠ .notified closed)
    (told : event ∈ watched.history → flag closed) :
    Owed next event flag := by
  intro registered happened
  rw [history, List.mem_append, List.mem_singleton] at registered happened
  have registered := registered.resolve_right nofun
  have happened := happened.resolve_right other
  exact .inr ⟨watched.history, closed, [], history, registered, happened,
    told happened⟩

omit [DecidableEq Notify] in
/-- A thread goes on, and nothing happens. -/
theorem Watching.quiet (watching : Watching watched contents)
    {place : Place Element} {events : List (Event Element)}
    (goes : Underway place)
    (not : watched.state.places thread ≠ .fireNotify .idle) :
    Watching ⟨watched.state.go thread watched.state.mailbox (place, events),
      watched.history⟩ contents where
  represents := watching.represents
  underway := underway_go watching.underway goes
  registered := watching.registered
  arrived := watching.arrived
  shut := watching.shut
  received := watching.received.quiet rfl fun firing => firing.go not
  closed := watching.closed.quiet rfl fun firing => firing.go not

omit [DecidableEq Notify] in
/-- A message is received. -/
theorem Watching.receive (watching : Watching watched contents)
    {queue : CircularQueue Element} {element : Element}
    {events : List (Event Element)}
    (isOpen : watched.state.mailbox.queue.closed = false)
    (after : queue.Represents ⟨contents ++ [element], false⟩) :
    Watching ⟨watched.state.go thread
        { watched.state.mailbox with queue := queue }
        (.fireNotify .idle, events), watched.history ++ [.received]⟩
      (contents ++ [element]) where
  represents := by
    have closed : queue.closed = false := after.closed_eq
    rw [← closed] at after
    exact after
  underway := underway_go watching.underway .fireNotify
  registered := by simpa [State.go] using watching.registered
  arrived _ := by simp
  shut happened := by
    simp only [List.mem_append, List.mem_singleton, reduceCtorEq,
      or_false] at happened
    cases isOpen.symm.trans (watching.shut happened)
  received := .of_firing firing_go
  closed := .of_firing firing_go

omit [DecidableEq Notify] in
/-- The mailbox is closed. -/
theorem Watching.close (watching : Watching watched contents)
    {mailbox : PlainMailbox Element Notify Object}
    {events : List (Event Element)}
    (closes : watched.state.mailbox.closed = some mailbox) :
    Watching ⟨watched.state.go thread mailbox (.fireNotify .idle, events),
      watched.history ++ [.closed]⟩ contents := by
  unfold PlainMailbox.closed at closes
  split_ifs at closes with isClosed
  obtain rfl := Option.some.inj closes
  have queue : (CircularQueue.enterClose watched.state.mailbox.queue).queue =
      watched.state.mailbox.queue.close := by
    unfold CircularQueue.enterClose
    rw [if_pos (by simpa using isClosed)]
  rw [queue]
  exact {
    represents := watching.represents.close
    underway := underway_go watching.underway .fireNotify
    registered := by simpa [State.go] using watching.registered
    arrived := fun happened => watching.arrived (by simpa using happened)
    shut := fun _ => rfl
    received := .of_firing firing_go
    closed := .of_firing firing_go }

omit [DecidableEq Notify] in
/-- The listener is called, if there is one. -/
theorem Watching.fire (watching : Watching watched contents)
    {events : List (Event Element)} :
    Watching ⟨watched.state.go thread watched.state.mailbox (.idle, events),
      watched.history ++ if watched.state.mailbox.notify.isSome then
        [.notified watched.state.mailbox.queue.isClosed] else []⟩
      contents := by
  have isClosed : watched.state.mailbox.queue.isClosed =
      watched.state.mailbox.queue.closed := watching.represents.closed_eq
  have underway (other : Thread) : Underway ((watched.state.go thread
      watched.state.mailbox (.idle, events)).places other) :=
    underway_go watching.underway .idle other
  split
  · exact {
      represents := watching.represents
      underway
      registered := by simpa [State.go] using watching.registered
      arrived := fun happened => watching.arrived (by simpa using happened)
      shut := fun happened => watching.shut (by simpa using happened)
      received := .notified rfl nofun fun _ => trivial
      closed := .notified rfl nofun fun happened =>
        isClosed.trans (watching.shut happened) }
  · rename_i nobody
    have not : .registered ∉ watched.history :=
      fun registered => nobody (watching.registered.mp registered)
    rw [List.append_nil]
    exact {
      represents := watching.represents
      underway
      registered := watching.registered
      arrived := watching.arrived
      shut := watching.shut
      received := fun registered => absurd registered not
      closed := fun registered => absurd registered not }

omit [DecidableEq Notify] in
/-- A listener is registered, and called if anything has happened. -/
theorem Watching.register (watching : Watching watched contents)
    {mailbox : PlainMailbox Element Notify Object}
    {newNotify : Option Notify} {newState : Object} {maxDelay : Int32}
    {fire : Bool}
    (registered : watched.state.mailbox.registerNotify newNotify newState
      maxDelay = .ok (fire, mailbox)) :
    Watching ⟨watched.state.go thread mailbox
        (if fire then .fireNotify .idle else .idle, []),
      watched.history ++ [.registered]⟩ contents := by
  have isClosed : watched.state.mailbox.queue.isClosed =
      watched.state.mailbox.queue.closed := watching.represents.closed_eq
  have isEmpty := watching.represents.isEmpty_iff
  unfold PlainMailbox.registerNotify at registered
  cases newNotify with
  | none => exact nomatch registered
  | some newNotify =>
      dsimp only at registered
      split_ifs at registered
      obtain ⟨rfl, rfl⟩ := Prod.mk.inj (Except.ok.inj registered)
      rw [isClosed]
      have arrived (happened : .received ∈
          watched.history ++ [.registered]) : contents ≠ [] :=
        watching.arrived (by simpa using happened)
      have shut (happened : .closed ∈ watched.history ++ [.registered]) :
          watched.state.mailbox.queue.closed = true :=
        watching.shut (by simpa using happened)
      by_cases fire : (!watched.state.mailbox.queue.isEmpty ||
          watched.state.mailbox.queue.closed) = true
      · rw [if_pos fire]
        exact {
          represents := watching.represents
          underway := underway_go watching.underway .fireNotify
          registered := by simp [State.go]
          arrived
          shut
          received := .of_firing firing_go
          closed := .of_firing firing_go }
      · rw [if_neg fire]
        simp only [Bool.or_eq_true, Bool.not_eq_true', not_or,
          Bool.not_eq_false] at fire
        obtain ⟨empty, isOpen⟩ := fire
        exact {
          represents := watching.represents
          underway := underway_go watching.underway .idle
          registered := by simp [State.go]
          arrived
          shut
          received := fun _ happened =>
            absurd (isEmpty.mp empty) (arrived happened)
          closed := fun _ happened => absurd (shut happened) isOpen }

omit [DecidableEq Notify] in
/-- What a thread keeps as it goes on. -/
theorem Watching.proceed (watching : Watching watched contents) {now : Int}
    {throws : Bool} {after : State Thread Element Notify Object}
    (does : watched.state.proceed thread now throws = some after) :
    ∃ contents, Watching ⟨after, watched.history ++
      watched.state.proceeds thread now⟩ contents := by
  have underway := watching.underway thread
  unfold State.proceed at does
  unfold State.proceeds
  generalize at' : watched.state.places thread = place
    at does underway ⊢
  have not {other : Place Element} (is : place = other)
      (differs : other ≠ .fireNotify .idle) :
      watched.state.places thread ≠ .fireNotify .idle := by
    rw [at', is]
    exact differs
  cases underway with
  | idle => cases does
  | message element =>
      obtain rfl := Option.some.inj does
      dsimp only
      rcases enterPut_cases watching.represents now element with
        ⟨isOpen, queue, notice, put, after, size⟩ | put
      · rw [put]
        rw [isOpen] at after
        exact ⟨_, watching.receive isOpen after⟩
      · rw [put]
        refine ⟨contents, ?_⟩
        rw [List.append_nil]
        exact watching.quiet .idle (not rfl (by rintro ⟨⟩))
  | closeDelivery =>
      dsimp only at does ⊢
      cases closes : watched.state.mailbox.closed with
      | some mailbox =>
          rw [closes] at does
          obtain rfl := Option.some.inj does
          have isOpen : ¬ watched.state.mailbox.queue.isClosed = true :=
            fun isClosed => by
              rw [PlainMailbox.closed, if_pos isClosed] at closes
              cases closes
          rw [if_neg isOpen]
          exact ⟨_, watching.close closes⟩
      | none =>
          rw [closes] at does
          obtain rfl := Option.some.inj does
          have isClosed : watched.state.mailbox.queue.isClosed = true := by
            by_contra isOpen
            rw [PlainMailbox.closed, if_neg isOpen] at closes
            cases closes
          rw [if_pos isClosed, List.append_nil]
          exact ⟨_, watching.quiet .idle (not rfl (by rintro ⟨⟩))⟩
  | fireNotify =>
      obtain rfl := Option.some.inj does
      exact ⟨_, watching.fire⟩

/-- What any of the three calls keeps. -/
theorem Watching.step (watching : Watching watched contents)
    {action : Action Thread Element Notify Object}
    (delivers : Delivers action) (steps : watched.step action = some next) :
    ∃ contents, Watching next contents := by
  obtain ⟨after, does, rfl⟩ := Option.map_eq_some_iff.mp steps
  cases action with
  | call thread place =>
      dsimp only [PlainMailbox.step] at does
      cases at' : watched.state.places thread with
      | idle =>
          rw [at'] at does
          obtain ⟨_, rfl⟩ := Option.ite_some_none_eq_some.mp does
          have not : watched.state.places thread ≠ .fireNotify .idle := by
            rw [at']
            exact nofun
          refine ⟨contents, ?_⟩
          simp only [State.occurs, List.append_nil]
          rcases delivers with ⟨element, rfl⟩ | rfl
          · exact watching.quiet (.message element) not
          · exact watching.quiet .closeDelivery not
      | _ =>
          rw [at'] at does
          exact nomatch does
  | proceed thread now throws =>
      dsimp only [PlainMailbox.step] at does
      split_ifs at does
      exact watching.proceed does
  | registerNotify thread newNotify newState maxDelay =>
      dsimp only [PlainMailbox.step] at does
      unfold State.occurs
      cases at' : watched.state.places thread with
      | idle =>
          rw [at'] at does
          dsimp only at does ⊢
          cases registered : watched.state.mailbox.registerNotify newNotify
              newState maxDelay with
          | error thrown =>
              rw [registered] at does
              obtain rfl := Option.some.inj does
              rw [List.append_nil]
              exact ⟨_, watching⟩
          | ok pair =>
              obtain ⟨fire, mailbox⟩ := pair
              rw [registered] at does
              obtain rfl := Option.some.inj does
              exact ⟨_, watching.register registered⟩
      | _ =>
          rw [at'] at does
          exact nomatch does
  | unregisterNotify oldNotify => exact delivers.elim

omit [DecidableEq Thread] [DecidableEq Notify] in
theorem watching_start (messageId : Int) :
    Watching (.start messageId : Watched Thread Element Notify Object)
      [] where
  represents := (invariant_start messageId).represents
  underway _ := .idle
  registered := iff_of_false nofun Bool.false_ne_true
  arrived := nofun
  shut := nofun
  received := nofun
  closed := nofun

theorem watching_reached {messageId : Int}
    (reaches : Relation.ReflTransGen Delivery (.start messageId) watched) :
    ∃ contents, Watching watched contents :=
  invariant_of_steps (fun watched => ∃ contents, Watching watched contents)
    (fun _ _ _ ⟨_, watching⟩ delivers does => watching.step delivers does)
    reaches ⟨[], watching_start messageId⟩

/-- No thread has to wait for another one, and each soon comes to an end. -/
theorem Watching.goes_on (watching : Watching watched contents) {now : Int}
    (reading : Reading now) (throws : Bool)
    (busy : watched.state.places thread ≠ .idle) :
    ∃ after, PlainMailbox.step watched.state (.proceed thread now throws) =
        some after ∧
      (after.places thread).steps < (watched.state.places thread).steps := by
  have underway := watching.underway thread
  dsimp only [PlainMailbox.step]
  rw [if_pos reading]
  unfold State.proceed
  generalize watched.state.places thread = place at underway busy ⊢
  cases underway with
  | idle => exact absurd rfl busy
  | message element =>
      refine ⟨_, rfl, ?_⟩
      rcases enterPut_cases watching.represents now element with
        ⟨_, queue, notice, put, _⟩ | put
      · simp [put, putDone, State.go, Place.steps]
      · simp [put, putDone, State.go, Place.steps]
  | closeDelivery =>
      cases watched.state.mailbox.closed with
      | some mailbox => exact ⟨_, rfl, by simp [State.go, Place.steps]⟩
      | none => exact ⟨_, rfl, by simp [State.go, Place.steps]⟩
  | fireNotify => exact ⟨_, rfl, by simp [State.go, Place.steps]⟩

/-- The listener has been told everything as soon as no thread is about to
call it, and no thread is held up before it has. -/
theorem delivery_notified {messageId : Int}
    (reaches : Relation.ReflTransGen Delivery (.start messageId) watched) :
    ((∀ thread, watched.state.places thread ≠ .fireNotify .idle) →
      Notified watched.history) ∧
    ∀ thread now throws, Reading now →
      watched.state.places thread ≠ .idle →
        ∃ after, PlainMailbox.step watched.state
            (.proceed thread now throws) = some after ∧
          (after.places thread).steps <
            (watched.state.places thread).steps := by
  obtain ⟨contents, watching⟩ := watching_reached reaches
  refine ⟨fun quiet => ?_, fun thread now throws reading busy =>
    watching.goes_on reading throws busy⟩
  have calm : ¬ Firing watched.state :=
    fun ⟨thread, fires⟩ => quiet thread fires
  exact {
    received := fun registered happened =>
      (watching.received registered happened).resolve_left calm
    closed := fun registered happened =>
      (watching.closed registered happened).resolve_left calm }

end Steps

/-- A listener is registered, a message arrives, and the mailbox is closed. -/
def registeredFirst : List (Action Bool Nat Unit Unit) :=
  [.registerNotify true (some ()) () 0, .call false (.message 5),
    .proceed false 0 false, .call true (.closeDelivery false),
    .proceed true 0 false, .proceed false 0 false, .proceed true 0 false]

theorem registeredFirst_notified :
    ∃ watched : Watched Bool Nat Unit Unit,
      .registered ∈ watched.history ∧ .received ∈ watched.history ∧
      .closed ∈ watched.history ∧ Notified watched.history := by
  have done : (Transition.run Watched.step (.start 1)
      registeredFirst).map
      (fun watched => (watched.history, watched.state.places false,
        watched.state.places true)) =
      some ([.registered, .received, .closed, .notified true,
        .notified true], .idle, .idle) := by
    decide +kernel
  obtain ⟨watched, runs, is⟩ := Option.map_eq_some_iff.mp done
  simp only [Prod.mk.injEq] at is
  obtain ⟨history, first, second⟩ := is
  have each : ∀ action ∈ registeredFirst, Delivers action := by
    simp [registeredFirst, Delivers]
  refine ⟨watched, by simp [history], by simp [history], by simp [history],
    (delivery_notified (reaches_of_allowed runs each)).1 fun thread => ?_⟩
  cases thread
  · rw [first]
    exact nofun
  · rw [second]
    exact nofun

end Etch.Java.PlainMailbox
