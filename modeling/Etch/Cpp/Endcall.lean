import Etch.Cpp.CircularQueueMonitor

/-!
# A call of the C++ `EtchDefaultDeliveryService`

`endcall` reads the reply from the mailbox of its call and closes it, while
other threads deliver messages to that mailbox or tell the mailbox manager that
the session is down.  One step runs to the next place at which another thread
may come between: where a mutex is taken that another thread may have, or kept.
-/

namespace Etch.Cpp.EtchDefaultDeliveryService

open EtchCircularQueue (Effect Place)

variable {Thread Message Object : Type}

/-! ## What `endcall` makes of a message -/

/-- The status of `rmsg->get(field, &r)`, with what is got. -/
inductive Got (Object : Type) where
  | ok (r : Object)
  /-- `ETCH_ENOT_EXIST` -/
  | notExist
  | failed

/-- What `endcall` asks of a response type. -/
structure ResponseType (Message Object : Type) where
  timeout : Int32
  /-- `rmsg->isType(responseType)` -/
  isType : Message → Bool
  /-- `rmsg->get(responseType->getResponseField(), &r)` -/
  get : Message → Got Object

/-- What is to be returned behind `mb->closeRead()`. -/
inductive Reply (Object : Type) where
  | error
  | void
  | result (r : Object)

/-- `endcall`, from the message it has read up to `mb->closeRead()` -/
def ResponseType.reply (responseType : ResponseType Message Object)
    (rmsg : Message) : Reply Object :=
  if !responseType.isType rmsg then
    .error
  else
    match responseType.get rmsg with
    | .notExist => .void
    | .failed => .error
    | .ok r => .result r

/-- The status of `endcall` and its result, by the status of
`mb->closeRead()`. -/
def Reply.returned (reply : Reply Object) (closeRead : Status) :
    Status × Option Object :=
  match reply with
  | .error => (.ETCH_ERROR, none)
  | .void => (if closeRead ≠ .ETCH_OK then .ETCH_ERROR else .ETCH_OK, none)
  | .result r => (.ETCH_OK, some r)

/-! ## Threads -/

/-- Where `endcall` is. -/
inductive Call (Message Object : Type) where
  /-- before `mb->read(mbe, timeout)` -/
  | read
  /-- in `mQueue.get`, with `mQueueMutex` -/
  | wait (end_ : Int)
  /-- before `mb->closeRead()` -/
  | closeRead (reply : Reply Object)
  /-- in `closeDelivery`, with `mQueueMutex`, before `unregisterMailbox` -/
  | unregister (reply : Reply Object)
  /-- in `closeDelivery`, with `mQueueMutex`, before `mQueue.close()` -/
  | close (reply : Reply Object)
  /-- before `read(mbe)` in `closeRead` -/
  | drain (reply : Reply Object)
  /-- before `redeliver` in `closeRead` -/
  | redeliver (mbe : Message) (reply : Reply Object)
  | returned (status : Status) (result : Option Object)

/-- Where another thread is. -/
inductive Place (Message : Type) where
  | idle
  /-- before `mMailboxesMutex` -/
  | sessionMessage (msg : Message)
  /-- before `mQueueMutex` -/
  | message (msg : Message)
  /-- before `mMailboxesMutex`, with the session down -/
  | sessionNotify
  /-- before `mQueueMutex`, with `mMailboxesMutex` -/
  | closeDelivery
  /-- with `mMailboxesMutex` -/
  | unlock

structure State (Thread Message Object : Type) where
  mQueue : EtchCircularQueue Message
  /-- whether `endcall` has kept it -/
  mQueueMutex : Bool
  /-- whether `mMailboxes` has the mailbox -/
  registered : Bool
  /-- the thread that has kept it -/
  mMailboxesMutex : Option Thread
  call : Call Message Object
  places : Thread → Place Message
  /-- the messages that `message` has put, for which it gives `ETCH_OK` -/
  accepted : List Message
  /-- the message that `endcall` has read -/
  rmsg : Option Message
  /-- the messages that have been passed to the session by `closeRead` -/
  redelivered : List Message

variable (responseType : ResponseType Message Object)

namespace State

variable (state : State Thread Message Object)

/-- `endcall` behind `mb->read(mbe, timeout)`, or in it -/
def read (done : Effect Message) : Option (State Thread Message Object) :=
  let next := { state with mQueue := done.queue, mQueueMutex := false }
  match done.place, done.event with
  | .getWait end_, none =>
      some { next with mQueueMutex := true, call := .wait end_ }
  | _, some (.get .ETCH_OK (some rmsg)) =>
      some { next with
        rmsg := some rmsg, call := .closeRead (responseType.reply rmsg) }
  -- `mbe->mMsg` of `NULL`
  | _, some (.get .ETCH_OK none) => none
  -- `return res`, which `read` has made `ETCH_ERROR`
  | _, some (.get _ _) => some { next with call := .closeRead .error }
  | _, _ => none

/-- `endcall` has got the status of `mb->closeRead()`. -/
def returns (reply : Reply Object) (closeRead : Status) :
    State Thread Message Object :=
  let (status, result) := reply.returned closeRead
  { state with call := .returned status result }

/-- `closeRead` behind `read(mbe)` -/
def drain (reply : Reply Object) (done : Effect Message) :
    Option (State Thread Message Object) :=
  let next := { state with mQueue := done.queue }
  match done.event with
  | some (.get .ETCH_OK (some mbe)) =>
      some { next with call := .redeliver mbe reply }
  -- `mbe->mSender` of `NULL`
  | some (.get .ETCH_OK none) => none
  | some (.get _ _) => some (next.returns reply .ETCH_OK)
  | _ => none

variable [DecidableEq Thread]

/-- The state with a thread at another place. -/
def go (thread : Thread) (place : Place Message) :
    State Thread Message Object :=
  { state with places := Function.update state.places thread place }

/-- `mb->message(sender, msg)` -/
def message (msg : Message) : State Thread Message Object :=
  let (status, mQueue) := state.mQueue.putNow msg
  { state with
    mQueue
    accepted :=
      if status = .ETCH_OK then state.accepted ++ [msg] else state.accepted }

/-- `closeDelivery()` of a thread that has `mMailboxesMutex` -/
def closeDelivery : State Thread Message Object :=
  if state.mQueue.isClosed then state
  else { state with registered := false, mQueue := state.mQueue.close }

end State

/-- What goes on: `endcall`, a session that takes the mailbox up on its walk,
or another thread. -/
inductive Action (Thread : Type) where
  | endcall
  | walk (thread : Thread)
  | go (thread : Thread)

/-- A step of `endcall` or of another thread. -/
inductive Step [DecidableEq Thread] (state : State Thread Message Object) :
    Action Thread → State Thread Message Object → Prop where
  | read {next : State Thread Message Object} (now : Int)
      (at_place : state.call = .read) (free : state.mQueueMutex = false)
      (reads : state.read responseType
        (state.mQueue.enterGet true responseType.timeout now) = some next) :
      Step state .endcall next
  | woken {next : State Thread Message Object} (end_ now : Int)
      (at_place : state.call = .wait end_)
      (reads : state.read responseType (state.mQueue.resumeGet end_ now) =
        some next) :
      Step state .endcall next
  /-- `closeDelivery` gives `ETCH_EINVAL`, and `closeRead` `ETCH_ERROR`. -/
  | closed (reply : Reply Object) (at_place : state.call = .closeRead reply)
      (free : state.mQueueMutex = false)
      (closed : state.mQueue.isClosed = true) :
      Step state .endcall (state.returns reply .ETCH_ERROR)
  | closeDelivery (reply : Reply Object)
      (at_place : state.call = .closeRead reply)
      (free : state.mQueueMutex = false)
      (opened : state.mQueue.isClosed = false) :
      Step state .endcall
        { state with mQueueMutex := true, call := .unregister reply }
  | unregister (reply : Reply Object)
      (at_place : state.call = .unregister reply)
      (free : state.mMailboxesMutex = none) :
      Step state .endcall
        { state with registered := false, call := .close reply }
  | close (reply : Reply Object) (at_place : state.call = .close reply) :
      Step state .endcall
        { state with
          mQueue := state.mQueue.close
          mQueueMutex := false
          call := .drain reply }
  | drain {next : State Thread Message Object} (reply : Reply Object)
      (now : Int) (at_place : state.call = .drain reply)
      (free : state.mQueueMutex = false)
      (drains : state.drain reply (state.mQueue.enterGet true 0 now) =
        some next) :
      Step state .endcall next
  | redeliver (mbe : Message) (reply : Reply Object)
      (at_place : state.call = .redeliver mbe reply) :
      Step state .endcall
        { state with
          redelivered := state.redelivered ++ [mbe], call := .drain reply }
  | sessionMessage (thread : Thread) (msg : Message)
      (idle : state.places thread = .idle) :
      Step state (.go thread) (state.go thread (.sessionMessage msg))
  | found (thread : Thread) (msg : Message)
      (at_place : state.places thread = .sessionMessage msg)
      (free : state.mMailboxesMutex = none)
      (registered : state.registered = true) :
      Step state (.go thread) (state.go thread (.message msg))
  | missing (thread : Thread) (msg : Message)
      (at_place : state.places thread = .sessionMessage msg)
      (free : state.mMailboxesMutex = none)
      (unregistered : state.registered = false) :
      Step state (.go thread) (state.go thread .idle)
  | message (thread : Thread) (msg : Message)
      (at_place : state.places thread = .message msg)
      (free : state.mQueueMutex = false) :
      Step state (.go thread) ((state.message msg).go thread .idle)
  | sessionNotify (thread : Thread) (idle : state.places thread = .idle) :
      Step state (.go thread) (state.go thread .sessionNotify)
  | walk (thread : Thread) (at_place : state.places thread = .sessionNotify)
      (free : state.mMailboxesMutex = none)
      (registered : state.registered = true) :
      Step state (.walk thread)
        { state.go thread .closeDelivery with mMailboxesMutex := some thread }
  /-- The mailbox is not there, or left out of the walk since others are
  removed on it. -/
  | pass (thread : Thread) (at_place : state.places thread = .sessionNotify)
      (free : state.mMailboxesMutex = none) :
      Step state (.go thread)
        { state.go thread .unlock with mMailboxesMutex := some thread }
  | closedDelivery (thread : Thread)
      (at_place : state.places thread = .closeDelivery)
      (free : state.mQueueMutex = false) :
      Step state (.go thread) (state.closeDelivery.go thread .unlock)
  | unlock (thread : Thread) (at_place : state.places thread = .unlock) :
      Step state (.go thread)
        { state.go thread .idle with mMailboxesMutex := none }

/-- The mailbox has been returned by `begincall`. -/
def State.initial : State Thread Message Object where
  mQueue := .new 1
  mQueueMutex := false
  registered := true
  mMailboxesMutex := none
  call := .read
  places := fun _ => .idle
  accepted := []
  rmsg := none
  redelivered := []

/-! ## What is asked of a call -/

/-- The reply to a call, with its result or without. -/
def Reply.expected : Reply Object → Option (Option Object)
  | .error => none
  | .void => some none
  | .result r => some (some r)

section Asked

variable [DecidableEq Thread]

abbrev Reaches : State Thread Message Object →
    State Thread Message Object → Prop :=
  Relation.ReflTransGen fun state next =>
    ∃ action, Step responseType state action next

/-- When a reply of the expected type has been read `endcall` can come back,
and it comes back with `ETCH_OK` and the result; the further messages have been
passed to the session then, each once. -/
def Right (state : State Thread Message Object) : Prop :=
  ∀ rmsg result, state.rmsg = some rmsg →
    (responseType.reply rmsg).expected = some result →
      (∀ status result', state.call = .returned status result' →
        status = .ETCH_OK ∧ result' = result ∧
          state.accepted = rmsg :: state.redelivered) ∧
      ∃ final status result', Reaches responseType state final ∧
        final.call = .returned status result'

end Asked

/-! ## The condition -/

/-- `endcall` closes the mailbox before a session that is down has it on its
walk, and that session does not take it up until it is unregistered; or the
mailbox is closed before, and then there is a result and no further message. -/
def Meets (state : State Thread Message Object) : Action Thread → Prop
  | .endcall => ∀ reply, state.call = .closeRead reply → reply ≠ .error →
      (state.mQueue.isClosed = true →
        (∃ r, reply = .result r) ∧ state.mQueue.isEmpty = true) ∧
      (state.mQueue.isClosed = false →
        ∀ thread, state.places thread ≠ .closeDelivery)
  | .walk _ => ∀ reply, state.call = .unregister reply → reply = .error
  | .go _ => True

/-! ## What holds in every state -/

namespace Call

variable (call : Call Message Object)

/-- Whether `mQueueMutex` has been kept. -/
def holds : Bool :=
  match call with
  | .wait _ | .unregister _ | .close _ => true
  | _ => false

/-- Whether no message has been read yet. -/
def reading : Bool :=
  match call with
  | .read | .wait _ => true
  | _ => false

/-- Whether the delivery has been closed. -/
def closed : Bool :=
  match call with
  | .drain _ | .redeliver _ _ | .returned _ _ => true
  | _ => false

/-- The message that is to be passed to the session. -/
def inHand : List Message :=
  match call with
  | .redeliver mbe _ => [mbe]
  | _ => []

/-- What is to be returned. -/
def reply : Option (Reply Object) :=
  match call with
  | .closeRead reply | .unregister reply | .close reply | .drain reply
  | .redeliver _ reply => some reply
  | _ => none

end Call

/-- Whether `mMailboxesMutex` has been kept. -/
def Place.keeps (place : Place Message) : Bool :=
  match place with
  | .closeDelivery | .unlock => true
  | _ => false

/-- The messages that have been accepted are those read, redelivered, in hand
and in the queue. -/
def Accounted (state : State Thread Message Object)
    (contents : List Message) : Prop :=
  state.accepted = state.rmsg.toList ++ state.redelivered ++
    state.call.inHand ++ contents

/-- A thread has kept the mutex where it is at a place that keeps it. -/
def Kept (places : Thread → Place Message) (mutex : Option Thread) : Prop :=
  ∀ thread, (places thread).keeps = true ↔ mutex = some thread

structure Invariant (state : State Thread Message Object) : Prop where
  queue : ∃ fifo, state.mQueue.Represents fifo ∧
    Accounted state fifo.contents
  held : state.mQueueMutex = state.call.holds
  kept : Kept state.places state.mMailboxesMutex
  closed : state.call.closed = true → state.mQueue.isClosed = true
  fresh : state.call.closed = false → state.redelivered = []
  unread : state.call.reading = true → state.rmsg = none
  asked : ∀ rmsg reply, state.rmsg = some rmsg →
    state.call.reply = some reply → reply = responseType.reply rmsg

/-- `endcall` waits for the session, and the session for `endcall`. -/
def Deadlocked (state : State Thread Message Object) : Prop :=
  (∃ reply, state.call = .unregister reply) ∧
    ∃ thread, state.places thread = .closeDelivery

/-- What a state comes to that is right. -/
structure Good (state : State Thread Message Object) (rmsg : Message) :
    Prop where
  returned : ∀ status result, state.call = .returned status result →
    (status, result) = (responseType.reply rmsg).returned .ETCH_OK ∧
      state.accepted = rmsg :: state.redelivered
  free : ¬ Deadlocked state

theorem invariant_initial :
    Invariant responseType (State.initial : State Thread Message Object) where
  queue := ⟨⟨[], false⟩, EtchCircularQueue.represents_new 1, rfl⟩
  held := rfl
  kept _ := iff_of_false nofun nofun
  closed := nofun
  fresh _ := rfl
  unread _ := rfl
  asked _ _ := nofun

/-! ## What `get` of the queue has done -/

section Steps

variable {responseType} {state next : State Thread Message Object}
  {done : Effect Message} {reply : Reply Object}

theorem read_eq_some (came : state.read responseType done = some next) :
    (∃ end_, done.event = none ∧
      next = { state with
        mQueue := done.queue, mQueueMutex := true, call := .wait end_ }) ∨
    (∃ rmsg, done.event = some (.get .ETCH_OK (some rmsg)) ∧
      next = { state with
        mQueue := done.queue
        mQueueMutex := false
        rmsg := some rmsg
        call := .closeRead (responseType.reply rmsg) }) ∨
    (∃ status element, status ≠ .ETCH_OK ∧
      done.event = some (.get status element) ∧
      next = { state with
        mQueue := done.queue
        mQueueMutex := false
        call := .closeRead .error }) := by
  unfold State.read at came
  dsimp only at came
  split at came
  · next event => exact .inl ⟨_, event, (Option.some.inj came).symm⟩
  · next event => exact .inr (.inl ⟨_, event, (Option.some.inj came).symm⟩)
  · exact nomatch came
  · next status element read null event =>
      refine .inr (.inr ⟨status, element, ?_, event,
        (Option.some.inj came).symm⟩)
      rintro rfl
      cases element with
      | none => exact null rfl rfl
      | some rmsg => exact read rmsg rfl rfl
  · exact nomatch came

theorem drain_eq_some (came : state.drain reply done = some next) :
    (∃ mbe, done.event = some (.get .ETCH_OK (some mbe)) ∧
      next = { state with
        mQueue := done.queue, call := .redeliver mbe reply }) ∨
    (∃ status element, status ≠ .ETCH_OK ∧
      done.event = some (.get status element) ∧
      next = { state with mQueue := done.queue }.returns reply .ETCH_OK) := by
  unfold State.drain at came
  dsimp only at came
  split at came
  · next event => exact .inl ⟨_, event, (Option.some.inj came).symm⟩
  · exact nomatch came
  · next status element read null event =>
      refine .inr ⟨status, element, ?_, event, (Option.some.inj came).symm⟩
      rintro rfl
      cases element with
      | none => exact null rfl rfl
      | some mbe => exact read mbe rfl rfl
  · exact nomatch came

/-- What `get` leaves in the queue, by what it gives. -/
theorem contents_of_refines {size : Nat}
    {fifo : EtchCircularQueue.Fifo Message} (refines : done.Refines size fifo) :
    (done.event = none → done.queue.Represents fifo) ∧
    (∀ rmsg, done.event = some (.get .ETCH_OK (some rmsg)) →
      ∃ rest, fifo.contents = rmsg :: rest ∧
        done.queue.Represents ⟨rest, fifo.closed⟩) ∧
    ∀ status element, status ≠ .ETCH_OK →
      done.event = some (.get status element) →
        done.queue.Represents fifo := by
  obtain ⟨after, represents, _, takes⟩ := refines
  refine ⟨fun event => ?_, fun rmsg event => ?_,
    fun status element failed event => ?_⟩
  · rw [event] at takes
    rwa [← takes]
  · rw [event] at takes
    cases takes with
    | get _ rest closed => exact ⟨rest, rfl, represents⟩
  · rw [event] at takes
    cases takes with
    | get => exact absurd rfl failed
    | nothing => exact represents

/-- `put` without a delay. -/
theorem putNow_cases {queue : EtchCircularQueue Message}
    {fifo : EtchCircularQueue.Fifo Message}
    (represents : queue.Represents fifo) (msg : Message) :
    ((queue.putNow msg).1 = .ETCH_OK ∧ (queue.putNow msg).2.Represents
        { fifo with contents := fifo.contents ++ [msg] }) ∨
      (queue.putNow msg).1 ≠ .ETCH_OK ∧ (queue.putNow msg).2 = queue := by
  unfold EtchCircularQueue.putNow
  split_ifs with closed room
  · exact .inr ⟨nofun, rfl⟩
  · have short : fifo.contents.length < queue.mSize := by
      refine Nat.lt_of_le_of_ne represents.fits fun full => ?_
      rw [represents.isFull_iff.mpr full] at room
      exact nomatch room
    obtain ⟨next, put, after, _⟩ := represents.put0_eq short msg
    rw [put]
    exact .inl ⟨rfl, after⟩
  · exact .inr ⟨nofun, rfl⟩

/-! ## Who has kept the mutex of the manager -/

variable [DecidableEq Thread]

section Kept

variable {places : Thread → Place Message} {mutex : Option Thread}
  {thread : Thread} {place : Place Message}

theorem Kept.stay (kept : Kept places mutex)
    (same : place.keeps = (places thread).keeps) :
    Kept (Function.update places thread place) mutex := by
  intro other
  by_cases mine : other = thread
  · subst mine
    rw [Function.update_self, same]
    exact kept other
  · rw [Function.update_of_ne mine]
    exact kept other

theorem Kept.take (kept : Kept places none) (keeps : place.keeps = true) :
    Kept (Function.update places thread place) (some thread) := by
  intro other
  by_cases mine : other = thread
  · subst mine
    rw [Function.update_self]
    exact iff_of_true keeps rfl
  · rw [Function.update_of_ne mine]
    refine iff_of_false (fun keeps => ?_) fun same =>
      mine (Option.some.inj same).symm
    exact nomatch (kept other).mp keeps

theorem Kept.give (kept : Kept places mutex)
    (mine : (places thread).keeps = true) (gives : place.keeps = false) :
    Kept (Function.update places thread place) none := by
  have held := (kept thread).mp mine
  intro other
  refine iff_of_false (fun keeps => ?_) nofun
  by_cases mine : other = thread
  · subst mine
    rw [Function.update_self, gives] at keeps
    exact nomatch keeps
  · rw [Function.update_of_ne mine] at keeps
    exact mine (Option.some.inj
      (((kept other).mp keeps).symm.trans held))

end Kept

/-! ## Every step -/

omit [DecidableEq Thread] in
/-- A `get` whose wait is ended by `close` is not survived. -/
theorem resumeGet_refines_of_read {end_ now : Int}
    {fifo : EtchCircularQueue.Fifo Message}
    (represents : state.mQueue.Represents fifo)
    (reads : state.read responseType (state.mQueue.resumeGet end_ now) =
      some next) :
    (state.mQueue.resumeGet end_ now).Refines state.mQueue.mSize fifo := by
  by_cases stranded : state.mQueue.isEmpty = true ∧
      state.mQueue.isClosed = true
  · have resumed : state.mQueue.resumeGet end_ now =
        state.mQueue.returns (.get .ETCH_OK none) := by
      unfold EtchCircularQueue.resumeGet
      rw [stranded.1, stranded.2]
      rfl
    rw [resumed] at reads
    exact nomatch reads
  · exact represents.resumeGet_refines rfl stranded end_ now

omit [DecidableEq Thread] in
theorem Invariant.read (invariant : Invariant responseType state)
    (reading : state.call.reading = true) {size : Nat}
    (refines : ∀ fifo, state.mQueue.Represents fifo → done.Refines size fifo)
    (reads : state.read responseType done = some next) :
    Invariant responseType next := by
  obtain ⟨fifo, represents, accounted⟩ := invariant.queue
  obtain ⟨waits, gives, fails⟩ := contents_of_refines (refines fifo represents)
  have unread := invariant.unread reading
  have open_ : state.call.closed = false := by
    cases call : state.call <;> rw [call] at reading <;>
      first | rfl | exact nomatch reading
  have fresh := invariant.fresh open_
  have inHand : state.call.inHand = [] := by
    cases call : state.call <;> rw [call] at reading <;>
      first | rfl | exact nomatch reading
  unfold Accounted at accounted
  rw [unread, fresh, inHand] at accounted
  rcases read_eq_some reads with
    ⟨end_, event, rfl⟩ | ⟨rmsg, event, rfl⟩ |
      ⟨status, element, failed, event, rfl⟩
  · refine ⟨⟨fifo, waits event, ?_⟩, rfl, invariant.kept, nofun, fun _ => fresh,
      fun _ => unread, fun _ _ _ => nofun⟩
    unfold Accounted
    rw [accounted, unread, fresh]
    rfl
  · obtain ⟨rest, contents, represents'⟩ := gives rmsg event
    refine ⟨⟨_, represents', ?_⟩, rfl, invariant.kept, nofun, fun _ => fresh,
      nofun, ?_⟩
    · unfold Accounted
      rw [accounted, fresh, contents]
      rfl
    · intro _ _ same replies
      rw [← Option.some.inj same]
      exact (Option.some.inj replies).symm
  · refine ⟨⟨fifo, fails status element failed event, ?_⟩, rfl, invariant.kept,
      nofun, fun _ => fresh, nofun, fun rmsg _ there _ => ?_⟩
    · unfold Accounted
      rw [accounted, unread, fresh]
      rfl
    · exact nomatch unread.symm.trans there

omit [DecidableEq Thread] in
theorem Invariant.drain (invariant : Invariant responseType state)
    (at_place : state.call = .drain reply) (now : Int)
    (free : state.mQueueMutex = false)
    (drains : state.drain reply (state.mQueue.enterGet true 0 now) =
      some next) : Invariant responseType next := by
  obtain ⟨fifo, represents, accounted⟩ := invariant.queue
  have refines := represents.enterGet_refines rfl true 0 now
  obtain ⟨_, gives, fails⟩ := contents_of_refines refines
  have closed : fifo.closed = true := by
    rw [← represents.closed_eq]
    exact invariant.closed (at_place ▸ rfl)
  unfold Accounted at accounted
  rw [at_place] at accounted
  rcases drain_eq_some drains with
    ⟨mbe, event, rfl⟩ | ⟨status, element, failed, event, rfl⟩
  · obtain ⟨rest, contents, represents'⟩ := gives mbe event
    refine ⟨⟨_, represents', ?_⟩, free, invariant.kept, fun _ => ?_, nofun,
      nofun, ?_⟩
    · unfold Accounted
      rw [accounted, contents]
      simp [Call.inHand]
    · exact represents'.closed_eq.trans closed
    · intro rmsg _ there replies
      rw [← Option.some.inj replies]
      exact invariant.asked rmsg reply there (at_place ▸ rfl)
  · have represents' := fails status element failed event
    exact ⟨⟨fifo, represents', accounted⟩, free, invariant.kept,
      fun _ => represents'.closed_eq.trans closed, nofun, nofun,
      fun _ _ _ => nofun⟩

omit [DecidableEq Thread] in
theorem Invariant.closeDelivery (invariant : Invariant responseType state) :
    ∃ fifo, state.closeDelivery.mQueue.Represents fifo ∧
      Accounted state.closeDelivery fifo.contents ∧
      state.closeDelivery.mQueue.isClosed = true := by
  obtain ⟨fifo, represents, accounted⟩ := invariant.queue
  unfold State.closeDelivery
  split_ifs with closed
  · exact ⟨fifo, represents, accounted, closed⟩
  · exact ⟨_, represents.close, accounted, rfl⟩

omit [DecidableEq Thread] in
theorem Invariant.message (invariant : Invariant responseType state)
    (msg : Message) :
    ∃ fifo, (state.message msg).mQueue.Represents fifo ∧
      Accounted (state.message msg) fifo.contents ∧
      (state.message msg).mQueue.isClosed = state.mQueue.isClosed := by
  obtain ⟨fifo, represents, accounted⟩ := invariant.queue
  unfold State.message
  rcases putNow_cases represents msg with ⟨put, represents'⟩ | ⟨refused, same⟩
  · refine ⟨_, represents', ?_, ?_⟩
    · unfold Accounted at *
      dsimp only
      rw [if_pos put, accounted, List.append_assoc]
    · exact represents'.closed_eq.trans represents.closed_eq.symm
  · refine ⟨fifo, ?_, ?_, ?_⟩
    · change (state.mQueue.putNow msg).2.Represents fifo
      rw [same]
      exact represents
    · unfold Accounted at *
      dsimp only
      rw [if_neg refused, accounted]
    · exact congrArg EtchCircularQueue.isClosed same

omit [DecidableEq Thread] in
theorem closeDelivery_kept (state : State Thread Message Object) :
    state.closeDelivery.call = state.call ∧
      state.closeDelivery.places = state.places ∧
      state.closeDelivery.mQueueMutex = state.mQueueMutex ∧
      state.closeDelivery.mMailboxesMutex = state.mMailboxesMutex ∧
      state.closeDelivery.rmsg = state.rmsg ∧
      state.closeDelivery.redelivered = state.redelivered ∧
      state.closeDelivery.accepted = state.accepted := by
  unfold State.closeDelivery
  split_ifs <;> exact ⟨rfl, rfl, rfl, rfl, rfl, rfl, rfl⟩

theorem Invariant.step {action : Action Thread}
    (invariant : Invariant responseType state)
    (step : Step responseType state action next) :
    Invariant responseType next := by
  cases step with
  | read now at_place free reads =>
      exact invariant.read (at_place ▸ rfl)
        (fun _ represents => represents.enterGet_refines rfl true _ now) reads
  | woken end_ now at_place reads =>
      exact invariant.read (at_place ▸ rfl)
        (fun _ represents => resumeGet_refines_of_read represents reads) reads
  | closed reply at_place free closed =>
      obtain ⟨fifo, represents, accounted⟩ := invariant.queue
      unfold Accounted at accounted
      rw [at_place] at accounted
      exact ⟨⟨fifo, represents, accounted⟩, free, invariant.kept,
        fun _ => closed, nofun, nofun, fun _ _ _ => nofun⟩
  | closeDelivery reply at_place free opened =>
      obtain ⟨fifo, represents, accounted⟩ := invariant.queue
      have fresh := invariant.fresh (at_place ▸ rfl)
      have asked := invariant.asked
      unfold Accounted at accounted
      rw [at_place] at accounted asked
      exact ⟨⟨fifo, represents, accounted⟩, rfl, invariant.kept, nofun,
        fun _ => fresh, nofun, asked⟩
  | unregister reply at_place free =>
      obtain ⟨fifo, represents, accounted⟩ := invariant.queue
      have fresh := invariant.fresh (at_place ▸ rfl)
      have asked := invariant.asked
      have held := invariant.held
      unfold Accounted at accounted
      rw [at_place] at accounted asked held
      exact ⟨⟨fifo, represents, accounted⟩, held, invariant.kept, nofun,
        fun _ => fresh, nofun, asked⟩
  | close reply at_place =>
      obtain ⟨fifo, represents, accounted⟩ := invariant.queue
      have asked := invariant.asked
      unfold Accounted at accounted
      rw [at_place] at accounted asked
      exact ⟨⟨_, represents.close, accounted⟩, rfl, invariant.kept,
        fun _ => rfl, nofun, nofun, asked⟩
  | drain reply now at_place free drains =>
      exact invariant.drain at_place now free drains
  | redeliver mbe reply at_place =>
      obtain ⟨fifo, represents, accounted⟩ := invariant.queue
      have asked := invariant.asked
      have held := invariant.held
      have closed := invariant.closed (at_place ▸ rfl)
      unfold Accounted at accounted
      rw [at_place] at accounted asked held
      refine ⟨⟨fifo, represents, ?_⟩, held, invariant.kept, fun _ => closed,
        nofun, nofun, asked⟩
      unfold Accounted
      rw [accounted]
      simp [Call.inHand]
  | sessionMessage thread msg idle =>
      exact { invariant with kept := invariant.kept.stay (by rw [idle]; rfl) }
  | found thread msg at_place free registered =>
      exact { invariant with
        kept := invariant.kept.stay (by rw [at_place]; rfl) }
  | missing thread msg at_place free unregistered =>
      exact { invariant with
        kept := invariant.kept.stay (by rw [at_place]; rfl) }
  | message thread msg at_place free =>
      obtain ⟨fifo, represents, accounted, same⟩ := invariant.message msg
      exact { invariant with
        queue := ⟨fifo, represents, accounted⟩
        kept := invariant.kept.stay (by rw [at_place]; rfl)
        closed := fun closed => same.trans (invariant.closed closed) }
  | sessionNotify thread idle =>
      exact { invariant with kept := invariant.kept.stay (by rw [idle]; rfl) }
  | walk thread at_place free registered =>
      exact { invariant with
        kept := Kept.take (free ▸ invariant.kept) rfl }
  | pass thread at_place free =>
      exact { invariant with
        kept := Kept.take (free ▸ invariant.kept) rfl }
  | closedDelivery thread at_place free =>
      obtain ⟨call, places, mutex, manager, rmsg, redelivered, accepted⟩ :=
        closeDelivery_kept state
      obtain ⟨fifo, represents, accounted, closed⟩ := invariant.closeDelivery
      refine ⟨⟨fifo, represents, accounted⟩, ?_, ?_, fun _ => closed, ?_, ?_,
        ?_⟩
      · exact mutex.trans (invariant.held.trans (congrArg Call.holds call.symm))
      · have kept : Kept (Function.update state.places thread .unlock)
            state.mMailboxesMutex := invariant.kept.stay (by rw [at_place]; rfl)
        rwa [← places, ← manager] at kept
      · intro open_
        exact redelivered.trans (invariant.fresh (call ▸ open_))
      · intro reading
        exact rmsg.trans (invariant.unread (call ▸ reading))
      · intro message reply there replies
        exact invariant.asked message reply (rmsg ▸ there) (call ▸ replies)
  | unlock thread at_place =>
      exact { invariant with
        kept := invariant.kept.give (by rw [at_place]; rfl) rfl }

/-! ## How `endcall` comes back -/

/-- What has been read is a reply of the expected type. -/
def Expects (responseType : ResponseType Message Object)
    (state : State Thread Message Object) (rmsg : Message) : Prop :=
  state.rmsg = some rmsg ∧ responseType.reply rmsg ≠ .error

/-- `endcall` has come back in a state that is reached. -/
def ComesBack (responseType : ResponseType Message Object)
    (state : State Thread Message Object) : Prop :=
  ∃ final status result, Reaches responseType state final ∧
    final.call = .returned status result

theorem ComesBack.of_step {action : Action Thread}
    (step : Step responseType state action next)
    (back : ComesBack responseType next) : ComesBack responseType state := by
  obtain ⟨final, status, result, reaches, returned⟩ := back
  exact ⟨final, status, result, .head ⟨action, step⟩ reaches, returned⟩

theorem comesBack_returns (step : Step responseType state .endcall
    (state.returns reply .ETCH_ERROR)) : ComesBack responseType state :=
  .of_step step ⟨_, _, _, .refl, rfl⟩

/-- `get` of a queue that is not empty. -/
theorem enterGet_of_cons {queue : EtchCircularQueue Message} {mbe : Message}
    {rest : List Message} {closed : Bool}
    (represents : queue.Represents ⟨mbe :: rest, closed⟩) (maxDelay : Int32)
    (now : Int) :
    ∃ taken : EtchCircularQueue Message, queue.enterGet true maxDelay now =
        taken.returns (.get .ETCH_OK (some mbe)) ∧
      taken.Represents ⟨rest, closed⟩ := by
  have filled : queue.isEmpty = false := by
    rw [Bool.eq_false_iff, ne_eq, represents.isEmpty_iff]
    exact List.cons_ne_nil mbe rest
  obtain ⟨taken, got, represents', _⟩ := represents.get0_eq
  refine ⟨taken, ?_, represents'⟩
  unfold EtchCircularQueue.enterGet EtchCircularQueue.gets
  rw [filled, got]
  rfl

/-- The loop of `closeRead` ends. -/
theorem Invariant.drains (invariant : Invariant responseType state)
    {fifo : EtchCircularQueue.Fifo Message}
    (represents : state.mQueue.Represents fifo)
    (at_place : state.call = .drain reply) :
    ComesBack responseType state := by
  obtain ⟨contents, closed⟩ := fifo
  induction contents generalizing state with
  | nil =>
      have free := invariant.held.trans (congrArg Call.holds at_place)
      have closed := invariant.closed (at_place ▸ rfl)
      have got : state.mQueue.enterGet true 0 0 =
          state.mQueue.returns (.get .ETCH_ERROR none) := by
        unfold EtchCircularQueue.enterGet
        rw [represents.isEmpty_iff.mpr rfl, closed]
        rfl
      exact .of_step (.drain reply 0 at_place free (by rw [got]; rfl))
        ⟨_, _, _, .refl, rfl⟩
  | cons mbe rest ih =>
      have free := invariant.held.trans (congrArg Call.holds at_place)
      obtain ⟨mQueue, got, represents'⟩ := enterGet_of_cons represents 0 0
      have drained : Step responseType state .endcall
          { state with mQueue, call := .redeliver mbe reply } :=
        .drain reply 0 at_place free (by rw [got]; rfl)
      have passed : Step responseType
          { state with mQueue, call := .redeliver mbe reply } .endcall _ :=
        .redeliver mbe reply rfl
      have invariant' := (invariant.step drained).step passed
      exact .of_step drained (.of_step passed
        (ih invariant' rfl represents'))

theorem Invariant.closes (invariant : Invariant responseType state)
    (at_place : state.call = .close reply) : ComesBack responseType state := by
  obtain ⟨fifo, represents, _⟩ := invariant.queue
  have closed : Step responseType state .endcall _ := .close reply at_place
  exact .of_step closed
    ((invariant.step closed).drains represents.close rfl)

theorem Invariant.unregisters (invariant : Invariant responseType state)
    (at_place : state.call = .unregister reply)
    (free : state.mMailboxesMutex = none) : ComesBack responseType state := by
  have unregistered : Step responseType state .endcall _ :=
    .unregister reply at_place free
  exact .of_step unregistered ((invariant.step unregistered).closes rfl)

/-- A session that has kept the mutex gives it back. -/
theorem Invariant.waits_unregister (invariant : Invariant responseType state)
    (at_place : state.call = .unregister reply) (free : ¬ Deadlocked state) :
    ComesBack responseType state := by
  cases mutex : state.mMailboxesMutex with
  | none => exact invariant.unregisters at_place mutex
  | some thread =>
      have keeps := (invariant.kept thread).mpr mutex
      cases place : state.places thread with
      | closeDelivery =>
          exact absurd ⟨⟨reply, at_place⟩, thread, place⟩ free
      | unlock =>
          have unlocked : Step responseType state (.go thread) _ :=
            .unlock thread place
          exact .of_step unlocked
            ((invariant.step unlocked).unregisters at_place rfl)
      | _ =>
          rw [place] at keeps
          exact nomatch keeps

theorem Invariant.closesRead (invariant : Invariant responseType state)
    (at_place : state.call = .closeRead reply) :
    ComesBack responseType state := by
  have free := invariant.held.trans (congrArg Call.holds at_place)
  cases closed : state.mQueue.isClosed with
  | true => exact comesBack_returns (.closed reply at_place free closed)
  | false =>
      by_cases walked : ∃ thread, state.places thread = .closeDelivery
      · -- the session closes the mailbox before
        obtain ⟨thread, place⟩ := walked
        obtain ⟨call, _, mutex, _⟩ := closeDelivery_kept state
        obtain ⟨_, _, _, closed'⟩ := invariant.closeDelivery
        have delivered : Step responseType state (.go thread) _ :=
          .closedDelivery thread place free
        exact .of_step delivered (comesBack_returns
          (.closed reply (call.trans at_place) (mutex.trans free) closed'))
      · have locked : Step responseType state .endcall _ :=
          .closeDelivery reply at_place free closed
        exact .of_step locked ((invariant.step locked).waits_unregister rfl
          fun deadlocked => walked deadlocked.2)

/-- Unless it is deadlocked `endcall` can come back. -/
theorem Invariant.comesBack (invariant : Invariant responseType state)
    {rmsg : Message} (there : state.rmsg = some rmsg)
    (free : ¬ Deadlocked state) : ComesBack responseType state := by
  obtain ⟨fifo, represents, _⟩ := invariant.queue
  cases call : state.call with
  | read => exact nomatch (invariant.unread (call ▸ rfl)).symm.trans there
  | wait end_ => exact nomatch (invariant.unread (call ▸ rfl)).symm.trans there
  | closeRead reply => exact invariant.closesRead call
  | unregister reply => exact invariant.waits_unregister call free
  | close reply => exact invariant.closes call
  | drain reply => exact invariant.drains represents call
  | redeliver mbe reply =>
      have passed : Step responseType state .endcall _ :=
        .redeliver mbe reply call
      exact .of_step passed ((invariant.step passed).drains represents rfl)
  | returned status result => exact ⟨state, status, result, .refl, call⟩

/-! ## What the condition is good for -/

/-- What is asked, but that `endcall` comes back, of a state in which a reply
has been read. -/
def AllGood (responseType : ResponseType Message Object)
    (state : State Thread Message Object) : Prop :=
  ∀ rmsg, Expects responseType state rmsg → Good responseType state rmsg

omit [DecidableEq Thread] in
/-- Other threads do not get in the way of `endcall`. -/
theorem AllGood.others (good : AllGood responseType state)
    (call : next.call = state.call) (rmsg : next.rmsg = state.rmsg)
    (redelivered : next.redelivered = state.redelivered)
    (accepted : ∀ status result, state.call = .returned status result →
      next.accepted = state.accepted)
    (walks : ∀ thread, next.places thread = .closeDelivery →
      state.places thread = .closeDelivery) : AllGood responseType next := by
  rintro message ⟨there, expected⟩
  have before := good message ⟨rmsg ▸ there, expected⟩
  refine ⟨fun status result returned => ?_, ?_⟩
  · have returned' := call.symm.trans returned
    rw [accepted status result returned', redelivered]
    exact before.returned status result returned'
  · rintro ⟨⟨reply, waits⟩, thread, walked⟩
    exact before.free ⟨⟨reply, call.symm.trans waits⟩, thread,
      walks thread walked⟩

theorem places_of_go {places : Thread → Place Message} {thread other : Thread}
    (place : Place Message) (gone : place ≠ .closeDelivery)
    (walked : Function.update places thread place other = .closeDelivery) :
    places other = .closeDelivery := by
  by_cases mine : other = thread
  · subst mine
    rw [Function.update_self] at walked
    exact absurd walked gone
  · rwa [Function.update_of_ne mine] at walked

omit [DecidableEq Thread] in
/-- Before it has come back `endcall` only has to get the mutexes. -/
theorem good_of_going (responds : ∀ status result,
      next.call ≠ .returned status result)
    (unlocked : ∀ reply, next.call ≠ .unregister reply) :
    AllGood responseType next := fun _ _ =>
  ⟨fun status result returned => absurd returned (responds status result),
    fun deadlocked => deadlocked.1.elim fun reply waits =>
      unlocked reply waits⟩

omit [DecidableEq Thread] in
theorem Invariant.good_closed (invariant : Invariant responseType state)
    (at_place : state.call = .closeRead reply)
    (closed : state.mQueue.isClosed = true)
    (meets : Meets state (.endcall : Action Thread)) :
    AllGood responseType (state.returns reply .ETCH_ERROR) := by
  rintro rmsg ⟨there, expected⟩
  obtain rfl := invariant.asked rmsg reply there (at_place ▸ rfl)
  obtain ⟨⟨r, result⟩, empty⟩ := (meets _ at_place expected).1 closed
  refine ⟨fun status result' returned => ?_, fun deadlocked => ?_⟩
  · obtain ⟨fifo, represents, accounted⟩ := invariant.queue
    have accounted : state.accepted = _ := accounted
    rw [at_place, show state.rmsg = some rmsg from there,
      represents.isEmpty_iff.mp empty] at accounted
    unfold State.returns at returned
    rw [result] at returned
    obtain ⟨rfl, rfl⟩ := Call.returned.inj returned
    rw [result]
    refine ⟨rfl, accounted.trans ?_⟩
    simp [Call.inHand, State.returns]
  · obtain ⟨⟨reply, waits⟩, _⟩ := deadlocked
    exact nomatch waits

omit [DecidableEq Thread] in
theorem Invariant.good_drain (invariant : Invariant responseType state)
    (at_place : state.call = .drain reply) (now : Int)
    (drains : state.drain reply (state.mQueue.enterGet true 0 now) =
      some next) : AllGood responseType next := by
  rcases drain_eq_some drains with
    ⟨mbe, event, rfl⟩ | ⟨status, element, failed, event, rfl⟩
  · exact good_of_going nofun nofun
  · rintro rmsg ⟨there, expected⟩
    obtain rfl := invariant.asked rmsg reply there (at_place ▸ rfl)
    refine ⟨fun status' result' returned => ?_, fun deadlocked => ?_⟩
    · obtain ⟨⟨contents, closed⟩, represents, accounted⟩ := invariant.queue
      have accounted : state.accepted = _ := accounted
      have empty : contents = [] := by
        cases contents with
        | nil => rfl
        | cons mbe rest =>
            obtain ⟨taken, got, _⟩ := enterGet_of_cons represents 0 now
            rw [got] at event
            obtain ⟨rfl, _⟩ := EtchCircularQueue.Event.get.inj
              (Option.some.inj event)
            exact absurd rfl failed
      rw [at_place, show state.rmsg = some rmsg from there, empty] at accounted
      obtain ⟨rfl, rfl⟩ := Call.returned.inj returned
      refine ⟨rfl, accounted.trans ?_⟩
      simp [Call.inHand, State.returns]
    · obtain ⟨⟨reply, waits⟩, _⟩ := deadlocked
      exact nomatch waits

/-- A step that meets the condition is a good one. -/
theorem Invariant.good_step {action : Action Thread}
    (invariant : Invariant responseType state)
    (good : AllGood responseType state) (meets : Meets state action)
    (step : Step responseType state action next) :
    AllGood responseType next := by
  cases step with
  | read now at_place free reads =>
      rcases read_eq_some reads with
        ⟨_, _, rfl⟩ | ⟨_, _, rfl⟩ | ⟨_, _, _, _, rfl⟩ <;>
        exact good_of_going nofun nofun
  | woken end_ now at_place reads =>
      rcases read_eq_some reads with
        ⟨_, _, rfl⟩ | ⟨_, _, rfl⟩ | ⟨_, _, _, _, rfl⟩ <;>
        exact good_of_going nofun nofun
  | closed reply at_place free closed =>
      exact invariant.good_closed at_place closed meets
  | closeDelivery reply at_place free opened =>
      rintro rmsg ⟨there, expected⟩
      obtain rfl := invariant.asked rmsg reply there (at_place ▸ rfl)
      refine ⟨nofun, fun deadlocked => ?_⟩
      obtain ⟨thread, walked⟩ := deadlocked.2
      exact (meets _ at_place expected).2 opened thread walked
  | unregister reply at_place free => exact good_of_going nofun nofun
  | close reply at_place => exact good_of_going nofun nofun
  | drain reply now at_place free drains =>
      exact invariant.good_drain at_place now drains
  | redeliver mbe reply at_place => exact good_of_going nofun nofun
  | sessionMessage thread msg idle =>
      exact good.others rfl rfl rfl (fun _ _ _ => rfl)
        fun _ walked => places_of_go (.sessionMessage msg) nofun walked
  | found thread msg at_place free registered =>
      exact good.others rfl rfl rfl (fun _ _ _ => rfl)
        fun _ walked => places_of_go (.message msg) nofun walked
  | missing thread msg at_place free unregistered =>
      exact good.others rfl rfl rfl (fun _ _ _ => rfl)
        fun _ walked => places_of_go .idle nofun walked
  | message thread msg at_place free =>
      refine good.others rfl rfl rfl (fun status result returned => ?_)
        fun _ walked => places_of_go .idle nofun walked
      -- the mailbox has been closed, and takes no message
      have closed := invariant.closed (returned ▸ rfl)
      change (state.message msg).accepted = state.accepted
      unfold State.message EtchCircularQueue.putNow
      rw [closed]
      rfl
  | sessionNotify thread idle =>
      exact good.others rfl rfl rfl (fun _ _ _ => rfl)
        fun _ walked => places_of_go .sessionNotify nofun walked
  | walk thread at_place free registered =>
      rintro rmsg ⟨there, expected⟩
      have before := good rmsg ⟨there, expected⟩
      refine ⟨before.returned, fun deadlocked => ?_⟩
      obtain ⟨⟨reply, waits⟩, _⟩ := deadlocked
      have same := invariant.asked rmsg reply there
        (congrArg Call.reply waits)
      exact expected (same.symm.trans (meets reply waits))
  | pass thread at_place free =>
      exact good.others rfl rfl rfl (fun _ _ _ => rfl)
        fun _ walked => places_of_go .unlock nofun walked
  | closedDelivery thread at_place free =>
      obtain ⟨call, places, _, _, rmsg, redelivered, accepted⟩ :=
        closeDelivery_kept state
      refine good.others call rmsg redelivered (fun _ _ _ => accepted)
        fun other walked => ?_
      rw [← places]
      exact places_of_go .unlock nofun walked
  | unlock thread at_place =>
      exact good.others rfl rfl rfl (fun _ _ _ => rfl)
        fun _ walked => places_of_go .idle nofun walked

theorem right_of_good (invariant : Invariant responseType state)
    (good : AllGood responseType state) : Right responseType state := by
  intro rmsg result there replies
  have expected : responseType.reply rmsg ≠ .error := by
    intro error
    rw [error] at replies
    exact nomatch replies
  have good := good rmsg ⟨there, expected⟩
  refine ⟨fun status result' returned => ?_,
    invariant.comesBack there good.free⟩
  obtain ⟨same, accepted⟩ := good.returned status result' returned
  cases reply : responseType.reply rmsg with
  | error => exact absurd reply expected
  | void =>
      rw [reply] at replies same
      cases replies
      obtain ⟨rfl, rfl⟩ := Prod.mk.inj same
      exact ⟨rfl, rfl, accepted⟩
  | result r =>
      rw [reply] at replies same
      cases replies
      obtain ⟨rfl, rfl⟩ := Prod.mk.inj same
      exact ⟨rfl, rfl, accepted⟩

/-! ## Why the condition is needed -/

/-- `endcall` keeps `mQueueMutex`, and the session `mMailboxesMutex`. -/
theorem Deadlocked.step {action : Action Thread}
    (deadlocked : Deadlocked state)
    (invariant : Invariant responseType state)
    (step : Step responseType state action next) : Deadlocked next := by
  obtain ⟨⟨reply, call⟩, thread, walked⟩ := deadlocked
  have held := invariant.held.trans (congrArg Call.holds call)
  have mutex := (invariant.kept thread).mp (congrArg Place.keeps walked)
  have stays : ∀ (other : Thread) (place : Place Message),
      state.places other ≠ .closeDelivery →
        Function.update state.places other place thread = .closeDelivery := by
    intro other place elsewhere
    have apart : thread ≠ other := by
      rintro rfl
      exact elsewhere walked
    rw [Function.update_of_ne apart]
    exact walked
  cases step with
  | read _ at_place | woken _ _ at_place | closed _ at_place
  | closeDelivery _ at_place | close _ at_place | drain _ _ at_place
  | redeliver _ _ at_place => cases call.symm.trans at_place
  | unregister _ _ free | walk _ _ free | pass _ _ free =>
      cases mutex.symm.trans free
  | closedDelivery _ _ free => cases held.symm.trans free
  | sessionMessage other _ place | found other _ place
  | missing other _ place | message other _ place
  | sessionNotify other place | unlock other place =>
      exact ⟨⟨reply, call⟩, thread, stays other _ (by rw [place]; nofun)⟩

theorem Deadlocked.not_comesBack (deadlocked : Deadlocked state)
    (invariant : Invariant responseType state) :
    ¬ ComesBack responseType state := by
  rintro ⟨final, status, result, reaches, returned⟩
  have stuck : Invariant responseType final ∧ Deadlocked final := by
    refine Library.Monitor.invariant_of_reaches (fun state =>
      Invariant responseType state ∧ Deadlocked state) ?_ reaches
      ⟨invariant, deadlocked⟩
    rintro state next ⟨invariant, deadlocked⟩ ⟨action, step⟩
    exact ⟨invariant.step step, deadlocked.step invariant step⟩
  obtain ⟨⟨reply, waits⟩, _⟩ := stuck.2
  cases waits.symm.trans returned

omit [DecidableEq Thread] in
theorem exists_expected {reply : Reply Object} (expected : reply ≠ .error) :
    ∃ result, reply.expected = some result ∧
      reply.returned .ETCH_OK = (.ETCH_OK, result) := by
  cases reply with
  | error => exact absurd rfl expected
  | void => exact ⟨none, rfl, rfl⟩
  | result r => exact ⟨some r, rfl, rfl⟩

theorem Deadlocked.not_right {rmsg : Message} (deadlocked : Deadlocked state)
    (invariant : Invariant responseType state)
    (expects : Expects responseType state rmsg) :
    ¬ Right responseType state := by
  intro right
  obtain ⟨result, expected, _⟩ := exists_expected expects.2
  exact deadlocked.not_comesBack invariant
    (right rmsg result expects.1 expected).2

/-- A closed mailbox fails a void call, and its messages stay. -/
theorem Invariant.not_right_closed {rmsg : Message}
    (invariant : Invariant responseType state)
    (expects : Expects responseType state rmsg)
    (at_place : state.call = .closeRead (responseType.reply rmsg))
    (unmet : ¬ ((∃ r, responseType.reply rmsg = .result r) ∧
      state.mQueue.isEmpty = true)) :
    ¬ Right responseType
      (state.returns (responseType.reply rmsg) .ETCH_ERROR) := by
  intro right
  obtain ⟨there, expected⟩ := expects
  cases reply : responseType.reply rmsg with
  | error => exact expected reply
  | void =>
      have back := (right rmsg none there (by rw [reply]; rfl)).1
      rw [reply] at back
      cases (back _ _ rfl).1
  | result r =>
      obtain ⟨fifo, represents, accounted⟩ := invariant.queue
      have accounted : state.accepted = _ := accounted
      have fresh := invariant.fresh (at_place ▸ rfl)
      have back := (right rmsg (some r) there (by rw [reply]; rfl)).1
      rw [reply] at back
      obtain ⟨_, _, all⟩ := back _ _ rfl
      have all : state.accepted = rmsg :: state.redelivered := all
      rw [at_place, there, fresh] at accounted
      rw [accounted, fresh] at all
      refine unmet ⟨⟨r, reply⟩, represents.isEmpty_iff.mpr ?_⟩
      exact (List.cons.inj all).2

/-- Once a reply has been read a step that does not meet the condition leads to
a state that is not right. -/
theorem Invariant.not_right_of_not_meets {rmsg : Message}
    {action : Action Thread} (invariant : Invariant responseType state)
    (expects : Expects responseType state rmsg)
    (step : Step responseType state action next)
    (unmet : ¬ Meets state action) : ¬ Right responseType next := by
  obtain ⟨there, expected⟩ := expects
  have invariant' := invariant.step step
  cases step with
  | closed reply at_place free closed =>
      obtain rfl := invariant.asked rmsg reply there (at_place ▸ rfl)
      refine invariant.not_right_closed ⟨there, expected⟩ at_place fun empty =>
        unmet fun reply' waits _ => ?_
      obtain rfl := Call.closeRead.inj (at_place.symm.trans waits)
      exact ⟨fun _ => empty, fun open_ => by rw [closed] at open_; cases open_⟩
  | closeDelivery reply at_place free opened =>
      obtain rfl := invariant.asked rmsg reply there (at_place ▸ rfl)
      refine Deadlocked.not_right ⟨⟨_, rfl⟩, ?_⟩ invariant' ⟨there, expected⟩
      by_contra clear
      refine unmet fun reply' waits _ => ⟨fun closed => ?_,
        fun _ thread walked => clear ⟨thread, walked⟩⟩
      rw [opened] at closed
      cases closed
  | walk thread at_place free registered =>
      have waits : ∃ reply, state.call = .unregister reply := by
        by_contra clear
        exact unmet fun reply waits => absurd ⟨reply, waits⟩ clear
      exact Deadlocked.not_right
        ⟨waits, thread, Function.update_self thread _ state.places⟩ invariant'
        ⟨there, expected⟩
  | read _ at_place | woken _ _ at_place | unregister _ at_place
  | close _ at_place | drain _ _ at_place | redeliver _ _ at_place =>
      exact absurd (fun reply waits => by cases at_place.symm.trans waits) unmet
  | _ => exact absurd trivial unmet

/-- A reply that has been read stays, and so does what `endcall` has come back
with. -/
theorem Invariant.kept_step {rmsg : Message} {action : Action Thread}
    (invariant : Invariant responseType state)
    (there : state.rmsg = some rmsg)
    (step : Step responseType state action next) :
    next.rmsg = some rmsg ∧ ∀ status result,
      state.call = .returned status result →
        next.call = state.call ∧ next.accepted = state.accepted ∧
          next.redelivered = state.redelivered := by
  cases step with
  | read _ at_place | woken _ _ at_place =>
      exact nomatch (invariant.unread (at_place ▸ rfl)).symm.trans there
  | closed _ at_place | closeDelivery _ at_place | unregister _ at_place
  | close _ at_place | redeliver _ _ at_place =>
      exact ⟨there, fun _ _ back => nomatch at_place.symm.trans back⟩
  | drain _ _ at_place _ drains =>
      refine ⟨?_, fun _ _ back => nomatch at_place.symm.trans back⟩
      rcases drain_eq_some drains with ⟨_, _, rfl⟩ | ⟨_, _, _, _, rfl⟩ <;>
        exact there
  | message _ msg =>
      refine ⟨there, fun status result back => ⟨rfl, ?_, rfl⟩⟩
      have closed := invariant.closed (back ▸ rfl)
      change (state.message msg).accepted = state.accepted
      unfold State.message EtchCircularQueue.putNow
      rw [closed]
      rfl
  | closedDelivery =>
      obtain ⟨call, _, _, _, rmsg, redelivered, accepted⟩ :=
        closeDelivery_kept state
      exact ⟨rmsg.trans there, fun _ _ _ => ⟨call, accepted, redelivered⟩⟩
  | _ => exact ⟨there, fun _ _ _ => ⟨rfl, rfl, rfl⟩⟩

/-- A state that is not right never leads to one that is. -/
theorem Invariant.right_of_step {action : Action Thread}
    (invariant : Invariant responseType state)
    (step : Step responseType state action next)
    (right : Right responseType next) : Right responseType state := by
  intro rmsg result there replies
  obtain ⟨read, kept⟩ := invariant.kept_step there step
  obtain ⟨back, comes⟩ := right rmsg result read replies
  refine ⟨fun status result' returned => ?_, ComesBack.of_step step comes⟩
  obtain ⟨call, accepted, redelivered⟩ := kept status result' returned
  have same := back status result' (call.trans returned)
  rwa [accepted, redelivered] at same

end Steps

section Runs

variable [DecidableEq Thread] {responseType}
  {state : State Thread Message Object}

abbrev ReachesMeeting (responseType : ResponseType Message Object) :
    State Thread Message Object → State Thread Message Object → Prop :=
  Relation.ReflTransGen fun state next =>
    ∃ action, Meets state action ∧ Step responseType state action next

theorem ReachesMeeting.go {thread : Thread}
    {start next : State Thread Message Object}
    (reaches : ReachesMeeting responseType start state)
    (step : Step responseType state (.go thread) next) :
    ReachesMeeting responseType start next :=
  .tail reaches ⟨.go thread, trivial, step⟩

theorem ReachesMeeting.endcall {start next : State Thread Message Object}
    (reaches : ReachesMeeting responseType start state)
    (elsewhere : ∀ reply, state.call ≠ .closeRead reply)
    (step : Step responseType state .endcall next) :
    ReachesMeeting responseType start next :=
  .tail reaches
    ⟨.endcall, fun reply waits => absurd waits (elsewhere reply), step⟩

/-- In a run whose steps meet the condition `endcall` comes back right. -/
theorem right_of_meets
    (reaches : ReachesMeeting responseType State.initial state) :
    Right responseType state := by
  have kept : Invariant responseType state ∧ AllGood responseType state := by
    refine Library.Monitor.invariant_of_reaches (fun state =>
      Invariant responseType state ∧ AllGood responseType state) ?_ reaches
      ⟨invariant_initial responseType, fun _ expects => nomatch expects.1⟩
    rintro state next ⟨invariant, good⟩ ⟨action, meets, step⟩
    exact ⟨invariant.step step, invariant.good_step good meets step⟩
  exact right_of_good kept.1 kept.2

/-- The reply is the message `true`, and its field may be missing. -/
def replyOf (get : Got Nat) : ResponseType Bool Nat where
  timeout := 5
  isType rmsg := rmsg
  get _ := get

/-- After a step that does not meet the condition no state is right again. -/
theorem never_right_of_not_meets {rmsg : Message} {action : Action Thread}
    {next final : State Thread Message Object}
    (reaches : Reaches responseType .initial state)
    (expects : Expects responseType state rmsg)
    (step : Step responseType state action next)
    (unmet : ¬ Meets state action)
    (later : Reaches responseType next final) :
    ¬ Right responseType final := by
  have holds {state : State Thread Message Object}
      (reaches : Reaches responseType .initial state) :
      Invariant responseType state :=
    Library.Monitor.invariant_of_reaches (Invariant responseType)
      (fun _ _ holds takes => takes.elim fun _ step => holds.step step)
      reaches (invariant_initial responseType)
  intro right
  refine (holds reaches).not_right_of_not_meets expects step unmet ?_
  replace reaches := reaches.tail ⟨action, step⟩
  clear step
  induction later using Relation.ReflTransGen.head_induction_on with
  | refl => exact right
  | head takes rest ih =>
      obtain ⟨_, step⟩ := takes
      exact (holds reaches).right_of_step step (ih (reaches.tail ⟨_, step⟩))

/-- The reply comes, and a further message before `endcall` closes. -/
theorem right_of_meets_further :
    ∃ state : State Unit Bool Nat,
      state.call = .returned .ETCH_OK (some 7) ∧
        state.accepted = [true, false] ∧ state.redelivered = [false] ∧
        Right (replyOf (.ok 7)) state := by
  have start : ReachesMeeting (replyOf (.ok 7)) State.initial
      (State.initial : State Unit Bool Nat) := .refl
  have replied := ((start.go (.sessionMessage () true rfl)).go
    (.found () true rfl rfl rfl)).go (.message () true rfl rfl)
  have read := replied.endcall nofun (.read 0 rfl rfl rfl)
  have further := ((read.go (.sessionMessage () false rfl)).go
    (.found () false rfl rfl rfl)).go (.message () false rfl rfl)
  have locked : ReachesMeeting (replyOf (.ok 7)) State.initial _ :=
    .tail further ⟨.endcall, fun _ _ _ => ⟨nofun, fun _ _ => nofun⟩,
      .closeDelivery _ rfl rfl rfl⟩
  have closed := (locked.endcall nofun (.unregister _ rfl rfl)).endcall nofun
    (.close _ rfl)
  have drained := (closed.endcall nofun (.drain _ 0 rfl rfl rfl)).endcall nofun
    (.redeliver _ _ rfl)
  have returned := drained.endcall nofun (.drain _ 0 rfl rfl rfl)
  exact ⟨_, rfl, rfl, rfl, right_of_meets returned⟩

/-- The reply of a void call comes, then the session is down, and its mailbox
is closed before `endcall` closes it. -/
theorem voidReply_not_right :
    ¬ ∀ state : State Unit Bool Nat,
      Reaches (replyOf .notExist) State.initial state →
        Right (replyOf .notExist) state := by
  intro right
  have replied : Reaches (replyOf .notExist)
      (State.initial : State Unit Bool Nat) _ :=
    .tail (.tail (.tail .refl ⟨_, .sessionMessage () true rfl⟩)
      ⟨_, .found () true rfl rfl rfl⟩) ⟨_, .message () true rfl rfl⟩
  have read : Reaches (replyOf .notExist) State.initial _ :=
    .tail replied ⟨.endcall, .read 0 rfl rfl rfl⟩
  have down : Reaches (replyOf .notExist) State.initial _ :=
    .tail (.tail (.tail read ⟨_, .sessionNotify () rfl⟩)
      ⟨_, .walk () rfl rfl rfl⟩) ⟨_, .closedDelivery () rfl rfl⟩
  have returned : Reaches (replyOf .notExist) State.initial _ :=
    .tail down ⟨.endcall, .closed _ rfl rfl rfl⟩
  cases ((right _ returned true none rfl rfl).1 _ _ rfl).1

theorem never_right_of_not_meets_void :
    ∃ final : State Unit Bool Nat,
      final.call = .returned .ETCH_ERROR none ∧
        ¬ Right (replyOf .notExist) final := by
  have read : Reaches (replyOf .notExist)
      (State.initial : State Unit Bool Nat) _ :=
    .tail (.tail (.tail (.tail .refl ⟨_, .sessionMessage () true rfl⟩)
      ⟨_, .found () true rfl rfl rfl⟩) ⟨_, .message () true rfl rfl⟩)
      ⟨.endcall, .read 0 rfl rfl rfl⟩
  have down : Reaches (replyOf .notExist) State.initial _ :=
    .tail (.tail (.tail read ⟨_, .sessionNotify () rfl⟩)
      ⟨_, .walk () rfl rfl rfl⟩) ⟨_, .closedDelivery () rfl rfl⟩
  exact ⟨_, rfl, never_right_of_not_meets down
    (show Expects _ _ true from ⟨rfl, nofun⟩) (.closed .void rfl rfl rfl)
    (fun meets => nomatch (meets _ rfl nofun).1 rfl) .refl⟩

end Runs

end Etch.Cpp.EtchDefaultDeliveryService
