import Etch.Java.PlainMailbox

/-!
# The Java `PlainMailboxManager` under any schedule

Calls, messages, replies and notifications of the connection come from any
number of threads.  The map of mailboxes is its own lock.  `up` is set without
it, but the test in `register` and the copy that `unregisterAll` makes are both
under this lock.
-/

namespace Etch.Java

open Etch.Library.Fallible Etch.Library.Monitor

/-- Mailboxes are numbered as they are created. -/
structure PlainMailboxManager where
  up : Bool
  nextId : Int
  mailboxes : List (Int × Nat)

namespace PlainMailboxManager

open CircularQueue (Reading)

variable {Thread Element Notify Object : Type}

/-- `idGen.next()`, with a stride of 37. -/
def next (manager : PlainMailboxManager) : Int × PlainMailboxManager :=
  (manager.nextId,
    { manager with nextId := CircularQueue.long (manager.nextId + 37) })

/-- `register(mb)` of a mailbox with a message id. -/
def register (manager : PlainMailboxManager) (msgid : Int) (mb : Nat) :
    Except Thrown PlainMailboxManager :=
  if !manager.up then
    .error (.illegalStateException (text "connection down"))
  else if (manager.mailboxes.lookup msgid).isSome then
    .error (.illegalArgumentException (text "dup msgid in mailboxes"))
  else
    .ok { manager with mailboxes := (msgid, mb) :: manager.mailboxes }

/-- `unregister(mb)` of a mailbox with a message id. -/
def unregister (manager : PlainMailboxManager) (msgid : Int) :
    PlainMailboxManager :=
  { manager with
    mailboxes := manager.mailboxes.filter fun entry => entry.1 ≠ msgid }

def getMailbox (manager : PlainMailboxManager) (msgid : Int) : Option Nat :=
  manager.mailboxes.lookup msgid

/-! ## The threads -/

/-- Where a thread is. -/
inductive Place (Element : Type) where
  | idle
  /-- `transportCall` is about to register its mailbox -/
  | register (mb : Nat)
  | send (mb : Nat)
  /-- a mailbox is given up whose message could not be sent -/
  | unregister (mb : Nat)
  /-- `sessionMessage` has found the mailbox of a reply -/
  | message (msgid : Int) (mb : Nat) (element : Element)
  /-- `closeDelivery` of a mailbox, before and after it is unregistered -/
  | closeDelivery (mb : Nat) (after : Place Element)
  | closeQueue (mb : Nat) (after : Place Element)
  /-- a notification that the connection is down, since a number of `UP`s -/
  | unregisterAll (ups : Nat)
  | closeAll (ups : Nat) (mailboxes : List Nat)
deriving DecidableEq

/-- What has happened. -/
inductive Event (Element : Type) where
  | registered (mb : Nat)
  /-- unregistered by a client, or because its message could not be sent -/
  | unregistered (mb : Nat)
  /-- unregistered by its own `closeDelivery` -/
  | closing (mb : Nat)
  | message (msgid : Int) (mb : Nat) (element : Element) (accepted : Bool)
  | sessionMessage (element : Element)
  | up
  /-- a notification is complete that began after a number of `UP`s -/
  | down (ups : Nat)
  | threw (thrown : Thrown)
deriving DecidableEq

/-- The manager with its mailboxes and threads. -/
structure State (Thread Element Notify Object : Type) where
  manager : PlainMailboxManager
  mailbox : Nat → PlainMailbox Element Notify Object
  created : Nat
  /-- the threads that are in the monitors of mailboxes -/
  owner : Nat → Option Thread
  places : Thread → Place Element
  log : List (Event Element)

/-- What a thread does next. -/
inductive Action (Thread Element : Type) where
  | transportCall (thread : Thread) (messageId inReplyTo : Option Int)
  | transportMessage (thread : Thread) (messageId : Option Int)
  | sessionMessage (thread : Thread) (inReplyTo : Option Int)
      (element : Element)
  | unregister (thread : Thread) (mb : Nat)
  | closeDelivery (thread : Thread) (mb : Nat)
  | up (thread : Thread)
  | down (thread : Thread)
  | proceed (thread : Thread) (now : Int) (throws : Bool)

/-- The number of `UP`s so far. -/
def ups [DecidableEq Element] (log : List (Event Element)) : Nat :=
  log.count .up

variable [DecidableEq Thread] [DecidableEq Element]

namespace State

variable (state : State Thread Element Notify Object)

def go (thread : Thread) (place : Place Element) :
    State Thread Element Notify Object :=
  { state with places := Function.update state.places thread place }

omit [DecidableEq Thread] [DecidableEq Element] in
def note (event : Event Element) : State Thread Element Notify Object :=
  { state with log := state.log ++ [event] }

/-- A method has thrown. -/
def throws (thread : Thread) (thrown : Thrown) :
    State Thread Element Notify Object :=
  (state.note (.threw thrown)).go thread .idle

/-- `new PlainMailbox(this, idGen.next())` -/
def create : State Thread Element Notify Object :=
  let (msgid, manager) := state.manager.next
  { state with
    manager := manager
    mailbox := Function.update state.mailbox state.created (.new msgid)
    created := state.created + 1 }

/-- `transportCall`, up to the call of `register`. -/
def transportCall (thread : Thread) (messageId inReplyTo : Option Int) :
    State Thread Element Notify Object :=
  if messageId.isSome then
    state.throws thread
      (.illegalStateException (text "message has already been sent"))
  else if inReplyTo.isSome then
    state.throws thread
      (.illegalStateException (text "message is marked as a reply"))
  else
    state.create.go thread (.register state.created)

/-- `transportMessage`, the message of which is sent at once. -/
def transportMessage (thread : Thread) (messageId : Option Int) :
    State Thread Element Notify Object :=
  if messageId.isSome then
    state.throws thread
      (.illegalStateException (text "message has already been sent"))
  else
    { state with manager := state.manager.next.2 }

/-- `sessionMessage`, up to the call of `message`. -/
def sessionMessage (thread : Thread) (inReplyTo : Option Int)
    (element : Element) : State Thread Element Notify Object :=
  match inReplyTo with
  | none => state.note (.sessionMessage element)
  | some msgid =>
      match state.manager.getMailbox msgid with
      | none => state
      | some mb => state.go thread (.message msgid mb element)

/-- `unregister(mb)`, for which event -/
def unregister (mb : Nat) (event : Event Element) :
    State Thread Element Notify Object :=
  { state with
    manager := state.manager.unregister
      (state.mailbox mb).messageId }.note event

/-- `message(sender, msg)` of a mailbox -/
def put (mb : Nat) (now : Int) (msgid : Int) (element : Element) :
    State Thread Element Notify Object :=
  let done := CircularQueue.enterPut (state.mailbox mb).queue now (-1)
    (some element)
  { state with
    mailbox := Function.update state.mailbox mb
      { state.mailbox mb with queue := done.queue } }.note
        (.message msgid mb element (decide
          (done.event = some (CircularQueue.Event.put element true))))

/-- The next thing that a thread does. -/
def proceed (thread : Thread) (now : Int) (throws : Bool) :
    Option (State Thread Element Notify Object) :=
  match state.places thread with
  | .idle => none
  | .register mb =>
      match state.manager.register (state.mailbox mb).messageId mb with
      | .error thrown => some (state.throws thread thrown)
      | .ok manager =>
          some (({ state with manager := manager }.note
            (.registered mb)).go thread (.send mb))
  | .send mb =>
      some (state.go thread (if throws then .unregister mb else .idle))
  | .unregister mb =>
      some ((state.unregister mb (.unregistered mb)).go thread .idle)
  | .message msgid mb element =>
      match state.owner mb with
      | some _ => none
      | none => some ((state.put mb now msgid element).go thread .idle)
  | .closeDelivery mb after =>
      match state.owner mb with
      | some _ => none
      | none =>
          if (state.mailbox mb).queue.isClosed then
            some (state.go thread after)
          else
            some ({ state.unregister mb (.closing mb) with
              owner := Function.update state.owner mb (some thread) }.go
                thread (.closeQueue mb after))
  | .closeQueue mb after =>
      match (state.mailbox mb).closed with
      | none => none
      | some mailbox =>
          some ({ state with
            mailbox := Function.update state.mailbox mb mailbox
            owner := Function.update state.owner mb none }.go thread after)
  | .unregisterAll ups =>
      some (state.go thread
        (.closeAll ups (state.manager.mailboxes.map Prod.snd)))
  | .closeAll ups [] => some ((state.note (.down ups)).go thread .idle)
  | .closeAll ups (mb :: mailboxes) =>
      some (state.go thread (.closeDelivery mb (.closeAll ups mailboxes)))

end State

/--
What may happen next.  A client has a mailbox once it has been registered.
-/
def step (state : State Thread Element Notify Object) :
    Action Thread Element → Option (State Thread Element Notify Object)
  | .transportCall thread messageId inReplyTo =>
      if state.places thread = .idle then
        some (state.transportCall thread messageId inReplyTo)
      else
        none
  | .transportMessage thread messageId =>
      if state.places thread = .idle then
        some (state.transportMessage thread messageId)
      else
        none
  | .sessionMessage thread inReplyTo element =>
      if state.places thread = .idle then
        some (state.sessionMessage thread inReplyTo element)
      else
        none
  | .unregister thread mb =>
      if state.places thread = .idle ∧ .registered mb ∈ state.log then
        some (state.unregister mb (.unregistered mb))
      else
        none
  | .closeDelivery thread mb =>
      if state.places thread = .idle ∧ .registered mb ∈ state.log then
        some (state.go thread (.closeDelivery mb .idle))
      else
        none
  | .up thread =>
      if state.places thread = .idle then
        some ({ state with
          manager := { state.manager with up := true } }.note .up)
      else
        none
  | .down thread =>
      if state.places thread = .idle then
        some ({ state with
          manager := { state.manager with up := false } }.go thread
            (.unregisterAll (ups state.log)))
      else
        none
  | .proceed thread now throws =>
      if Reading now then state.proceed thread now throws else none

/-- A manager that has just been created, at a time in milliseconds. -/
def State.start (currentTimeMillis : Int)
    (mailbox : Nat → PlainMailbox Element Notify Object) :
    State Thread Element Notify Object :=
  ⟨⟨false, currentTimeMillis, []⟩, mailbox, 0, fun _ => none,
    fun _ => .idle, []⟩

/-- A step of some thread. -/
def Step (state next : State Thread Element Notify Object) : Prop :=
  ∃ action, step state action = some next

/-! ## Routing and shutdown -/

/-- Registered mailboxes are found by their ids, and replies go to them. -/
structure Routes (state : State Thread Element Notify Object) : Prop where
  keyed : ∀ entry ∈ state.manager.mailboxes,
    (state.mailbox entry.2).messageId = entry.1
  distinct : (state.manager.mailboxes.map fun entry =>
    (state.mailbox entry.2).messageId).Nodup
  replies : ∀ msgid mb element accepted,
    .message msgid mb element accepted ∈ state.log →
      (state.mailbox mb).messageId = msgid

/-- A notification that the connection is down is complete, and no `UP` since. -/
def Down (state : State Thread Element Notify Object) : Prop :=
  .down (ups state.log) ∈ state.log

/-- No mailbox is registered, and none that was is open. -/
structure ShutDown (state : State Thread Element Notify Object) : Prop where
  none : state.manager.mailboxes = []
  closed : ∀ mb, .registered mb ∈ state.log →
    (state.mailbox mb).queue.closed = true

/--
Its id was unregistered by a client, for a message that could not be sent, or
by the `closeDelivery` of another mailbox that had the same id.
-/
def GivenUp (state : State Thread Element Notify Object) (mb : Nat) :
    Prop :=
  ∃ other, (.unregistered other ∈ state.log ∨
      (.closing other ∈ state.log ∧ other ≠ mb)) ∧
    (state.mailbox other).messageId = (state.mailbox mb).messageId

/-- A thread has unregistered the mailbox and is about to close it. -/
def Closing (state : State Thread Element Notify Object) (mb : Nat) :
    Prop :=
  ∃ thread after, state.places thread = .closeQueue mb after

/--
No mailbox is registered, and none that was is open, unless it was given up or
is about to be closed.
-/
structure Settled (state : State Thread Element Notify Object) : Prop where
  none : state.manager.mailboxes = []
  closed : ∀ mb, .registered mb ∈ state.log →
    (state.mailbox mb).queue.closed = true ∨ GivenUp state mb ∨
      Closing state mb

/-! ## Invariant -/

namespace Place

/-- The mailboxes that a thread has got hold of. -/
def subjects : Place Element → List Nat
  | send mb => [mb]
  | unregister mb => [mb]
  | message _ mb _ => [mb]
  | closeDelivery mb after => mb :: after.subjects
  | closeQueue mb after => mb :: after.subjects
  | closeAll _ mailboxes => mailboxes
  | _ => []

/-- The mailboxes that a notification has still to close, once it has them. -/
def pending : Place Element → Option (Nat × Option (List Nat))
  | unregisterAll ups => some (ups, none)
  | closeAll ups mailboxes => some (ups, some mailboxes)
  | closeDelivery mb after =>
      after.pending.map fun (ups, rest) => (ups, rest.map (mb :: ·))
  | closeQueue mb after =>
      after.pending.map fun (ups, rest) => (ups, rest.map (mb :: ·))
  | _ => none

end Place

/-- What a thread may rely on at its place. -/
structure Fits (state : State Thread Element Notify Object)
    (thread : Thread) (place : Place Element) : Prop where
  subjects : ∀ mb ∈ place.subjects, .registered mb ∈ state.log
  register : ∀ mb, place = .register mb → mb < state.created ∧
    .registered mb ∉ state.log ∧
      (state.mailbox mb).queue.closed = false
  message : ∀ msgid mb element, place = .message msgid mb element →
    (state.mailbox mb).messageId = msgid
  closeQueue : ∀ mb after, place = .closeQueue mb after →
    state.owner mb = some thread ∧
      (∀ entry ∈ state.manager.mailboxes, entry.2 ≠ mb)
  after : ∀ mb after,
    place = .closeDelivery mb after ∨ place = .closeQueue mb after →
      after = .idle ∨ ∃ ups mailboxes, after = .closeAll ups mailboxes
  pending : ∀ started rest, place.pending = some (started, rest) →
    started ≤ ups state.log ∧ (started = ups state.log →
      state.manager.up = false ∧ ∀ mailboxes, rest = some mailboxes →
        ∀ entry ∈ state.manager.mailboxes, entry.2 ∈ mailboxes)

structure Invariant (state : State Thread Element Notify Object) :
    Prop where
  keyed : ∀ entry ∈ state.manager.mailboxes,
    (state.mailbox entry.2).messageId = entry.1
  keys : (state.manager.mailboxes.map Prod.fst).Nodup
  known : ∀ entry ∈ state.manager.mailboxes,
    .registered entry.2 ∈ state.log
  opened : ∀ entry ∈ state.manager.mailboxes,
    (state.mailbox entry.2).queue.closed = false
  fresh : ∀ mb, .registered mb ∈ state.log → mb < state.created
  replies : ∀ msgid mb element accepted,
    .message msgid mb element accepted ∈ state.log →
      .registered mb ∈ state.log ∧
        (state.mailbox mb).messageId = msgid
  removed : ∀ mb, .unregistered mb ∈ state.log ∨ .closing mb ∈ state.log →
    .registered mb ∈ state.log
  fate : ∀ mb, .registered mb ∈ state.log →
    (∃ entry ∈ state.manager.mailboxes, entry.2 = mb) ∨
      (state.mailbox mb).queue.closed = true ∨ GivenUp state mb ∨
        Closing state mb
  down : ∀ started, .down started ∈ state.log →
    started ≤ ups state.log ∧ (started = ups state.log →
      state.manager.up = false ∧ state.manager.mailboxes = [])
  fits : ∀ thread, Fits state thread (state.places thread)
  single : ∀ first second mb, state.places first = .register mb →
    state.places second = .register mb → first = second
  owned : ∀ mb thread, state.owner mb = some thread →
    ∃ after, state.places thread = .closeQueue mb after

section Invariant

variable {state : State Thread Element Notify Object}

omit [DecidableEq Thread] in
theorem Invariant.routes (invariant : Invariant state) : Routes state where
  keyed := invariant.keyed
  distinct := by
    have same : state.manager.mailboxes.map (fun entry =>
        (state.mailbox entry.2).messageId) =
        state.manager.mailboxes.map Prod.fst :=
      List.map_congr_left invariant.keyed
    rw [same]
    exact invariant.keys
  replies msgid mb element accepted mem :=
    (invariant.replies msgid mb element accepted mem).2

omit [DecidableEq Thread] in
theorem Invariant.settled (invariant : Invariant state)
    (down : Down state) : Settled state where
  none := ((invariant.down _ down).2 rfl).2
  closed mb registered := by
    refine (invariant.fate mb registered).resolve_left ?_
    rintro ⟨entry, mem, _⟩
    rw [((invariant.down _ down).2 rfl).2] at mem
    exact absurd mem List.not_mem_nil

omit [DecidableEq Thread] in
theorem invariant_start (currentTimeMillis : Int)
    (mailbox : Nat → PlainMailbox Element Notify Object) :
    Invariant (.start currentTimeMillis mailbox :
      State Thread Element Notify Object) where
  keyed := nofun
  keys := .nil
  known := nofun
  opened := nofun
  fresh _ mem := absurd mem List.not_mem_nil
  replies _ _ _ _ mem := absurd mem List.not_mem_nil
  removed _ mem := by simp [State.start] at mem
  fate _ mem := absurd mem List.not_mem_nil
  down _ mem := absurd mem List.not_mem_nil
  fits _ := ⟨nofun, nofun, nofun, nofun, nofun, nofun⟩
  single := nofun
  owned := nofun

/-! ### Threads and logs -/

omit [DecidableEq Element] in
/-- What holds of one thread and of the others. -/
theorem forall_update {P : Thread → Place Element → Prop}
    {places : Thread → Place Element} {thread : Thread}
    {place : Place Element} (here : P thread place)
    (others : ∀ other, other ≠ thread → P other (places other))
    (other : Thread) : P other (Function.update places thread place other) := by
  by_cases is : other = thread
  · subst is
    rw [Function.update_self]
    exact here
  · rw [Function.update_of_ne is]
    exact others other is

theorem ups_append (first second : List (Event Element)) :
    ups (first ++ second) = ups first + ups second :=
  List.count_append

theorem ups_eq_zero {events : List (Event Element)} (none : .up ∉ events) :
    ups events = 0 :=
  List.count_eq_zero.mpr none

/-- What an event requires of the state that it happens in. -/
def Event.Apt (state : State Thread Element Notify Object) :
    Event Element → Prop
  | registered _ => False
  | unregistered mb => registered mb ∈ state.log
  | closing mb => registered mb ∈ state.log
  | message msgid mb _ _ =>
      registered mb ∈ state.log ∧ (state.mailbox mb).messageId = msgid
  | sessionMessage _ => True
  | up => False
  | down started => started ≤ ups state.log ∧
      (started = ups state.log →
        state.manager.up = false ∧ state.manager.mailboxes = [])
  | threw _ => True

variable {next : State Thread Element Notify Object} {thread : Thread}
  {place : Place Element} {events : List (Event Element)}

/--
What a step of a thread leaves alone.  It may unregister mailboxes and close
those that it has unregistered.
-/
structure Spares (state next : State Thread Element Notify Object)
    (thread : Thread) (events : List (Event Element)) : Prop where
  mailboxes : next.manager.mailboxes.Sublist state.manager.mailboxes
  up : state.manager.up = false → next.manager.up = false
  created : state.created ≤ next.created
  ids : ∀ mb < state.created,
    (next.mailbox mb).messageId = (state.mailbox mb).messageId
  closed : ∀ mb < state.created,
    (next.mailbox mb).queue.closed = (state.mailbox mb).queue.closed ∨
      ((next.mailbox mb).queue.closed = true ∧
        .registered mb ∈ state.log ∧
          ∀ entry ∈ next.manager.mailboxes, entry.2 ≠ mb)
  log : next.log = state.log ++ events
  apt : ∀ event ∈ events, event.Apt state
  owner : ∀ other, other ≠ thread → ∀ mb after,
    state.places other = .closeQueue mb after →
      next.owner mb = state.owner mb

namespace Spares

omit [DecidableEq Thread] in
theorem sameUps (spares : Spares state next thread events) :
    ups next.log = ups state.log := by
  have none : ups events = 0 := ups_eq_zero fun mem => spares.apt _ mem
  rw [spares.log, ups_append, none, Nat.add_zero]

omit [DecidableEq Thread] in
theorem registered_iff (spares : Spares state next thread events)
    {mb : Nat} :
    .registered mb ∈ next.log ↔ .registered mb ∈ state.log := by
  rw [spares.log, List.mem_append]
  exact or_iff_left fun mem => spares.apt _ mem

omit [DecidableEq Thread] in
theorem mem_log (spares : Spares state next thread events)
    {event : Event Element} (mem : event ∈ state.log) :
    event ∈ next.log := by
  rw [spares.log]
  exact List.mem_append_left events mem

omit [DecidableEq Thread] in
/-- What another thread relies on. -/
theorem fits (spares : Spares state next thread events)
    (invariant : Invariant state) {other : Thread}
    (different : other ≠ thread) :
    Fits next other (state.places other) := by
  have fits := invariant.fits other
  constructor
  case subjects =>
    intro mb mem
    exact spares.registered_iff.mpr (fits.subjects mb mem)
  case register =>
    intro mb is
    obtain ⟨old, notYet, opened⟩ := fits.register mb is
    refine ⟨Nat.lt_of_lt_of_le old spares.created,
      fun mem => notYet (spares.registered_iff.mp mem), ?_⟩
    rcases spares.closed mb old with same | ⟨_, registered, _⟩
    · exact same.trans opened
    · exact absurd registered notYet
  case message =>
    intro msgid mb element is
    have mem : mb ∈ (state.places other).subjects := by
      rw [is]
      exact List.mem_singleton_self mb
    rw [spares.ids mb (invariant.fresh mb (fits.subjects mb mem))]
    exact fits.message msgid mb element is
  case closeQueue =>
    intro mb after is
    obtain ⟨owned, gone⟩ := fits.closeQueue mb after is
    rw [spares.owner other different mb after is]
    exact ⟨owned, fun entry mem => gone entry (spares.mailboxes.subset mem)⟩
  case after => exact fits.after
  case pending =>
    intro started rest is
    obtain ⟨before, same⟩ := fits.pending started rest is
    rw [spares.sameUps]
    refine ⟨before, fun now => ?_⟩
    obtain ⟨isDown, covers⟩ := same now
    exact ⟨spares.up isDown, fun boxes is entry mem =>
      covers boxes is entry (spares.mailboxes.subset mem)⟩

omit [DecidableEq Thread] in
theorem givenUp (spares : Spares state next thread events)
    (invariant : Invariant state) {mb : Nat}
    (registered : .registered mb ∈ state.log)
    (givenUp : GivenUp state mb) : GivenUp next mb := by
  obtain ⟨other, how, same⟩ := givenUp
  have known : .registered other ∈ state.log := by
    apply invariant.removed
    exact how.imp_right And.left
  refine ⟨other, how.imp spares.mem_log (And.imp_left spares.mem_log), ?_⟩
  rw [spares.ids other (invariant.fresh other known),
    spares.ids mb (invariant.fresh mb registered)]
  exact same

end Spares

/-- A thread gets somewhere, and registers nothing. -/
theorem Invariant.advance (invariant : Invariant state)
    (spares : Spares state next thread events)
    (places : next.places = Function.update state.places thread place)
    (here : Fits next thread place)
    (single : ∀ mb, place = .register mb →
      ∀ other, other ≠ thread → state.places other ≠ .register mb)
    (fate : ∀ entry ∈ state.manager.mailboxes,
      entry ∈ next.manager.mailboxes ∨ GivenUp next entry.2 ∨
        Closing next entry.2)
    (closes : ∀ mb after, state.places thread = .closeQueue mb after →
      (next.mailbox mb).queue.closed = true ∨ Closing next mb)
    (owned : ∀ mb other, next.owner mb = some other →
      ∃ after, next.places other = .closeQueue mb after) :
    Invariant next where
  keyed entry mem := by
    have old := spares.mailboxes.subset mem
    rw [spares.ids entry.2 (invariant.fresh _ (invariant.known entry old))]
    exact invariant.keyed entry old
  keys := (spares.mailboxes.map Prod.fst).nodup invariant.keys
  known entry mem := spares.registered_iff.mpr
    (invariant.known entry (spares.mailboxes.subset mem))
  opened entry mem := by
    have old := spares.mailboxes.subset mem
    rcases spares.closed entry.2
      (invariant.fresh _ (invariant.known entry old)) with
      same | ⟨_, _, gone⟩
    · exact same.trans (invariant.opened entry old)
    · exact absurd rfl (gone entry mem)
  fresh mb mem := Nat.lt_of_lt_of_le
    (invariant.fresh mb (spares.registered_iff.mp mem)) spares.created
  replies msgid mb element accepted mem := by
    have told : .registered mb ∈ state.log ∧
        (state.mailbox mb).messageId = msgid := by
      rw [spares.log, List.mem_append] at mem
      rcases mem with old | new
      · exact invariant.replies msgid mb element accepted old
      · exact spares.apt _ new
    rw [spares.registered_iff, spares.ids mb (invariant.fresh mb told.1)]
    exact told
  removed mb mem := by
    rw [spares.registered_iff]
    rw [spares.log, List.mem_append, List.mem_append] at mem
    rcases mem with (old | new) | (old | new)
    · exact invariant.removed mb (Or.inl old)
    · exact spares.apt _ new
    · exact invariant.removed mb (Or.inr old)
    · exact spares.apt _ new
  fate mb mem := by
    have registered := spares.registered_iff.mp mem
    rcases invariant.fate mb registered with
      ⟨entry, old, rfl⟩ | closed | givenUp | ⟨other, after, is⟩
    · rcases fate entry old with stays | givenUp | closing
      · exact Or.inl ⟨entry, stays, rfl⟩
      · exact Or.inr (Or.inr (Or.inl givenUp))
      · exact Or.inr (Or.inr (Or.inr closing))
    · refine Or.inr (Or.inl ?_)
      rcases spares.closed mb (invariant.fresh mb registered) with
        same | ⟨now, _⟩
      · exact same.trans closed
      · exact now
    · exact Or.inr (Or.inr
        (Or.inl (spares.givenUp invariant registered givenUp)))
    · by_cases same : other = thread
      · subst same
        rcases closes mb after is with closed | closing
        · exact Or.inr (Or.inl closed)
        · exact Or.inr (Or.inr (Or.inr closing))
      · refine Or.inr (Or.inr (Or.inr ⟨other, after, ?_⟩))
        rw [places, Function.update_of_ne same]
        exact is
  down started mem := by
    have told : started ≤ ups state.log ∧ (started = ups state.log →
        state.manager.up = false ∧ state.manager.mailboxes = []) := by
      rw [spares.log, List.mem_append] at mem
      rcases mem with old | new
      · exact invariant.down started old
      · exact spares.apt _ new
    rw [spares.sameUps]
    refine ⟨told.1, fun now => ?_⟩
    obtain ⟨isDown, none⟩ := told.2 now
    exact ⟨spares.up isDown,
      List.sublist_nil.mp (none ▸ spares.mailboxes)⟩
  fits := by
    rw [places]
    exact forall_update here
      fun other different => spares.fits invariant different
  single := by
    rw [places]
    intro first second mb isFirst isSecond
    by_cases atFirst : first = thread
    · by_cases atSecond : second = thread
      · exact atFirst.trans atSecond.symm
      · rw [atFirst, Function.update_self] at isFirst
        rw [Function.update_of_ne atSecond] at isSecond
        exact absurd isSecond (single mb isFirst second atSecond)
    · rw [Function.update_of_ne atFirst] at isFirst
      by_cases atSecond : second = thread
      · rw [atSecond, Function.update_self] at isSecond
        exact absurd isFirst (single mb isSecond first atFirst)
      · rw [Function.update_of_ne atSecond] at isSecond
        exact invariant.single first second mb isFirst isSecond
  owned := owned

/-! ### The steps of a thread -/

omit [DecidableEq Thread] in
theorem fits_idle : Fits state thread .idle :=
  ⟨nofun, nofun, nofun, nofun, nofun, nofun⟩

/-- The mailboxes are what they were. -/
theorem spares_note (apt : ∀ event ∈ events, event.Apt state) :
    Spares state
      ({ state with log := state.log ++ events }.go thread place) thread
        events where
  mailboxes := .refl _
  up := id
  created := Nat.le_refl _
  ids _ _ := rfl
  closed _ _ := Or.inl rfl
  log := rfl
  apt := apt
  owner _ _ _ _ _ := rfl

/-- A thread goes on, and at most tells that it has. -/
theorem Invariant.note (invariant : Invariant state)
    (apt : ∀ event ∈ events, event.Apt state)
    (fits : Fits state thread place)
    (notRegister : ∀ mb, place ≠ .register mb)
    (notClosing : ∀ mb after, state.places thread ≠ .closeQueue mb after) :
    Invariant ({ state with log := state.log ++ events }.go thread place) := by
  have spares : Spares state
      ({ state with log := state.log ++ events }.go thread place) thread
        events := spares_note apt
  apply invariant.advance spares rfl
  case here =>
    constructor
    case subjects =>
      exact fun mb mem => spares.mem_log (fits.subjects mb mem)
    case register => exact fun mb is => absurd is (notRegister mb)
    case message => exact fits.message
    case closeQueue => exact fits.closeQueue
    case after => exact fits.after
    case pending =>
      rw [spares.sameUps]
      exact fits.pending
  case single => exact fun mb is => absurd is (notRegister mb)
  case fate => exact fun entry mem => Or.inl mem
  case closes => exact fun mb after is => absurd is (notClosing mb after)
  case owned =>
    intro mb other owns
    obtain ⟨after, is⟩ := invariant.owned mb other owns
    refine ⟨after, (Function.update_of_ne ?_ ..).trans is⟩
    rintro rfl
    exact notClosing mb after is

/-- A thread goes on and nothing else changes. -/
theorem Invariant.move (invariant : Invariant state)
    (fits : Fits state thread place)
    (notRegister : ∀ mb, place ≠ .register mb)
    (notClosing : ∀ mb after, state.places thread ≠ .closeQueue mb after) :
    Invariant (state.go thread place) := by
  have same : { state with log := state.log ++ [] }.go thread place =
      state.go thread place := by
    rw [List.append_nil]
  rw [← same]
  exact invariant.note (fun _ mem => absurd mem List.not_mem_nil) fits
    notRegister notClosing

theorem Invariant.throws (invariant : Invariant state)
    (notClosing : ∀ mb after, state.places thread ≠ .closeQueue mb after)
    (thrown : Thrown) : Invariant (state.throws thread thrown) := by
  have apt : ∀ event ∈ [Event.threw thrown], event.Apt state :=
    fun _ mem => (List.mem_singleton.mp mem).symm ▸ trivial
  exact invariant.note apt fits_idle nofun notClosing

omit [DecidableEq Thread] in
/-- A thread that has the monitor of no mailbox owns none that it leaves. -/
theorem Invariant.owned_update [DecidableEq Thread]
    (invariant : Invariant state)
    (notClosing : ∀ mb after, state.places thread ≠ .closeQueue mb after)
    {mb : Nat} {other : Thread} (owns : state.owner mb = some other) :
    ∃ after, Function.update state.places thread place other =
      .closeQueue mb after := by
  obtain ⟨after, is⟩ := invariant.owned mb other owns
  refine ⟨after, (Function.update_of_ne ?_ ..).trans is⟩
  rintro rfl
  exact notClosing mb after is

/-- `idGen.next()` for a message that is sent at once. -/
theorem Invariant.numbered (invariant : Invariant state)
    (idle : state.places thread = .idle) :
    Invariant { state with manager := state.manager.next.2 } := by
  have spares : Spares state
      { state with manager := state.manager.next.2 } thread [] :=
    { mailboxes := .refl _
      up := id
      created := Nat.le_refl _
      ids := fun _ _ => rfl
      closed := fun _ _ => Or.inl rfl
      log := (List.append_nil _).symm
      apt := fun _ mem => absurd mem List.not_mem_nil
      owner := fun _ _ _ _ _ => rfl }
  have notClosing mb after : state.places thread ≠ .closeQueue mb after :=
    fun is => nomatch idle.symm.trans is
  have places : state.places =
      Function.update state.places thread .idle := by
    rw [← idle, Function.update_eq_self]
  apply invariant.advance spares places
  case here => exact fits_idle
  case single => exact nofun
  case fate => exact fun entry mem => Or.inl mem
  case closes => exact fun mb after is => absurd is (notClosing mb after)
  case owned => exact invariant.owned

/-- `transportCall` creates a mailbox that nobody else has. -/
theorem Invariant.create (invariant : Invariant state)
    (idle : state.places thread = .idle) :
    Invariant (state.create.go thread (.register state.created)) := by
  have older {mb : Nat} (old : mb < state.created) :
      state.create.mailbox mb = state.mailbox mb :=
    Function.update_of_ne (Nat.ne_of_lt old) ..
  have spares : Spares state
      (state.create.go thread (.register state.created)) thread [] :=
    { mailboxes := .refl _
      up := id
      created := Nat.le_succ _
      ids := fun _ old => congrArg PlainMailbox.messageId (older old)
      closed := fun _ old => Or.inl
        (congrArg (fun mailbox => mailbox.queue.closed) (older old))
      log := (List.append_nil _).symm
      apt := fun _ mem => absurd mem List.not_mem_nil
      owner := fun _ _ _ _ _ => rfl }
  have notClosing mb after : state.places thread ≠ .closeQueue mb after :=
    fun is => nomatch idle.symm.trans is
  apply invariant.advance spares rfl
  case here =>
    refine ⟨nofun, ?_, nofun, nofun, nofun, nofun⟩
    intro mb is
    obtain rfl := Place.register.inj is
    refine ⟨Nat.lt_succ_self _, fun mem => ?_, ?_⟩
    · exact Nat.lt_irrefl _ (invariant.fresh _ mem)
    · exact congrArg (fun mailbox => mailbox.queue.closed)
        (Function.update_self state.created (PlainMailbox.new _)
          state.mailbox)
  case single =>
    intro mb is other _ at'
    obtain rfl := Place.register.inj is
    exact Nat.lt_irrefl _ ((invariant.fits other).register _ at').1
  case fate => exact fun entry mem => Or.inl mem
  case closes => exact fun mb after is => absurd is (notClosing mb after)
  case owned => exact fun mb other owns =>
    invariant.owned_update notClosing owns

omit [DecidableEq Thread] [DecidableEq Element] in
theorem mem_unregister {manager : PlainMailboxManager} {msgid : Int}
    {entry : Int × Nat} :
    entry ∈ (manager.unregister msgid).mailboxes ↔
      entry ∈ manager.mailboxes ∧ entry.1 ≠ msgid := by
  rw [PlainMailboxManager.unregister, List.mem_filter, decide_eq_true_iff]

omit [DecidableEq Thread] in
/-- Whoever unregisters a mailbox has it. -/
theorem spares_unregister [DecidableEq Thread] {mb : Nat}
    {event : Event Element} (apt : event.Apt state) :
    Spares state ((state.unregister mb event).go thread place) thread
      [event] where
  mailboxes := List.filter_sublist
  up := id
  created := Nat.le_refl _
  ids _ _ := rfl
  closed _ _ := Or.inl rfl
  log := rfl
  apt _ mem := (List.mem_singleton.mp mem).symm ▸ apt
  owner _ _ _ _ _ := rfl

/-- A client gives a mailbox up, or its message could not be sent. -/
theorem Invariant.unregister (invariant : Invariant state) {mb : Nat}
    (registered : .registered mb ∈ state.log)
    (notClosing : ∀ mb after, state.places thread ≠ .closeQueue mb after) :
    Invariant
      ((state.unregister mb (.unregistered mb)).go thread .idle) := by
  have spares : Spares state
      ((state.unregister mb (.unregistered mb)).go thread .idle) thread
        [.unregistered mb] := spares_unregister registered
  apply invariant.advance spares rfl
  case here => exact fits_idle
  case single => exact nofun
  case fate =>
    intro entry mem
    by_cases same : entry.1 = (state.mailbox mb).messageId
    · refine Or.inr (Or.inl ⟨mb, Or.inl (List.mem_concat_self ..), ?_⟩)
      exact same.symm.trans (invariant.keyed entry mem).symm
    · exact Or.inl (mem_unregister.mpr ⟨mem, same⟩)
  case closes => exact fun mb after is => absurd is (notClosing mb after)
  case owned => exact fun mb other owns =>
    invariant.owned_update notClosing owns

/-- `closeDelivery` of an open mailbox begins. -/
theorem Invariant.closing (invariant : Invariant state) {mb : Nat}
    {after : Place Element}
    (is : state.places thread = .closeDelivery mb after)
    (free : state.owner mb = none) :
    Invariant ({ state.unregister mb (.closing mb) with
      owner := Function.update state.owner mb (some thread) }.go thread
        (.closeQueue mb after)) := by
  have fits := invariant.fits thread
  rw [is] at fits
  have registered : .registered mb ∈ state.log :=
    fits.subjects mb List.mem_cons_self
  have notClosing mb after : state.places thread ≠ .closeQueue mb after :=
    fun is' => nomatch is.symm.trans is'
  have spares : Spares state ({ state.unregister mb (.closing mb) with
      owner := Function.update state.owner mb (some thread) }.go thread
        (.closeQueue mb after)) thread [.closing mb] :=
    { mailboxes := List.filter_sublist
      up := id
      created := Nat.le_refl _
      ids := fun _ _ => rfl
      closed := fun _ _ => Or.inl rfl
      log := rfl
      apt := fun _ mem => (List.mem_singleton.mp mem).symm ▸ registered
      owner := fun other different mb' after' at' => by
        refine Function.update_of_ne ?_ ..
        rintro rfl
        obtain ⟨owns, _⟩ := (invariant.fits other).closeQueue _ _ at'
        exact nomatch free.symm.trans owns }
  apply invariant.advance spares rfl
  case here =>
    constructor
    case subjects =>
      exact fun mb' mem => spares.mem_log (fits.subjects mb' mem)
    case register => exact nofun
    case message => exact nofun
    case closeQueue =>
      intro mb' after' same
      obtain ⟨rfl, rfl⟩ := Place.closeQueue.inj same
      refine ⟨Function.update_self .., fun entry mem same => ?_⟩
      obtain ⟨old, other⟩ := mem_unregister.mp mem
      exact other (same ▸ (invariant.keyed entry old).symm)
    case after =>
      intro mb' after' same
      obtain ⟨rfl, rfl⟩ := Place.closeQueue.inj (same.resolve_left nofun)
      exact fits.after mb after (Or.inl rfl)
    case pending =>
      intro started rest is'
      obtain ⟨before, same⟩ := fits.pending started rest is'
      rw [spares.sameUps]
      refine ⟨before, fun now => ?_⟩
      obtain ⟨isDown, covers⟩ := same now
      exact ⟨isDown, fun boxes is entry mem =>
        covers boxes is entry (spares.mailboxes.subset mem)⟩
  case single => exact nofun
  case fate =>
    intro entry mem
    by_cases same : entry.1 = (state.mailbox mb).messageId
    · by_cases mine : entry.2 = mb
      · exact Or.inr (Or.inr
          ⟨thread, after, mine ▸ Function.update_self ..⟩)
      · refine Or.inr (Or.inl
          ⟨mb, Or.inr ⟨List.mem_concat_self .., Ne.symm mine⟩, ?_⟩)
        exact same.symm.trans (invariant.keyed entry mem).symm
    · exact Or.inl (mem_unregister.mpr ⟨mem, same⟩)
  case closes => exact fun mb after is => absurd is (notClosing mb after)
  case owned =>
    intro mb' other owns
    change Function.update state.owner mb (some thread) mb' = some other
      at owns
    by_cases mine : mb' = mb
    · rw [mine, Function.update_self] at owns
      obtain rfl := Option.some.inj owns
      exact ⟨after, mine ▸ Function.update_self ..⟩
    · rw [Function.update_of_ne mine] at owns
      exact invariant.owned_update notClosing owns

omit [DecidableEq Thread] [DecidableEq Element] in
/-- A reply is put, or refused, and the mailbox stays as open as it was. -/
theorem closed_enterPut (queue : CircularQueue Element) (now : Int)
    (element : Element) :
    (CircularQueue.enterPut queue now (-1) (some element)).queue.closed =
      queue.closed := by
  have negative : (-1 : Int32).toInt < 0 := by decide
  unfold CircularQueue.enterPut
  dsimp only
  rw [if_pos negative]
  split_ifs
  · rfl
  · unfold CircularQueue.puts CircularQueue.putAndNotify
    cases put : queue.put0 element with
    | error exception => rfl
    | ok next =>
        unfold CircularQueue.put0 at put
        split_ifs at put
        obtain rfl := Except.ok.inj put
        rfl
  · rfl

/-- `sessionMessage` puts a reply into the mailbox that it has found. -/
theorem Invariant.put (invariant : Invariant state) {msgid : Int} {mb : Nat}
    {element : Element}
    (is : state.places thread = .message msgid mb element) (now : Int) :
    Invariant ((state.put mb now msgid element).go thread .idle) := by
  have fits := invariant.fits thread
  rw [is] at fits
  have registered : .registered mb ∈ state.log :=
    fits.subjects mb (List.mem_singleton_self mb)
  have notClosing mb after : state.places thread ≠ .closeQueue mb after :=
    fun is' => nomatch is.symm.trans is'
  have same (other : Nat) :
      ((state.put mb now msgid element).mailbox other).messageId =
          (state.mailbox other).messageId ∧
        ((state.put mb now msgid element).mailbox other).queue.closed =
          (state.mailbox other).queue.closed := by
    apply Function.forall_update_iff (p := fun other
      (mailbox : PlainMailbox Element Notify Object) =>
        mailbox.messageId = (state.mailbox other).messageId ∧
          mailbox.queue.closed = (state.mailbox other).queue.closed)
      state.mailbox |>.mpr
    exact ⟨⟨rfl, closed_enterPut ..⟩, fun _ _ => ⟨rfl, rfl⟩⟩
  have spares : Spares state
      ((state.put mb now msgid element).go thread .idle) thread
        [.message msgid mb element (decide
          ((CircularQueue.enterPut (state.mailbox mb).queue now (-1)
            (some element)).event =
              some (CircularQueue.Event.put element true)))] :=
    { mailboxes := .refl _
      up := id
      created := Nat.le_refl _
      ids := fun other _ => (same other).1
      closed := fun other _ => Or.inl (same other).2
      log := rfl
      apt := fun _ mem => (List.mem_singleton.mp mem).symm ▸
        ⟨registered, fits.message msgid mb element rfl⟩
      owner := fun _ _ _ _ _ => rfl }
  apply invariant.advance spares rfl
  case here => exact fits_idle
  case single => exact nofun
  case fate => exact fun entry mem => Or.inl mem
  case closes => exact fun mb after is => absurd is (notClosing mb after)
  case owned => exact fun mb other owns =>
    invariant.owned_update notClosing owns

omit [DecidableEq Thread] in
/-- What is left to do once a mailbox is closed. -/
theorem Fits.done (fits : Fits state thread place) {mb : Nat}
    {after : Place Element}
    (is : place = .closeDelivery mb after ∨ place = .closeQueue mb after)
    (gone : ∀ entry ∈ state.manager.mailboxes, entry.2 ≠ mb) :
    Fits state thread after := by
  rcases fits.after mb after is with rfl | ⟨ups, mailboxes, rfl⟩
  · exact fits_idle
  · have subjects : place.subjects = mb :: mailboxes := by
      rcases is with rfl | rfl <;> rfl
    have pending : place.pending = some (ups, some (mb :: mailboxes)) := by
      rcases is with rfl | rfl <;> rfl
    refine ⟨?_, nofun, nofun, nofun, nofun, ?_⟩
    · intro other mem
      exact fits.subjects other (subjects ▸ List.mem_cons_of_mem mb mem)
    · intro started rest is'
      obtain ⟨rfl, rfl⟩ := Prod.mk.inj (Option.some.inj is')
      obtain ⟨before, same⟩ := fits.pending _ _ pending
      refine ⟨before, fun now => ?_⟩
      obtain ⟨isDown, covers⟩ := same now
      refine ⟨isDown, fun boxes is entry mem => ?_⟩
      obtain rfl := Option.some.inj is
      exact (List.mem_cons.mp (covers _ rfl entry mem)).resolve_left
        (gone entry mem)

omit [DecidableEq Thread] in
/-- What follows on `closeDelivery` is neither a call nor another one. -/
theorem Fits.after_plain (fits : Fits state thread place) {mb : Nat}
    {after : Place Element}
    (is : place = .closeDelivery mb after ∨ place = .closeQueue mb after) :
    (∀ other, after ≠ .register other) ∧
      (∀ other rest, after ≠ .closeQueue other rest) := by
  rcases fits.after mb after is with rfl | ⟨ups, mailboxes, rfl⟩
  · exact ⟨nofun, nofun⟩
  · exact ⟨nofun, nofun⟩

omit [DecidableEq Thread] [DecidableEq Element] in
theorem closed_closed {before mailbox : PlainMailbox Element Notify Object}
    (closed : before.closed = some mailbox) :
    mailbox.messageId = before.messageId ∧
      mailbox.queue.closed = true := by
  unfold PlainMailbox.closed at closed
  split_ifs at closed with isClosed
  obtain rfl := Option.some.inj closed
  refine ⟨rfl, ?_⟩
  unfold CircularQueue.enterClose
  rw [Bool.eq_false_iff.mpr isClosed]
  rfl

/-- The end of `closeDelivery` of an open mailbox. -/
theorem Invariant.closes (invariant : Invariant state) {mb : Nat}
    {after : Place Element}
    {mailbox : PlainMailbox Element Notify Object}
    (is : state.places thread = .closeQueue mb after)
    (closed : (state.mailbox mb).closed = some mailbox) :
    Invariant ({ state with
      mailbox := Function.update state.mailbox mb mailbox
      owner := Function.update state.owner mb none }.go thread after) := by
  have fits := invariant.fits thread
  rw [is] at fits
  obtain ⟨owns, gone⟩ := fits.closeQueue mb after rfl
  obtain ⟨notRegister, notClosing⟩ := fits.after_plain (Or.inr rfl)
  have done := fits.done (Or.inr rfl) gone
  have now : Function.update state.mailbox mb mailbox mb = mailbox :=
    Function.update_self ..
  have others {other : Nat} (different : other ≠ mb) :
      Function.update state.mailbox mb mailbox other =
        state.mailbox other :=
    Function.update_of_ne different ..
  have ids (other : Nat) :
      (Function.update state.mailbox mb mailbox other).messageId =
        (state.mailbox other).messageId := by
    by_cases mine : other = mb
    · rw [mine, now, (closed_closed closed).1]
    · rw [others mine]
  have spares : Spares state ({ state with
      mailbox := Function.update state.mailbox mb mailbox
      owner := Function.update state.owner mb none }.go thread after)
        thread [] :=
    { mailboxes := .refl _
      up := id
      created := Nat.le_refl _
      ids := fun other _ => ids other
      closed := fun other _ => by
        dsimp only [State.go]
        by_cases mine : other = mb
        · rw [mine, now]
          exact Or.inr ⟨(closed_closed closed).2,
            fits.subjects mb List.mem_cons_self, gone⟩
        · rw [others mine]
          exact Or.inl rfl
      log := (List.append_nil _).symm
      apt := fun _ mem => absurd mem List.not_mem_nil
      owner := fun other different mb' after' at' => by
        refine Function.update_of_ne ?_ ..
        rintro rfl
        obtain ⟨owns', _⟩ := (invariant.fits other).closeQueue _ _ at'
        exact different (Option.some.inj (owns'.symm.trans owns)) }
  apply invariant.advance spares rfl
  case here =>
    constructor
    case subjects => exact done.subjects
    case register => exact fun mb is => absurd is (notRegister mb)
    case message =>
      intro msgid mb' element is'
      exact (ids mb').trans (done.message msgid mb' element is')
    case closeQueue => exact fun mb rest is => absurd is (notClosing mb rest)
    case after => exact done.after
    case pending => exact done.pending
  case single => exact fun mb is => absurd is (notRegister mb)
  case fate => exact fun entry mem => Or.inl mem
  case closes =>
    intro mb' after' is'
    obtain ⟨rfl, _⟩ := Place.closeQueue.inj (is.symm.trans is')
    left
    dsimp only [State.go]
    rw [now]
    exact (closed_closed closed).2
  case owned =>
    intro mb' other owns'
    change Function.update state.owner mb none mb' = some other at owns'
    by_cases mine : mb' = mb
    · rw [mine, Function.update_self] at owns'
      exact nomatch owns'
    · rw [Function.update_of_ne mine] at owns'
      obtain ⟨after', at'⟩ := invariant.owned mb' other owns'
      refine ⟨after', (Function.update_of_ne ?_ ..).trans at'⟩
      rintro rfl
      obtain ⟨same, _⟩ := Place.closeQueue.inj (is.symm.trans at')
      exact mine same.symm

theorem mem_of_lookup {mailboxes : List (Int × Nat)} {msgid : Int}
    {mb : Nat} (found : mailboxes.lookup msgid = some mb) :
    (msgid, mb) ∈ mailboxes := by
  obtain ⟨before, after, rfl, _⟩ := List.lookup_eq_some_iff.mp found
  exact List.mem_append_right before List.mem_cons_self

theorem register_ok {manager after : PlainMailboxManager} {msgid : Int}
    {mb : Nat} (registers : manager.register msgid mb = .ok after) :
    manager.up = true ∧ (∀ entry ∈ manager.mailboxes, entry.1 ≠ msgid) ∧
      after = { manager with
        mailboxes := (msgid, mb) :: manager.mailboxes } := by
  unfold PlainMailboxManager.register at registers
  split_ifs at registers with isDown found
  refine ⟨by simpa using isDown, fun entry mem same => ?_,
    (Except.ok.inj registers).symm⟩
  rw [List.lookup_isSome_iff] at found
  exact found ⟨entry, mem, beq_iff_eq.mpr same.symm⟩

/-- A mailbox is registered, while the connection is up. -/
theorem Invariant.register (invariant : Invariant state) {mb : Nat}
    (is : state.places thread = .register mb) (up : state.manager.up = true)
    (absent : ∀ entry ∈ state.manager.mailboxes,
      entry.1 ≠ (state.mailbox mb).messageId) :
    Invariant (({ state with
      manager := { state.manager with
        mailboxes := ((state.mailbox mb).messageId, mb) ::
          state.manager.mailboxes } }.note (.registered mb)).go thread
            (.send mb)) := by
  obtain ⟨old, notYet, opened⟩ := (invariant.fits thread).register mb is
  have notDown : state.manager.up ≠ false := by
    rw [up]
    exact Bool.true_eq_false.mp
  have known {event : Event Element} :
      event ∈ state.log ++ [.registered mb] ↔
        event ∈ state.log ∨ event = .registered mb := by
    rw [List.mem_append, List.mem_singleton]
  have registered {other : Nat} :
      .registered other ∈ state.log ++ [.registered mb] ↔
        .registered other ∈ state.log ∨ other = mb := by
    rw [known, Event.registered.injEq]
  have sameUps : ups (state.log ++ [.registered mb]) = ups state.log := by
    rw [ups_append]
    rfl
  constructor
  case keyed =>
    intro entry mem
    rcases List.mem_cons.mp mem with rfl | mem
    · rfl
    · exact invariant.keyed entry mem
  case keys =>
    refine List.nodup_cons.mpr ⟨fun mem => ?_, invariant.keys⟩
    obtain ⟨entry, mem, same⟩ := List.mem_map.mp mem
    exact absent entry mem same
  case known =>
    intro entry mem
    refine registered.mpr ?_
    rcases List.mem_cons.mp mem with rfl | mem
    · exact Or.inr rfl
    · exact Or.inl (invariant.known entry mem)
  case opened =>
    intro entry mem
    rcases List.mem_cons.mp mem with rfl | mem
    · exact opened
    · exact invariant.opened entry mem
  case fresh =>
    intro other mem
    rcases registered.mp mem with mem | rfl
    · exact invariant.fresh other mem
    · exact old
  case replies =>
    intro msgid other element accepted mem
    obtain ⟨had, same⟩ := invariant.replies msgid other element accepted
      ((known.mp mem).resolve_right nofun)
    exact ⟨registered.mpr (Or.inl had), same⟩
  case removed =>
    intro other mem
    refine registered.mpr (Or.inl (invariant.removed other ?_))
    exact mem.imp (fun mem => (known.mp mem).resolve_right nofun)
      (fun mem => (known.mp mem).resolve_right nofun)
  case fate =>
    intro other mem
    rcases registered.mp mem with mem | rfl
    · rcases invariant.fate other mem with
        ⟨entry, mem, same⟩ | closed | ⟨by', how, same⟩ | ⟨closer, after, at'⟩
      · exact Or.inl ⟨entry, List.mem_cons_of_mem _ mem, same⟩
      · exact Or.inr (Or.inl closed)
      · refine Or.inr (Or.inr (Or.inl ⟨by', ?_, same⟩))
        exact how.imp (known.mpr ∘ Or.inl)
          (And.imp_left (known.mpr ∘ Or.inl))
      · refine Or.inr (Or.inr (Or.inr ⟨closer, after, ?_⟩))
        refine (Function.update_of_ne ?_ ..).trans at'
        rintro rfl
        exact nomatch is.symm.trans at'
    · exact Or.inl ⟨_, List.mem_cons_self, rfl⟩
  case down =>
    intro started mem
    obtain ⟨before, same⟩ := invariant.down started
      ((known.mp mem).resolve_right nofun)
    change started ≤ ups (state.log ++ _) ∧ (started = ups (state.log ++ _) →
      _)
    rw [sameUps]
    exact ⟨before, fun now => absurd (same now).1 notDown⟩
  case fits =>
    refine forall_update ?_ fun other different => ?_
    · refine ⟨fun other mem => ?_, nofun, nofun, nofun, nofun, nofun⟩
      exact registered.mpr (Or.inr (List.mem_singleton.mp mem))
    · have fits := invariant.fits other
      refine ⟨fun other mem => registered.mpr
        (Or.inl (fits.subjects other mem)), fun its at' => ?_,
        fits.message, fun its after at' => ?_, fits.after,
        fun started rest pending => ?_⟩
      · obtain ⟨old, notYet, opened⟩ := fits.register its at'
        refine ⟨old, fun mem => ?_, opened⟩
        rcases registered.mp mem with mem | rfl
        · exact notYet mem
        · exact different (invariant.single other thread its at' is)
      · obtain ⟨owns, gone⟩ := fits.closeQueue its after at'
        refine ⟨owns, fun entry mem => ?_⟩
        rcases List.mem_cons.mp mem with rfl | mem
        · rintro rfl
          exact notYet (fits.subjects mb
            (at' ▸ List.mem_cons_self))
        · exact gone entry mem
      · obtain ⟨before, same⟩ := fits.pending started rest pending
        change started ≤ ups (state.log ++ _) ∧
          (started = ups (state.log ++ _) → _)
        rw [sameUps]
        exact ⟨before, fun now => absurd (same now).1 notDown⟩
  case single =>
    have was {other : Thread} {its : Nat}
        (at' : Function.update state.places thread (.send mb) other =
          .register its) : state.places other = .register its := by
      by_cases mine : other = thread
      · rw [mine, Function.update_self] at at'
        exact nomatch at'
      · rw [Function.update_of_ne mine] at at'
        exact at'
    exact fun first second its isFirst isSecond =>
      invariant.single first second its (was isFirst) (was isSecond)
  case owned =>
    intro its other owns
    obtain ⟨after, at'⟩ := invariant.owned its other owns
    refine ⟨after, (Function.update_of_ne ?_ ..).trans at'⟩
    rintro rfl
    exact nomatch is.symm.trans at'

omit [DecidableEq Thread] in
/-- The connection is up. -/
theorem Invariant.up (invariant : Invariant state) :
    Invariant ({ state with
      manager := { state.manager with up := true } }.note .up) := by
  have known {event : Event Element} :
      event ∈ state.log ++ [.up] ↔ event ∈ state.log ∨ event = .up := by
    rw [List.mem_append, List.mem_singleton]
  have later : ups (state.log ++ [.up]) = ups state.log + 1 := by
    rw [ups_append]
    rfl
  have registered {other : Nat} : .registered other ∈ state.log ++ [.up] ↔
      .registered other ∈ state.log :=
    known.trans (or_iff_left nofun)
  constructor
  case keyed => exact invariant.keyed
  case keys => exact invariant.keys
  case known => exact fun entry mem =>
    registered.mpr (invariant.known entry mem)
  case opened => exact invariant.opened
  case fresh => exact fun mb mem => invariant.fresh mb (registered.mp mem)
  case replies =>
    intro msgid mb element accepted mem
    obtain ⟨had, same⟩ := invariant.replies msgid mb element accepted
      ((known.mp mem).resolve_right nofun)
    exact ⟨registered.mpr had, same⟩
  case removed =>
    intro mb mem
    refine registered.mpr (invariant.removed mb ?_)
    exact mem.imp (fun mem => (known.mp mem).resolve_right nofun)
      (fun mem => (known.mp mem).resolve_right nofun)
  case fate =>
    intro mb mem
    refine (invariant.fate mb (registered.mp mem)).imp_right
      (Or.imp_right (Or.imp_left ?_))
    rintro ⟨other, how, same⟩
    exact ⟨other, how.imp (known.mpr ∘ Or.inl)
      (And.imp_left (known.mpr ∘ Or.inl)), same⟩
  case down =>
    intro started mem
    obtain ⟨before, _⟩ := invariant.down started
      ((known.mp mem).resolve_right nofun)
    change started ≤ ups (state.log ++ _) ∧ (started = ups (state.log ++ _) →
      _)
    rw [later]
    omega
  case fits =>
    intro thread
    have fits := invariant.fits thread
    refine ⟨fun mb mem => registered.mpr (fits.subjects mb mem),
      fun mb is => ?_, fits.message, fits.closeQueue, fits.after,
      fun started rest pending => ?_⟩
    · obtain ⟨old, notYet, opened⟩ := fits.register mb is
      exact ⟨old, fun mem => notYet (registered.mp mem), opened⟩
    · obtain ⟨before, _⟩ := fits.pending started rest pending
      change started ≤ ups (state.log ++ _) ∧
        (started = ups (state.log ++ _) → _)
      rw [later]
      omega
  case single => exact invariant.single
  case owned => exact invariant.owned

/-- A notification that the connection is down begins. -/
theorem Invariant.goesDown (invariant : Invariant state)
    (idle : state.places thread = .idle) :
    Invariant ({ state with
      manager := { state.manager with up := false } }.go thread
        (.unregisterAll (ups state.log))) := by
  have spares : Spares state ({ state with
      manager := { state.manager with up := false } }.go thread
        (.unregisterAll (ups state.log))) thread [] :=
    { mailboxes := .refl _
      up := fun _ => rfl
      created := Nat.le_refl _
      ids := fun _ _ => rfl
      closed := fun _ _ => Or.inl rfl
      log := (List.append_nil _).symm
      apt := fun _ mem => absurd mem List.not_mem_nil
      owner := fun _ _ _ _ _ => rfl }
  have notClosing mb after : state.places thread ≠ .closeQueue mb after :=
    fun is => nomatch idle.symm.trans is
  apply invariant.advance spares rfl
  case here =>
    refine ⟨nofun, nofun, nofun, nofun, nofun, fun started rest is => ?_⟩
    obtain ⟨rfl, rfl⟩ := Prod.mk.inj (Option.some.inj is)
    exact ⟨Nat.le_refl _, fun _ => ⟨rfl, nofun⟩⟩
  case single => exact nofun
  case fate => exact fun entry mem => Or.inl mem
  case closes => exact fun mb after is => absurd is (notClosing mb after)
  case owned => exact fun mb other owns =>
    invariant.owned_update notClosing owns

/-! ### Runs -/

/-- A thread that goes on keeps the invariant. -/
theorem Invariant.proceed (invariant : Invariant state) {now : Int}
    {throws : Bool}
    (does : state.proceed thread now throws = some next) :
    Invariant next := by
  have fits := invariant.fits thread
  dsimp only [State.proceed] at does
  cases is : state.places thread with
  | idle =>
      rw [is] at does
      exact nomatch does
  | register mb =>
      have notClosing mb after : state.places thread ≠ .closeQueue mb after :=
        fun is' => nomatch is.symm.trans is'
      rw [is] at does
      dsimp only at does
      cases registers :
          state.manager.register (state.mailbox mb).messageId mb with
      | error thrown =>
          rw [registers] at does
          obtain rfl := Option.some.inj does
          exact invariant.throws notClosing thrown
      | ok manager =>
          rw [registers] at does
          obtain rfl := Option.some.inj does
          obtain ⟨up, absent, rfl⟩ := register_ok registers
          exact invariant.register is up absent
  | send mb =>
      have notClosing mb after : state.places thread ≠ .closeQueue mb after :=
        fun is' => nomatch is.symm.trans is'
      rw [is] at does fits
      obtain rfl := Option.some.inj does
      cases throws
      · exact invariant.move fits_idle nofun notClosing
      · refine invariant.move ?_ nofun notClosing
        exact ⟨fits.subjects, nofun, nofun, nofun, nofun, nofun⟩
  | unregister mb =>
      rw [is] at does fits
      obtain rfl := Option.some.inj does
      exact invariant.unregister
        (fits.subjects mb (List.mem_singleton_self mb))
        fun mb after is' => nomatch is.symm.trans is'
  | message msgid mb element =>
      rw [is] at does
      dsimp only at does
      cases free : state.owner mb with
      | some other =>
          rw [free] at does
          exact nomatch does
      | none =>
          rw [free] at does
          obtain rfl := Option.some.inj does
          exact invariant.put is now
  | closeDelivery mb after =>
      rw [is] at does fits
      dsimp only at does
      cases free : state.owner mb with
      | some other =>
          rw [free] at does
          exact nomatch does
      | none =>
          rw [free] at does
          dsimp only at does
          split_ifs at does with closed
          · obtain rfl := Option.some.inj does
            have gone : ∀ entry ∈ state.manager.mailboxes,
                entry.2 ≠ mb := by
              rintro entry mem rfl
              exact Bool.false_ne_true
                ((invariant.opened entry mem).symm.trans closed)
            exact invariant.move (fits.done (Or.inl rfl) gone)
              (fits.after_plain (Or.inl rfl)).1
              fun mb after is' => nomatch is.symm.trans is'
          · obtain rfl := Option.some.inj does
            exact invariant.closing is free
  | closeQueue mb after =>
      rw [is] at does
      dsimp only at does
      cases closed : (state.mailbox mb).closed with
      | none =>
          rw [closed] at does
          exact nomatch does
      | some mailbox =>
          rw [closed] at does
          obtain rfl := Option.some.inj does
          exact invariant.closes is closed
  | unregisterAll started =>
      rw [is] at does fits
      obtain rfl := Option.some.inj does
      refine invariant.move ?_ nofun
        fun mb after is' => nomatch is.symm.trans is'
      refine ⟨fun mb mem => ?_, nofun, nofun, nofun, nofun,
        fun started rest pending => ?_⟩
      · obtain ⟨entry, is', rfl⟩ := List.mem_map.mp mem
        exact invariant.known entry is'
      · obtain ⟨rfl, rfl⟩ := Prod.mk.inj (Option.some.inj pending)
        obtain ⟨before, same⟩ := fits.pending _ _ rfl
        refine ⟨before, fun now => ⟨(same now).1, ?_⟩⟩
        intro mailboxes is entry mem
        obtain rfl := Option.some.inj is
        exact List.mem_map_of_mem mem
  | closeAll started mailboxes =>
      have notClosing mb after : state.places thread ≠ .closeQueue mb after :=
        fun is' => nomatch is.symm.trans is'
      rw [is] at does fits
      obtain ⟨before, same⟩ := fits.pending started _ rfl
      cases mailboxes with
      | nil =>
          obtain rfl := Option.some.inj does
          have apt : ∀ event ∈ [Event.down started],
              event.Apt state := by
            intro event mem
            rw [List.mem_singleton.mp mem]
            refine ⟨before, fun now => ⟨(same now).1, ?_⟩⟩
            refine List.eq_nil_iff_forall_not_mem.mpr fun entry mem => ?_
            exact absurd ((same now).2 [] rfl entry mem) List.not_mem_nil
          exact invariant.note apt fits_idle nofun notClosing
      | cons mb mailboxes =>
          obtain rfl := Option.some.inj does
          refine invariant.move ?_ nofun notClosing
          refine ⟨fits.subjects, nofun, nofun, nofun, ?_, fits.pending⟩
          intro mb' after is'
          obtain ⟨_, rfl⟩ :=
            Place.closeDelivery.inj (is'.resolve_right nofun)
          exact Or.inr ⟨started, mailboxes, rfl⟩

omit [DecidableEq Element] in
theorem note_idle (idle : state.places thread = .idle)
    (event : Event Element) :
    { state with log := state.log ++ [event] }.go thread .idle =
      state.note event := by
  unfold State.go State.note
  congr 1
  rw [← idle, Function.update_eq_self]

/-- Every step keeps the invariant. -/
theorem Invariant.step (invariant : Invariant state)
    {action : Action Thread Element}
    (does : PlainMailboxManager.step state action = some next) :
    Invariant next := by
  cases action with
  | transportCall thread messageId inReplyTo =>
      dsimp only [PlainMailboxManager.step] at does
      split_ifs at does with idle
      obtain rfl := Option.some.inj does
      have notClosing mb after : state.places thread ≠ .closeQueue mb after :=
        fun is => nomatch idle.symm.trans is
      unfold State.transportCall
      split_ifs
      · exact invariant.throws notClosing _
      · exact invariant.throws notClosing _
      · exact invariant.create idle
  | transportMessage thread messageId =>
      dsimp only [PlainMailboxManager.step] at does
      split_ifs at does with idle
      obtain rfl := Option.some.inj does
      unfold State.transportMessage
      split_ifs
      · exact invariant.throws
          (fun mb after is => nomatch idle.symm.trans is) _
      · exact invariant.numbered idle
  | sessionMessage thread inReplyTo element =>
      dsimp only [PlainMailboxManager.step] at does
      split_ifs at does with idle
      obtain rfl := Option.some.inj does
      have notClosing mb after : state.places thread ≠ .closeQueue mb after :=
        fun is => nomatch idle.symm.trans is
      cases inReplyTo with
      | none =>
          have apt : ∀ event ∈ [Event.sessionMessage element],
              event.Apt state :=
            fun _ mem => (List.mem_singleton.mp mem).symm ▸ trivial
          have noted := invariant.note apt fits_idle nofun notClosing
          rw [note_idle idle] at noted
          exact noted
      | some msgid =>
          dsimp only [State.sessionMessage]
          cases found : state.manager.getMailbox msgid with
          | none => exact invariant
          | some mb =>
              have mem : (msgid, mb) ∈ state.manager.mailboxes :=
                mem_of_lookup found
              refine invariant.move ?_ nofun notClosing
              refine ⟨fun other is => ?_, nofun, ?_, nofun, nofun, nofun⟩
              · rw [List.mem_singleton.mp is]
                exact invariant.known _ mem
              · intro msgid' mb' element' is
                obtain ⟨rfl, rfl, _⟩ := Place.message.inj is
                exact invariant.keyed _ mem
  | unregister thread mb =>
      dsimp only [PlainMailboxManager.step] at does
      split_ifs at does with allowed
      obtain rfl := Option.some.inj does
      obtain ⟨idle, registered⟩ := allowed
      have notClosing mb after : state.places thread ≠ .closeQueue mb after :=
        fun is => nomatch idle.symm.trans is
      have gone := invariant.unregister registered notClosing
      have same : (state.unregister mb (.unregistered mb)).go thread .idle =
          state.unregister mb (.unregistered mb) := by
        unfold State.go
        congr 1
        rw [← idle]
        exact Function.update_eq_self ..
      rw [same] at gone
      exact gone
  | closeDelivery thread mb =>
      dsimp only [PlainMailboxManager.step] at does
      split_ifs at does with allowed
      obtain rfl := Option.some.inj does
      obtain ⟨idle, registered⟩ := allowed
      refine invariant.move ?_ nofun
        fun mb after is => nomatch idle.symm.trans is
      refine ⟨fun other mem => ?_, nofun, nofun, nofun, ?_, nofun⟩
      · rw [List.mem_singleton.mp mem]
        exact registered
      · intro mb' after is
        obtain ⟨_, rfl⟩ := Place.closeDelivery.inj (is.resolve_right nofun)
        exact Or.inl rfl
  | up thread =>
      dsimp only [PlainMailboxManager.step] at does
      split_ifs at does with idle
      obtain rfl := Option.some.inj does
      exact invariant.up
  | down thread =>
      dsimp only [PlainMailboxManager.step] at does
      split_ifs at does with idle
      obtain rfl := Option.some.inj does
      exact invariant.goesDown idle
  | proceed thread now throws =>
      dsimp only [PlainMailboxManager.step] at does
      split_ifs at does with reading
      exact invariant.proceed does

def run (state : State Thread Element Notify Object) :
    List (Action Thread Element) →
      Option (State Thread Element Notify Object)
  | [] => some state
  | action :: actions => do
      let next ← step state action
      run next actions

theorem reaches_of_run {actions : List (Action Thread Element)}
    (runs : run state actions = some next) :
    Relation.ReflTransGen Step state next := by
  induction actions generalizing state with
  | nil =>
      obtain rfl := Option.some.inj runs
      exact .refl
  | cons action actions ih =>
      obtain ⟨middle, first, rest⟩ := Option.bind_eq_some_iff.mp runs
      exact .head ⟨action, first⟩ (ih rest)

end Invariant

/-- The manager of a connection that two threads use. -/
def duo : State Bool Nat Unit Unit :=
  .start 5 fun _ => .new 0

/-- The connection goes up and then down while nobody uses it. -/
def upThenDown : List (Action Bool Nat) :=
  [.up true, .down true, .proceed true 0 false, .proceed true 0 false]

/-- A message cannot be sent because the connection goes down meanwhile. -/
def callWhileDown : List (Action Bool Nat) :=
  [.up true, .transportCall false none none, .proceed false 0 false,
    .down true, .proceed false 0 true, .proceed false 0 false,
    .proceed true 0 false, .proceed true 0 false]

end PlainMailboxManager

end Etch.Java
