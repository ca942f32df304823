import Etch.C.MailboxManager
import Etch.C.QueueAprOutcomes

/-!
# The C `etch_plainmailbox`es of one manager

Each mailbox has a queue for one message.  All mailboxes share one lock: it is
held while a message is put, which may have to wait for room.
-/

namespace Etch.C

open Etch.Library.Transition

inductive MailboxState where
  | open_
  | closed_delivery
  | closed_read
deriving DecidableEq

/-- Where a thread is, with the mailbox it is at. -/
inductive Place (T : Type) where
  | idle
  /-- `session_message` has found the mailbox of a message -/
  | found (mailbox : Nat) (message : T)
  /-- in `etchmbox_message`, before the lock -/
  | message (mailbox : Nat) (message : T)
  | put (mailbox : Nat)
  /-- behind its put, with the lock -/
  | notify
  | read (mailbox : Nat)
  /-- in `etchmbox_close_delivery`, before the lock of the queue; a
  `close_read` goes on from there -/
  | closing (mailbox : Nat) (reads : Bool)
  /-- in the loop of `etchmbox_close_read` -/
  | drain (mailbox : Nat)
  /-- in the loop, with a message -/
  | redeliver (mailbox : Nat) (message : T)
deriving DecidableEq

/-- The mailbox whose queue a thread has called. -/
def Place.calls {T : Type} : Place T → Option Nat
  | put mailbox => some mailbox
  | read mailbox => some mailbox
  | drain mailbox => some mailbox
  | _ => none

inductive MailboxEvent (T : Type) where
  /-- `etchmbox_message` is going to return 0 -/
  | accepted (mailbox : Nat) (message : T)
  | returned (mailbox : Nat) (message : T)
  /-- a read without a message, with those left in the queue -/
  | failed (mailbox : Nat) (status : EtchAprQueue.Status) (left : List T)
  | redelivered (mailbox : Nat) (message : T) (to_session : Bool)
  /-- one mailbox closes delivery on one, itself or another -/
  | closed (mailbox target : Nat)
  /-- one mailbox unregisters one, itself or another -/
  | unregistered (mailbox target : Nat)
  /-- `etchmbox_close_read` has returned 0 -/
  | closedRead (mailbox : Nat)
deriving DecidableEq

/-- A manager with its mailboxes, which have the numbers they get there. -/
structure Mailboxes (T Thread : Type) where
  max_delay : Int
  manager : MailboxManager
  mailbox_state : Nat → MailboxState
  queue : Nat → EtchAprQueue.System T Thread
  rwlock : Option Thread
  place : Thread → Place T
  events : List (MailboxEvent T)

namespace Mailboxes

variable {T Thread : Type}

/-- The time of `etchqueue_put_withwait` in microseconds. -/
def put_usec (waitms : Int) : Int :=
  if waitms < 0 then -1 else waitms * 1000

/-- The time of `etchqueue_get_withwait` in microseconds. -/
def get_usec (waitms : Int) : Int :=
  if waitms < 0 then waitms else waitms * 1000

/-- `etchmbox_contains_message(thisx, thismsg)` -/
def contains_message [DecidableEq T] (queue : EtchAprQueue T) (thismsg : T) :
    Bool :=
  (List.range queue.nelts).any fun index => queue.data index == thismsg

/-- The walk over the table in `pmboxmgr_redeliver`, from an index on, with as
many items as there are.  Each mailbox is unregistered as it is closed, which
moves the position to the item behind it, and from there it moves on. -/
def walk : Nat → List HashItem → Nat → List Nat
  | 0, _, _ => []
  | count + 1, items, index =>
      match items[index]? with
      | none => []
      | some item =>
          let items := items.eraseIdx index
          let index := if index < items.length then index else 0
          item.value ::
            if index + 1 < items.length then walk count items (index + 1)
            else []

/-- `etchqueue_close(queue, ETCHQUEUE_NOLOCK)` -/
def close (system : EtchAprQueue.System T Thread) :
    EtchAprQueue.System T Thread :=
  { system.interruptAll with
    queue := { system.queue with terminated := true } }

/-- The sections of a call of the queue, once it has begun. -/
inductive Section (Thread : Type) where
  | lock (wakes : Option Thread)
  | wake (wakes : Option Thread)
  | timeUp

def Section.action (thread : Thread) :
    Section Thread → EtchAprQueue.Action T Thread
  | lock wakes => .lock thread wakes
  | wake wakes => .wake thread wakes
  | timeUp => .timeUp thread

inductive Action (T Thread : Type) where
  | transport_call (msgid : Int64) (transmitted : Bool)
  | session_message (thread : Thread) (in_reply_to : Int64) (message : T)
  | message (thread : Thread)
  /-- gets the lock that the mailboxes share -/
  | lock (thread : Thread)
  | release (thread : Thread)
  | read (thread : Thread) (mailbox : Nat) (waitms : Int)
  | close_delivery (thread : Thread) (mailbox : Nat) (reads : Bool)
  /-- gets the lock of the queue that is to be closed -/
  | close (thread : Thread)
  | drain (thread : Thread)
  /-- with the items of the table in the order of the walk -/
  | redeliver (thread : Thread) (items : List HashItem)
  | queue (thread : Thread) (section_ : Section Thread)

variable (system : Mailboxes T Thread)

/-- The section of `etchmbox_close_delivery` behind the lock of the queue. -/
def close_delivery (mailbox target : Nat) : Mailboxes T Thread :=
  match system.manager.made[target]? with
  | none => system
  | some message_id =>
      if (system.queue target).queue.terminated then system
      else
        let found := findh system.manager.mailboxes (etchhash message_id)
        { system with
          manager := system.manager.unregister message_id
          mailbox_state := Function.update system.mailbox_state target
            (if system.mailbox_state target = .open_ then .closed_delivery
              else system.mailbox_state target)
          queue := Function.update system.queue target
            (close (system.queue target))
          events := .closed mailbox target ::
            (found.map fun item =>
              .unregistered mailbox item.value).toList ++ system.events }

section Steps

variable [DecidableEq Thread]

/-- A thread is somewhere else. -/
def goes (thread : Thread) (place : Place T) : Mailboxes T Thread :=
  { system with place := Function.update system.place thread place }

/-- What a thread does when its call of a queue has returned, if it has. -/
def settles (thread : Thread) (mailbox : Nat)
    (next : EtchAprQueue.System T Thread) : Mailboxes T Thread :=
  let system := { system with
    queue := Function.update system.queue mailbox next }
  match next.calls thread with
  | .idle =>
      match system.place thread, next.events with
      | .put _, .pushed message :: _ =>
          { system.goes thread .notify with
            events := .accepted mailbox message :: system.events }
      | .put _, _ => system.goes thread .notify
      | .read _, .popped message :: _ =>
          { system.goes thread .idle with
            events := .returned mailbox message :: system.events }
      | .read _, .failed _ _ status :: _ =>
          { system.goes thread .idle with
            events := .failed mailbox status next.queue.contents ::
              system.events }
      | .drain _, .popped message :: _ =>
          system.goes thread (.redeliver mailbox message)
      | .drain _, _ =>
          { system.goes thread .idle with
            events := .closedRead mailbox :: system.events }
      | _, _ => system
  | _ => system

/-- Behind `etchmbox_close_delivery`: a `close_read` begins to drain. -/
def closesRead (thread : Thread) (mailbox : Nat) : Bool → Mailboxes T Thread
  | false => system.goes thread .idle
  | true =>
      { system.goes thread (.drain mailbox) with
        mailbox_state :=
          Function.update system.mailbox_state mailbox .closed_read }

variable [DecidableEq T] [Fintype Thread]

def step (system : Mailboxes T Thread) :
    Action T Thread → Option (Mailboxes T Thread)
  | .transport_call msgid transmitted =>
      some { system with
        manager := (system.manager.transport_call msgid transmitted).2 }
  | .session_message thread in_reply_to message =>
      match system.place thread with
      | .idle =>
          match system.manager.get_mailbox in_reply_to with
          | none => some system
          | some mailbox =>
              if (system.queue mailbox).queue.terminated then some system
              else some (system.goes thread (.found mailbox message))
      | _ => none
  | .message thread =>
      match system.place thread with
      | .found mailbox message =>
          if contains_message (system.queue mailbox).queue message then
            some (system.goes thread .idle)
          else
            some (system.goes thread (.message mailbox message))
      | _ => none
  | .lock thread =>
      match system.place thread with
      | .message mailbox message =>
          if system.rwlock = none then do
            let next ← EtchAprQueue.step (system.queue mailbox)
              (.push thread (put_usec system.max_delay) message)
            let system := { system.goes thread (.put mailbox) with
              rwlock := some thread }
            return system.settles thread mailbox next
          else
            none
      | _ => none
  | .release thread =>
      match system.place thread with
      | .notify => some { system.goes thread .idle with rwlock := none }
      | _ => none
  | .read thread mailbox waitms =>
      match system.place thread with
      | .idle => do
          let next ← EtchAprQueue.step (system.queue mailbox)
            (.pop thread (get_usec waitms))
          return (system.goes thread (.read mailbox)).settles thread mailbox
            next
      | _ => none
  | .close_delivery thread mailbox reads =>
      match system.place thread with
      | .idle =>
          if system.mailbox_state mailbox ≠ .open_ ∧
              (system.queue mailbox).queue.terminated then
            some (system.closesRead thread mailbox reads)
          else
            some (system.goes thread (.closing mailbox reads))
      | _ => none
  | .close thread =>
      match system.place thread with
      | .closing mailbox reads =>
          if (system.queue mailbox).queue.terminated then
            some (system.goes thread .idle)
          else
            some ((system.close_delivery mailbox mailbox).closesRead thread
              mailbox reads)
      | _ => none
  | .drain thread =>
      match system.place thread with
      | .drain mailbox => do
          let next ← EtchAprQueue.step (system.queue mailbox)
            (.pop thread EtchAprQueue.ETCHQUEUE_CLEARING_CLOSED_QUEUE)
          return system.settles thread mailbox next
      | _ => none
  | .redeliver thread items =>
      match system.place thread with
      | .redeliver mailbox message =>
          if items.Perm system.manager.mailboxes then
            let system := (walk items.length items 0).foldl
              (fun system target => system.close_delivery mailbox target)
              system
            -- the message is looked at by nobody
            some { system.goes thread (.drain mailbox) with
              events := .redelivered mailbox message false ::
                system.events }
          else
            none
      | _ => none
  | .queue thread section_ => do
      let mailbox ← (system.place thread).calls
      let next ← EtchAprQueue.step (system.queue mailbox)
        (section_.action thread)
      return system.settles thread mailbox next

end Steps

/-- A manager without mailboxes; each gets a queue for one message. -/
def start (null : T) (is_connection_up : Bool) (max_delay : Int) :
    Mailboxes T Thread where
  max_delay
  manager := ⟨is_connection_up, [], []⟩
  mailbox_state := fun _ => .open_
  queue := fun _ => .start null 1
  rwlock := none
  place := fun _ => .idle
  events := []

end Mailboxes

end Etch.C
