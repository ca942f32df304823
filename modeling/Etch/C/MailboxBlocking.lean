import Etch.C.MailboxPlaces

/-!
# Messages that wait for room in the C mailboxes

A thread that waits for room in one mailbox has the lock that all mailboxes
share: no message is put into any other mailbox until it has got it.
-/

namespace Etch.C.Mailboxes

open Etch.Library.Transition
open EtchAprQueue (Outcome Returned Call Wake SameRing)

variable {T Thread : Type}

/-- A thread is asleep in the put of a mailbox. -/
def Waits (system : Mailboxes T Thread) (thread : Thread) (mailbox : Nat) :
    Prop :=
  ((system.queue mailbox).calls thread).waitsFull = some .asleep

/-- A mailbox of the manager is open and has room for a message. -/
structure HasRoom (system : Mailboxes T Thread) (mailbox : Nat) : Prop where
  registered : ∃ item ∈ system.manager.mailboxes, item.value = mailbox
  opened : (system.queue mailbox).queue.terminated = false
  space : (system.queue mailbox).queue.full = false

section Blocking

variable [DecidableEq T] [DecidableEq Thread] [Fintype Thread]

/-- Any thread that has nothing else to do may put a message. -/
def MessageEnabled (system : Mailboxes T Thread) (mailbox : Nat) : Prop :=
  ∀ thread message, system.place thread = .idle →
    (step (system.goes thread (.message mailbox message))
      (.lock thread)).isSome = true

/-- A wait for room in one mailbox does not block another one with room. -/
def Unblocked (system : Mailboxes T Thread) : Prop :=
  ∀ thread mailbox, Waits system thread mailbox →
    ∀ other, other ≠ mailbox → HasRoom system other →
      MessageEnabled system other

end Blocking

/-- Only where no other mailbox has room does a thread begin to wait, and as
long as it waits no other mailbox gets room. -/
def Patient (system : Mailboxes T Thread) : Action T Thread → Prop
  | .transport_call msgid transmitted =>
      (system.manager.transport_call msgid transmitted).1 ≠ none →
        ∀ thread mailbox, ¬ Waits system thread mailbox
  | .queue thread _ =>
      (∀ mailbox timeout message,
        (system.queue mailbox).calls thread = .push timeout message →
          timeout ≠ -1 → (system.queue mailbox).queue.full = true →
            (system.queue mailbox).queue.terminated = false →
              ∀ other, other ≠ mailbox → ¬ HasRoom system other) ∧
      ∀ mailbox, ((system.queue mailbox).calls thread).takes = true →
        (system.queue mailbox).queue.empty = false →
          (∃ item ∈ system.manager.mailboxes, item.value = mailbox) →
            (system.queue mailbox).queue.terminated = false →
              ∀ waiting other, other ≠ mailbox →
                ¬ Waits system waiting other
  | _ => True

/-- While a thread waits there is no room elsewhere. -/
def Clear (system : Mailboxes T Thread) : Prop :=
  ∀ thread mailbox, Waits system thread mailbox →
    ∀ other, other ≠ mailbox → ¬ HasRoom system other

section Lock

variable [DecidableEq T] [DecidableEq Thread] [Fintype Thread]

omit [DecidableEq T] [DecidableEq Thread] [Fintype Thread] in
theorem put_of_waits {system : Mailboxes T Thread} (placed : Placed system)
    {thread : Thread} {mailbox : Nat}
    (waits : Waits system thread mailbox) :
    system.place thread = .put mailbox := by
  refine (placed.fits thread mailbox).put_of_stores ?_
  unfold Waits at waits
  cases call : (system.queue mailbox).calls thread with
  | notFull => rfl
  | _ =>
      rw [call] at waits
      contradiction

omit [DecidableEq T] [DecidableEq Thread] [Fintype Thread] in
theorem rwlock_of_waits {system : Mailboxes T Thread}
    (placed : Placed system) {thread : Thread} {mailbox : Nat}
    (waits : Waits system thread mailbox) :
    system.rwlock = some thread :=
  placed.locks thread (.inl ⟨mailbox, put_of_waits placed waits⟩)

/-- As long as a thread waits, no message is put anywhere. -/
theorem not_messageEnabled {system : Mailboxes T Thread}
    (placed : Placed system) {waiting thread : Thread} {mailbox : Nat}
    (waits : Waits system waiting mailbox)
    (idle : system.place thread = .idle) (message : T) (other : Nat) :
    ¬ MessageEnabled system other := by
  intro enabled
  have takes := enabled thread message idle
  simp [step, goes, rwlock_of_waits placed waits] at takes

end Lock

theorem Clear.mono {system next : Mailboxes T Thread} (clear : Clear system)
    (waits : ∀ thread mailbox, Waits next thread mailbox →
      Waits system thread mailbox)
    (room : ∀ mailbox, HasRoom next mailbox → HasRoom system mailbox) :
    Clear next :=
  fun thread mailbox waiting other differs there =>
    clear thread mailbox (waits thread mailbox waiting) other differs
      (room other there)

/-- The same queues, and no more registered mailboxes. -/
theorem Clear.congr {system next : Mailboxes T Thread} (clear : Clear system)
    (queue : next.queue = system.queue)
    (mailboxes : next.manager.mailboxes ⊆ system.manager.mailboxes) :
    Clear next := by
  refine clear.mono ?_ ?_
  · intro thread mailbox waits
    rwa [Waits, queue] at waits
  · intro mailbox room
    obtain ⟨item, here, same⟩ := room.registered
    refine ⟨⟨item, mailboxes here, same⟩, ?_, ?_⟩
    · rw [← queue]
      exact room.opened
    · rw [← queue]
      exact room.space

/-! ## What every patient step keeps -/

/-- A failed call registers no mailbox. -/
theorem mailboxes_transport_call (manager : MailboxManager) (msgid : Int64)
    (transmitted : Bool)
    (fails : (manager.transport_call msgid transmitted).1 = none) :
    (manager.transport_call msgid transmitted).2.mailboxes ⊆
      manager.mailboxes := by
  cases calls : manager.transport_call msgid transmitted with
  | mk result next =>
      rw [calls] at fails
      obtain rfl : result = none := fails
      simp only [MailboxManager.transport_call] at calls
      split at calls
      · cases calls
        exact List.Subset.refl _
      · split at calls
        · cases calls
          exact (MailboxManager.mailboxes_unregister_sublist _ _).subset
        next registered registers =>
          split at calls
          · cases calls
          · cases calls
            rw [MailboxManager.unregister_register registers]
            exact List.Subset.refl _

/-- Waits of threads in a queue whose ring has no more room. -/
theorem Clear.update {system next : Mailboxes T Thread}
    {mailbox : Nat} {queue : EtchAprQueue.System T Thread}
    (clear : Clear system)
    (queues : next.queue = Function.update system.queue mailbox queue)
    (manager : next.manager.mailboxes ⊆ system.manager.mailboxes)
    (waits : ∀ thread, (queue.calls thread).waitsFull = some .asleep →
      Waits system thread mailbox)
    (room : queue.queue.terminated = false → queue.queue.full = false →
      (system.queue mailbox).queue.terminated = false ∧
        (system.queue mailbox).queue.full = false) :
    Clear next := by
  refine clear.mono ?_ ?_
  · intro thread other waiting
    rw [Waits, queues] at waiting
    by_cases same : other = mailbox
    · subst same
      rw [Function.update_self] at waiting
      exact waits thread waiting
    · rwa [Function.update_of_ne same] at waiting
  · rintro other ⟨⟨item, here, value⟩, opened, space⟩
    rw [queues] at opened space
    by_cases same : other = mailbox
    · subst same
      rw [Function.update_self] at opened space
      obtain ⟨opened, space⟩ := room opened space
      exact ⟨⟨item, manager here, value⟩, opened, space⟩
    · rw [Function.update_of_ne same] at opened space
      exact ⟨⟨item, manager here, value⟩, opened, space⟩

/-- A thread that is woken does not sleep. -/
theorem not_asleep_woken {call : Call T} {wake : Wake}
    (awake : wake ≠ .asleep) :
    (call.woken wake).waitsFull ≠ some .asleep := by
  cases call
  case notFull => simpa [Call.woken, Call.waitsFull] using awake
  all_goals rintro ⟨⟩

theorem waits_of_returned {calls next : Thread → Call T} {thread : Thread}
    (returned : Returned calls thread next) {other : Thread}
    (asleep : (next other).waitsFull = some .asleep) :
    (calls other).waitsFull = some .asleep := by
  by_cases same : other = thread
  · subst same
    rw [returned.own] at asleep
    contradiction
  · rcases returned.others other same with same | woken
    · rwa [same] at asleep
    · rw [woken] at asleep
      exact absurd asleep (not_asleep_woken (by nofun))

theorem Clear.close_delivery {system : Mailboxes T Thread}
    (clear : Clear system) (mailbox target : Nat) :
    Clear (system.close_delivery mailbox target) := by
  rcases close_delivery_cases system mailbox target with
    same | ⟨message_id, made, opened, closes⟩
  · rwa [same]
  · rw [closes]
    refine clear.update rfl
      (MailboxManager.mailboxes_unregister_sublist _ _).subset ?_ nofun
    intro thread asleep
    exact absurd asleep (not_asleep_woken (by nofun))

variable [DecidableEq Thread]

/-- A call of a queue that begins does not sleep. -/
theorem Clear.begins {system next : Mailboxes T Thread}
    {mailbox : Nat} {thread : Thread} {call : Call T}
    {queue : EtchAprQueue.System T Thread} (clear : Clear system)
    (queues : next.queue = Function.update system.queue mailbox queue)
    (manager : next.manager = system.manager)
    (awake : call.waitsFull = none)
    (ring : queue.queue = (system.queue mailbox).queue)
    (calls : queue.calls =
        Function.update (system.queue mailbox).calls thread .idle ∨
      queue.calls =
        Function.update (system.queue mailbox).calls thread call) :
    Clear next := by
  refine clear.update queues (manager ▸ List.Subset.refl _) ?_ ?_
  · intro other asleep
    by_cases same : other = thread
    · subst same
      rcases calls with calls | calls
      · rw [calls, Function.update_self] at asleep
        contradiction
      · rw [calls, Function.update_self, awake] at asleep
        contradiction
    · rcases calls with calls | calls
      all_goals rwa [calls, Function.update_of_ne same] at asleep
  · intro opened space
    rw [ring] at opened space
    exact ⟨opened, space⟩

/-- A section of a call, whatever its outcome. -/
theorem Clear.outcome [Fintype Thread] {system next : Mailboxes T Thread}
    {mailbox : Nat} {thread : Thread}
    {queue : EtchAprQueue.System T Thread} (clear : Clear system)
    (placed : Placed system)
    (queues : next.queue = Function.update system.queue mailbox queue)
    (manager : next.manager = system.manager)
    (outcome : Outcome (system.queue mailbox) thread queue)
    (waits : ∀ timeout message,
      (system.queue mailbox).calls thread = .push timeout message →
        timeout ≠ -1 → (system.queue mailbox).queue.full = true →
          (system.queue mailbox).queue.terminated = false →
            ∀ other, other ≠ mailbox → ¬ HasRoom system other)
    (takes : ((system.queue mailbox).calls thread).takes = true →
      (system.queue mailbox).queue.empty = false →
        (∃ item ∈ system.manager.mailboxes, item.value = mailbox) →
          (system.queue mailbox).queue.terminated = false →
            ∀ waiting other, other ≠ mailbox →
              ¬ Waits system waiting other) : Clear next := by
  have subset : next.manager.mailboxes ⊆ system.manager.mailboxes :=
    manager ▸ List.Subset.refl _
  cases outcome with
  | waitsFull timeout data call blocks full opened ring calls events =>
      have noRoom := waits timeout data call blocks full opened
      intro waiting index asleep other differs room
      have before : HasRoom system other := by
        obtain ⟨⟨item, here, value⟩, opened, space⟩ := room
        rw [queues] at opened space
        by_cases same : other = mailbox
        · subst same
          rw [Function.update_self, ring.terminated_eq] at opened
          rw [Function.update_self, ring.full_eq] at space
          exact ⟨⟨item, subset here, value⟩, opened, space⟩
        · rw [Function.update_of_ne same] at opened space
          exact ⟨⟨item, subset here, value⟩, opened, space⟩
      by_cases own : index = mailbox
      · subst own
        exact noRoom other differs before
      · rw [Waits, queues, Function.update_of_ne own] at asleep
        exact clear waiting index asleep other differs before
  | waitsEmpty timeout call opened ring calls events =>
      refine clear.update queues subset ?_ ?_
      · intro other asleep
        by_cases same : other = thread
        · subst same
          rw [calls, Function.update_self] at asleep
          contradiction
        · rwa [calls, Function.update_of_ne same] at asleep
      · intro opened space
        rw [ring.terminated_eq] at opened
        rw [ring.full_eq] at space
        exact ⟨opened, space⟩
  | fails timeout wake status busy eof ring returned events =>
      refine clear.update queues subset
        (fun other asleep => waits_of_returned returned asleep) ?_
      intro opened space
      rw [ring.terminated_eq] at opened
      rw [ring.full_eq] at space
      exact ⟨opened, space⟩
  | stores data may space ring returned events =>
      refine clear.update queues subset
        (fun other asleep => waits_of_returned returned asleep) ?_
      intro opened _
      rw [ring.terminated_eq] at opened
      exact ⟨opened, space⟩
  | takes may holds ring returned events =>
      intro waiting index asleep other differs room
      have before : Waits system waiting index := by
        rw [Waits, queues] at asleep
        by_cases same : index = mailbox
        · subst same
          rw [Function.update_self] at asleep
          exact waits_of_returned returned asleep
        · rwa [Function.update_of_ne same] at asleep
      obtain ⟨⟨item, here, value⟩, opened, space⟩ := room
      rw [queues] at opened space
      by_cases same : other = mailbox
      · subst same
        rw [Function.update_self, ring.terminated_eq] at opened
        exact takes may holds ⟨item, subset here, value⟩ opened waiting
          index (Ne.symm differs) before
      · rw [Function.update_of_ne same] at opened space
        exact clear waiting index before other differs
          ⟨⟨item, subset here, value⟩, opened, space⟩
  | ends call =>
      exact absurd call (placed.fits thread mailbox).not_term

theorem Clear.closesRead {system : Mailboxes T Thread}
    (clear : Clear system) (thread : Thread) (mailbox : Nat)
    (reads : Bool) : Clear (system.closesRead thread mailbox reads) := by
  cases reads with
  | false => exact clear.congr rfl (List.Subset.refl _)
  | true => exact clear.congr rfl (List.Subset.refl _)

variable [DecidableEq T] [Fintype Thread]

omit [DecidableEq T] in
theorem clear_of_effect {system next : Mailboxes T Thread}
    {action : Action T Thread} (clear : Clear system)
    (placed : Placed system) (patient : Patient system action)
    (effect : Effect system action next) : Clear next := by
  cases effect with
  | transport_call msgid transmitted =>
      by_cases fails :
          (system.manager.transport_call msgid transmitted).1 = none
      · exact clear.congr rfl (mailboxes_transport_call _ _ _ fails)
      · intro thread mailbox waits
        exact absurd waits (patient fails thread mailbox)
  | stays => exact clear
  | moves action thread place away free unlocked empty =>
      exact clear.congr rfl (List.Subset.refl _)
  | lock thread mailbox message queue at_ unlocked begins =>
      have starts : (Call.push (put_usec system.max_delay)
        message).waitsFull = none := rfl
      rcases push_begins begins with ⟨_, rfl⟩ | ⟨_, rfl⟩
      · exact clear.begins queue_settles manager_settles starts rfl
          (.inl rfl)
      · exact clear.begins queue_settles manager_settles starts rfl
          (.inr rfl)
  | release thread at_ => exact clear.congr rfl (List.Subset.refl _)
  | read thread mailbox waitms queue at_ begins =>
      have starts : (Call.pop (get_usec waitms) : Call T).waitsFull =
        none := rfl
      rcases pop_begins begins with ⟨_, rfl⟩ | rfl
      · exact clear.begins queue_settles manager_settles starts rfl
          (.inl rfl)
      · exact clear.begins queue_settles manager_settles starts rfl
          (.inr rfl)
  | closesRead thread mailbox reads at_ closed =>
      exact clear.closesRead thread mailbox reads
  | close thread mailbox reads at_ opened =>
      exact (clear.close_delivery mailbox mailbox).closesRead thread mailbox
        reads
  | drain thread mailbox queue at_ begins =>
      have starts : (Call.pop
        EtchAprQueue.ETCHQUEUE_CLEARING_CLOSED_QUEUE : Call T).waitsFull =
          none := rfl
      rcases pop_begins begins with ⟨_, rfl⟩ | rfl
      · exact clear.begins queue_settles manager_settles starts rfl
          (.inl rfl)
      · exact clear.begins queue_settles manager_settles starts rfl
          (.inr rfl)
  | redeliver thread mailbox message items at_ =>
      have closed := close_deliveries Clear
        (fun other target holds => holds.close_delivery mailbox target)
        (walk items.length items 0) clear
      exact closed.congr rfl (List.Subset.refl _)
  | queue thread section_ mailbox queue calls outcome =>
      exact clear.outcome placed queue_settles manager_settles outcome
        (patient.1 mailbox) (patient.2 mailbox)

/-- Two calls, and two replies to the first one. -/
def second_reply : List (Action Nat (Fin 2)) :=
  [.transport_call 1 true, .transport_call 2 true,
    .session_message 0 1 7, .message 0, .lock 0, .queue 0 (.lock none),
    .release 0,
    .session_message 0 1 8, .message 0, .lock 0, .queue 0 (.lock none)]

end Etch.C.Mailboxes
