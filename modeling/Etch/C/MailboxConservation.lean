import Etch.C.MailboxPlaces

/-!
# What becomes of the messages in the C mailboxes

A message that has been accepted is in its queue until a read returns it.  If
its mailbox has been closed by then, the read fails; `close_read` drops it and
closes other mailboxes in its place.
-/

namespace Etch.C.Mailboxes

open Etch.Library.Transition
open EtchAprQueue (Outcome Returned Call Wake SameRing InOrder)

variable {T Thread : Type}

/-! ## What mailboxes are for -/

/-- What a mailbox has accepted, from the first message on. -/
def accepted (mailbox : Nat) (events : List (MailboxEvent T)) : List T :=
  (events.filterMap fun
    | .accepted other message => if other = mailbox then some message else none
    | _ => none).reverse

/-- What reads have returned and what has been handed to the session, from the
first message on. -/
def taken (mailbox : Nat) (events : List (MailboxEvent T)) : List T :=
  (events.filterMap fun
    | .returned other message => if other = mailbox then some message else none
    | .redelivered other message true =>
        if other = mailbox then some message else none
    | _ => none).reverse

/-- Messages are kept until they are taken, and mailboxes close themselves. -/
structure Conserves (system : Mailboxes T Thread) : Prop where
  /-- no thread being about to hand one on -/
  accounted : ∀ mailbox,
    (∀ thread message, system.place thread ≠ .redeliver mailbox message) →
      accepted mailbox system.events =
        taken mailbox system.events ++ (system.queue mailbox).queue.contents
  handed : ∀ mailbox message to_session,
    .redelivered mailbox message to_session ∈ system.events →
      to_session = true
  /-- a closed mailbox is read until it is empty -/
  read : ∀ mailbox left, .failed mailbox .eof left ∈ system.events →
    left = []
  /-- nothing is left behind by `close_read` -/
  drained : ∀ mailbox, .closedRead mailbox ∈ system.events →
    (system.queue mailbox).queue.contents = []
  closed : ∀ mailbox target, .closed mailbox target ∈ system.events →
    mailbox = target
  unregistered : ∀ mailbox target,
    .unregistered mailbox target ∈ system.events → mailbox = target

/-- No read finds its mailbox closed before it is empty, and no `close_read`
finds a message; none comes behind it.  A mailbox that is closed is the only
one with the hash of its id. -/
def Careful (system : Mailboxes T Thread) : Action T Thread → Prop
  | .read _ mailbox waitms =>
      (system.queue mailbox).queue.terminated = true →
        get_usec waitms ≠ EtchAprQueue.ETCHQUEUE_CLEARING_CLOSED_QUEUE →
          (system.queue mailbox).queue.empty = true
  | .queue thread _ => ∀ mailbox,
      (system.place thread = .put mailbox →
        (system.queue mailbox).queue.full = false →
          .closedRead mailbox ∉ system.events) ∧
      (system.place thread = .drain mailbox →
        (system.queue mailbox).queue.empty = true)
  | .close thread => ∀ mailbox reads,
      system.place thread = .closing mailbox reads →
        (system.queue mailbox).queue.terminated = false →
          ∀ message_id, system.manager.made[mailbox]? = some message_id →
            ∀ item ∈ system.manager.mailboxes,
              item.hash = etchhash message_id → item.value = mailbox
  | _ => True

/-! ## Histories -/

/-- An event that tells nothing of a mailbox. -/
structure Quiet (mailbox : Nat) (event : MailboxEvent T) : Prop where
  accepted : accepted mailbox [event] = []
  taken : taken mailbox [event] = []
  drained : event ≠ .closedRead mailbox

theorem accepted_cons (mailbox : Nat) (event : MailboxEvent T)
    (events : List (MailboxEvent T)) :
    accepted mailbox (event :: events) =
      accepted mailbox events ++ accepted mailbox [event] := by
  rw [accepted, ← List.singleton_append, List.filterMap_append,
    List.reverse_append]
  rfl

theorem taken_cons (mailbox : Nat) (event : MailboxEvent T)
    (events : List (MailboxEvent T)) :
    taken mailbox (event :: events) =
      taken mailbox events ++ taken mailbox [event] := by
  rw [taken, ← List.singleton_append, List.filterMap_append,
    List.reverse_append]
  rfl

namespace Quiet

variable {mailbox other target : Nat} {message : T}

theorem ofAccepted (differs : mailbox ≠ other) :
    Quiet mailbox (.accepted other message) :=
  ⟨by simp [Mailboxes.accepted, differs.symm], rfl, nofun⟩

theorem ofReturned (differs : mailbox ≠ other) :
    Quiet mailbox (.returned other message) :=
  ⟨rfl, by simp [Mailboxes.taken, differs.symm], nofun⟩

theorem ofFailed {status : EtchAprQueue.Status} {left : List T} :
    Quiet mailbox (.failed other status left) :=
  ⟨rfl, rfl, nofun⟩

theorem ofClosed : Quiet mailbox (.closed other target : MailboxEvent T) :=
  ⟨rfl, rfl, nofun⟩

theorem ofUnregistered :
    Quiet mailbox (.unregistered other target : MailboxEvent T) :=
  ⟨rfl, rfl, nofun⟩

theorem ofClosedRead (differs : mailbox ≠ other) :
    Quiet mailbox (.closedRead other : MailboxEvent T) :=
  ⟨rfl, rfl, fun same =>
    differs (MailboxEvent.closedRead.inj same).symm⟩

end Quiet

/-- The history of a mailbox agrees with that of its queue. -/
structure Accounts (mailbox : Nat) (queue : EtchAprQueue.System T Thread)
    (events : List (MailboxEvent T)) : Prop where
  inOrder : InOrder queue.queue queue.events queue.queue.contents
  accepted : accepted mailbox events = EtchAprQueue.pushed queue.events
  taken : taken mailbox events = EtchAprQueue.popped queue.events
  drained : .closedRead mailbox ∈ events → queue.queue.contents = []

namespace Accounts

variable {mailbox : Nat} {queue next : EtchAprQueue.System T Thread}
  {events : List (MailboxEvent T)}

theorem quiet (accounts : Accounts mailbox queue events)
    {event : MailboxEvent T} (quiet : Quiet mailbox event) :
    Accounts mailbox queue (event :: events) where
  inOrder := accounts.inOrder
  accepted := by
    rw [accepted_cons, quiet.accepted, List.append_nil, accounts.accepted]
  taken := by
    rw [taken_cons, quiet.taken, List.append_nil, accounts.taken]
  drained happened := by
    rcases List.mem_cons.mp happened with same | happened
    · exact absurd same.symm quiet.drained
    · exact accounts.drained happened

theorem quietly (accounts : Accounts mailbox queue events)
    {news : List (MailboxEvent T)}
    (quiet : ∀ event ∈ news, Quiet mailbox event) :
    Accounts mailbox queue (news ++ events) := by
  induction news with
  | nil => exact accounts
  | cons event news ih =>
      have rest := ih fun other here =>
        quiet other (List.mem_cons_of_mem _ here)
      exact rest.quiet (quiet event List.mem_cons_self)

/-- `close_read` finds the queue empty. -/
theorem closedRead (accounts : Accounts mailbox queue events)
    (empty : queue.queue.contents = []) :
    Accounts mailbox queue (.closedRead mailbox :: events) where
  inOrder := accounts.inOrder
  accepted := accounts.accepted
  taken := accounts.taken
  drained _ := empty

/-- Nothing is pushed or popped. -/
theorem sameRing (accounts : Accounts mailbox queue events)
    (ring : SameRing queue.queue next.queue)
    (pushed : EtchAprQueue.pushed next.events =
      EtchAprQueue.pushed queue.events)
    (popped : EtchAprQueue.popped next.events =
      EtchAprQueue.popped queue.events) : Accounts mailbox next events where
  inOrder := by
    have inOrder := accounts.inOrder
    rw [ring.contents_eq]
    exact ring.inOrder ⟨inOrder.carries, inOrder.nelts, inOrder.input,
      inOrder.out, by rw [pushed, popped, inOrder.pushed_eq]⟩
  accepted := by rw [pushed, accounts.accepted]
  taken := by rw [popped, accounts.taken]
  drained happened := by
    rw [ring.contents_eq]
    exact accounts.drained happened

/-- A queue is terminated, and threads are woken. -/
theorem closes (accounts : Accounts mailbox queue events) :
    Accounts mailbox (close queue) events where
  inOrder :=
    have inOrder := accounts.inOrder
    ⟨inOrder.carries, inOrder.nelts, inOrder.input, inOrder.out,
      inOrder.pushed_eq⟩
  accepted := accounts.accepted
  taken := accounts.taken
  drained := accounts.drained

theorem inOrder_of_outcome [DecidableEq Thread] {thread : Thread}
    (accounts : Accounts mailbox queue events)
    (outcome : Outcome queue thread next)
    (goes : queue.calls thread ≠ .term) :
    InOrder next.queue next.events next.queue.contents := by
  obtain ⟨elements, inOrder⟩ := outcome.inOrder goes accounts.inOrder
  rwa [inOrder.contents_eq]

/-- A message is pushed, behind no `close_read`. -/
theorem stores [DecidableEq Thread] {thread : Thread} {message : T}
    (accounts : Accounts mailbox queue events)
    (outcome : Outcome queue thread next)
    (goes : queue.calls thread ≠ .term)
    (happened : next.events = .pushed message :: queue.events)
    (before : .closedRead mailbox ∉ events) :
    Accounts mailbox next (.accepted mailbox message :: events) where
  inOrder := accounts.inOrder_of_outcome outcome goes
  accepted := by
    rw [accepted_cons, happened, accounts.accepted]
    simp [Mailboxes.accepted, EtchAprQueue.pushed]
  taken := by
    rw [taken_cons, happened, accounts.taken]
    simp [Mailboxes.taken, EtchAprQueue.popped]
  drained drained := by
    rcases List.mem_cons.mp drained with same | drained
    · contradiction
    · exact absurd drained before

/-- A message is popped by a read. -/
theorem takes [DecidableEq Thread] {thread : Thread} {message : T}
    (accounts : Accounts mailbox queue events)
    (outcome : Outcome queue thread next)
    (goes : queue.calls thread ≠ .term)
    (holds : queue.queue.empty = false)
    (happened : next.events = .popped message :: queue.events) :
    Accounts mailbox next (.returned mailbox message :: events) where
  inOrder := accounts.inOrder_of_outcome outcome goes
  accepted := by
    rw [accepted_cons, happened, accounts.accepted]
    simp [Mailboxes.accepted, EtchAprQueue.pushed]
  taken := by
    rw [taken_cons, happened, accounts.taken]
    simp [Mailboxes.taken, EtchAprQueue.popped]
  drained drained := by
    rcases List.mem_cons.mp drained with same | drained
    · contradiction
    · have none := EtchAprQueue.contents_eq_nil_iff.mp
        (accounts.drained drained)
      rw [holds] at none
      contradiction

end Accounts

/-- Events in which nothing is lost and only a mailbox itself closed. -/
structure Clean (events : List (MailboxEvent T)) : Prop where
  handed : ∀ mailbox message to_session,
    .redelivered mailbox message to_session ∉ events
  read : ∀ mailbox left, .failed mailbox .eof left ∈ events → left = []
  closed : ∀ mailbox target, .closed mailbox target ∈ events →
    mailbox = target
  unregistered : ∀ mailbox target, .unregistered mailbox target ∈ events →
    mailbox = target

namespace Clean

theorem nil : Clean ([] : List (MailboxEvent T)) :=
  ⟨by nofun, by nofun, by nofun, by nofun⟩

theorem append {events others : List (MailboxEvent T)} (clean : Clean events)
    (cleans : Clean others) : Clean (events ++ others) where
  handed mailbox message to_session happened := by
    rcases List.mem_append.mp happened with happened | happened
    · exact clean.handed mailbox message to_session happened
    · exact cleans.handed mailbox message to_session happened
  read mailbox left happened := by
    rcases List.mem_append.mp happened with happened | happened
    · exact clean.read mailbox left happened
    · exact cleans.read mailbox left happened
  closed mailbox target happened := by
    rcases List.mem_append.mp happened with happened | happened
    · exact clean.closed mailbox target happened
    · exact cleans.closed mailbox target happened
  unregistered mailbox target happened := by
    rcases List.mem_append.mp happened with happened | happened
    · exact clean.unregistered mailbox target happened
    · exact cleans.unregistered mailbox target happened

variable {mailbox : Nat} {message : T}

theorem accepted : Clean [.accepted mailbox message] :=
  ⟨by simp, by simp, by simp, by simp⟩

theorem returned : Clean [.returned mailbox message] :=
  ⟨by simp, by simp, by simp, by simp⟩

theorem closedRead : Clean [(.closedRead mailbox : MailboxEvent T)] :=
  ⟨by simp, by simp, by simp, by simp⟩

theorem failed {status : EtchAprQueue.Status} {left : List T}
    (empty : status = .eof → left = []) :
    Clean [.failed mailbox status left] := by
  refine ⟨by simp, ?_, by simp, by simp⟩
  intro other rest happened
  obtain ⟨rfl, rfl, rfl⟩ :=
    MailboxEvent.failed.inj (List.mem_singleton.mp happened)
  exact empty rfl

theorem closedItself : Clean [(.closed mailbox mailbox : MailboxEvent T)] :=
  ⟨by simp, by simp, by simp, by simp⟩

theorem unregisteredItself :
    Clean [(.unregistered mailbox mailbox : MailboxEvent T)] :=
  ⟨by simp, by simp, by simp, by simp⟩

end Clean

/-- What every careful step keeps. -/
structure Kept (system : Mailboxes T Thread) : Prop where
  accounts : ∀ mailbox,
    Accounts mailbox (system.queue mailbox) system.events
  clean : Clean system.events
  kept : ∀ thread mailbox message,
    system.place thread ≠ .redeliver mailbox message

theorem Kept.conserved {system : Mailboxes T Thread} (kept : Kept system) :
    Conserves system where
  accounted mailbox _ := by
    have accounts := kept.accounts mailbox
    rw [accounts.accepted, accounts.taken]
    exact accounts.inOrder.pushed_eq
  handed mailbox message to_session happened :=
    absurd happened (kept.clean.handed mailbox message to_session)
  read := kept.clean.read
  drained mailbox := (kept.accounts mailbox).drained
  closed := kept.clean.closed
  unregistered := kept.clean.unregistered

theorem kept_start (null : T) (is_connection_up : Bool) (max_delay : Int) :
    Kept (start null is_connection_up max_delay : Mailboxes T Thread) where
  accounts _ := ⟨.start null 1, rfl, rfl, nofun⟩
  clean := .nil
  kept := by nofun

namespace Kept

variable {system next : Mailboxes T Thread}

/-- Something happens to the queue of one mailbox. -/
theorem update (kept : Kept system) (news : List (MailboxEvent T))
    {mailbox : Nat} {queue : EtchAprQueue.System T Thread}
    (queues : next.queue = Function.update system.queue mailbox queue)
    (events : next.events = news ++ system.events)
    (own : Accounts mailbox queue next.events)
    (others : ∀ event ∈ news, ∀ other, other ≠ mailbox → Quiet other event)
    (clean : Clean news)
    (places : ∀ thread index message,
      next.place thread ≠ .redeliver index message) : Kept next where
  accounts other := by
    rw [queues]
    by_cases same : other = mailbox
    · subst same
      rwa [Function.update_self]
    · rw [Function.update_of_ne same, events]
      exact (kept.accounts other).quietly fun event here =>
        others event here other same
  clean := by
    rw [events]
    exact clean.append kept.clean
  kept := places

/-- Nothing happens to the queues. -/
theorem congr (kept : Kept system) (queues : next.queue = system.queue)
    (events : next.events = system.events)
    (places : ∀ thread index message,
      next.place thread ≠ .redeliver index message) : Kept next where
  accounts other := by
    rw [queues, events]
    exact kept.accounts other
  clean := by
    rw [events]
    exact kept.clean
  kept := places

variable [DecidableEq Thread]

/-- A thread goes anywhere but to a message that is to be redelivered. -/
theorem places (kept : Kept system) (thread : Thread) {place : Place T}
    (empty : ∀ mailbox message, place ≠ .redeliver mailbox message)
    (other : Thread) (index : Nat) (message : T) :
    (system.goes thread place).place other ≠ .redeliver index message := by
  by_cases same : other = thread
  · subst same
    simpa only [goes, Function.update_self] using empty index message
  · simpa only [goes, Function.update_of_ne same] using
      kept.kept other index message

theorem goes (kept : Kept system) (thread : Thread) {place : Place T}
    (empty : ∀ mailbox message, place ≠ .redeliver mailbox message) :
    Kept (system.goes thread place) :=
  kept.congr rfl rfl (kept.places thread empty)

theorem closesRead (kept : Kept system) (thread : Thread) (mailbox : Nat)
    (reads : Bool) : Kept (system.closesRead thread mailbox reads) := by
  cases reads with
  | false => exact kept.goes thread (by nofun)
  | true => exact kept.congr rfl rfl (kept.places thread (by nofun))

/-! ### Calls of queues -/

variable {thread : Thread} {mailbox : Nat}
  {queue : EtchAprQueue.System T Thread}

/-- A call goes on, or begins. -/
theorem busy (kept : Kept system) (busy : queue.calls thread ≠ .idle)
    (ring : SameRing (system.queue mailbox).queue queue.queue)
    (events : queue.events = (system.queue mailbox).events) :
    Kept (system.settles thread mailbox queue) := by
  rw [settles_busy busy]
  have own : Accounts mailbox queue system.events :=
    (kept.accounts mailbox).sameRing ring (by rw [events]) (by rw [events])
  exact kept.update [] rfl rfl own (by nofun) .nil kept.kept

/-- A call fails. -/
theorem fails (kept : Kept system)
    (calls : (system.place thread).calls = some mailbox)
    (idle : queue.calls thread = .idle)
    (ring : SameRing (system.queue mailbox).queue queue.queue)
    {timeout : Int} {wake : Wake} {status : EtchAprQueue.Status}
    (happened : queue.events =
      .failed timeout wake status :: (system.queue mailbox).events)
    (read : system.place thread = .read mailbox → status = .eof →
      (system.queue mailbox).queue.contents = [])
    (drained : system.place thread = .drain mailbox →
      (system.queue mailbox).queue.contents = []) :
    Kept (system.settles thread mailbox queue) := by
  have own : Accounts mailbox queue system.events :=
    (kept.accounts mailbox).sameRing ring (by rw [happened]; rfl)
      (by rw [happened]; rfl)
  rw [← ring.contents_eq] at read drained
  rw [settles_failed idle happened]
  unfold failsAt
  cases at_ : system.place thread with
  | put index =>
      exact kept.update [] rfl rfl own (by nofun) .nil
        (kept.places thread (by nofun))
  | read index =>
      rw [at_] at calls read
      obtain rfl : index = mailbox := Option.some.inj calls
      exact kept.update [_] rfl rfl (own.quiet .ofFailed)
        (by simp only [List.mem_singleton]; rintro _ rfl _ _; exact .ofFailed)
        (.failed (read rfl)) (kept.places thread (by nofun))
  | drain index =>
      rw [at_] at calls drained
      obtain rfl : index = mailbox := Option.some.inj calls
      exact kept.update [_] rfl rfl
        (own.closedRead (drained rfl))
        (by
          simp only [List.mem_singleton]
          rintro _ rfl _ differs
          exact .ofClosedRead differs)
        .closedRead (kept.places thread (by nofun))
  | _ =>
      rw [at_] at calls
      contradiction

/-- A section of a call, whatever its outcome. -/
theorem outcome (kept : Kept system) (placed : Placed system)
    (calls : (system.place thread).calls = some mailbox)
    (outcome : Outcome (system.queue mailbox) thread queue)
    (put : system.place thread = .put mailbox →
      (system.queue mailbox).queue.full = false →
        .closedRead mailbox ∉ system.events)
    (drain : system.place thread = .drain mailbox →
      (system.queue mailbox).queue.empty = true) :
    Kept (system.settles thread mailbox queue) := by
  have fits := placed.fits thread mailbox
  have accounts := kept.accounts mailbox
  have does := outcome
  cases outcome with
  | waitsFull timeout data call blocks full opened ring next_ events =>
      exact kept.busy (by rw [next_, Function.update_self]; nofun) ring
        events
  | waitsEmpty timeout call opened ring next_ events =>
      exact kept.busy (by rw [next_, Function.update_self]; nofun) ring
        events
  | fails timeout wake status busy eof ring returned events =>
      refine kept.fails calls returned.own ring events ?_ ?_
      · intro at_ closed
        rw [at_] at fits
        exact EtchAprQueue.contents_eq_nil_iff.mpr
          (eof (fits.takes_of_reads busy) closed)
      · intro at_
        exact EtchAprQueue.contents_eq_nil_iff.mpr (drain at_)
  | stores data may space ring returned events =>
      have at_ := fits.put_of_stores may
      have before := put at_ space
      rw [settles_accepted returned.own events at_]
      exact kept.update [_] rfl rfl
        (accounts.stores does fits.not_term events before)
        (by
          simp only [List.mem_singleton]
          rintro _ rfl _ differs
          exact .ofAccepted differs)
        .accepted (kept.places thread (by nofun))
  | takes may holds ring returned events =>
      rcases fits.reads_of_takes may with at_ | at_
      · rw [settles_returned returned.own events at_]
        exact kept.update [_] rfl rfl
          (accounts.takes does fits.not_term holds events)
          (by
            simp only [List.mem_singleton]
            rintro _ rfl _ differs
            exact .ofReturned differs)
          .returned (kept.places thread (by nofun))
      · rw [drain at_] at holds
        contradiction
  | ends call => exact absurd call fits.not_term

omit [DecidableEq Thread] in
/-- A mailbox that closes unregisters itself, if anything. -/
theorem close_delivery (kept : Kept system) (mailbox : Nat)
    (own : ∀ message_id,
      system.manager.made[mailbox]? = some message_id →
        ∀ item ∈ system.manager.mailboxes,
          item.hash = etchhash message_id → item.value = mailbox) :
    Kept (system.close_delivery mailbox mailbox) := by
  rcases close_delivery_cases system mailbox mailbox with
    same | ⟨message_id, made, opened, closes⟩
  · rwa [same]
  · rw [closes]
    have accounts := (kept.accounts mailbox).closes
    cases found : findh system.manager.mailboxes (etchhash message_id) with
    | none =>
        exact kept.update [.closed mailbox mailbox] rfl rfl
          (accounts.quiet .ofClosed)
          (by simp only [List.mem_singleton]; rintro _ rfl _ _; exact .ofClosed)
          .closedItself kept.kept
    | some item =>
        obtain ⟨here, hash⟩ := mem_of_findh found
        have value := own message_id made item here hash
        rw [Option.map_some, value]
        exact kept.update
          [.closed mailbox mailbox, .unregistered mailbox mailbox] rfl rfl
          ((accounts.quiet .ofUnregistered).quiet .ofClosed)
          (by
            intro event here _ _
            rcases List.mem_cons.mp here with rfl | here
            · exact .ofClosed
            · rw [List.mem_singleton.mp here]
              exact .ofUnregistered)
          (Clean.closedItself.append .unregisteredItself) kept.kept

end Kept

/-! ## Runs -/

variable [DecidableEq T] [DecidableEq Thread] [Fintype Thread]

omit [DecidableEq T] in
theorem kept_of_effect {system next : Mailboxes T Thread}
    {action : Action T Thread} (kept : Kept system)
    (placed : Placed system) (careful : Careful system action)
    (effect : Effect system action next) : Kept next := by
  cases effect with
  | transport_call msgid transmitted =>
      exact kept.congr rfl rfl kept.kept
  | stays => exact kept
  | moves action thread place away free unlocked empty =>
      exact kept.goes thread empty
  | lock thread mailbox message queue at_ unlocked begins =>
      have locked : Kept { system.goes thread (.put mailbox) with
          rwlock := some thread } :=
        kept.congr rfl rfl (kept.places thread (by nofun))
      have there : (goes system thread (.put mailbox)).place thread =
          .put mailbox := Function.update_self ..
      rcases push_begins begins with ⟨_, rfl⟩ | ⟨_, rfl⟩
      · refine locked.fails ?_ ?_ (.refl _) rfl ?_ ?_
        · show Place.calls ((goes system thread (.put mailbox)).place
            thread) = _
          rw [there]
          rfl
        · exact Function.update_self ..
        · intro at_
          exact nomatch there.symm.trans at_
        · intro at_
          exact nomatch there.symm.trans at_
      · refine locked.busy ?_ (.refl _) rfl
        simp [EtchAprQueue.System.goes]
  | release thread at_ =>
      exact kept.congr rfl rfl (kept.places thread (by nofun))
  | read thread mailbox waitms queue at_ begins =>
      have reads : Kept (system.goes thread (.read mailbox)) :=
        kept.goes thread (by nofun)
      have there : (goes system thread (.read mailbox)).place thread =
          .read mailbox := Function.update_self ..
      rcases pop_begins begins with ⟨⟨closed, waits⟩, rfl⟩ | rfl
      · have empty := EtchAprQueue.contents_eq_nil_iff.mpr
          (careful closed waits)
        refine reads.fails ?_ ?_ (.refl _) rfl (fun _ _ => empty)
          (fun _ => empty)
        · rw [there]
          rfl
        · exact Function.update_self ..
      · refine reads.busy ?_ (.refl _) rfl
        simp [EtchAprQueue.System.goes]
  | closesRead thread mailbox reads at_ closed =>
      exact kept.closesRead thread mailbox reads
  | close thread mailbox reads at_ opened =>
      exact (kept.close_delivery mailbox
        (careful mailbox reads at_ opened)).closesRead thread mailbox reads
  | drain thread mailbox queue at_ begins =>
      rcases pop_begins begins with ⟨⟨_, waits⟩, rfl⟩ | rfl
      · exact absurd rfl waits
      · refine kept.busy ?_ (.refl _) rfl
        simp [EtchAprQueue.System.goes]
  | redeliver thread mailbox message items at_ =>
      exact absurd at_ (kept.kept thread mailbox message)
  | queue thread section_ mailbox queue calls outcome =>
      exact kept.outcome placed calls outcome (careful mailbox).1
        (careful mailbox).2

/-- No message is lost and no mailbox closes another one, as long as no mailbox
is closed that still holds a message. -/
theorem conserves_of_careful (null : T) (is_connection_up : Bool)
    (max_delay : Int) {system : Mailboxes T Thread}
    (runs : Relation.ReflTransGen (StepBy step Careful)
      (start null is_connection_up max_delay) system) :
    Conserves system := by
  have holds := invariant_of_steps
    (fun system => Placed system ∧ Kept system)
    (fun system action next holds careful takes =>
      ⟨placed_of_effect holds.1 (effect_of_step takes),
        kept_of_effect holds.2 holds.1 careful (effect_of_step takes)⟩)
    runs ⟨placed_start null is_connection_up max_delay,
      kept_start null is_connection_up max_delay⟩
  exact holds.2.conserved

theorem neZero_threads : NeZero 2 :=
  ⟨by decide⟩

attribute [local instance] neZero_threads

/-- A call, and a reply that is not read yet. -/
theorem conserves_reply :
    ∃ system : Mailboxes Nat (Fin 2),
      system.events = [.accepted 0 7] ∧ Conserves system := by
  refine ⟨_, ?_, conserves_of_careful 0 true 0
    (.head ⟨.transport_call 1 true, trivial, rfl⟩
      (.head ⟨.session_message 0 1 7, trivial, rfl⟩
        (.head ⟨.message 0, trivial, rfl⟩
          (.head ⟨.lock 0, trivial, rfl⟩
            (.single ⟨.queue 0 (.lock none), fun _ => ⟨?_, ?_⟩, rfl⟩)))))⟩
  · rfl
  · intro _ _
    exact List.not_mem_nil
  · intro at_
    exact nomatch at_

/-- Two calls, and a reply to the first one that is not read. -/
def unread : List (Action Nat (Fin 2)) :=
  [.transport_call 1 true, .transport_call 2 true,
    .session_message 0 1 7, .message 0, .lock 0, .queue 0 (.lock none),
    .release 0]

/-- A read finds the mailbox closed, or the message is dropped and the other
mailbox closed. -/
theorem unread_lost :
    (∃ system : Mailboxes Nat (Fin 2),
      Relation.ReflTransGen (Step step) (start 0 true 0) system ∧
      ¬ Conserves system ∧ .failed 0 .eof [7] ∈ system.events) ∧
    ∃ system : Mailboxes Nat (Fin 2),
      Relation.ReflTransGen (Step step) (start 0 true 0) system ∧
      ¬ Conserves system ∧ .closed 0 1 ∈ system.events ∧
      .redelivered 0 7 false ∈ system.events := by
  constructor
  · have reached : ∃ system ∈ run step (start 0 true 0) (unread ++
          [.close_delivery 0 0 false, .close 0, .read 1 0 0]),
        .failed 0 .eof [7] ∈ system.events := by decide +kernel
    obtain ⟨system, runs, failed⟩ := reached
    refine ⟨system, reaches_of_run runs, fun conserves => ?_, failed⟩
    exact nomatch conserves.read 0 [7] failed
  · have reached : ∃ system ∈ run step (start 0 true 0) (unread ++
          [.close_delivery 0 0 true, .close 0, .drain 0,
            .queue 0 (.lock none), .redeliver 0 [⟨etchhash 2, 2, 1⟩]]),
        .closed 0 1 ∈ system.events ∧
          .redelivered 0 7 false ∈ system.events := by decide +kernel
    obtain ⟨system, runs, closed, dropped⟩ := reached
    refine ⟨system, reaches_of_run runs, fun conserves => ?_, closed,
      dropped⟩
    exact nomatch conserves.closed 0 1 closed

end Etch.C.Mailboxes
