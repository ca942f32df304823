import Etch.C.Mailboxes

/-!
# Where the threads of `etch_plainmailbox`es are

In every state that is reached, a thread is in a call of a queue only where its
mailbox has called that queue, and a thread that puts a message has the lock
that the mailboxes share.
-/

namespace Etch.C.Mailboxes

open Etch.Library.Transition
open EtchAprQueue (Outcome Returned Call Wake SameRing)

variable {T Thread : Type}

/-! ## Calls -/

theorem woken_stores (call : Call T) (wake : Wake) :
    (call.woken wake).stores = call.stores := by
  cases call <;> rfl

theorem woken_takes (call : Call T) (wake : Wake) :
    (call.woken wake).takes = call.takes := by
  cases call <;> rfl

theorem woken_eq_idle {call : Call T} {wake : Wake}
    (idle : call = .idle) : call.woken wake = .idle := by
  rw [idle]
  rfl

/-- A call of a mailbox's queue by a thread in that place. -/
def Fits (place : Place T) (mailbox : Nat) (call : Call T) : Prop :=
  call = .idle ∨ (place = .put mailbox ∧ call.stores = true) ∨
    ((place = .read mailbox ∨ place = .drain mailbox) ∧ call.takes = true)

namespace Fits

variable {place : Place T} {mailbox : Nat} {call : Call T}

theorem woken (fits : Fits place mailbox call) (wake : Wake) :
    Fits place mailbox (call.woken wake) := by
  rcases fits with idle | ⟨at_, stores⟩ | ⟨at_, takes⟩
  · exact .inl (woken_eq_idle idle)
  · exact .inr (.inl ⟨at_, by rw [woken_stores, stores]⟩)
  · exact .inr (.inr ⟨at_, by rw [woken_takes, takes]⟩)

theorem calls_eq (fits : Fits place mailbox call) (busy : call ≠ .idle) :
    place.calls = some mailbox := by
  rcases fits with idle | ⟨rfl, _⟩ | ⟨rfl | rfl, _⟩
  · exact absurd idle busy
  all_goals rfl

theorem not_term (fits : Fits place mailbox call) : call ≠ .term := by
  rintro rfl
  rcases fits with idle | ⟨_, stores⟩ | ⟨_, takes⟩
  · contradiction
  · contradiction
  · contradiction

theorem put_of_stores (fits : Fits place mailbox call)
    (stores : call.stores = true) : place = .put mailbox := by
  rcases fits with rfl | ⟨at_, _⟩ | ⟨_, takes⟩
  · contradiction
  · exact at_
  · cases call <;> contradiction

theorem reads_of_takes (fits : Fits place mailbox call)
    (takes : call.takes = true) :
    place = .read mailbox ∨ place = .drain mailbox := by
  rcases fits with rfl | ⟨_, stores⟩ | ⟨at_, _⟩
  · contradiction
  · cases call <;> contradiction
  · exact at_

theorem takes_of_reads
    (fits : Fits (.read mailbox) mailbox call) (busy : call ≠ .idle) :
    call.takes = true := by
  rcases fits with idle | ⟨at_, _⟩ | ⟨_, takes⟩
  · exact absurd idle busy
  · contradiction
  · exact takes

end Fits

/-- Where all threads are. -/
structure Placed (system : Mailboxes T Thread) : Prop where
  fits : ∀ thread mailbox,
    Fits (system.place thread) mailbox
      ((system.queue mailbox).calls thread)
  locks : ∀ thread, (∃ mailbox, system.place thread = .put mailbox) ∨
    system.place thread = .notify → system.rwlock = some thread

/-- A thread that has called no queue. -/
theorem Placed.idle {system : Mailboxes T Thread} (placed : Placed system)
    {thread : Thread} (away : (system.place thread).calls = none)
    (mailbox : Nat) : (system.queue mailbox).calls thread = .idle := by
  by_contra busy
  have calls := (placed.fits thread mailbox).calls_eq busy
  rw [away] at calls
  contradiction

/-- A thread is in no call of another queue. -/
theorem Placed.idle_other {system : Mailboxes T Thread}
    (placed : Placed system) {thread : Thread} {mailbox other : Nat}
    (calls : (system.place thread).calls = some mailbox)
    (differs : other ≠ mailbox) :
    (system.queue other).calls thread = .idle := by
  by_contra busy
  have there := (placed.fits thread other).calls_eq busy
  rw [calls] at there
  exact differs (Option.some.inj there).symm

variable [DecidableEq Thread]

section Settles

variable {system : Mailboxes T Thread} {thread : Thread} {mailbox : Nat}
  {next : EtchAprQueue.System T Thread}

/-- A thread whose call goes on. -/
theorem settles_busy (busy : next.calls thread ≠ .idle) :
    system.settles thread mailbox next =
      { system with queue := Function.update system.queue mailbox next } := by
  unfold settles
  split
  next idle => exact absurd idle busy
  next => rfl

theorem settles_accepted {message : T}
    {events : List (EtchAprQueue.Event T)}
    (idle : next.calls thread = .idle)
    (happened : next.events = .pushed message :: events)
    (at_ : system.place thread = .put mailbox) :
    system.settles thread mailbox next =
      { system.goes thread .notify with
        queue := Function.update system.queue mailbox next
        events := .accepted mailbox message :: system.events } := by
  simp [settles, goes, idle, happened, at_]

theorem settles_returned {message : T}
    {events : List (EtchAprQueue.Event T)}
    (idle : next.calls thread = .idle)
    (happened : next.events = .popped message :: events)
    (at_ : system.place thread = .read mailbox) :
    system.settles thread mailbox next =
      { system.goes thread .idle with
        queue := Function.update system.queue mailbox next
        events := .returned mailbox message :: system.events } := by
  simp [settles, goes, idle, happened, at_]

/-- What a thread does whose call has returned without success. -/
def failsAt (system : Mailboxes T Thread) (thread : Thread)
    (mailbox : Nat) (status : EtchAprQueue.Status) (left : List T) :
    Mailboxes T Thread :=
  match system.place thread with
  | .put _ => system.goes thread .notify
  | .read _ =>
      { system.goes thread .idle with
        events := .failed mailbox status left :: system.events }
  | .drain _ =>
      { system.goes thread .idle with
        events := .closedRead mailbox :: system.events }
  | _ => system

theorem settles_failed {timeout : Int} {wake : Wake}
    {status : EtchAprQueue.Status} {events : List (EtchAprQueue.Event T)}
    (idle : next.calls thread = .idle)
    (happened : next.events = .failed timeout wake status :: events) :
    system.settles thread mailbox next =
      failsAt { system with
        queue := Function.update system.queue mailbox next }
        thread mailbox status next.queue.contents := by
  simp only [settles, failsAt, idle, happened]
  cases system.place thread <;> rfl

@[simp]
theorem queue_settles : (system.settles thread mailbox next).queue =
    Function.update system.queue mailbox next := by
  simp only [settles]
  split
  · split <;> rfl
  · rfl

@[simp]
theorem manager_settles :
    (system.settles thread mailbox next).manager = system.manager := by
  simp only [settles]
  split
  · split <;> rfl
  · rfl

@[simp]
theorem rwlock_settles :
    (system.settles thread mailbox next).rwlock = system.rwlock := by
  simp only [settles]
  split
  · split <;> rfl
  · rfl

/-- A thread that settles goes on, or is somewhere where it has called no
queue; it puts a message, or has put it, where it did before. -/
theorem place_settles (system : Mailboxes T Thread) (thread : Thread)
    (mailbox : Nat) (next : EtchAprQueue.System T Thread) :
    (system.settles thread mailbox next).place = system.place ∨
      next.calls thread = .idle ∧
      ∃ place, (system.settles thread mailbox next).place =
          Function.update system.place thread place ∧
        (place = .notify → ∃ mailbox, system.place thread = .put mailbox) ∧
        ∀ mailbox, place ≠ .put mailbox := by
  simp only [settles]
  split
  next idle =>
    split
    next at_ _ =>
      exact .inr ⟨idle, _, rfl, fun _ => ⟨_, at_⟩, by nofun⟩
    next at_ _ =>
      exact .inr ⟨idle, _, rfl, fun _ => ⟨_, at_⟩, by nofun⟩
    · exact .inr ⟨idle, _, rfl, by nofun, by nofun⟩
    · exact .inr ⟨idle, _, rfl, by nofun, by nofun⟩
    · exact .inr ⟨idle, _, rfl, by nofun, by nofun⟩
    · exact .inr ⟨idle, _, rfl, by nofun, by nofun⟩
    · exact .inl rfl
  · exact .inl rfl

end Settles

/-! ## Closing -/

omit [DecidableEq Thread] in
theorem close_delivery_cases (system : Mailboxes T Thread)
    (mailbox target : Nat) :
    system.close_delivery mailbox target = system ∨
      ∃ message_id, system.manager.made[target]? = some message_id ∧
        (system.queue target).queue.terminated = false ∧
        system.close_delivery mailbox target = { system with
          manager := system.manager.unregister message_id
          mailbox_state := Function.update system.mailbox_state target
            (if system.mailbox_state target = .open_ then .closed_delivery
              else system.mailbox_state target)
          queue := Function.update system.queue target
            (close (system.queue target))
          events := .closed mailbox target ::
            ((findh system.manager.mailboxes (etchhash message_id)).map
              fun item => .unregistered mailbox item.value).toList ++
            system.events } := by
  unfold close_delivery
  split
  · exact .inl rfl
  next message_id made =>
    split
    · exact .inl rfl
    next opened =>
      exact .inr ⟨message_id, made, Bool.eq_false_iff.mpr opened, rfl⟩

/-! ## What every step keeps -/

namespace Placed

variable {system : Mailboxes T Thread}

/-- A thread that has called no queue goes anywhere else. -/
theorem goes (placed : Placed system) (thread : Thread) (place : Place T)
    (away : (system.place thread).calls = none)
    (free : system.place thread ≠ .notify)
    (unlocked : place ≠ .notify ∧ ∀ mailbox, place ≠ .put mailbox) :
    Placed (system.goes thread place) where
  fits other mailbox := by
    by_cases same : other = thread
    · subst same
      exact .inl (placed.idle away mailbox)
    · simp only [Mailboxes.goes, Function.update_of_ne same]
      exact placed.fits other mailbox
  locks other holds := by
    by_cases same : other = thread
    · subst same
      simp only [Mailboxes.goes, Function.update_self] at holds
      rcases holds with ⟨mailbox, puts⟩ | notifies
      · exact absurd puts (unlocked.2 mailbox)
      · exact absurd notifies unlocked.1
    · simp only [Mailboxes.goes, Function.update_of_ne same] at holds
      exact placed.locks other holds

omit [DecidableEq Thread] in
/-- The same threads in the same places. -/
theorem congr (placed : Placed system) {next : Mailboxes T Thread}
    (queue : ∀ thread mailbox, (next.queue mailbox).calls thread =
      (system.queue mailbox).calls thread)
    (place : next.place = system.place)
    (rwlock : next.rwlock = system.rwlock) : Placed next where
  fits thread mailbox := by
    rw [queue, place]
    exact placed.fits thread mailbox
  locks thread holds := by
    rw [place] at holds
    rw [rwlock]
    exact placed.locks thread holds

omit [DecidableEq Thread] in
theorem close_delivery (placed : Placed system) (mailbox target : Nat) :
    Placed (system.close_delivery mailbox target) := by
  rcases close_delivery_cases system mailbox target with
    same | ⟨message_id, made, opened, closes⟩
  · rwa [same]
  · rw [closes]
    refine ⟨fun thread other => ?_, placed.locks⟩
    have fits := placed.fits thread other
    by_cases same : other = target
    · subst same
      simp only [Function.update_self]
      exact fits.woken .interrupted
    · simpa only [Function.update_of_ne same] using fits

/-- A call of a queue goes on or returns. -/
theorem settles (placed : Placed system) {thread : Thread} {mailbox : Nat}
    {next : EtchAprQueue.System T Thread}
    (calls : (system.place thread).calls = some mailbox)
    (own : Fits (system.place thread) mailbox (next.calls thread))
    (others : ∀ other, other ≠ thread →
      next.calls other = (system.queue mailbox).calls other ∨
        ∃ wake, next.calls other =
          ((system.queue mailbox).calls other).woken wake) :
    Placed (system.settles thread mailbox next) := by
  have elsewhere : ∀ other index, other ≠ thread →
      Fits (system.place other) index
        ((Function.update system.queue mailbox next index).calls other) := by
    intro other index differs
    have fits := placed.fits other index
    by_cases same : index = mailbox
    · subst same
      rw [Function.update_self]
      rcases others other differs with same | ⟨wake, same⟩
      · rwa [same]
      · rw [same]
        exact fits.woken wake
    · rwa [Function.update_of_ne same]
  have idle : ∀ index, index ≠ mailbox →
      (Function.update system.queue mailbox next index).calls thread =
        .idle := by
    intro index differs
    rw [Function.update_of_ne differs]
    exact placed.idle_other calls differs
  rcases place_settles system thread mailbox next with
    place | ⟨returned, there, place, notifies, puts⟩
  · refine ⟨fun other index => ?_, fun other holds => ?_⟩
    · rw [queue_settles, place]
      by_cases same : other = thread
      · subst same
        by_cases own_ : index = mailbox
        · subst own_
          rwa [Function.update_self]
        · exact .inl (idle index own_)
      · exact elsewhere other index same
    · rw [place] at holds
      rw [rwlock_settles]
      exact placed.locks other holds
  · refine ⟨fun other index => ?_, fun other holds => ?_⟩
    · rw [queue_settles, place]
      by_cases same : other = thread
      · subst same
        by_cases own_ : index = mailbox
        · subst own_
          simp only [Function.update_self]
          exact .inl returned
        · exact .inl (idle index own_)
      · rw [Function.update_of_ne same]
        exact elsewhere other index same
    · rw [place] at holds
      rw [rwlock_settles]
      by_cases same : other = thread
      · subst same
        rw [Function.update_self] at holds
        rcases holds with ⟨index, put⟩ | notify
        · exact absurd put (puts index)
        · exact placed.locks other (.inl (notifies notify))
      · rw [Function.update_of_ne same] at holds
        exact placed.locks other holds

/-! ### The sections of the mailboxes -/

theorem outcome [Fintype Thread] (placed : Placed system) {thread : Thread}
    {mailbox : Nat} {next : EtchAprQueue.System T Thread}
    (calls : (system.place thread).calls = some mailbox)
    (outcome : Outcome (system.queue mailbox) thread next) :
    Placed (system.settles thread mailbox next) := by
  have fits := placed.fits thread mailbox
  cases outcome with
  | waitsFull timeout data call blocks full opened ring next_ events =>
      refine placed.settles calls ?_ fun other differs => ?_
      · rw [next_, Function.update_self]
        have put := fits.put_of_stores (by rw [call]; rfl)
        exact .inr (.inl ⟨put, rfl⟩)
      · rw [next_, Function.update_of_ne differs]
        exact .inl rfl
  | waitsEmpty timeout call opened ring next_ events =>
      refine placed.settles calls ?_ fun other differs => ?_
      · rw [next_, Function.update_self]
        have reads := fits.reads_of_takes (by rw [call]; rfl)
        exact .inr (.inr ⟨reads, rfl⟩)
      · rw [next_, Function.update_of_ne differs]
        exact .inl rfl
  | fails timeout wake status busy eof ring returned events =>
      exact placed.settles calls (.inl returned.own) fun other differs =>
        (returned.others other differs).imp_right fun woken => ⟨_, woken⟩
  | stores data may space ring returned events =>
      exact placed.settles calls (.inl returned.own) fun other differs =>
        (returned.others other differs).imp_right fun woken => ⟨_, woken⟩
  | takes may holds ring returned events =>
      exact placed.settles calls (.inl returned.own) fun other differs =>
        (returned.others other differs).imp_right fun woken => ⟨_, woken⟩
  | ends call => exact absurd call fits.not_term

/-- A call of a queue begins. -/
theorem begins (placed : Placed system) {thread : Thread} {mailbox : Nat}
    (call : Call T) (calls : (system.place thread).calls = some mailbox)
    (fits : Fits (system.place thread) mailbox call)
    {next : EtchAprQueue.System T Thread}
    (begun : next.calls = Function.update (system.queue mailbox).calls thread
      .idle ∨
      next.calls = Function.update (system.queue mailbox).calls thread
        call) :
    Placed (system.settles thread mailbox next) := by
  refine placed.settles calls ?_ fun other differs => ?_
  · rcases begun with begun | begun
    · exact .inl (by rw [begun, Function.update_self])
    · rwa [begun, Function.update_self]
  · rcases begun with begun | begun
    all_goals exact .inl (by rw [begun, Function.update_of_ne differs])

theorem closesRead (placed : Placed system) {thread : Thread}
    (away : (system.place thread).calls = none)
    (free : system.place thread ≠ .notify) (mailbox : Nat) (reads : Bool) :
    Placed (system.closesRead thread mailbox reads) := by
  cases reads with
  | false => exact placed.goes _ _ away free ⟨by nofun, by nofun⟩
  | true =>
      exact (placed.goes _ _ away free ⟨by nofun, by nofun⟩ :
        Placed (system.goes thread (.drain mailbox))).congr
          (fun _ _ => rfl) rfl rfl

end Placed

/-! ### Calls that begin -/

theorem push_begins [Fintype Thread]
    {queue next : EtchAprQueue.System T Thread} {thread : Thread}
    {timeout : Int} {data : T}
    (does : EtchAprQueue.step queue (.push thread timeout data) =
      some next) :
    queue.queue.terminated = true ∧
        next = queue.fails thread timeout .asleep .eof ∨
      queue.queue.terminated = false ∧
        next = queue.goes thread (.push timeout data) := by
  simp only [EtchAprQueue.step] at does
  split at does
  · split at does
    next closed => exact .inl ⟨closed, (Option.some.inj does).symm⟩
    next opened =>
      exact .inr ⟨Bool.eq_false_iff.mpr opened,
        (Option.some.inj does).symm⟩
  · contradiction

theorem pop_begins [Fintype Thread]
    {queue next : EtchAprQueue.System T Thread} {thread : Thread}
    {timeout : Int}
    (does : EtchAprQueue.step queue (.pop thread timeout) = some next) :
    (queue.queue.terminated = true ∧
        timeout ≠ EtchAprQueue.ETCHQUEUE_CLEARING_CLOSED_QUEUE) ∧
        next = queue.fails thread timeout .asleep .eof ∨
      next = queue.goes thread (.pop timeout) := by
  simp only [EtchAprQueue.step] at does
  split at does
  · split at does
    next closed => exact .inl ⟨closed, (Option.some.inj does).symm⟩
    next => exact .inr (Option.some.inj does).symm
  · contradiction

theorem outcome_of_section [Fintype Thread]
    {queue next : EtchAprQueue.System T Thread} {thread : Thread}
    {section_ : Section Thread}
    (does : EtchAprQueue.step queue (section_.action thread) = some next) :
    Outcome queue thread next := by
  cases section_ with
  | lock wakes => exact .of_lock does
  | wake wakes => exact .of_wake does
  | timeUp => exact .of_timeUp does

/-! ### Closing many -/

omit [DecidableEq Thread] in
@[simp]
theorem place_close_delivery (system : Mailboxes T Thread)
    (mailbox target : Nat) :
    (system.close_delivery mailbox target).place = system.place := by
  rcases close_delivery_cases system mailbox target with
    same | ⟨message_id, made, opened, closes⟩
  · rw [same]
  · rw [closes]

omit [DecidableEq Thread] in
/-- What closing one mailbox keeps is kept by closing many. -/
theorem close_deliveries (invariant : Mailboxes T Thread → Prop)
    {mailbox : Nat}
    (keeps : ∀ system target, invariant system →
      invariant (system.close_delivery mailbox target))
    (targets : List Nat) {system : Mailboxes T Thread}
    (holds : invariant system) :
    invariant (targets.foldl
      (fun system target => system.close_delivery mailbox target)
      system) := by
  induction targets generalizing system with
  | nil => exact holds
  | cons target targets ih => exact ih (keeps system target holds)

/-! ### Runs -/

variable [DecidableEq T] [Fintype Thread]

/-- What an action does to the mailboxes. -/
inductive Effect (system : Mailboxes T Thread) :
    Action T Thread → Mailboxes T Thread → Prop where
  | transport_call (msgid : Int64) (transmitted : Bool) :
      Effect system (.transport_call msgid transmitted) { system with
        manager := (system.manager.transport_call msgid transmitted).2 }
  | stays (action : Action T Thread) : Effect system action system
  /-- a thread goes where it has neither the lock nor called a queue -/
  | moves (action : Action T Thread) (thread : Thread) (place : Place T)
      (away : (system.place thread).calls = none)
      (free : system.place thread ≠ .notify)
      (unlocked : place ≠ .notify ∧ ∀ mailbox, place ≠ .put mailbox)
      (empty : ∀ mailbox message, place ≠ .redeliver mailbox message) :
      Effect system action (system.goes thread place)
  | lock (thread : Thread) (mailbox : Nat) (message : T)
      (queue : EtchAprQueue.System T Thread)
      (at_ : system.place thread = .message mailbox message)
      (unlocked : system.rwlock = none)
      (begins : EtchAprQueue.step (system.queue mailbox)
        (.push thread (put_usec system.max_delay) message) = some queue) :
      Effect system (.lock thread)
        (settles { system.goes thread (.put mailbox) with
          rwlock := some thread } thread mailbox queue)
  | release (thread : Thread) (at_ : system.place thread = .notify) :
      Effect system (.release thread)
        { system.goes thread .idle with rwlock := none }
  | read (thread : Thread) (mailbox : Nat) (waitms : Int)
      (queue : EtchAprQueue.System T Thread)
      (at_ : system.place thread = .idle)
      (begins : EtchAprQueue.step (system.queue mailbox)
        (.pop thread (get_usec waitms)) = some queue) :
      Effect system (.read thread mailbox waitms)
        ((system.goes thread (.read mailbox)).settles thread mailbox queue)
  /-- delivery has been closed before -/
  | closesRead (thread : Thread) (mailbox : Nat) (reads : Bool)
      (at_ : system.place thread = .idle)
      (closed : (system.queue mailbox).queue.terminated = true) :
      Effect system (.close_delivery thread mailbox reads)
        (system.closesRead thread mailbox reads)
  | close (thread : Thread) (mailbox : Nat) (reads : Bool)
      (at_ : system.place thread = .closing mailbox reads)
      (opened : (system.queue mailbox).queue.terminated = false) :
      Effect system (.close thread)
        ((system.close_delivery mailbox mailbox).closesRead thread mailbox
          reads)
  | drain (thread : Thread) (mailbox : Nat)
      (queue : EtchAprQueue.System T Thread)
      (at_ : system.place thread = .drain mailbox)
      (begins : EtchAprQueue.step (system.queue mailbox)
        (.pop thread EtchAprQueue.ETCHQUEUE_CLEARING_CLOSED_QUEUE) =
          some queue) :
      Effect system (.drain thread) (system.settles thread mailbox queue)
  | redeliver (thread : Thread) (mailbox : Nat) (message : T)
      (items : List HashItem)
      (at_ : system.place thread = .redeliver mailbox message) :
      Effect system (.redeliver thread items)
        { goes ((walk items.length items 0).foldl
            (fun system target => system.close_delivery mailbox target)
            system) thread (.drain mailbox) with
          events := .redelivered mailbox message false ::
            ((walk items.length items 0).foldl
              (fun system target => system.close_delivery mailbox target)
              system).events }
  | queue (thread : Thread) (section_ : Section Thread) (mailbox : Nat)
      (queue : EtchAprQueue.System T Thread)
      (calls : (system.place thread).calls = some mailbox)
      (outcome : Outcome (system.queue mailbox) thread queue) :
      Effect system (.queue thread section_)
        (system.settles thread mailbox queue)

theorem effect_of_step {system next : Mailboxes T Thread}
    {action : Action T Thread} (takes : step system action = some next) :
    Effect system action next := by
  cases action with
  | transport_call msgid transmitted =>
      obtain rfl := Option.some.inj takes
      exact .transport_call msgid transmitted
  | session_message thread in_reply_to message =>
      simp only [step] at takes
      split at takes
      next at_ =>
        split at takes
        · obtain rfl := Option.some.inj takes
          exact .stays _
        · split at takes
          · obtain rfl := Option.some.inj takes
            exact .stays _
          · obtain rfl := Option.some.inj takes
            exact .moves _ _ _ (by rw [at_]; rfl) (by rw [at_]; rintro ⟨⟩)
              ⟨by simp, by simp⟩ (by simp)
      · contradiction
  | message thread =>
      simp only [step] at takes
      split at takes
      next at_ =>
        split at takes
        all_goals
          obtain rfl := Option.some.inj takes
          exact .moves _ _ _ (by rw [at_]; rfl) (by rw [at_]; rintro ⟨⟩)
            ⟨by simp, by simp⟩ (by simp)
      · contradiction
  | lock thread =>
      simp only [step] at takes
      split at takes
      next mailbox message at_ =>
        split at takes
        next unlocked =>
          obtain ⟨queue, begins, takes⟩ := Option.bind_eq_some_iff.mp takes
          obtain rfl := Option.some.inj takes
          exact .lock thread mailbox message queue at_ unlocked begins
        · contradiction
      · contradiction
  | release thread =>
      simp only [step] at takes
      split at takes
      next at_ =>
        obtain rfl := Option.some.inj takes
        exact .release thread at_
      · contradiction
  | read thread mailbox waitms =>
      simp only [step] at takes
      split at takes
      next at_ =>
        obtain ⟨queue, begins, takes⟩ := Option.bind_eq_some_iff.mp takes
        obtain rfl := Option.some.inj takes
        exact .read thread mailbox waitms queue at_ begins
      · contradiction
  | close_delivery thread mailbox reads =>
      simp only [step] at takes
      split at takes
      next at_ =>
        split at takes
        next closed =>
          obtain rfl := Option.some.inj takes
          exact .closesRead thread mailbox reads at_ closed.2
        · obtain rfl := Option.some.inj takes
          exact .moves _ _ _ (by rw [at_]; rfl) (by rw [at_]; rintro ⟨⟩)
            ⟨by simp, by simp⟩ (by simp)
      · contradiction
  | close thread =>
      simp only [step] at takes
      split at takes
      next mailbox reads at_ =>
        split at takes
        · obtain rfl := Option.some.inj takes
          exact .moves _ _ _ (by rw [at_]; rfl) (by rw [at_]; rintro ⟨⟩)
            ⟨by simp, by simp⟩ (by simp)
        next opened =>
          obtain rfl := Option.some.inj takes
          exact .close thread mailbox reads at_
            (Bool.eq_false_iff.mpr opened)
      · contradiction
  | drain thread =>
      simp only [step] at takes
      split at takes
      next mailbox at_ =>
        obtain ⟨queue, begins, takes⟩ := Option.bind_eq_some_iff.mp takes
        obtain rfl := Option.some.inj takes
        exact .drain thread mailbox queue at_ begins
      · contradiction
  | redeliver thread items =>
      simp only [step] at takes
      split at takes
      next mailbox message at_ =>
        split at takes
        · obtain rfl := Option.some.inj takes
          exact .redeliver thread mailbox message items at_
        · contradiction
      · contradiction
  | queue thread section_ =>
      obtain ⟨mailbox, calls, takes⟩ := Option.bind_eq_some_iff.mp takes
      obtain ⟨queue, does, takes⟩ := Option.bind_eq_some_iff.mp takes
      obtain rfl := Option.some.inj takes
      exact .queue thread section_ mailbox queue calls
        (outcome_of_section does)

omit [DecidableEq T] in
theorem placed_lock {system : Mailboxes T Thread} {thread : Thread}
    {mailbox : Nat} {message : T} {queue : EtchAprQueue.System T Thread}
    (placed : Placed system)
    (at_ : system.place thread = .message mailbox message)
    (unlocked : system.rwlock = none)
    (begins : EtchAprQueue.step (system.queue mailbox)
      (.push thread (put_usec system.max_delay) message) = some queue) :
    Placed (settles { system.goes thread (.put mailbox) with
      rwlock := some thread } thread mailbox queue) := by
  have away : (system.place thread).calls = none := by rw [at_]; rfl
  have locked : Placed { system.goes thread (.put mailbox) with
      rwlock := some thread } := by
    refine ⟨fun other index => ?_, fun other holds => ?_⟩
    · by_cases same : other = thread
      · subst same
        exact .inl (placed.idle away index)
      · simp only [goes, Function.update_of_ne same]
        exact placed.fits other index
    · by_cases same : other = thread
      · rw [same]
      · simp only [goes, Function.update_of_ne same] at holds
        have lock := placed.locks other holds
        rw [unlocked] at lock
        contradiction
  have there : (goes system thread (.put mailbox)).place thread =
      .put mailbox := Function.update_self ..
  refine locked.begins (.push (put_usec system.max_delay) message) ?_ ?_ ?_
  · show Place.calls ((goes system thread (.put mailbox)).place thread) = _
    rw [there]
    rfl
  · exact .inr (.inl ⟨there, rfl⟩)
  · rcases push_begins begins with ⟨_, rfl⟩ | ⟨_, rfl⟩
    · exact .inl rfl
    · exact .inr rfl

omit [DecidableEq T] [Fintype Thread] in
theorem placed_release {system : Mailboxes T Thread} {thread : Thread}
    (placed : Placed system) (at_ : system.place thread = .notify) :
    Placed { system.goes thread .idle with rwlock := none } where
  fits other index := by
    by_cases same : other = thread
    · subst same
      exact .inl (placed.idle (by rw [at_]; rfl) index)
    · simp only [goes, Function.update_of_ne same]
      exact placed.fits other index
  locks other holds := by
    by_cases same : other = thread
    · subst same
      simp [goes] at holds
    · simp only [goes, Function.update_of_ne same] at holds
      have lock := placed.locks other holds
      rw [placed.locks thread (.inr at_)] at lock
      exact absurd (Option.some.inj lock).symm same

omit [DecidableEq T] in
theorem placed_read {system : Mailboxes T Thread} {thread : Thread}
    {mailbox : Nat} {waitms : Int} {queue : EtchAprQueue.System T Thread}
    (placed : Placed system) (at_ : system.place thread = .idle)
    (begins : EtchAprQueue.step (system.queue mailbox)
      (.pop thread (get_usec waitms)) = some queue) :
    Placed ((system.goes thread (.read mailbox)).settles thread mailbox
      queue) := by
  have reads : Placed (system.goes thread (.read mailbox)) :=
    placed.goes _ _ (by rw [at_]; rfl) (by rw [at_]; nofun)
      ⟨by nofun, by nofun⟩
  have there : (goes system thread (.read mailbox)).place thread =
      .read mailbox := Function.update_self ..
  refine reads.begins (.pop (get_usec waitms)) ?_ ?_ ?_
  · rw [there]
    rfl
  · exact .inr (.inr ⟨.inl there, rfl⟩)
  · rcases pop_begins begins with ⟨_, rfl⟩ | rfl
    · exact .inl rfl
    · exact .inr rfl

omit [DecidableEq T] in
theorem placed_of_effect {system next : Mailboxes T Thread}
    {action : Action T Thread} (placed : Placed system)
    (effect : Effect system action next) : Placed next := by
  cases effect with
  | transport_call msgid transmitted =>
      exact placed.congr (fun _ _ => rfl) rfl rfl
  | stays => exact placed
  | moves action thread place away free unlocked empty =>
      exact placed.goes thread place away free unlocked
  | lock thread mailbox message queue at_ unlocked begins =>
      exact placed_lock placed at_ unlocked begins
  | release thread at_ => exact placed_release placed at_
  | read thread mailbox waitms queue at_ begins =>
      exact placed_read placed at_ begins
  | closesRead thread mailbox reads at_ closed =>
      exact placed.closesRead (by rw [at_]; rfl) (by rw [at_]; nofun)
        mailbox reads
  | close thread mailbox reads at_ opened =>
      refine (placed.close_delivery mailbox mailbox).closesRead ?_ ?_
        mailbox reads
      · rw [place_close_delivery, at_]
        rfl
      · rw [place_close_delivery, at_]
        nofun
  | drain thread mailbox queue at_ begins =>
      refine placed.begins (.pop
        EtchAprQueue.ETCHQUEUE_CLEARING_CLOSED_QUEUE) ?_ ?_ ?_
      · rw [at_]
        rfl
      · exact .inr (.inr ⟨.inr at_, rfl⟩)
      · rcases pop_begins begins with ⟨_, rfl⟩ | rfl
        · exact .inl rfl
        · exact .inr rfl
  | redeliver thread mailbox message items at_ =>
      obtain ⟨closed, same⟩ := close_deliveries
        (fun other => Placed other ∧ other.place = system.place)
        (fun other target holds =>
          ⟨holds.1.close_delivery mailbox target, by
            rw [place_close_delivery, holds.2]⟩)
        (walk items.length items 0) ⟨placed, rfl⟩
      have goes := closed.goes thread (.drain mailbox)
        (by rw [same, at_]; rfl) (by rw [same, at_]; nofun)
        ⟨by nofun, by nofun⟩
      exact goes.congr (fun _ _ => rfl) rfl rfl
  | queue thread section_ mailbox queue calls outcome =>
      exact placed.outcome calls outcome

omit [DecidableEq Thread] [DecidableEq T] [Fintype Thread] in
theorem placed_start (null : T) (is_connection_up : Bool)
    (max_delay : Int) :
    Placed (start null is_connection_up max_delay : Mailboxes T Thread) where
  fits _ _ := .inl rfl
  locks thread holds := by
    rcases holds with ⟨_, puts⟩ | notifies
    · contradiction
    · contradiction

end Etch.C.Mailboxes
