import Etch.Cpp.PlainMailboxManager

/-!
# Cycles of threads in the C++ `EtchPlainMailboxManager`

`closeDelivery` takes the mutex of the manager within that of its mailbox;
`sessionNotify` and `transportCall` take them the other way round.  Every cycle
is two threads that have done so at one mailbox.
-/

namespace Etch.Cpp

open Etch.Library Etch.Library.Monitor

variable {Thread Element : Type} [DecidableEq Thread]

/-! ## The mutex of a queue -/

namespace EtchPlainMailbox

/-- Whether `mMutex` of the queue is held at a place. -/
def Place.inside : Place Element → Bool
  | .messagePutting _ => true
  | .readGetting _ _ => true
  | .readWoken _ _ => true
  | .closeClosing _ _ => true
  | _ => false

theorem Place.holds_of_inside {place : Place Element}
    (inside : place.inside = true) : place.holds = true := by
  cases place <;> first | rfl | exact nomatch inside

theorem inside_of_holds {place : Place Element}
    (free : place.holds = false) : place.inside = false := by
  cases inside : place.inside with
  | false => rfl
  | true =>
      rw [Place.holds_of_inside inside] at free
      contradiction

/-- How many operations of a thread hold `mMutex`. -/
def insiders (places : List (Place Element)) : Nat :=
  places.countP Place.inside

/-- A thread takes the mutex of the queue as it comes to hold it. -/
theorem Run.insiders {thread : Thread}
    {shared next : Shared Thread Element} {place : Place Element}
    {places : List (Place Element)}
    (runs : Run thread shared place next places) (other : Thread) :
    next.mMutex.count other +
        (if other = thread then insiders [place] else 0) =
      shared.mMutex.count other +
        (if other = thread then insiders places else 0) := by
  cases runs with
  | lock goes acquired =>
      cases place <;> cases goes <;> rfl
  | unlock goes released =>
      obtain ⟨before, after⟩ := holds_of_unlocked goes
      have outside : place.inside = false := by
        cases place <;> first | rfl | exact nomatch goes
      rcases after with rfl | ⟨later, rfl, free⟩
      · simp [EtchPlainMailbox.insiders, outside]
      · simp [EtchPlainMailbox.insiders, outside, inside_of_holds free]
  | enter goes acquired =>
      rw [Lock.count_acquire acquired other]
      cases place <;> cases goes <;> simp [EtchPlainMailbox.insiders,
        Place.inside]
  | work works released =>
      rw [Lock.count_release released other]
      cases works <;> simp [EtchPlainMailbox.insiders, Place.inside]
  | test withNotification closing =>
      cases shared.mQueue.isClosed <;> rfl
  | notify registered call =>
      cases call <;> rfl

/-- Without a listener an operation is followed by one at most. -/
theorem Run.at_most {thread : Thread} {shared next : Shared Thread Element}
    {place : Place Element} {places : List (Place Element)}
    (quiet : shared.mNotify = false)
    (runs : Run thread shared place next places) :
    places = [] ∨ ∃ later, places = [later] := by
  cases runs with
  | unlock goes released =>
      exact (holds_of_unlocked goes).2.imp_right fun ⟨later, same, _⟩ =>
        ⟨later, same⟩
  | notify registered call =>
      rw [quiet] at registered
      contradiction
  | _ => exact .inr ⟨_, rfl⟩

end EtchPlainMailbox

namespace EtchPlainMailboxManager

/-! ## What is held at the places of a thread -/

/-- Whether a mutex is held, by this operation, at a place. -/
def Place.holding (mutex : Mutex) : Place Element → Bool
  | .at_ mailbox place =>
      match mutex with
      | .mMailboxesMutex => false
      | .mQueueMutex other => other == mailbox && place.holds
      | .mMutex other => other == mailbox && place.inside
  | place => mutex == .mMailboxesMutex && place.locked.isNone

/-- A place where no mutex of a mailbox is held. -/
def Place.quiet : Place Element → Bool
  | .at_ _ place => !place.holds
  | _ => true

theorem eq_manager_of_quiet {mutex : Mutex} {place : Place Element}
    (quiet : place.quiet = true) (holding : place.holding mutex = true) :
    mutex = .mMailboxesMutex := by
  cases place with
  | at_ mailbox place =>
      have free : place.holds = false := by simpa [Place.quiet] using quiet
      have outside := EtchPlainMailbox.inside_of_holds free
      cases mutex with
      | mMailboxesMutex => rfl
      | _ => simp [Place.holding, free, outside] at holding
  | _ => exact beq_iff_eq.mp (Bool.and_eq_true_iff.mp holding).1

/-- The stacks of threads: only around `unregisterMailbox` is a mutex of a
mailbox held further out. -/
inductive Shape : List (Place Element) → Prop where
  | nil : Shape []
  | quiet (place : Place Element) {outer : List (Place Element)}
      (quiet : ∀ other ∈ outer, other.quiet = true) :
      Shape (place :: outer)
  | unregisters {place : Place Element} {mailbox : Nat}
      {withNotification closing : Bool} {outer : List (Place Element)}
      (inner : place = .unregisterLock mailbox ∨
        place = .unregisterRemove mailbox ∨ place = .unlock)
      (quiet : ∀ other ∈ outer, other.quiet = true) :
      Shape (place ::
        .at_ mailbox (.closeQueue withNotification closing) :: outer)

namespace Shape

theorem of_quiet {places : List (Place Element)}
    (quiet : ∀ place ∈ places, place.quiet = true) : Shape places := by
  cases places with
  | nil => exact .nil
  | cons place outer =>
      exact .quiet place fun other here =>
        quiet other (List.mem_cons_of_mem _ here)

/-- Quiet places are called from a place. -/
theorem append {next outer : List (Place Element)}
    (inner : ∀ place ∈ next, place.quiet = true)
    (quiet : ∀ place ∈ outer, place.quiet = true) :
    Shape (next ++ outer) :=
  .of_quiet fun place here =>
    (List.mem_append.mp here).elim (inner place) (quiet place)

theorem within {mailbox : Nat} (place : EtchPlainMailbox.Place Element)
    {outer : List (Place Element)}
    (quiet : ∀ other ∈ outer, other.quiet = true) :
    Shape (within mailbox place ++ outer) := by
  cases place with
  | closeQueue withNotification closing =>
      exact .unregisters (.inl rfl) quiet
  | _ => exact .quiet _ quiet

/-- One operation is done, or followed by others. -/
theorem run {thread : Thread} {shared next : Shared Thread Element}
    {place : Place Element} {places outer : List (Place Element)}
    (shape : Shape (place :: outer))
    (runs : Run thread shared place next places) :
    Shape (places ++ outer) := by
  cases shape with
  | quiet _ quiet =>
      cases runs with
      | run runs =>
          rcases runs.at_most rfl with rfl | ⟨later, rfl⟩
          · exact .of_quiet quiet
          · rw [List.flatMap_singleton]
            exact .within later quiet
      | lock goes acquired => exact .quiet _ quiet
      | unlock released => exact .of_quiet quiet
      | refused mailbox => exact .append (by simp [closeDelivery, Place.quiet, EtchPlainMailbox.Place.holds]) quiet
      | found mailbox element registered =>
          exact .append (by simp [Place.quiet, EtchPlainMailbox.Place.holds]) quiet
      | down mailboxes registered =>
          refine .append ?_ quiet
          intro place here
          rcases List.mem_append.mp here with here | here
          · obtain ⟨mailbox, _, rfl⟩ := List.mem_map.mp here
            rfl
          · rw [List.mem_singleton.mp here]
            rfl
      | _ => exact .quiet _ quiet
  | unregisters inner quiet =>
      rcases inner with rfl | rfl | rfl
      · cases runs with
        | lock goes acquired =>
            obtain rfl := Option.some.inj goes
            exact .unregisters (.inr (.inl rfl)) quiet
      · cases runs with
        | lock goes acquired => contradiction
        | remove => exact .unregisters (.inr (.inr rfl)) quiet
      · cases runs with
        | lock goes acquired => contradiction
        | unlock released => exact .quiet _ quiet

end Shape

/-! ## Who holds the mutexes -/

/-- How many operations of a thread hold a mutex. -/
def held (mutex : Mutex) (places : List (Place Element)) : Nat :=
  places.countP (Place.holding mutex)

@[simp]
theorem held_nil (mutex : Mutex) : held mutex ([] : List (Place Element)) = 0 :=
  rfl

theorem held_append (mutex : Mutex) (inner outer : List (Place Element)) :
    held mutex (inner ++ outer) = held mutex inner + held mutex outer :=
  List.countP_append

/-- What the operations of a mailbox hold as they are called from it. -/
def heldWithin (mailbox : Nat)
    (places : List (EtchPlainMailbox.Place Element)) : Mutex → Nat
  | .mMailboxesMutex => 0
  | .mQueueMutex other =>
      if other = mailbox then EtchPlainMailbox.holding places else 0
  | .mMutex other =>
      if other = mailbox then EtchPlainMailbox.insiders places else 0

theorem held_at (mutex : Mutex) (mailbox : Nat)
    (place : EtchPlainMailbox.Place Element) :
    held mutex [.at_ mailbox place] = heldWithin mailbox [place] mutex := by
  cases mutex with
  | mMailboxesMutex => rfl
  | mQueueMutex other =>
      by_cases same : other = mailbox
      · simp [held, heldWithin, Place.holding, EtchPlainMailbox.holding,
          same]
      · simp [held, heldWithin, Place.holding, same]
  | mMutex other =>
      by_cases same : other = mailbox
      · simp [held, heldWithin, Place.holding, EtchPlainMailbox.insiders,
          same]
      · simp [held, heldWithin, Place.holding, same]

theorem held_within (mutex : Mutex) (mailbox : Nat)
    (place : EtchPlainMailbox.Place Element) :
    held mutex (within mailbox place) =
      heldWithin mailbox [place] mutex := by
  rw [← held_at]
  cases place with
  | closeQueue withNotification closing =>
      rw [within, ← List.singleton_append, held_append]
      simp [held, Place.holding, Place.locked]
  | _ => rfl

theorem heldWithin_cons (mailbox : Nat)
    (place : EtchPlainMailbox.Place Element)
    (places : List (EtchPlainMailbox.Place Element)) (mutex : Mutex) :
    heldWithin mailbox (place :: places) mutex =
      heldWithin mailbox [place] mutex +
        heldWithin mailbox places mutex := by
  cases mutex with
  | mMailboxesMutex => rfl
  | mQueueMutex other =>
      by_cases same : other = mailbox
      · simp [heldWithin, EtchPlainMailbox.holding, same,
          List.countP_cons, Nat.add_comm]
      · simp [heldWithin, same]
  | mMutex other =>
      by_cases same : other = mailbox
      · simp [heldWithin, EtchPlainMailbox.insiders, same,
          List.countP_cons, Nat.add_comm]
      · simp [heldWithin, same]

theorem held_flatMap_within (mutex : Mutex) (mailbox : Nat)
    (places : List (EtchPlainMailbox.Place Element)) :
    held mutex (places.flatMap (within mailbox)) =
      heldWithin mailbox places mutex := by
  induction places with
  | nil => cases mutex <;> simp [heldWithin, EtchPlainMailbox.holding,
      EtchPlainMailbox.insiders]
  | cons place places ih =>
      rw [List.flatMap_cons, held_append, held_within, ih,
        ← heldWithin_cons]

/-- One mailbox keeps account of its own mutexes. -/
theorem count_set {thread : Thread} {shared : Shared Thread Element}
    {mailbox : Nat} {place : EtchPlainMailbox.Place Element}
    {next : EtchPlainMailbox.Shared Thread Element}
    {places : List (EtchPlainMailbox.Place Element)}
    (runs : EtchPlainMailbox.Run thread (shared.of mailbox) place next
      places) (mutex : Mutex) (other : Thread) :
    ((shared.set mailbox next).lock mutex).count other +
        (if other = thread then heldWithin mailbox [place] mutex else 0) =
      (shared.lock mutex).count other +
        (if other = thread then heldWithin mailbox places mutex else 0) := by
  cases mutex with
  | mMailboxesMutex => rfl
  | mQueueMutex index =>
      by_cases same : index = mailbox
      · subst same
        have count := runs.count other
        simpa [Shared.lock, Shared.set, Shared.of, heldWithin] using count
      · simp [Shared.lock, Shared.set, heldWithin, same]
  | mMutex index =>
      by_cases same : index = mailbox
      · subst same
        have count := runs.insiders other
        simpa [Shared.lock, Shared.set, Shared.of, heldWithin] using count
      · simp [Shared.lock, Shared.set, heldWithin, same]

theorem held_locked {place next : Place Element}
    (goes : place.locked = some next) (mutex : Mutex) :
    held mutex [place] = 0 ∧
      held mutex [next] = if mutex = .mMailboxesMutex then 1 else 0 := by
  have before : place.locked.isNone = false := by rw [goes]; rfl
  cases place
  case at_ => exact nomatch goes
  all_goals
    cases goes <;>
      by_cases manager : mutex = .mMailboxesMutex <;>
        simp [held, Place.holding, Place.locked, manager]

/-- A thread takes a mutex as it comes to hold it, and no other time. -/
theorem Run.count {thread : Thread} {shared next : Shared Thread Element}
    {place : Place Element} {places : List (Place Element)}
    (runs : Run thread shared place next places) (mutex : Mutex)
    (other : Thread) :
    (next.lock mutex).count other +
        (if other = thread then held mutex [place] else 0) =
      (shared.lock mutex).count other +
        (if other = thread then held mutex places else 0) := by
  cases runs with
  | run runs =>
      rw [held_at, held_flatMap_within]
      exact count_set runs mutex other
  | lock goes acquired =>
      obtain ⟨before, after⟩ := held_locked goes mutex
      rw [before, after]
      cases mutex with
      | mMailboxesMutex =>
          simpa [Shared.lock] using Lock.count_acquire acquired other
      | _ => simp [Shared.lock]
  | unlock released =>
      cases mutex with
      | mMailboxesMutex =>
          have count := Lock.count_release released other
          simp [Shared.lock, held, Place.holding, Place.locked, count]
      | _ => simp [Shared.lock, held, Place.holding]
  | refused mailbox =>
      cases mutex <;> simp [Shared.lock, held, Place.holding, Place.locked,
        closeDelivery, EtchPlainMailbox.Place.holds,
        EtchPlainMailbox.Place.inside]
  | found mailbox element registered =>
      cases mutex <;> simp [Shared.lock, held, Place.holding, Place.locked,
        EtchPlainMailbox.Place.holds, EtchPlainMailbox.Place.inside]
  | down mailboxes registered =>
      have walk : held mutex (mailboxes.map closeDelivery :
          List (Place Element)) = 0 := by
        rw [held, List.countP_map]
        apply List.countP_eq_zero.mpr
        intro mailbox _
        cases mutex <;> simp [closeDelivery, Place.holding,
          EtchPlainMailbox.Place.holds, EtchPlainMailbox.Place.inside]
      rw [held_append, walk]
      cases mutex <;> simp [Shared.lock, held, Place.holding, Place.locked]
  | _ => cases mutex <;> simp [Shared.lock, held, Place.holding, Place.locked]

/-! ## What holds in every state -/

structure Invariant (state : State Thread Element) : Prop where
  count : ∀ mutex thread, (state.shared.lock mutex).count thread =
    held mutex (state.places thread)
  shape : ∀ thread, Shape (state.places thread)

theorem invariant_initial :
    Invariant (initial : State Thread Element) where
  count mutex _ := by cases mutex <;> rfl
  shape _ := .nil

/-- A thread that has nothing else to do calls an operation. -/
theorem Invariant.call {state : State Thread Element}
    (invariant : Invariant state) {thread : Thread}
    {shared : Shared Thread Element} {place : Place Element}
    (idle : state.places thread = [])
    (locks : ∀ mutex, shared.lock mutex = state.shared.lock mutex)
    (free : ∀ mutex, held mutex [place] = 0) :
    Invariant (state.go thread shared [place]) where
  count mutex other := by
    rw [State.shared_go, locks, invariant.count]
    by_cases mine : other = thread
    · subst mine
      rw [State.places_go_self, idle, free, held_nil]
    · rw [State.places_go_of_ne _ mine]
  shape other := by
    by_cases mine : other = thread
    · subst mine
      rw [State.places_go_self]
      exact .quiet place (by nofun)
    · rw [State.places_go_of_ne _ mine]
      exact invariant.shape other

theorem Invariant.step {state next : State Thread Element}
    (invariant : Invariant state) (step : Step state next) :
    Invariant next := by
  obtain ⟨thread, step⟩ := step
  cases step with
  | transportCall idle =>
      refine invariant.call idle (fun mutex => by cases mutex <;> rfl)
        fun mutex => ?_
      exact (held_locked rfl mutex).1
  | sessionMessage mailbox element idle =>
      exact invariant.call idle (fun _ => rfl) fun mutex =>
        (held_locked rfl mutex).1
  | sessionNotify up idle =>
      exact invariant.call idle (fun _ => rfl) fun mutex =>
        (held_locked rfl mutex).1
  | call idle returned call =>
      refine invariant.call idle (fun _ => rfl) fun mutex => ?_
      have free := call.holds
      have outside := EtchPlainMailbox.inside_of_holds free
      cases mutex <;> simp [held, Place.holding, free, outside]
  | @run place outer places shared at_place runs =>
      refine ⟨fun mutex other => ?_, fun other => ?_⟩
      · have count := runs.count mutex other
        have before := invariant.count mutex other
        by_cases mine : other = thread
        · subst mine
          rw [State.places_go_self, State.shared_go, held_append]
          rw [at_place, ← List.singleton_append, held_append] at before
          simp only [if_true] at count
          omega
        · rw [State.places_go_of_ne _ mine, State.shared_go]
          rw [if_neg mine, if_neg mine] at count
          exact count.trans before
      · by_cases mine : other = thread
        · subst mine
          have shape := invariant.shape other
          rw [at_place] at shape
          rw [State.places_go_self]
          exact shape.run runs
        · rw [State.places_go_of_ne _ mine]
          exact invariant.shape other

theorem invariant_of_initial {state : State Thread Element}
    (reaches : Reaches initial state) : Invariant state :=
  invariant_of_reaches Invariant (fun _ _ held step => held.step step)
    reaches invariant_initial

/-! ## Cycles -/

/-- A mutex that is held is held at one of the thread's places. -/
theorem Invariant.place_of_holds {state : State Thread Element}
    (invariant : Invariant state) {thread : Thread} {mutex : Mutex}
    (holds : Holds state thread mutex) :
    ∃ place ∈ state.places thread, place.holding mutex = true := by
  rw [Holds, invariant.count] at holds
  exact List.countP_pos_iff.mp holds

theorem Invariant.holds_of_place {state : State Thread Element}
    (invariant : Invariant state) {thread : Thread} {mutex : Mutex}
    {place : Place Element} (here : place ∈ state.places thread)
    (holding : place.holding mutex = true) : Holds state thread mutex := by
  rw [Holds, invariant.count]
  exact List.countP_pos_iff.mpr ⟨place, here, holding⟩

/-- The mutex of a queue is held within that of its mailbox. -/
theorem Invariant.holds_mailbox {state : State Thread Element}
    (invariant : Invariant state) {thread : Thread} {mailbox : Nat}
    (holds : Holds state thread (.mMutex mailbox)) :
    Holds state thread (.mQueueMutex mailbox) := by
  obtain ⟨place, here, holding⟩ := invariant.place_of_holds holds
  refine invariant.holds_of_place here ?_
  cases place with
  | at_ other place =>
      obtain ⟨same, inside⟩ := Bool.and_eq_true_iff.mp holding
      exact Bool.and_eq_true_iff.mpr
        ⟨same, EtchPlainMailbox.Place.holds_of_inside inside⟩
  | _ => contradiction

/-- Where a mutex of a mailbox is acquired. -/
theorem at_of_acquires {place : Place Element} {mutex : Mutex}
    (acquires : place.acquires = some mutex)
    (inner : mutex ≠ .mMailboxesMutex) :
    ∃ mailbox here, place = .at_ mailbox here ∧
      ((mutex = .mQueueMutex mailbox ∧ here.locked.isSome = true) ∨
        (mutex = .mMutex mailbox ∧ here.entered.isSome = true)) := by
  cases place with
  | at_ mailbox here =>
      refine ⟨mailbox, here, rfl, ?_⟩
      simp only [Place.acquires] at acquires
      split at acquires
      next locks =>
        exact .inl ⟨(Option.some.inj acquires).symm, locks⟩
      next =>
        split at acquires
        next enters =>
          exact .inr ⟨(Option.some.inj acquires).symm, enters⟩
        next => contradiction
  | _ =>
      simp only [Place.acquires] at acquires
      split at acquires
      · exact absurd (Option.some.inj acquires).symm inner
      · contradiction

/-- A thread waits for the mutex of a queue with that of its mailbox, and so for
nobody. -/
theorem Invariant.own_queue {state : State Thread Element}
    (invariant : Invariant state) {thread holder : Thread} {mailbox : Nat}
    (waits : Waits state thread (.mMutex mailbox))
    (holds : Holds state holder (.mMutex mailbox)) : holder = thread := by
  obtain ⟨place, outer, at_place, acquires⟩ := waits
  obtain ⟨index, here, rfl, ⟨same, _⟩ | ⟨same, enters⟩⟩ :=
    at_of_acquires acquires (by nofun)
  · contradiction
  · obtain rfl := Mutex.mMutex.inj same
    obtain ⟨later, goes⟩ := Option.isSome_iff_exists.mp enters
    have own := (EtchPlainMailbox.holds_of_entered goes).1
    have member : Place.at_ mailbox here ∈ state.places thread := by
      rw [at_place]
      exact List.mem_cons_self
    have mine : Holds state thread (.mQueueMutex mailbox) :=
      invariant.holds_of_place member (by simp [Place.holding, own])
    exact Lock.count_pos_unique (invariant.holds_mailbox holds) mine

/-- A thread that waits for the mutex of a mailbox holds that of the manager at
most. -/
theorem Invariant.only_manager {state : State Thread Element}
    (invariant : Invariant state) {thread : Thread} {mailbox : Nat}
    (waits : Waits state thread (.mQueueMutex mailbox)) {other : Mutex}
    (holds : Holds state thread other) : other = .mMailboxesMutex := by
  obtain ⟨place, outer, at_place, acquires⟩ := waits
  obtain ⟨index, here, rfl, ⟨_, locks⟩ | ⟨same, _⟩⟩ :=
    at_of_acquires acquires (by nofun)
  · obtain ⟨later, goes⟩ := Option.isSome_iff_exists.mp locks
    have free := (EtchPlainMailbox.holds_of_locked goes).1
    obtain ⟨place, member, holding⟩ := invariant.place_of_holds holds
    have shape := invariant.shape thread
    rw [at_place] at member shape
    have quiet : place.quiet = true := by
      rcases List.mem_cons.mp member with rfl | member
      · simp [Place.quiet, free]
      · cases shape with
        | quiet _ quiet => exact quiet place member
        | unregisters inner => simp at inner
    exact eq_manager_of_quiet quiet holding
  · contradiction

theorem Invariant.nested {state : State Thread Element}
    (invariant : Invariant state) :
    Deadlock.Nested (Holds state) (Waits state) .mMailboxesMutex where
  unique _ _ _ holds holds' := Lock.count_pos_unique holds holds'
  inner thread mutex waits inner := by
    cases mutex with
    | mMailboxesMutex => contradiction
    | mQueueMutex mailbox =>
        exact .inl fun _ holds => invariant.only_manager waits holds
    | mMutex mailbox =>
        exact .inr fun _ holds => invariant.own_queue waits holds

/-- Two threads have come to the mutexes of the manager and of a mailbox from
both sides. -/
structure Crossed (state : State Thread Element) (first second : Thread)
    (mailbox : Nat) : Prop where
  apart : first ≠ second
  outer : Holds state first .mMailboxesMutex
  inward : Waits state first (.mQueueMutex mailbox)
  inner : Holds state second (.mQueueMutex mailbox)
  outward : Waits state second .mMailboxesMutex

/-- In every state that is reached, a cycle is two threads at one mailbox. -/
theorem deadlocked_iff {state : State Thread Element}
    (reaches : Reaches initial state) :
    Deadlocked state ↔
      ∃ first second mailbox, Crossed state first second mailbox := by
  have invariant := invariant_of_initial reaches
  rw [Deadlocked, invariant.nested.cyclic_iff]
  constructor
  · rintro ⟨first, second, apart, outer, outward, mutex, inner, inward,
      holds⟩
    cases mutex with
    | mMailboxesMutex => contradiction
    | mQueueMutex mailbox =>
        exact ⟨first, second, mailbox, apart, outer, inward, holds, outward⟩
    | mMutex mailbox =>
        exact absurd (invariant.own_queue inward holds).symm apart
  · rintro ⟨first, second, mailbox, crossed⟩
    exact ⟨first, second, crossed.apart, crossed.outer, crossed.outward,
      .mQueueMutex mailbox, by nofun, crossed.inward, crossed.inner⟩

/-! ## Runs without cycles -/

/-- With the mutex of the manager a thread does not come to a mailbox whose
mutex is held by a thread that waits for that of the manager; and with the
mutex of a mailbox it does not come to the manager while its mutex is held by a
thread that waits for that of the mailbox. -/
structure Careful (thread : Thread) (state next : State Thread Element) :
    Prop where
  inward : ∀ mailbox, Holds next thread .mMailboxesMutex →
    Waits next thread (.mQueueMutex mailbox) → ∀ other, other ≠ thread →
      Holds state other (.mQueueMutex mailbox) →
        ¬ Waits state other .mMailboxesMutex
  outward : ∀ mailbox, Holds next thread (.mQueueMutex mailbox) →
    Waits next thread .mMailboxesMutex → ∀ other, other ≠ thread →
      Holds state other .mMailboxesMutex →
        ¬ Waits state other (.mQueueMutex mailbox)

def CarefulStep (state next : State Thread Element) : Prop :=
  ∃ thread, ThreadStep thread state next ∧ Careful thread state next

/-- The other threads stay where they are. -/
theorem places_of_step {thread : Thread} {state next : State Thread Element}
    (step : ThreadStep thread state next) {other : Thread}
    (different : other ≠ thread) :
    next.places other = state.places other := by
  cases step <;> exact State.places_go_of_ne _ different ..

theorem holds_of_step {thread : Thread} {state next : State Thread Element}
    (invariant : Invariant state) (invariant' : Invariant next)
    (step : ThreadStep thread state next) {other : Thread}
    (different : other ≠ thread) {mutex : Mutex}
    (holds : Holds next other mutex) : Holds state other mutex := by
  rw [Holds, invariant'.count, places_of_step step different] at holds
  rwa [Holds, invariant.count]

theorem waits_of_step {thread : Thread} {state next : State Thread Element}
    (step : ThreadStep thread state next) {other : Thread}
    (different : other ≠ thread) {mutex : Mutex}
    (waits : Waits next other mutex) : Waits state other mutex := by
  rwa [Waits, places_of_step step different] at waits

/-- A careful step brings no two threads to cross. -/
theorem crossed_of_step {state next : State Thread Element}
    (invariant : Invariant state) (step : CarefulStep state next)
    {first second : Thread} {mailbox : Nat}
    (crossed : Crossed next first second mailbox) :
    Crossed state first second mailbox := by
  obtain ⟨thread, step, careful⟩ := step
  have invariant' := invariant.step ⟨thread, step⟩
  by_cases goes : first = thread
  · subst goes
    have different := crossed.apart.symm
    have inner := holds_of_step invariant invariant' step different
      crossed.inner
    have outward := waits_of_step step different crossed.outward
    exact absurd outward (careful.inward mailbox crossed.outer
      crossed.inward second different inner)
  · have outer := holds_of_step invariant invariant' step goes crossed.outer
    have inward := waits_of_step step goes crossed.inward
    by_cases comes : second = thread
    · subst comes
      exact absurd inward (careful.outward mailbox crossed.inner
        crossed.outward first goes outer)
    · exact ⟨crossed.apart, outer, inward,
        holds_of_step invariant invariant' step comes crossed.inner,
        waits_of_step step comes crossed.outward⟩

theorem reaches_of_careful {state next : State Thread Element}
    (reaches : Relation.ReflTransGen CarefulStep state next) :
    Reaches state next := by
  have weaker : CarefulStep ≤ (Step : State Thread Element → _ → Prop) :=
    fun _ _ ⟨thread, step, _⟩ => ⟨thread, step⟩
  exact Relation.ReflTransGen.mono weaker state next reaches

/-- A thread that is alone is careful. -/
theorem careful_of_alone {thread : Thread} {state next : State Thread Element}
    (alone : ∀ other, other ≠ thread → state.places other = [])
    (steps : Relation.ReflTransGen (ThreadStep thread) state next) :
    Relation.ReflTransGen CarefulStep state next := by
  induction steps using Relation.ReflTransGen.head_induction_on with
  | refl => exact .refl
  | head step _ ih =>
      have still := ih fun other different =>
        (places_of_step step different).trans (alone other different)
      refine .head ⟨thread, step, ?_, ?_⟩ still
      · rintro _ _ _ other different _ ⟨_, _, at_place, _⟩
        rw [alone other different] at at_place
        contradiction
      · rintro _ _ _ other different _ ⟨_, _, at_place, _⟩
        rw [alone other different] at at_place
        contradiction

end EtchPlainMailboxManager

end Etch.Cpp
