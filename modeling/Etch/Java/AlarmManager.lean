import Etch.Java.IdName
import Etch.Library.Monitor
import Etch.Library.SortedSet
import Mathlib.Data.Prod.Lex

/-!
# The Java `AlarmManager`

The alarms that are pending are in a set ordered by the times they are due,
and each listener has at most one alarm in a map.  A worker takes the first
alarm out of the set when it is due, leaves it in the map, and wakes the
listener without the lock, so that any calls of `add` and `remove` may come
before the listener's answer is entered.
-/

namespace Etch.Java

open Etch.Library.Fallible Etch.Library.Monitor Etch.Library.SortedSet

/-- An alarm, apart from its sequence number. -/
structure Alarm (Listener Object : Type) where
  listener : Listener
  state : Object
  due : Int

/-- A manager that has been started.  An alarm is its sequence number. -/
structure AlarmManager (Listener Object : Type) where
  alarm : Nat → Alarm Listener Object
  nextSeq : Nat
  alarmsByListener : Listener → Option Nat
  alarms : List Nat
  /-- the due time of an alarm has been changed while it was in the set -/
  disturbed : Bool

namespace AlarmManager

variable {Listener Object Worker : Type}

/-- A result of `long` arithmetic. -/
def long (value : Int) : Int :=
  Int.bmod value (2 ^ 64)

/-- `Timer.NANOS_PER_MILLI` -/
def NANOS_PER_MILLI : Int := 1000000

/-- What the set of alarms is ordered by. -/
def key (manager : AlarmManager Listener Object) (alarm : Nat) : ℤ ×ₗ ℕ :=
  toLex ((manager.alarm alarm).due, alarm)

/-- `first.compareTo(second)` -/
def compareTo (manager : AlarmManager Listener Object)
    (first second : Nat) : Int :=
  let due := (manager.alarm first).due
  let otherDue := (manager.alarm second).due
  if due < otherDue then
    -1
  else if due > otherDue then
    1
  else if first < second then
    -1
  else if first > second then
    1
  else
    0

theorem compareTo_neg_iff {manager : AlarmManager Listener Object}
    {first second : Nat} :
    manager.compareTo first second < 0 ↔
      manager.key first < manager.key second := by
  rw [key, key, Prod.Lex.toLex_lt_toLex, compareTo]
  dsimp only
  split_ifs <;> omega

theorem key_injective (manager : AlarmManager Listener Object) :
    Function.Injective manager.key :=
  fun _ _ same => congrArg Prod.snd (toLex.injective same)

/-- `alarm.setDue(due)` -/
def setDue (manager : AlarmManager Listener Object) (alarm : Nat)
    (due : Int) : AlarmManager Listener Object :=
  { manager with
    alarm := Function.update manager.alarm alarm
      { manager.alarm alarm with due := due }
    disturbed := manager.disturbed || manager.alarms.contains alarm }

/-- `alarm.setState(state)` -/
def setState (manager : AlarmManager Listener Object) (alarm : Nat)
    (state : Object) : AlarmManager Listener Object :=
  { manager with
    alarm := Function.update manager.alarm alarm
      { manager.alarm alarm with state := state } }

/-- `new Alarm(listener, state, due)` -/
def newAlarm (manager : AlarmManager Listener Object) (listener : Listener)
    (state : Object) (due : Int) :
    Nat × AlarmManager Listener Object :=
  (manager.nextSeq, { manager with
    alarm := Function.update manager.alarm manager.nextSeq
      ⟨listener, state, due⟩
    nextSeq := manager.nextSeq + 1 })

def enqueue (manager : AlarmManager Listener Object) (alarm : Nat) :
    AlarmManager Listener Object :=
  { manager with alarms := insert manager.key alarm manager.alarms }

def dequeue (manager : AlarmManager Listener Object) (alarm : Nat) :
    AlarmManager Listener Object :=
  { manager with alarms := remove manager.key alarm manager.alarms }

variable [DecidableEq Listener]

def addAlarm (manager : AlarmManager Listener Object) (listener : Listener)
    (alarm : Nat) : AlarmManager Listener Object :=
  { manager with
    alarmsByListener :=
      Function.update manager.alarmsByListener listener (some alarm) }

def removeAlarm (manager : AlarmManager Listener Object)
    (listener : Listener) : AlarmManager Listener Object :=
  { manager with
    alarmsByListener :=
      Function.update manager.alarmsByListener listener none }

/-- `add(listener, state, delay)` at a time -/
def add (manager : AlarmManager Listener Object)
    (listener : Option Listener) (state : Object) (delay : Int32)
    (now : Int) : Except Thrown (AlarmManager Listener Object) :=
  match listener with
  | none => .error .nullPointerException
  | some listener =>
      if delay ≤ 0 then
        .error (.illegalArgumentException (text "delay <= 0"))
      else
        let due := long (now + long (delay.toInt * NANOS_PER_MILLI))
        match manager.alarmsByListener listener with
        | some alarm =>
            .ok ((((manager.dequeue alarm).setDue alarm due).setState alarm
              state).enqueue alarm)
        | none =>
            let (alarm, manager) := manager.newAlarm listener state due
            .ok ((manager.addAlarm listener alarm).enqueue alarm)

/-- `remove(listener)` -/
def removeListener (manager : AlarmManager Listener Object)
    (listener : Option Listener) : AlarmManager Listener Object :=
  match listener with
  | none => manager
  | some listener =>
      match manager.alarmsByListener listener with
      | none => manager
      | some alarm => (manager.removeAlarm listener).dequeue alarm

/-- `update(alarm, delay)` at a time -/
def update (manager : AlarmManager Listener Object) (alarm : Nat)
    (delay : Int32) (now : Int) : AlarmManager Listener Object :=
  let due :=
    if delay > 0 then
      long ((manager.alarm alarm).due +
        long (delay.toInt * NANOS_PER_MILLI))
    else
      long (now - long (delay.toInt * NANOS_PER_MILLI))
  (manager.setDue alarm due).enqueue alarm

/-- The end of `wakeup(alarm)`, none where the listener has thrown. -/
def answered (manager : AlarmManager Listener Object) (alarm : Nat)
    (delay : Option Int32) (now : Int) : AlarmManager Listener Object :=
  match delay with
  | none => manager.removeAlarm (manager.alarm alarm).listener
  | some delay =>
      if delay ≠ 0 then
        manager.update alarm delay now
      else
        manager.removeAlarm (manager.alarm alarm).listener

/-- What `getNextDueAlarm()` takes at a time, none where it waits. -/
def getNextDueAlarm (manager : AlarmManager Listener Object) (now : Int) :
    Option (Nat × AlarmManager Listener Object) :=
  match manager.alarms with
  | [] => none
  | alarm :: _ =>
      if long ((manager.alarm alarm).due - now) > 0 then
        none
      else
        some (alarm, manager.dequeue alarm)

/-! ## Workers and listeners -/

/-- What a worker is doing. -/
inductive Duty where
  | waiting
  /-- it has taken an alarm and is about to call its listener -/
  | taken (alarm : Nat)
  | waking (alarm : Nat)

/-- The alarm for which a listener is being woken. -/
def Duty.alarm : Duty → Option Nat
  | waiting => none
  | taken alarm => some alarm
  | waking alarm => some alarm

/-- What has happened to a listener. -/
inductive Event (Listener : Type) where
  | added (listener : Listener)
  | removed (listener : Listener)
  | woken (listener : Listener)
deriving DecidableEq

/-- A manager with its workers and what has happened, the last thing first. -/
structure System (Listener Object Worker : Type) where
  manager : AlarmManager Listener Object
  duty : Worker → Duty
  events : List (Event Listener)

/-- What happens next, at a time where that matters. -/
inductive Action (Listener Object Worker : Type) where
  | add (listener : Option Listener) (state : Object) (delay : Int32)
      (now : Int)
  | remove (listener : Option Listener)
  | take (worker : Worker) (now : Int)
  | wake (worker : Worker)
  | answer (worker : Worker) (delay : Option Int32) (now : Int)

variable [DecidableEq Worker]

def noted (event : Listener → Event Listener)
    (events : List (Event Listener)) :
    Option Listener → List (Event Listener)
  | none => events
  | some listener => event listener :: events

def step (system : System Listener Object Worker) :
    Action Listener Object Worker → Option (System Listener Object Worker)
  | .add listener state delay now =>
      match system.manager.add listener state delay now with
      | .error _ => some system
      | .ok manager =>
          some { system with
            manager := manager
            events := noted .added system.events listener }
  | .remove listener =>
      some { system with
        manager := system.manager.removeListener listener
        events := noted .removed system.events listener }
  | .take worker now =>
      match system.duty worker with
      | .waiting =>
          match system.manager.getNextDueAlarm now with
          | none => none
          | some (alarm, manager) =>
              some { system with
                manager := manager
                duty := Function.update system.duty worker (.taken alarm) }
      | _ => none
  | .wake worker =>
      match system.duty worker with
      | .taken alarm =>
          some { system with
            duty := Function.update system.duty worker (.waking alarm)
            events :=
              .woken (system.manager.alarm alarm).listener ::
                system.events }
      | _ => none
  | .answer worker delay now =>
      match system.duty worker with
      | .waking alarm =>
          some { system with
            manager := system.manager.answered alarm delay now
            duty := Function.update system.duty worker .waiting }
      | _ => none

/-- A manager that has just been started. -/
def System.start (alarm : Nat → Alarm Listener Object) :
    System Listener Object Worker :=
  ⟨⟨alarm, 0, fun _ => none, [], false⟩, fun _ => .waiting, []⟩

/-! ## Integrity -/

/-- A listener that has been added and not been removed since. -/
def wanted (listener : Listener) : List (Event Listener) → Bool
  | [] => false
  | .added other :: events => other = listener || wanted listener events
  | .removed other :: events => other ≠ listener && wanted listener events
  | .woken _ :: events => wanted listener events

/-- No listener was woken that had been removed and not been added since. -/
def Quiet : List (Event Listener) → Prop
  | [] => True
  | .woken listener :: events =>
      wanted listener events = true ∧ Quiet events
  | _ :: events => Quiet events

/-- Whether a listener is being woken for an alarm. -/
def System.Waking (system : System Listener Object Worker) (alarm : Nat) :
    Prop :=
  ∃ worker, (system.duty worker).alarm = some alarm

structure Integrity (system : System Listener Object Worker) : Prop where
  pending : ∀ alarm, alarm ∈ system.manager.alarms ↔
    (∃ listener,
      system.manager.alarmsByListener listener = some alarm) ∧
      ¬system.Waking alarm
  single : ∀ first ∈ system.manager.alarms,
    ∀ second ∈ system.manager.alarms,
      (system.manager.alarm first).listener =
        (system.manager.alarm second).listener → first = second
  sorted : Sorted system.manager.key system.manager.alarms
  undisturbed : system.manager.disturbed = false
  quiet : Quiet system.events

/-- A listener whose alarm a worker has taken and not yet entered again. -/
def System.Woken (system : System Listener Object Worker)
    (listener : Listener) : Prop :=
  ∃ alarm, system.Waking alarm ∧
    (system.manager.alarm alarm).listener = listener

/-- No listener is added or removed while it is being woken. -/
def Sound (system : System Listener Object Worker) :
    Action Listener Object Worker → Prop
  | .add (some listener) _ delay _ => 0 < delay → ¬system.Woken listener
  | .remove (some listener) => ¬system.Woken listener
  | _ => True

def SoundStep (system next : System Listener Object Worker) : Prop :=
  ∃ action, Sound system action ∧ step system action = some next

/-! ## Books -/

/-- The map and the set, with the alarms for which listeners are woken. -/
structure Books (manager : AlarmManager Listener Object)
    (waking : Nat → Prop) : Prop where
  keyed : ∀ listener alarm,
    manager.alarmsByListener listener = some alarm →
      (manager.alarm alarm).listener = listener ∧ alarm < manager.nextSeq
  pending : ∀ alarm, alarm ∈ manager.alarms ↔
    (∃ listener, manager.alarmsByListener listener = some alarm) ∧
      ¬waking alarm
  woken : ∀ alarm, waking alarm →
    manager.alarmsByListener (manager.alarm alarm).listener = some alarm
  sorted : Sorted manager.key manager.alarms
  undisturbed : manager.disturbed = false

section Books

variable {manager next : AlarmManager Listener Object} {waking : Nat → Prop}
  {listener : Listener} {alarm : Nat}

omit [DecidableEq Listener] in
theorem Books.congr {other : Nat → Prop} (books : Books manager waking)
    (same : ∀ alarm, other alarm ↔ waking alarm) : Books manager other := by
  obtain rfl : other = waking := funext fun alarm => propext (same alarm)
  exact books

omit [DecidableEq Listener] in
/-- An alarm in the set is taken out of it. -/
theorem Books.dequeue (books : Books manager waking)
    (mem : alarm ∈ manager.alarms) :
    Books (manager.dequeue alarm)
      (fun other => waking other ∨ other = alarm) := by
  obtain ⟨keyed, pending, woken, sorted, undisturbed⟩ := books
  refine ⟨keyed, fun other => ?_, ?_, sorted.remove, undisturbed⟩
  · refine (mem_remove (key_injective manager) sorted).trans ?_
    rw [pending other]
    tauto
  · rintro other (isWoken | rfl)
    · exact woken other isWoken
    · obtain ⟨⟨listener, registered⟩, _⟩ := (pending other).mp mem
      change manager.alarmsByListener (manager.alarm other).listener = _
      rw [(keyed listener other registered).1]
      exact registered

omit [DecidableEq Listener] in
/-- An alarm that has been taken out is put back with another due time. -/
theorem Books.requeue (books : Books manager waking)
    (isWoken : waking alarm) {changed : Alarm Listener Object}
    (same : changed.listener = (manager.alarm alarm).listener)
    (alarmIs : next.alarm = Function.update manager.alarm alarm changed)
    (alarmsIs : next.alarms = insert next.key alarm manager.alarms)
    (mapIs : next.alarmsByListener = manager.alarmsByListener)
    (seqIs : next.nextSeq = manager.nextSeq)
    (undisturbed : next.disturbed = false) :
    Books next (fun other => waking other ∧ other ≠ alarm) := by
  obtain ⟨keyed, pending, woken, sorted, _⟩ := books
  have absent : alarm ∉ manager.alarms :=
    fun mem => ((pending alarm).mp mem).2 isWoken
  have registered := woken alarm isWoken
  have listenerIs (other : Nat) : (next.alarm other).listener =
      (manager.alarm other).listener := by
    rw [alarmIs]
    by_cases is : other = alarm
    · subst is
      rw [Function.update_self, same]
    · rw [Function.update_of_ne is]
  refine ⟨fun listener other found => ?_, fun other => ?_,
    fun other isWoken => ?_, ?_, undisturbed⟩
  · rw [mapIs] at found
    rw [listenerIs, seqIs]
    exact keyed listener other found
  · rw [alarmsIs, mem_insert (key_injective next), mapIs, pending other]
    constructor
    · rintro (rfl | ⟨found, quiet⟩)
      · exact ⟨⟨_, registered⟩, fun both => both.2 rfl⟩
      · exact ⟨found, fun both => quiet both.1⟩
    · rintro ⟨found, quiet⟩
      by_cases is : other = alarm
      · exact Or.inl is
      · exact Or.inr ⟨found, fun isWoken => quiet ⟨isWoken, is⟩⟩
  · rw [mapIs, listenerIs]
    exact woken other isWoken.1
  · rw [alarmsIs]
    refine Sorted.insert (key_injective next)
      (sorted.congr fun other mem => ?_)
    have different : other ≠ alarm := by
      rintro rfl
      exact absent mem
    simp only [key, alarmIs, Function.update_of_ne different]

/-- An alarm that is taken out and put back was not being woken before. -/
theorem waking_iff (calm : ¬waking alarm) (other : Nat) :
    waking other ↔ (waking other ∨ other = alarm) ∧ other ≠ alarm := by
  constructor
  · intro isWoken
    refine ⟨Or.inl isWoken, ?_⟩
    rintro rfl
    exact calm isWoken
  · rintro ⟨isWoken | rfl, different⟩
    · exact isWoken
    · exact absurd rfl different

/-- An alarm that has been taken out is forgotten. -/
theorem Books.forget (books : Books manager waking)
    (isWoken : waking alarm) :
    Books (manager.removeAlarm (manager.alarm alarm).listener)
      (fun other => waking other ∧ other ≠ alarm) := by
  obtain ⟨keyed, pending, woken, sorted, undisturbed⟩ := books
  have registered := woken alarm isWoken
  have stays {listener : Listener} {other : Nat} :
      (manager.removeAlarm
        (manager.alarm alarm).listener).alarmsByListener listener =
          some other ↔
        manager.alarmsByListener listener = some other ∧
          other ≠ alarm := by
    by_cases is : listener = (manager.alarm alarm).listener
    · subst is
      refine iff_of_false (fun found => ?_) fun both => ?_
      · exact nomatch (Function.update_self ..).symm.trans found
      · exact both.2 (Option.some.inj (both.1.symm.trans registered))
    · dsimp only [removeAlarm]
      rw [Function.update_of_ne is]
      refine (and_iff_left_of_imp fun found => ?_).symm
      rintro rfl
      exact is (keyed listener other found).1.symm
  refine ⟨fun listener other found => ?_, fun other => ?_,
    fun other isWoken => ?_, sorted, undisturbed⟩
  · exact keyed listener other (stays.mp found).1
  · simp only [stays]
    refine (pending other).trans ?_
    constructor
    · rintro ⟨⟨listener, found⟩, quiet⟩
      refine ⟨⟨listener, found, ?_⟩, fun both => quiet both.1⟩
      rintro rfl
      exact quiet ‹_›
    · rintro ⟨⟨listener, found, different⟩, quiet⟩
      exact ⟨⟨listener, found⟩, fun isWoken => quiet ⟨isWoken, different⟩⟩
  · exact stays.mpr ⟨woken other isWoken.1, isWoken.2⟩

/-- A new alarm is registered for a listener that has none. -/
theorem Books.register (books : Books manager waking)
    (unknown : manager.alarmsByListener listener = none)
    (state : Object) (due : Int) :
    Books ((manager.newAlarm listener state due).2.addAlarm listener
        manager.nextSeq)
      (fun other => waking other ∨ other = manager.nextSeq) := by
  obtain ⟨keyed, pending, woken, sorted, undisturbed⟩ := books
  have old {other : Nat} (isOld : other < manager.nextSeq) :
      Function.update manager.alarm manager.nextSeq ⟨listener, state, due⟩
        other = manager.alarm other :=
    Function.update_of_ne (Nat.ne_of_lt isOld) ..
  have new : Function.update manager.alarm manager.nextSeq
      ⟨listener, state, due⟩ manager.nextSeq = ⟨listener, state, due⟩ :=
    Function.update_self ..
  have found_iff {asked : Listener} {other : Nat} :
      Function.update manager.alarmsByListener listener
          (some manager.nextSeq) asked = some other ↔
        (asked = listener ∧ other = manager.nextSeq) ∨
          manager.alarmsByListener asked = some other := by
    by_cases is : asked = listener
    · subst is
      rw [Function.update_self, unknown, Option.some.injEq, eq_comm]
      simp
    · rw [Function.update_of_ne is]
      simp [is]
  refine ⟨fun asked other found => ?_, fun other => ?_,
    fun other isWoken => ?_, ?_, undisturbed⟩
  · rcases found_iff.mp found with ⟨rfl, rfl⟩ | found
    · refine ⟨?_, Nat.lt_succ_self _⟩
      exact congrArg Alarm.listener new
    · obtain ⟨its, isOld⟩ := keyed asked other found
      refine ⟨?_, Nat.lt_succ_of_lt isOld⟩
      exact (congrArg Alarm.listener (old isOld)).trans its
  · refine (pending other).trans ?_
    constructor
    · rintro ⟨⟨asked, found⟩, quiet⟩
      refine ⟨⟨asked, found_iff.mpr (Or.inr found)⟩, ?_⟩
      rintro (isWoken | rfl)
      · exact quiet isWoken
      · exact Nat.lt_irrefl _ (keyed asked _ found).2
    · rintro ⟨⟨asked, found⟩, quiet⟩
      rcases found_iff.mp found with ⟨_, is⟩ | found
      · exact absurd (Or.inr is) quiet
      · exact ⟨⟨asked, found⟩, fun isWoken => quiet (Or.inl isWoken)⟩
  · rcases isWoken with isWoken | rfl
    · have registered := woken other isWoken
      have isOld := (keyed _ _ registered).2
      refine found_iff.mpr (Or.inr ?_)
      exact (congrArg (manager.alarmsByListener ·.listener)
        (old isOld)).trans registered
    · refine found_iff.mpr (Or.inl ⟨?_, rfl⟩)
      exact congrArg Alarm.listener new
  · refine sorted.congr fun other mem => ?_
    obtain ⟨⟨asked, found⟩, _⟩ := (pending other).mp mem
    have isOld := (keyed asked other found).2
    exact congrArg (fun alarm => toLex (alarm.due, other)) (old isOld)

/-- What `add` keeps for a listener that is not being woken. -/
theorem Books.add (books : Books manager waking) {state : Object}
    {delay : Int32} {now : Int}
    (quiet : ∀ alarm, waking alarm →
      (manager.alarm alarm).listener ≠ listener)
    (added : manager.add (some listener) state delay now = .ok next) :
    Books next waking := by
  unfold AlarmManager.add at added
  dsimp only at added
  split_ifs at added with negative
  cases known : manager.alarmsByListener listener with
  | some alarm =>
      rw [known] at added
      obtain rfl := Except.ok.inj added
      have its := (books.keyed listener alarm known).1
      have mem : alarm ∈ manager.alarms :=
        (books.pending alarm).mpr
          ⟨⟨listener, known⟩, fun isWoken => quiet alarm isWoken its⟩
      have calm : ¬waking alarm := ((books.pending alarm).mp mem).2
      have books' := books.dequeue mem
      have absent : alarm ∉ (manager.dequeue alarm).alarms :=
        fun still => ((books'.pending alarm).mp still).2 (Or.inr rfl)
      have changed : ((((manager.dequeue alarm).setDue alarm
          (long (now + long (delay.toInt * NANOS_PER_MILLI)))).setState alarm
            state).enqueue alarm).alarm =
          Function.update (manager.dequeue alarm).alarm alarm
            ⟨(manager.alarm alarm).listener, state,
              long (now + long (delay.toInt * NANOS_PER_MILLI))⟩ := by
        simp [enqueue, setState, setDue, AlarmManager.dequeue]
      refine Books.congr ?_ (waking_iff calm)
      refine books'.requeue (Or.inr rfl) ?_ changed rfl rfl rfl ?_
      · rfl
      · simp [enqueue, setState, setDue, books'.undisturbed, absent]
  | none =>
      rw [known] at added
      obtain rfl := Except.ok.inj added
      have fresh : ¬waking manager.nextSeq := by
        intro isWoken
        have registered := books.woken _ isWoken
        exact Nat.lt_irrefl _ (books.keyed _ _ registered).2
      have books' := books.register known state
        (long (now + long (delay.toInt * NANOS_PER_MILLI)))
      refine Books.congr ?_ (waking_iff fresh)
      exact books'.requeue (Or.inr rfl) rfl
        (Function.update_eq_self ..).symm rfl rfl rfl books'.undisturbed

/-- What `remove` keeps for a listener that is not being woken. -/
theorem Books.remove (books : Books manager waking)
    (quiet : ∀ alarm, waking alarm →
      (manager.alarm alarm).listener ≠ listener) :
    Books (manager.removeListener (some listener)) waking := by
  unfold removeListener
  dsimp only
  cases known : manager.alarmsByListener listener with
  | none => exact books
  | some alarm =>
      have its := (books.keyed listener alarm known).1
      have mem : alarm ∈ manager.alarms :=
        (books.pending alarm).mpr
          ⟨⟨listener, known⟩, fun isWoken => quiet alarm isWoken its⟩
      have calm : ¬waking alarm := ((books.pending alarm).mp mem).2
      have forgotten := (books.dequeue mem).forget (Or.inr rfl)
      change Books ((manager.dequeue alarm).removeAlarm
        (manager.alarm alarm).listener) _ at forgotten
      rw [its] at forgotten
      exact Books.congr forgotten (waking_iff calm)

omit [DecidableEq Listener] in
/-- What is taken is the first alarm in the set. -/
theorem getNextDueAlarm_eq {now : Int}
    (taken : manager.getNextDueAlarm now = some (alarm, next)) :
    alarm ∈ manager.alarms ∧ next = manager.dequeue alarm := by
  unfold getNextDueAlarm at taken
  cases first : manager.alarms with
  | nil =>
      rw [first] at taken
      exact nomatch taken
  | cons alarm' rest =>
      rw [first] at taken
      dsimp only at taken
      split_ifs at taken
      obtain ⟨rfl, rfl⟩ := Prod.mk.inj (Option.some.inj taken)
      exact ⟨List.mem_cons_self, rfl⟩

/-- The answer of a listener is entered. -/
theorem Books.answered (books : Books manager waking)
    (isWoken : waking alarm) (delay : Option Int32) (now : Int) :
    Books (manager.answered alarm delay now)
      (fun other => waking other ∧ other ≠ alarm) := by
  unfold AlarmManager.answered
  cases delay with
  | none => exact books.forget isWoken
  | some delay =>
      dsimp only
      split_ifs
      · have absent : alarm ∉ manager.alarms :=
          fun mem => ((books.pending alarm).mp mem).2 isWoken
        unfold update
        refine books.requeue isWoken ?_ rfl rfl rfl rfl ?_
        · rfl
        · simp [enqueue, setDue, books.undisturbed, absent]
      · exact books.forget isWoken

end Books

/-! ## Runs -/

structure Invariant (system : System Listener Object Worker) : Prop where
  books : Books system.manager system.Waking
  alone : ∀ first second alarm,
    (system.duty first).alarm = some alarm →
      (system.duty second).alarm = some alarm → first = second
  wanted : ∀ listener alarm,
    system.manager.alarmsByListener listener = some alarm →
      wanted listener system.events = true
  quiet : Quiet system.events

omit [DecidableEq Worker] in
theorem Invariant.intact {system : System Listener Object Worker}
    (invariant : Invariant system) : Integrity system where
  pending := invariant.books.pending
  single first memFirst second memSecond same := by
    obtain ⟨⟨listener, found⟩, _⟩ :=
      (invariant.books.pending first).mp memFirst
    obtain ⟨⟨other, foundOther⟩, _⟩ :=
      (invariant.books.pending second).mp memSecond
    have its := (invariant.books.keyed listener first found).1
    have itsOther := (invariant.books.keyed other second foundOther).1
    obtain rfl : listener = other := its.symm.trans (same.trans itsOther)
    exact Option.some.inj (found.symm.trans foundOther)
  sorted := invariant.books.sorted
  undisturbed := invariant.books.undisturbed
  quiet := invariant.quiet

omit [DecidableEq Worker] in
theorem invariant_start (alarm : Nat → Alarm Listener Object) :
    Invariant (.start alarm : System Listener Object Worker) where
  books :=
    ⟨nofun, fun _ => iff_of_false List.not_mem_nil
      (fun both => nomatch both.1.choose_spec),
      (fun _ isWoken => nomatch isWoken.choose_spec), .nil, rfl⟩
  alone := nofun
  wanted := nofun
  quiet := trivial


section Steps

variable {system next : System Listener Object Worker}

theorem positive_of_add {manager changed : AlarmManager Listener Object}
    {listener : Listener} {state : Object} {delay : Int32} {now : Int}
    (added : manager.add (some listener) state delay now = .ok changed) :
    0 < delay := by
  unfold add at added
  dsimp only at added
  split_ifs at added with negative
  exact Int32.not_le.mp negative

/-- What `add` leaves of the map. -/
theorem add_map {manager changed : AlarmManager Listener Object}
    {listener other : Listener} {state : Object} {delay : Int32}
    {now : Int}
    (added : manager.add (some listener) state delay now = .ok changed)
    (different : other ≠ listener) :
    changed.alarmsByListener other =
      manager.alarmsByListener other := by
  unfold add at added
  dsimp only at added
  split_ifs at added
  cases known : manager.alarmsByListener listener with
  | some alarm =>
      rw [known] at added
      obtain rfl := Except.ok.inj added
      rfl
  | none =>
      rw [known] at added
      obtain rfl := Except.ok.inj added
      exact Function.update_of_ne different ..

theorem removeListener_map (manager : AlarmManager Listener Object)
    (listener : Listener) :
    (manager.removeListener (some listener)).alarmsByListener =
      Function.update manager.alarmsByListener listener none := by
  unfold removeListener
  dsimp only
  cases known : manager.alarmsByListener listener with
  | none => exact (Function.update_eq_self_iff.mpr known.symm).symm
  | some alarm => rfl

/-- An answer adds nothing to the map. -/
theorem map_of_answered {manager : AlarmManager Listener Object}
    {alarm other : Nat} {delay : Option Int32} {now : Int}
    {listener : Listener}
    (found : (manager.answered alarm delay now).alarmsByListener listener =
      some other) :
    manager.alarmsByListener listener = some other := by
  have removed (found : (manager.removeAlarm
      (manager.alarm alarm).listener).alarmsByListener listener =
        some other) : manager.alarmsByListener listener = some other := by
    dsimp only [removeAlarm] at found
    by_cases same : listener = (manager.alarm alarm).listener
    · rw [same, Function.update_self] at found
      exact nomatch found
    · rwa [Function.update_of_ne same] at found
  unfold answered at found
  cases delay with
  | none => exact removed found
  | some delay =>
      dsimp only at found
      split_ifs at found
      · exact found
      · exact removed found

/-- The alarm of a worker once one of them does something else. -/
theorem alarm_update_iff {duty : Worker → Duty} {worker other : Worker}
    {changed : Duty} {alarm : Nat} :
    (Function.update duty worker changed other).alarm = some alarm ↔
      (other = worker ∧ changed.alarm = some alarm) ∨
        (other ≠ worker ∧ (duty other).alarm = some alarm) := by
  by_cases same : other = worker
  · subst same
    rw [Function.update_self]
    simp
  · rw [Function.update_of_ne same]
    simp [same]

omit [DecidableEq Worker] in
/-- A listener is added. -/
theorem Invariant.add (invariant : Invariant system) {listener : Listener}
    {state : Object} {delay : Int32} {now : Int}
    {manager : AlarmManager Listener Object}
    (added : system.manager.add (some listener) state delay now =
      .ok manager)
    (quiet : ¬system.Woken listener) :
    Invariant { system with
      manager := manager
      events := .added listener :: system.events } where
  books := invariant.books.add
    (fun alarm isWoken its => quiet ⟨alarm, isWoken, its⟩) added
  alone := invariant.alone
  wanted other alarm found := by
    unfold AlarmManager.wanted
    by_cases same : other = listener
    · subst same
      simp
    · rw [add_map added same] at found
      rw [invariant.wanted other alarm found, Bool.or_true]
  quiet := invariant.quiet

omit [DecidableEq Worker] in
/-- A listener is removed. -/
theorem Invariant.remove (invariant : Invariant system)
    {listener : Listener} (quiet : ¬system.Woken listener) :
    Invariant { system with
      manager := system.manager.removeListener (some listener)
      events := .removed listener :: system.events } where
  books := invariant.books.remove
    fun alarm isWoken its => quiet ⟨alarm, isWoken, its⟩
  alone := invariant.alone
  wanted other alarm found := by
    dsimp only at found
    rw [removeListener_map] at found
    by_cases same : other = listener
    · rw [same, Function.update_self] at found
      exact nomatch found
    · rw [Function.update_of_ne same] at found
      unfold AlarmManager.wanted
      rw [invariant.wanted other alarm found]
      simp [Ne.symm same]
  quiet := invariant.quiet

/-- A worker takes an alarm. -/
theorem Invariant.take (invariant : Invariant system) {worker : Worker}
    (waits : system.duty worker = .waiting) {alarm : Nat} {now : Int}
    {manager : AlarmManager Listener Object}
    (first : system.manager.getNextDueAlarm now = some (alarm, manager)) :
    Invariant { system with
      manager := manager
      duty := Function.update system.duty worker (.taken alarm) } := by
  obtain ⟨mem, rfl⟩ := getNextDueAlarm_eq first
  have calm := ((invariant.books.pending alarm).mp mem).2
  refine ⟨(invariant.books.dequeue mem).congr fun other => ?_, ?_,
    invariant.wanted, invariant.quiet⟩
  · constructor
    · rintro ⟨its, isWoken⟩
      rcases alarm_update_iff.mp isWoken with ⟨_, is⟩ | ⟨_, isWoken⟩
      · exact Or.inr (Option.some.inj is).symm
      · exact Or.inl ⟨its, isWoken⟩
    · rintro (⟨its, isWoken⟩ | rfl)
      · refine ⟨its, alarm_update_iff.mpr (Or.inr ⟨?_, isWoken⟩)⟩
        rintro rfl
        rw [waits] at isWoken
        exact nomatch isWoken
      · exact ⟨worker, alarm_update_iff.mpr (Or.inl ⟨rfl, rfl⟩)⟩
  · intro one two its oneHas twoHas
    rcases alarm_update_iff.mp oneHas with ⟨rfl, is⟩ | ⟨_, oneHas⟩
    · obtain rfl := Option.some.inj is
      rcases alarm_update_iff.mp twoHas with ⟨rfl, _⟩ | ⟨_, twoHas⟩
      · rfl
      · exact absurd ⟨two, twoHas⟩ calm
    · rcases alarm_update_iff.mp twoHas with ⟨_, is⟩ | ⟨_, twoHas⟩
      · obtain rfl := Option.some.inj is
        exact absurd ⟨one, oneHas⟩ calm
      · exact invariant.alone one two its oneHas twoHas

/-- A worker calls a listener. -/
theorem Invariant.wake (invariant : Invariant system) {worker : Worker}
    {alarm : Nat} (takes : system.duty worker = .taken alarm) :
    Invariant { system with
      duty := Function.update system.duty worker (.waking alarm)
      events :=
        .woken (system.manager.alarm alarm).listener ::
          system.events } := by
  have has : (system.duty worker).alarm = some alarm := by rw [takes]; rfl
  have same (other : Worker) (its : Nat) :
      (Function.update system.duty worker (.waking alarm) other).alarm =
          some its ↔
        (system.duty other).alarm = some its := by
    rw [alarm_update_iff]
    by_cases is : other = worker
    · subst is
      rw [has]
      simp [Duty.alarm]
    · simp [is]
  refine ⟨invariant.books.congr fun its => ?_, fun one two its has' hasToo =>
    ?_, invariant.wanted, ?_, invariant.quiet⟩
  · exact exists_congr fun other => same other its
  · exact invariant.alone one two its ((same one its).mp has')
      ((same two its).mp hasToo)
  · exact invariant.wanted _ alarm (invariant.books.woken alarm ⟨worker, has⟩)

/-- A listener has answered. -/
theorem Invariant.answer (invariant : Invariant system) {worker : Worker}
    {alarm : Nat} (wakes : system.duty worker = .waking alarm)
    (delay : Option Int32) (now : Int) :
    Invariant { system with
      manager := system.manager.answered alarm delay now
      duty := Function.update system.duty worker .waiting } := by
  have has : (system.duty worker).alarm = some alarm := by rw [wakes]; rfl
  have rest {other : Worker} {its : Nat}
      (still : (Function.update system.duty worker .waiting other).alarm =
        some its) :
      other ≠ worker ∧ (system.duty other).alarm = some its := by
    rcases alarm_update_iff.mp still with ⟨_, is⟩ | still
    · exact nomatch is
    · exact still
  refine ⟨(invariant.books.answered ⟨worker, has⟩ delay now).congr
    fun its => ?_, fun one two its has' hasToo => ?_,
    fun listener other found => ?_, invariant.quiet⟩
  · constructor
    · rintro ⟨other, still⟩
      obtain ⟨different, isWoken⟩ := rest still
      refine ⟨⟨other, isWoken⟩, ?_⟩
      rintro rfl
      exact different (invariant.alone other worker its isWoken has)
    · rintro ⟨⟨other, isWoken⟩, different⟩
      refine ⟨other, alarm_update_iff.mpr (Or.inr ⟨?_, isWoken⟩)⟩
      rintro rfl
      exact different (Option.some.inj (isWoken.symm.trans has))
  · exact invariant.alone one two its (rest has').2 (rest hasToo).2
  · exact invariant.wanted listener other (map_of_answered found)

/-- What any step keeps. -/
theorem Invariant.step (invariant : Invariant system)
    {action : Action Listener Object Worker} (sound : Sound system action)
    (does : step system action = some next) : Invariant next := by
  cases action with
  | add listener state delay now =>
      dsimp only [AlarmManager.step] at does
      cases added : system.manager.add listener state delay now with
      | error thrown =>
          rw [added] at does
          obtain rfl := Option.some.inj does
          exact invariant
      | ok manager =>
          rw [added] at does
          obtain rfl := Option.some.inj does
          cases listener with
          | none => exact nomatch added
          | some listener =>
              exact invariant.add added (sound (positive_of_add added))
  | remove listener =>
      obtain rfl := Option.some.inj does
      cases listener with
      | none => exact invariant
      | some listener => exact invariant.remove sound
  | take worker now =>
      dsimp only [AlarmManager.step] at does
      cases waits : system.duty worker with
      | waiting =>
          cases first : system.manager.getNextDueAlarm now with
          | none =>
              rw [waits, first] at does
              exact nomatch does
          | some pair =>
              obtain ⟨alarm, manager⟩ := pair
              rw [waits, first] at does
              obtain rfl := Option.some.inj does
              exact invariant.take waits first
      | _ =>
          rw [waits] at does
          exact nomatch does
  | wake worker =>
      dsimp only [AlarmManager.step] at does
      cases takes : system.duty worker with
      | taken alarm =>
          rw [takes] at does
          obtain rfl := Option.some.inj does
          exact invariant.wake takes
      | _ =>
          rw [takes] at does
          exact nomatch does
  | answer worker delay now =>
      dsimp only [AlarmManager.step] at does
      cases wakes : system.duty worker with
      | waking alarm =>
          rw [wakes] at does
          obtain rfl := Option.some.inj does
          exact invariant.answer wakes delay now
      | _ =>
          rw [wakes] at does
          exact nomatch does

/-- Any step, also one that is not sound. -/
def Step (system next : System Listener Object Worker) : Prop :=
  ∃ action, step system action = some next

def run (system : System Listener Object Worker) :
    List (Action Listener Object Worker) →
      Option (System Listener Object Worker)
  | [] => some system
  | action :: actions => do
      let next ← step system action
      run next actions

theorem reaches_of_run {actions : List (Action Listener Object Worker)}
    (runs : run system actions = some next) :
    Relation.ReflTransGen Step system next := by
  induction actions generalizing system with
  | nil =>
      obtain rfl := Option.some.inj runs
      exact .refl
  | cons action actions ih =>
      obtain ⟨middle, first, rest⟩ := Option.bind_eq_some_iff.mp runs
      exact .head ⟨action, first⟩ (ih rest)

end Steps

/-- A manager with one worker, no alarm of which has been created. -/
def lone : System Nat Unit Unit :=
  .start fun _ => ⟨0, (), 0⟩

/-- A listener is removed in its wakeup, and asks for another one. -/
def removedInWakeup : List (Action Nat Unit Unit) :=
  [.add (some 7) () 1 0, .take () 1000000, .wake (), .remove (some 7),
    .answer () (some 1) 1000000, .take () 2000000, .wake ()]

end AlarmManager

end Etch.Java
