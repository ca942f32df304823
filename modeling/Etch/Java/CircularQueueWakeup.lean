import Etch.Java.CircularQueueMonitor
import Etch.Library.Census

/-!
# Wakeups of the Java `CircularQueue`

Getters and putters wait in one wait set, and `notify` may pick a thread of the
wrong kind, which goes back to wait and wakes nobody.  With enough slots for
the number of threads this does no harm: the invariant below counts, for each
kind, how many notices are still to come before a wait of the other kind.
-/

namespace Etch.Java.CircularQueue

/-! ## Crowds -/

/-- How many elements there are, and threads of each kind. -/
structure Crowd where
  items : Nat
  getters : Nat
  waitingGetters : Nat
  putters : Nat
  waitingPutters : Nat

namespace Crowd

/-- The number of threads, waiting or not. -/
def threads (crowd : Crowd) : Nat :=
  crowd.getters + crowd.waitingGetters + crowd.putters + crowd.waitingPutters

/-- A `notify`, which picks any waiting thread. -/
inductive Notify : Crowd → Crowd → Prop where
  | nobody (items getters putters : Nat) :
      Notify ⟨items, getters, 0, putters, 0⟩ ⟨items, getters, 0, putters, 0⟩
  | getter (items getters waitingGetters putters waitingPutters : Nat) :
      Notify
        ⟨items, getters, waitingGetters + 1, putters, waitingPutters⟩
        ⟨items, getters + 1, waitingGetters, putters, waitingPutters⟩
  | putter (items getters waitingGetters putters waitingPutters : Nat) :
      Notify
        ⟨items, getters, waitingGetters, putters, waitingPutters + 1⟩
        ⟨items, getters, waitingGetters, putters + 1, waitingPutters⟩

/-- What one step of a thread does to a crowd around an open queue. -/
inductive Move (size : Nat) : Crowd → Crowd → Prop where
  | stay (crowd : Crowd) : Move size crowd crowd
  | wake {crowd next : Crowd} (notify : Notify crowd next) :
      Move size crowd next
  | getterWaits (getters waitingGetters putters waitingPutters : Nat) :
      Move size ⟨0, getters + 1, waitingGetters, putters, waitingPutters⟩
        ⟨0, getters, waitingGetters + 1, putters, waitingPutters⟩
  | putterWaits (getters waitingGetters putters waitingPutters : Nat) :
      Move size ⟨size, getters, waitingGetters, putters + 1, waitingPutters⟩
        ⟨size, getters, waitingGetters, putters, waitingPutters + 1⟩
  | get {items getters waitingGetters putters waitingPutters : Nat}
      {next : Crowd} (some : 0 < getters)
      (notify : if items + 1 = size ∨ 1 < items + 1 then
        Notify ⟨items, getters, waitingGetters, putters, waitingPutters⟩ next
        else next =
          ⟨items, getters, waitingGetters, putters, waitingPutters⟩) :
      Move size
        ⟨items + 1, getters, waitingGetters, putters, waitingPutters⟩ next
  | put {items getters waitingGetters putters waitingPutters : Nat}
      {next : Crowd} (room : items < size) (some : 0 < putters)
      (notify : if items = 0 ∨ items + 1 < size then
        Notify ⟨items + 1, getters, waitingGetters, putters, waitingPutters⟩
          next
        else next =
          ⟨items + 1, getters, waitingGetters, putters, waitingPutters⟩) :
      Move size
        ⟨items, getters, waitingGetters, putters, waitingPutters⟩ next

/-- Every thread waits although one of them could go on. -/
def Stuck (size : Nat) (crowd : Crowd) : Prop :=
  crowd.getters = 0 ∧ crowd.putters = 0 ∧
    ((0 < crowd.items ∧ 0 < crowd.waitingGetters) ∨
      (crowd.items < size ∧ 0 < crowd.waitingPutters))

/-- Threads of one kind only. -/
structure OneKind (size : Nat) (crowd : Crowd) : Prop where
  items_le : crowd.items ≤ size
  kind : (crowd.getters + crowd.waitingGetters = 0 ∧
      (crowd.waitingPutters = 0 ∨ crowd.items = size)) ∨
    (crowd.putters + crowd.waitingPutters = 0 ∧ crowd.items = 0)

/-- One getter and one putter around a single slot. -/
structure OnePair (size : Nat) (crowd : Crowd) : Prop where
  size_eq : size = 1
  items_le : crowd.items ≤ size
  getter : crowd.getters + crowd.waitingGetters = 1
  putter : crowd.putters + crowd.waitingPutters = 1
  getterBusy : crowd.items = 1 → crowd.getters = 1
  putterBusy : crowd.items = 0 → crowd.putters = 1

/--
Few threads around many slots.  The first two fields count the notices that
are still to come: with no getter about, the puts that are left before the
queue is full notify more often than there are putters to be notified.
-/
structure Roomy (size : Nat) (crowd : Crowd) : Prop where
  items_le : crowd.items ≤ size
  threads_le : crowd.threads ≤ 2 * (size - 1)
  someGetter : 0 < crowd.getters + crowd.waitingGetters
  somePutter : 0 < crowd.putters + crowd.waitingPutters
  noGetter : crowd.getters = 0 →
    crowd.waitingPutters + crowd.items + 2 ≤ size
  noPutter : crowd.putters = 0 → crowd.waitingGetters + 2 ≤ crowd.items
  putters : crowd.waitingPutters = 0 ∨
    (0 < crowd.items ∧
      size + 1 ≤ crowd.getters + crowd.putters + crowd.items) ∨
    crowd.waitingPutters + size ≤ crowd.threads
  getters : crowd.waitingGetters = 0 ∨
    (crowd.items < size ∧
      crowd.items + 1 ≤ crowd.getters + crowd.putters) ∨
    crowd.waitingGetters + size ≤ crowd.threads

variable {size : Nat} {crowd next : Crowd}

theorem OneKind.move (holds : OneKind size crowd)
    (move : Move size crowd next) : OneKind size next := by
  obtain ⟨items_le, kind⟩ := holds
  cases move with
  | stay => exact ⟨items_le, kind⟩
  | wake notify =>
      cases notify <;> constructor <;> dsimp only at * <;> omega
  | getterWaits => constructor <;> dsimp only at * <;> omega
  | putterWaits => constructor <;> dsimp only at * <;> omega
  | get some notify =>
      split_ifs at notify
      · cases notify <;> constructor <;> dsimp only at * <;> omega
      · subst notify
        constructor <;> dsimp only at * <;> omega
  | put room some notify =>
      split_ifs at notify
      · cases notify <;> constructor <;> dsimp only at * <;> omega
      · subst notify
        constructor <;> dsimp only at * <;> omega

theorem OnePair.move (holds : OnePair size crowd)
    (move : Move size crowd next) : OnePair size next := by
  obtain ⟨size_eq, items_le, getter, putter, getterBusy, putterBusy⟩ := holds
  cases move with
  | stay => exact ⟨size_eq, items_le, getter, putter, getterBusy, putterBusy⟩
  | wake notify =>
      cases notify <;> constructor <;> dsimp only at * <;> omega
  | getterWaits => constructor <;> dsimp only at * <;> omega
  | putterWaits => constructor <;> dsimp only at * <;> omega
  | get some notify =>
      rw [if_pos (by dsimp only at *; omega)] at notify
      cases notify <;> constructor <;> dsimp only at * <;> omega
  | put room some notify =>
      rw [if_pos (by dsimp only at *; omega)] at notify
      cases notify <;> constructor <;> dsimp only at * <;> omega

theorem Roomy.move (holds : Roomy size crowd)
    (move : Move size crowd next) : Roomy size next := by
  obtain ⟨items_le, threads_le, someGetter, somePutter, noGetter, noPutter,
    putters, getters⟩ := holds
  unfold threads at threads_le putters getters
  cases move with
  | stay =>
      exact ⟨items_le, threads_le, someGetter, somePutter, noGetter,
        noPutter, putters, getters⟩
  | wake notify =>
      cases notify <;> constructor <;> simp only [threads, true_or] at * <;> omega
  | getterWaits => constructor <;> simp only [threads] at * <;> omega
  | putterWaits => constructor <;> simp only [threads] at * <;> omega
  | get some notify =>
      split_ifs at notify
      · cases notify <;> constructor <;> simp only [threads, true_or] at * <;> omega
      · subst notify
        constructor <;> simp only [threads] at * <;> omega
  | put room some notify =>
      split_ifs at notify
      · cases notify <;> constructor <;> simp only [threads, true_or] at * <;> omega
      · subst notify
        constructor <;> simp only [threads] at * <;> omega

/-- What keeps a crowd from getting stuck. -/
def Safe (size : Nat) (crowd : Crowd) : Prop :=
  OneKind size crowd ∨ OnePair size crowd ∨ Roomy size crowd

theorem Safe.move (safe : Safe size crowd) (move : Move size crowd next) :
    Safe size next := by
  rcases safe with oneKind | onePair | roomy
  · exact Or.inl (oneKind.move move)
  · exact Or.inr (Or.inl (onePair.move move))
  · exact Or.inr (Or.inr (roomy.move move))

theorem Safe.not_stuck (safe : Safe size crowd) : ¬ Stuck size crowd := by
  rintro ⟨noGetters, noPutters, could⟩
  rcases safe with ⟨_, kind⟩ | ⟨_, _, _, _, getterBusy, putterBusy⟩ |
    ⟨_, _, _, _, noGetter, noPutter, putters, getters⟩
  · omega
  · omega
  · have getterRoom := noGetter noGetters
    have putterRoom := noPutter noPutters
    unfold threads at putters getters
    omega

/-- At first no thread waits and the queue is empty. -/
theorem safe_initial {getters putters : Nat} (positive : 1 ≤ size)
    (few : getters = 0 ∨ putters = 0 ∨
      getters + putters ≤ max 2 (2 * (size - 1))) :
    Safe size ⟨0, getters, 0, putters, 0⟩ := by
  by_cases oneKind : getters = 0 ∨ putters = 0
  · refine Or.inl ⟨Nat.zero_le size, ?_⟩
    rcases oneKind with none | none
    · exact Or.inl ⟨by omega, Or.inl rfl⟩
    · exact Or.inr ⟨by omega, rfl⟩
  · by_cases single : size = 1
    · refine Or.inr (Or.inl ⟨single, Nat.zero_le size, ?_, ?_, ?_, ?_⟩) <;>
        dsimp only <;> omega
    · refine Or.inr (Or.inr ?_)
      constructor <;> simp only [threads, true_or] <;> omega

end Crowd

/-! ## The crowd around a queue -/

open Etch.Library.Census

variable {Thread T : Type} [Fintype Thread] [DecidableEq Thread]

inductive Role where
  | getter
  | putter
deriving DecidableEq

/-- The threads of a role that wait, or do not. -/
def inRole (role : Thread → Role) (kind : Role) (waits : Bool)
    (thread : Thread) (mark : Bool) : Bool :=
  decide (role thread = kind) && (mark == waits)

/-- The crowd of threads, of which some wait. -/
def tally (role : Thread → Role) (items : Nat) (waits : Thread → Bool) :
    Crowd where
  items := items
  getters := census (inRole role .getter false) waits
  waitingGetters := census (inRole role .getter true) waits
  putters := census (inRole role .putter false) waits
  waitingPutters := census (inRole role .putter true) waits

/-- A thread counts for its own role only. -/
theorem census_other {role : Thread → Role} {thread : Thread} {kind : Role}
    (other : role thread ≠ kind) (marks : Thread → Bool) (waits mark : Bool) :
    census (inRole role kind waits) (Function.update marks thread mark) =
      census (inRole role kind waits) marks := by
  have changed := census_update (inRole role kind waits) marks thread mark
  simp only [inRole, decide_eq_false other, Bool.false_and,
    Bool.toNat_false, Nat.add_zero] at changed
  exact changed

/-- A thread that starts to wait. -/
theorem census_sleeps {role : Thread → Role} {thread : Thread} {kind : Role}
    (is : role thread = kind) {marks : Thread → Bool}
    (awake : marks thread = false) :
    census (inRole role kind false) marks =
        census (inRole role kind false)
          (Function.update marks thread true) + 1 ∧
      census (inRole role kind true) (Function.update marks thread true) =
        census (inRole role kind true) marks + 1 := by
  have left := census_update (inRole role kind false) marks thread true
  have entered := census_update (inRole role kind true) marks thread true
  simp only [inRole, is, awake, decide_true, Bool.true_and,
    beq_self_eq_true, Bool.toNat_true] at left entered
  exact ⟨left.symm, entered⟩

theorem tally_getter_sleeps {role : Thread → Role} {thread : Thread}
    (is : role thread = .getter) (waits : Thread → Bool)
    (awake : waits thread = false) (items : Nat) :
    ∃ getters waitingGetters putters waitingPutters,
      tally role items waits =
        ⟨items, getters + 1, waitingGetters, putters, waitingPutters⟩ ∧
      tally role items (Function.update waits thread true) =
        ⟨items, getters, waitingGetters + 1, putters, waitingPutters⟩ := by
  obtain ⟨left, entered⟩ := census_sleeps is awake
  have other : role thread ≠ .putter := fun same => nomatch is.symm.trans same
  rw [tally, tally, left, entered, census_other other, census_other other]
  exact ⟨_, _, _, _, rfl, rfl⟩

theorem tally_putter_sleeps {role : Thread → Role} {thread : Thread}
    (is : role thread = .putter) (waits : Thread → Bool)
    (awake : waits thread = false) (items : Nat) :
    ∃ getters waitingGetters putters waitingPutters,
      tally role items waits =
        ⟨items, getters, waitingGetters, putters + 1, waitingPutters⟩ ∧
      tally role items (Function.update waits thread true) =
        ⟨items, getters, waitingGetters, putters, waitingPutters + 1⟩ := by
  obtain ⟨left, entered⟩ := census_sleeps is awake
  have other : role thread ≠ .getter := fun same => nomatch is.symm.trans same
  rw [tally, tally, left, entered, census_other other, census_other other]
  exact ⟨_, _, _, _, rfl, rfl⟩

/-- A waiting thread that is woken. -/
theorem tally_wakes (role : Thread → Role) {thread : Thread}
    (waits : Thread → Bool) (asleep : waits thread = true) (items : Nat) :
    Crowd.Notify (tally role items waits)
      (tally role items (Function.update waits thread false)) := by
  have awake : Function.update waits thread false thread = false :=
    Function.update_self ..
  have back : Function.update (Function.update waits thread false) thread
      true = waits := by
    rw [Function.update_idem, ← asleep, Function.update_eq_self]
  cases is : role thread with
  | getter =>
      obtain ⟨getters, waitingGetters, putters, waitingPutters, woken,
        slept⟩ := tally_getter_sleeps is _ awake items
      rw [back] at slept
      rw [slept, woken]
      exact .getter ..
  | putter =>
      obtain ⟨getters, waitingGetters, putters, waitingPutters, woken,
        slept⟩ := tally_putter_sleeps is _ awake items
      rw [back] at slept
      rw [slept, woken]
      exact .putter ..

omit [DecidableEq Thread] in
/-- A `notify` that finds no waiting thread. -/
theorem tally_nobody (role : Thread → Role) {waits : Thread → Bool}
    (awake : ∀ thread, waits thread = false) (items : Nat) :
    Crowd.Notify (tally role items waits) (tally role items waits) := by
  have none (kind : Role) :
      census (inRole role kind true) waits = 0 := by
    rw [census_eq_zero_iff]
    intro thread
    rw [inRole, awake thread, Bool.false_beq, Bool.not_true, Bool.and_false]
  rw [tally, none, none]
  exact .nobody ..

omit [Fintype Thread] in
/-- A thread that stays out of the wait set changes nothing. -/
theorem update_awake {waits : Thread → Bool} {thread : Thread}
    (awake : waits thread = false) :
    Function.update waits thread false = waits := by
  rw [← awake, Function.update_eq_self]

/-- Which threads wait. -/
def waiting (places : Thread → Place T) : Thread → Bool :=
  Place.waits ∘ places

omit [Fintype Thread] in
theorem waiting_update (places : Thread → Place T) (thread : Thread)
    (place : Place T) :
    waiting (Function.update places thread place) =
      Function.update (waiting places) thread place.waits :=
  Function.comp_update ..

theorem waits_woken (place : Place T) : place.woken.waits = false := by
  cases place <;> rfl

/-- The crowd of a state. -/
def State.crowd (role : Thread → Role) (state : State Thread T) : Crowd :=
  tally role state.queue.count (waiting state.places)

/-- A `notify` that a method calls. -/
theorem notify_of_noticed {places next : Thread → Place T}
    {woken : Option Thread}
    (notified : noticed places .notify woken = some next)
    (role : Thread → Role) (items : Nat) :
    Crowd.Notify (tally role items (waiting places))
      (tally role items (waiting next)) := by
  cases woken with
  | none =>
      simp only [noticed] at notified
      split_ifs at notified with awake
      obtain rfl := Option.some.inj notified
      exact tally_nobody role awake items
  | some thread =>
      simp only [noticed] at notified
      split_ifs at notified with asleep
      obtain rfl := Option.some.inj notified
      rw [waiting_update, waits_woken]
      exact tally_wakes role _ asleep items

theorem eq_of_noticed_nobody {places next : Thread → Place T}
    {woken : Option Thread}
    (notified : noticed places .nobody woken = some next) :
    next = places := by
  cases woken with
  | none => exact (Option.some.inj notified).symm
  | some thread => exact nomatch notified

/-! ## What a getter and a putter do -/

/-- What `get` comes to once it has the monitor. -/
inductive GetDone (queue : CircularQueue T) : Effect T → Prop where
  | got (obj : T) {next : CircularQueue T}
      (count : queue.count = next.count + 1)
      (closed : next.closed = queue.closed) :
      GetDone queue ⟨.idle, next,
        if queue.count = queue.size ∨ 1 < queue.count then .notify
          else .nobody,
        some (.get (some obj))⟩
  | nothing : GetDone queue (returns queue (.get none))
  | waits (endTime : Int) (empty : queue.count = 0) :
      GetDone queue ⟨.getWait endTime, queue, .nobody, none⟩

/-- What `put` comes to once it has the monitor. -/
inductive PutDone (queue : CircularQueue T) : Effect T → Prop where
  | put (obj : T) {next : CircularQueue T}
      (room : queue.count < queue.size)
      (count : next.count = queue.count + 1)
      (closed : next.closed = queue.closed) :
      PutDone queue ⟨.idle, next,
        if queue.count = 0 ∨ queue.count + 1 < queue.size then .notify
          else .nobody,
        some (.put obj true)⟩
  | refused (obj : T) : PutDone queue (returns queue (.put obj false))
  | null : PutDone queue ⟨.idle, queue, .nobody, none⟩
  | waits (obj : T) (endTime : Int) (full : queue.count = queue.size) :
      PutDone queue ⟨.putWait obj endTime, queue, .nobody, none⟩

section Methods

variable {queue : CircularQueue T} {fifo : Fifo T}

theorem Represents.gets_done (represents : queue.Represents fifo)
    (some : queue.isEmpty = false) : GetDone queue (gets queue) := by
  obtain ⟨contents, closed⟩ := fifo
  cases contents with
  | nil =>
      rw [represents.isEmpty_iff.mpr rfl] at some
      exact absurd some Bool.true_eq_false.mp
  | cons first rest =>
      obtain ⟨next, taken, after, _, count⟩ := represents.getAndNotify_ok
      unfold gets
      rw [taken]
      simp only [decide_eq_true_eq]
      exact .got first count
        (after.closed_eq.trans represents.closed_eq.symm)

theorem Represents.puts_done (represents : queue.Represents fifo)
    (room : queue.isFull = false) (obj : T) :
    PutDone queue (puts queue obj) := by
  have short : fifo.contents.length < queue.size := by
    apply Nat.lt_of_le_of_ne represents.length_le
    intro full
    rw [represents.isFull_iff.mpr full] at room
    exact absurd room Bool.true_eq_false.mp
  obtain ⟨next, put, after, _, count⟩ := represents.putAndNotify_ok short obj
  unfold puts
  rw [put]
  simp only [decide_eq_true_eq]
  exact .put obj (represents.count_eq ▸ short) count
    (after.closed_eq.trans represents.closed_eq.symm)

theorem awaitGet_done (empty : queue.isEmpty = true)
    (opened : queue.isClosed = false) (now endTime : Int) :
    GetDone queue (awaitGet queue now endTime) := by
  simp only [awaitGet, empty, opened, Bool.not_true, Bool.false_eq_true,
    if_false]
  split_ifs with delay
  · exact .waits endTime (beq_iff_eq.mp empty)
  · exact .nothing

theorem awaitPut_done (full : queue.isFull = true)
    (opened : queue.isClosed = false) (obj : T) (now endTime : Int) :
    PutDone queue (awaitPut queue obj now endTime) := by
  simp only [awaitPut, full, opened, Bool.not_true, Bool.false_eq_true,
    if_false]
  split_ifs with delay
  · exact .waits obj endTime (beq_iff_eq.mp full)
  · exact .refused obj

theorem Represents.enterGet_done (represents : queue.Represents fifo)
    {now : Int} (reading : Reading now) (maxDelay : Int32) :
    GetDone queue (enterGet queue now maxDelay) := by
  simp only [enterGet]
  split_ifs with some closed late
  · exact represents.gets_done (by simpa using some)
  · exact .nothing
  · rw [not_or] at closed
    exact awaitGet_done (by simpa using some) (by simpa using closed.1) now _
  · exact absurd (now_lt_getEndTime reading maxDelay) late

theorem Represents.resumeGet_done (represents : queue.Represents fifo)
    (now endTime : Int) : GetDone queue (resumeGet queue now endTime) := by
  unfold resumeGet
  split_ifs with some closed
  · exact represents.gets_done (by simpa using some)
  · exact .nothing
  · exact awaitGet_done (by simpa using some) (by simpa using closed) now
      endTime

theorem Represents.enterPut_done (represents : queue.Represents fifo)
    {now : Int} (reading : Reading now) (maxDelay : Int32)
    (given : Option T) :
    PutDone queue (enterPut queue now maxDelay given) := by
  cases given with
  | none => exact .null
  | some obj =>
      simp only [enterPut]
      split_ifs with closed room short late
      · exact .refused obj
      · exact represents.puts_done (by simpa using room) obj
      · exact .refused obj
      · exact awaitPut_done (by simpa using room) (by simpa using closed)
          obj now _
      · exact absurd (now_lt_getEndTime reading maxDelay) late

theorem Represents.resumePut_done (represents : queue.Represents fifo)
    (obj : T) (now endTime : Int) :
    PutDone queue (resumePut queue obj now endTime) := by
  unfold resumePut
  split_ifs with closed room
  · exact .refused obj
  · exact represents.puts_done (by simpa using room) obj
  · exact awaitPut_done (by simpa using room) (by simpa using closed) obj now
      endTime

end Methods

/-! ## A step of a thread is a move of the crowd -/

/-- The places of a getter, and of a putter. -/
def Role.suits : Role → Place T → Bool
  | _, .idle => true
  | _, .close => true
  | .getter, .get _ => true
  | .getter, .getWait _ => true
  | .getter, .getWoken _ => true
  | .putter, .put _ _ => true
  | .putter, .putWait _ _ => true
  | .putter, .putWoken _ _ => true
  | _, _ => false

section Moves

variable {role : Thread → Role} {queue : CircularQueue T}
  {places next : Thread → Place T} {thread : Thread} {done : Effect T}
  {woken : Option Thread}

omit [Fintype Thread] in
theorem waiting_idle (awake : (places thread).waits = false) :
    waiting (Function.update places thread Place.idle) = waiting places := by
  rw [waiting_update]
  exact update_awake awake

/-- A step of a getter that is not waiting. -/
theorem GetDone.move (gets : GetDone queue done)
    (is : role thread = .getter) (awake : (places thread).waits = false)
    (notified : noticed (Function.update places thread done.place)
      done.notice woken = some next) :
    Crowd.Move queue.size (tally role queue.count (waiting places))
      (tally role done.queue.count (waiting next)) := by
  cases gets with
  | @got obj after count closed =>
      have some : 0 < census (inRole role .getter false) (waiting places) := by
        apply census_pos thread
        simp [inRole, is, waiting, awake]
      rw [count] at notified ⊢
      refine Crowd.Move.get some ?_
      dsimp only at notified ⊢
      by_cases notify : after.count + 1 = queue.size ∨ 1 < after.count + 1
      · rw [if_pos notify] at notified ⊢
        have woke := notify_of_noticed notified role after.count
        rwa [waiting_idle awake] at woke
      · rw [if_neg notify] at notified ⊢
        rw [eq_of_noticed_nobody notified, waiting_idle awake]
        rfl
  | nothing =>
      rw [eq_of_noticed_nobody notified]
      dsimp only [returns]
      rw [waiting_idle awake]
      exact .stay _
  | waits endTime empty =>
      rw [eq_of_noticed_nobody notified, waiting_update]
      obtain ⟨getters, waitingGetters, putters, waitingPutters, before,
        after⟩ := tally_getter_sleeps is (waiting places) awake
          queue.count
      dsimp only [Place.waits]
      rw [before, after, empty]
      exact .getterWaits ..

/-- A step of a putter that is not waiting. -/
theorem PutDone.move (puts : PutDone queue done)
    (is : role thread = .putter) (awake : (places thread).waits = false)
    (notified : noticed (Function.update places thread done.place)
      done.notice woken = some next) :
    Crowd.Move queue.size (tally role queue.count (waiting places))
      (tally role done.queue.count (waiting next)) := by
  cases puts with
  | @put obj after room count closed =>
      have some : 0 < census (inRole role .putter false) (waiting places) := by
        apply census_pos thread
        simp [inRole, is, waiting, awake]
      refine Crowd.Move.put room some ?_
      dsimp only at notified ⊢
      by_cases notify : queue.count = 0 ∨ queue.count + 1 < queue.size
      · rw [if_pos notify] at notified ⊢
        have woke := notify_of_noticed notified role after.count
        rw [waiting_idle awake, count] at woke
        rw [count]
        exact woke
      · rw [if_neg notify] at notified ⊢
        rw [eq_of_noticed_nobody notified, waiting_idle awake, count]
        rfl
  | refused obj =>
      rw [eq_of_noticed_nobody notified]
      dsimp only [returns]
      rw [waiting_idle awake]
      exact .stay _
  | null =>
      rw [eq_of_noticed_nobody notified, waiting_idle awake]
      exact .stay _
  | waits obj endTime full =>
      rw [eq_of_noticed_nobody notified, waiting_update]
      obtain ⟨getters, waitingGetters, putters, waitingPutters, before,
        after⟩ := tally_putter_sleeps is (waiting places) awake
          queue.count
      dsimp only [Place.waits]
      rw [before, after, full]
      exact .putterWaits ..

end Moves

theorem Role.suits_unique {first second : Role} {place : Place T}
    (suits : first.suits place = true) (not : second.suits place = false) :
    first ≠ second := by
  rintro rfl
  exact nomatch suits.symm.trans not

theorem Role.ne_putter {role : Role} : role ≠ .putter ↔ role = .getter := by
  cases role <;> simp

theorem Role.ne_getter {role : Role} : role ≠ .getter ↔ role = .putter := by
  cases role <;> simp

theorem isClosed_enterClose (queue : CircularQueue T) :
    (enterClose queue).queue.closed = true := by
  unfold enterClose
  split_ifs with opened
  · rfl
  · change queue.closed = true
    simpa [isClosed] using opened

/-- A thread that has the monitor at a place that fits its role. -/
theorem effect_move {role : Thread → Role} {state : State Thread T}
    {fifo : Fifo T} {thread : Thread} {now : Int} {woken : Option Thread}
    {done : Effect T} {places : Thread → Place T}
    (suits : (role thread).suits (state.places thread) = true)
    (represents : state.queue.Represents fifo) (reading : Reading now)
    (does : effect state.queue now (state.places thread) = some done)
    (opened : done.queue.closed = false)
    (notified : noticed (Function.update state.places thread done.place)
      done.notice woken = some places) :
    Crowd.Move state.queue.size (state.crowd role)
      (tally role done.queue.count (waiting places)) := by
  cases place : state.places thread with
  | get maxDelay =>
      rw [place] at does suits
      obtain rfl := Option.some.inj does
      have is := Role.ne_putter.mp (Role.suits_unique suits rfl)
      have awake : (state.places thread).waits = false := place ▸ rfl
      exact (represents.enterGet_done reading maxDelay).move is awake notified
  | getWoken endTime =>
      rw [place] at does suits
      obtain rfl := Option.some.inj does
      have is := Role.ne_putter.mp (Role.suits_unique suits rfl)
      have awake : (state.places thread).waits = false := place ▸ rfl
      exact (represents.resumeGet_done now endTime).move is awake notified
  | put given maxDelay =>
      rw [place] at does suits
      obtain rfl := Option.some.inj does
      have is := Role.ne_getter.mp (Role.suits_unique suits rfl)
      have awake : (state.places thread).waits = false := place ▸ rfl
      exact (represents.enterPut_done reading maxDelay given).move is awake
        notified
  | putWoken obj endTime =>
      rw [place] at does suits
      obtain rfl := Option.some.inj does
      have is := Role.ne_getter.mp (Role.suits_unique suits rfl)
      have awake : (state.places thread).waits = false := place ▸ rfl
      exact (represents.resumePut_done obj now endTime).move is awake notified
  | close =>
      rw [place] at does
      obtain rfl := Option.some.inj does
      rw [isClosed_enterClose] at opened
      exact nomatch opened
  | idle => rw [place] at does; exact nomatch does
  | getWait endTime => rw [place] at does; exact nomatch does
  | putWait obj endTime => rw [place] at does; exact nomatch does
  | failed exception => rw [place] at does; exact nomatch does

/-! ## Runs of getters and putters -/

/-- Getters and putters, with a delay of 0.  Either may close the queue. -/
inductive Plays (role : Thread → Role) : Action Thread T → Prop where
  | get (thread : Thread) (is : role thread = .getter) :
      Plays role (.call thread (.get 0))
  | put (thread : Thread) (is : role thread = .putter) (obj : Option T) :
      Plays role (.call thread (.put obj 0))
  | close (thread : Thread) : Plays role (.call thread .close)
  | enter (thread : Thread) (now : Int) (woken : Option Thread) :
      Plays role (.enter thread now woken)
  | wake (thread : Thread) : Plays role (.wake thread)

theorem GetDone.suits {queue : CircularQueue T} {done : Effect T}
    (gets : GetDone queue done) : Role.getter.suits done.place = true := by
  cases gets <;> rfl

theorem PutDone.suits {queue : CircularQueue T} {done : Effect T}
    (puts : PutDone queue done) : Role.putter.suits done.place = true := by
  cases puts <;> rfl

/-- A thread keeps to the places of its role. -/
theorem suits_effect {role : Role} {queue : CircularQueue T} {now : Int}
    {place : Place T} {done : Effect T} {fifo : Fifo T}
    (represents : queue.Represents fifo) (reading : Reading now)
    (suits : role.suits place = true)
    (does : effect queue now place = some done) :
    role.suits done.place = true := by
  cases place with
  | get maxDelay =>
      obtain rfl := Option.some.inj does
      obtain rfl := Role.ne_putter.mp (Role.suits_unique suits rfl)
      exact (represents.enterGet_done reading maxDelay).suits
  | getWoken endTime =>
      obtain rfl := Option.some.inj does
      obtain rfl := Role.ne_putter.mp (Role.suits_unique suits rfl)
      exact (represents.resumeGet_done now endTime).suits
  | put given maxDelay =>
      obtain rfl := Option.some.inj does
      obtain rfl := Role.ne_getter.mp (Role.suits_unique suits rfl)
      exact (represents.enterPut_done reading maxDelay given).suits
  | putWoken obj endTime =>
      obtain rfl := Option.some.inj does
      obtain rfl := Role.ne_getter.mp (Role.suits_unique suits rfl)
      exact (represents.resumePut_done obj now endTime).suits
  | close =>
      obtain rfl := Option.some.inj does
      unfold enterClose
      split_ifs <;> cases role <;> rfl
  | idle => exact nomatch does
  | getWait endTime => exact nomatch does
  | putWait obj endTime => exact nomatch does
  | failed exception => exact nomatch does

theorem Fifo.Takes.closed {size : Nat} {fifo next : Fifo T}
    {event : Event T} (takes : Fifo.Takes size fifo event next)
    (closed : fifo.closed = true) : next.closed = true := by
  cases takes with
  | put contents obj room => exact nomatch closed
  | refused obj why => exact closed
  | get obj rest => exact closed
  | nothing => exact closed
  | close => rfl

/-- A closed queue stays closed. -/
theorem opened_effect {queue : CircularQueue T} {now : Int}
    {place : Place T} {done : Effect T} {fifo : Fifo T} {size : Nat}
    (represents : queue.Represents fifo) (same : queue.size = size)
    (reading : Reading now) (does : effect queue now place = some done)
    (opened : done.queue.closed = false) : queue.closed = false := by
  by_contra not
  have closed : fifo.closed = true := by
    rw [← represents.closed_eq]
    simpa using not
  obtain ⟨next, represents', _, takes, _⟩ :=
    effect_refines represents same reading does
  rw [represents'.closed_eq] at opened
  cases event : done.event with
  | none =>
      rw [event] at takes
      rw [takes, closed] at opened
      exact nomatch opened
  | some returned =>
      rw [event] at takes
      rw [takes.closed closed] at opened
      exact nomatch opened

theorem suits_woken {role : Role} {place : Place T}
    (suits : role.suits place = true) : role.suits place.woken = true := by
  cases place <;> cases role <;> first | rfl | exact suits

omit [Fintype Thread] in
theorem suits_update {role : Thread → Role} {places : Thread → Place T}
    {thread : Thread} {place : Place T}
    (suits : ∀ other, (role other).suits (places other) = true)
    (suits' : (role thread).suits place = true) (other : Thread) :
    (role other).suits (Function.update places thread place other) = true := by
  by_cases same : other = thread
  · subst same
    rw [Function.update_self]
    exact suits'
  · rw [Function.update_of_ne same]
    exact suits other

theorem suits_noticed {role : Thread → Role} {places next : Thread → Place T}
    {notice : Notice} {woken : Option Thread}
    (notified : noticed places notice woken = some next)
    (suits : ∀ thread, (role thread).suits (places thread) = true)
    (thread : Thread) : (role thread).suits (next thread) = true := by
  unfold noticed at notified
  split at notified
  · obtain rfl := Option.some.inj notified
    exact suits thread
  · split_ifs at notified
    obtain rfl := Option.some.inj notified
    exact suits thread
  · split_ifs at notified
    obtain rfl := Option.some.inj notified
    exact suits_update suits (suits_woken (suits _)) thread
  · obtain rfl := Option.some.inj notified
    exact suits_woken (suits thread)
  · exact nomatch notified

/-- What holds between the steps of getters and putters. -/
structure Attended (role : Thread → Role) (size : Nat)
    (state : State Thread T) : Prop where
  invariant : Invariant size state
  suits : ∀ thread, (role thread).suits (state.places thread) = true
  safe : state.queue.closed = false → Crowd.Safe size (state.crowd role)

theorem Attended.step {role : Thread → Role} {size : Nat}
    {state next : State Thread T} {action : Action Thread T}
    (attended : Attended role size state) (plays : Plays role action)
    (performed : perform state action = some next) :
    Attended role size next := by
  have invariant := attended.invariant.step performed
  rcases perform_cases performed with
    ⟨thread, place, rfl, idle, call, rfl⟩ |
    ⟨thread, now, woken, done, places, rfl, reading, does, notified, rfl⟩ |
    ⟨thread, rfl, asleep, rfl⟩
  · have suits : (role thread).suits place = true := by
      cases plays with
      | get _ is => rw [is]; rfl
      | put _ is => rw [is]; rfl
      | close => cases role thread <;> rfl
    refine ⟨invariant, suits_update attended.suits suits, ?_⟩
    intro opened
    have awake : (state.places thread).waits = false := idle ▸ rfl
    have awake' : place.waits = false := by
      cases call <;> rfl
    have same : waiting (Function.update state.places thread place) =
        waiting state.places := by
      rw [waiting_update, awake']
      exact update_awake awake
    unfold State.crowd
    dsimp only
    rw [same]
    exact attended.safe opened
  · obtain ⟨fifo, _, represents, same⟩ := attended.invariant.refines
    have suits := attended.suits thread
    refine ⟨invariant, suits_noticed notified (suits_update attended.suits
      (suits_effect represents reading suits does)), ?_⟩
    intro opened
    have move := effect_move suits represents reading does opened notified
    rw [same] at move
    refine (attended.safe ?_).move move
    exact opened_effect represents same reading does opened
  · refine ⟨invariant,
      suits_update attended.suits (suits_woken (attended.suits thread)), ?_⟩
    intro opened
    refine (attended.safe opened).move (.wake ?_)
    have woken := tally_wakes role (waiting state.places) asleep
      state.queue.count
    unfold State.crowd
    dsimp only
    rw [waiting_update, waits_woken]
    exact woken

/-- How many threads have a role. -/
def actors (role : Thread → Role) (kind : Role) : Nat :=
  census (fun thread (_ : Unit) => decide (role thread = kind)) fun _ => ()

/--
The crowd is small enough for the queue: it has threads of one role only, or
no more than a pair of them, or than the slots but one allow for.
-/
def Spacious (role : Thread → Role) (size : Nat) : Prop :=
  actors role .getter = 0 ∨ actors role .putter = 0 ∨
    actors role .getter + actors role .putter ≤ max 2 (2 * (size - 1))

instance (role : Thread → Role) (size : Nat) :
    Decidable (Spacious role size) :=
  inferInstanceAs (Decidable (_ ∨ _ ∨ _))

/-- Every thread waits, the queue is open, and one of them could go on. -/
def Lost (role : Thread → Role) (state : State Thread T) : Prop :=
  (∀ thread, (state.places thread).waits = true) ∧
    state.queue.isClosed = false ∧
    ((state.queue.isEmpty = false ∧ ∃ thread, role thread = .getter) ∨
      (state.queue.isFull = false ∧ ∃ thread, role thread = .putter))

instance (role : Thread → Role) (state : State Thread T) :
    Decidable (Lost role state) :=
  inferInstanceAs (Decidable (_ ∧ _ ∧ (_ ∨ _)))

omit [DecidableEq Thread] in
theorem attended_initial {role : Thread → Role} {size : Nat}
    {queue : CircularQueue T} (built : new size = .ok queue)
    (spacious : Spacious role size) :
    Attended role size (State.initial queue : State Thread T) where
  invariant := invariant_initial built
  suits := by
    intro thread
    cases role thread <;> rfl
  safe := by
    intro _
    obtain ⟨positive, rfl⟩ := new_ok built
    have awake (kind : Role) :
        census (inRole role kind false)
          (waiting fun _ : Thread => (Place.idle : Place T)) =
            actors role kind := by
      simp [actors, census, inRole, waiting, Place.waits]
    have asleep (kind : Role) :
        census (inRole role kind true)
          (waiting fun _ : Thread => (Place.idle : Place T)) = 0 := by
      rw [census_eq_zero_iff]
      intro thread
      simp [inRole, waiting, Place.waits]
    have start : (State.initial ⟨List.replicate size none, false, 0, 0, 0⟩ :
        State Thread T).crowd role =
          ⟨0, actors role .getter, 0, actors role .putter, 0⟩ := by
      unfold State.crowd State.initial tally
      rw [awake, awake, asleep, asleep]
    rw [start]
    exact Crowd.safe_initial positive spacious

omit [DecidableEq Thread] in
/-- A lost wakeup leaves the crowd stuck. -/
theorem Lost.stuck {role : Thread → Role} {size : Nat}
    {state : State Thread T} (lost : Lost role state)
    (same : state.queue.size = size)
    (fits : state.queue.count ≤ size) :
    Crowd.Stuck size (state.crowd role) := by
  obtain ⟨all, _, could⟩ := lost
  have none (kind : Role) :
      census (inRole role kind false) (waiting state.places) = 0 := by
    rw [census_eq_zero_iff]
    intro thread
    simp [inRole, waiting, all thread]
  have some {kind : Role} (one : ∃ thread, role thread = kind) :
      0 < census (inRole role kind true) (waiting state.places) := by
    obtain ⟨thread, is⟩ := one
    apply census_pos thread
    simp [inRole, waiting, all thread, is]
  refine ⟨none .getter, none .putter, ?_⟩
  rcases could with ⟨filled, getter⟩ | ⟨room, putter⟩
  · refine Or.inl ⟨?_, some getter⟩
    exact Nat.pos_of_ne_zero (beq_eq_false_iff_ne.mp filled)
  · refine Or.inr ⟨?_, some putter⟩
    exact Nat.lt_of_le_of_ne fits
      (same ▸ beq_eq_false_iff_ne.mp room)

/--
No wakeup is lost by a crowd that is small enough for the queue.
-/
theorem no_lost_wakeup {role : Thread → Role} {size : Nat}
    {queue : CircularQueue T} (built : new size = .ok queue)
    (spacious : Spacious role size) {state : State Thread T}
    (reaches : Reaches (Plays role) (State.initial queue) state) :
    ¬ Lost role state := by
  have attended : Attended role size state :=
    Etch.Library.Monitor.invariant_of_reaches (Attended role size)
      (fun _ _ holds ⟨_, plays, performed⟩ => holds.step plays performed)
      reaches (attended_initial built spacious)
  intro lost
  obtain ⟨fifo, _, represents, same⟩ := attended.invariant.refines
  have fits : state.queue.count ≤ size := by
    rw [represents.count_eq, ← same]
    exact represents.length_le
  exact (attended.safe lost.2.1).not_stuck (lost.stuck same fits)

theorem neZero_pair : NeZero 2 :=
  ⟨by decide⟩

theorem neZero_trio : NeZero 3 :=
  ⟨by decide⟩

attribute [local instance] neZero_pair neZero_trio

/-- One getter and one putter. -/
def pair : Fin 2 → Role
  | 0 => .getter
  | 1 => .putter

/-- The getter waits for the element and is woken by the putter. -/
def handover : List (Action (Fin 2) Nat) :=
  [.call 0 (.get 0), .enter 0 0 none,
    .call 1 (.put (some 7) 0), .enter 1 0 (some 0),
    .call 1 (.put (some 8) 0), .enter 1 0 none]

theorem no_lost_wakeup_handover :
    ∃ (queue : CircularQueue Nat) (state : State (Fin 2) Nat),
      new 1 = .ok queue ∧
      execute (State.initial queue) handover = some state ∧
      ¬ Lost pair state := by
  have ran : (execute (State.initial ⟨[none], false, 0, 0, 0⟩)
    handover).isSome = true := by decide
  refine ⟨_, _, rfl, (Option.some_get ran).symm, ?_⟩
  refine @no_lost_wakeup _ _ _ _ pair 1 _ rfl (by decide) _ (reaches_of_execute ?_
    (Option.some_get ran).symm)
  simp only [handover, List.forall_mem_cons]
  exact ⟨.get 0 rfl, .enter .., .put 1 rfl _, .enter .., .put 1 rfl _,
    .enter .., nofun⟩

/-- A getter and two putters. -/
def trio : Fin 3 → Role
  | 0 => .getter
  | _ => .putter

/--
Both putters wait when the getter takes the one element.  It wakes the first of
them and waits itself; the putter fills the slot and wakes the second one.
-/
def lostWakeup : List (Action (Fin 3) Nat) :=
  [.call 1 (.put (some 7) 0), .enter 1 0 none,
    .call 2 (.put (some 8) 0), .enter 2 0 none,
    .call 1 (.put (some 9) 0), .enter 1 0 none,
    .call 0 (.get 0), .enter 0 0 (some 1),
    .call 0 (.get 0), .enter 0 0 none,
    .enter 1 0 (some 2),
    .call 1 (.put (some 5) 0), .enter 1 0 none,
    .enter 2 0 none]

theorem lost_wakeup_trio :
    ∃ (queue : CircularQueue Nat) (state : State (Fin 3) Nat),
      new 1 = .ok queue ∧
      Reaches (Plays trio) (State.initial queue) state ∧
      Lost trio state := by
  have ran : (execute (State.initial ⟨[none], false, 0, 0, 0⟩)
      lostWakeup).any (fun state => decide (Lost trio state)) = true := by
    decide
  obtain ⟨state, executed, lost⟩ := (Option.any_eq_true _ _).mp ran
  refine ⟨_, state, rfl, reaches_of_execute ?_ executed,
    of_decide_eq_true lost⟩
  simp only [lostWakeup, List.forall_mem_cons]
  exact ⟨.put 1 rfl _, .enter .., .put 2 rfl _, .enter .., .put 1 rfl _,
    .enter .., .get 0 rfl, .enter .., .get 0 rfl, .enter .., .enter ..,
    .put 1 rfl _, .enter .., .enter .., nofun⟩

end Etch.Java.CircularQueue
