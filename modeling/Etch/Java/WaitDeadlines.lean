import Etch.Java.Monitor
import Etch.Library.Deadline

/-!
# Deadlines of the waits in the Java `Monitor` and `CircularQueue`

A delay of so many milliseconds is turned into a reading of the clock, and
what is left of it is told from that reading.  This is right wherever the
readings start; but for 0 the reading is the greatest one, and the method gives
up when a reading is negative or within a millisecond of that.
-/

namespace Etch.Java.WaitDeadlines

open Etch.Library
open CircularQueue (NANOS_PER_MILLI MAX_VALUE getEndTime remaining long
  enterGet resumeGet enterPut resumePut)

variable {T : Type}

/-! ## Methods that wait -/

/-- The value of a `Monitor`, and a queue of elements. -/
structure Shared (T : Type) where
  value : Option T
  queue : CircularQueue T
  represents : ∃ fifo, queue.Represents fifo

/-- The methods that wait, with what they are given but the delay. -/
inductive Method (T : Type) where
  | monitor (method : Monitor.Method T)
  | get
  | put (obj : T)

/-- How a method comes to the end of its turn. -/
inductive Turn where
  | returns
  /-- `wait( d )` -/
  | waits (endTime d : Int)
  | timesOut
  | throws
deriving DecidableEq

def Turn.ofMonitor : Monitor.Effect T → Turn
  | .returns _ _ => .returns
  | .waits endTime d => .waits endTime d
  | .timeoutException => .timesOut
  | .illegalArgumentException => .throws

/-- A `null` or `false` while the queue is open. -/
def Turn.ofQueue (now : Int) (done : CircularQueue.Effect T) : Turn :=
  match done.place with
  | .failed _ => .throws
  | .getWait endTime => .waits endTime (remaining endTime now)
  | .putWait _ endTime => .waits endTime (remaining endTime now)
  | _ =>
      match done.event with
      | some (.get none) | some (.put _ false) =>
          if done.queue.isClosed then .returns else .timesOut
      | _ => .returns

namespace Method

variable [BEq T] (method : Method T) (shared : Shared T)

/-- The turn from the entry of the monitor on. -/
def enter (maxDelay : Int32) (now : Int64) : Turn :=
  match method with
  | .monitor method => .ofMonitor (method.enter shared.value maxDelay now.toInt)
  | .get => .ofQueue now.toInt (enterGet shared.queue now.toInt maxDelay)
  | .put obj =>
      .ofQueue now.toInt (enterPut shared.queue now.toInt maxDelay (some obj))

/-- The turn after a wait. -/
def resume (endTime : Int) (now : Int64) : Turn :=
  match method with
  | .monitor method => .ofMonitor (method.loop shared.value endTime now.toInt)
  | .get => .ofQueue now.toInt (resumeGet shared.queue now.toInt endTime)
  | .put obj => .ofQueue now.toInt (resumePut shared.queue obj now.toInt endTime)

/-- Whether there is something to wait for. -/
def pending : Bool :=
  match method with
  | .monitor method => !method.reached shared.value
  | .get => shared.queue.isEmpty && !shared.queue.isClosed
  | .put _ => shared.queue.isFull && !shared.queue.isClosed

/-- Whether `end > now` is checked. -/
def checks (method : Method T) : Bool :=
  match method with
  | .monitor _ => false
  | _ => true

end Method

/-! ## What is asked of the turns, and when -/

/-- How many nanoseconds a reading is behind another one: readings are to be
compared by their difference. -/
def since (start now : Int64) : Int :=
  (now - start).toInt

/-- A delay of 0 does not end; another one is not exceeded, and ends once it
has passed. -/
def RightTurn (maxDelay : Int32) (start now : Int64) (turn : Turn) : Prop :=
  (maxDelay.toInt = 0 → turn ≠ .timesOut ∧ turn ≠ .throws) ∧
    (0 < maxDelay.toInt → turn ≠ .throws ∧
      (0 ≤ since start now → ∀ endTime d, turn = .waits endTime d →
        d ≤ maxDelay.toInt ∧
          since start now < maxDelay.toInt * NANOS_PER_MILLI))

/-- Each turn is right, from one on, as long as the method waits. -/
def Right [BEq T] (method : Method T) (maxDelay : Int32) (start : Int64) :
    Turn → Int64 → List (Shared T × Int64) → Prop
  | turn, now, [] => RightTurn maxDelay start now turn
  | turn, now, (shared, later) :: wakes =>
      RightTurn maxDelay start now turn ∧
        ∀ endTime d, turn = .waits endTime d →
          Right method maxDelay start (method.resume shared endTime later) later
            wakes

/-- A reading that is neither negative nor within a millisecond of the
greatest one. -/
def FarFromEnd (now : Int64) : Prop :=
  0 ≤ now.toInt ∧ now.toInt + NANOS_PER_MILLI ≤ MAX_VALUE

/-- As long as there is something to wait for, the readings are far from the
end. -/
def FarWhilePending [BEq T] (method : Method T) :
    Shared T → Int64 → List (Shared T × Int64) → Prop
  | shared, now, [] => method.pending shared = true → FarFromEnd now
  | shared, now, (shared', later) :: wakes => method.pending shared = true →
      FarFromEnd now ∧ FarWhilePending method shared' later wakes

/-- The readings with which a method can keep its delay. -/
def InTime [BEq T] (method : Method T) (maxDelay : Int32) (shared : Shared T)
    (start : Int64) (wakes : List (Shared T × Int64)) : Prop :=
  (maxDelay.toInt = 0 → FarWhilePending method shared start wakes) ∧
    (0 < maxDelay.toInt → method.checks = true →
      method.pending shared = true →
        start.toInt + maxDelay.toInt * NANOS_PER_MILLI ≤ MAX_VALUE)

/-! ## The turns of each method -/

/-- The head of a loop, up to the wait. -/
def awaits (endTime now : Int) : Turn :=
  if remaining endTime now > 0 then .waits endTime (remaining endTime now)
  else .timesOut

section Turns

variable [BEq T] {method : Method T} {shared : Shared T} {maxDelay : Int32}

theorem ofMonitor_loop (method : Monitor.Method T) (value : Option T)
    (endTime now : Int) :
    Turn.ofMonitor (method.loop value endTime now) =
      if !method.reached value then awaits endTime now else .returns := by
  unfold Monitor.Method.loop awaits Monitor.remTime
  cases reached : method.reached value with
  | true => cases method <;> rfl
  | false =>
      rw [if_neg Bool.false_ne_true, Bool.not_false, if_pos (Eq.refl true)]
      dsimp only
      split_ifs <;> rfl

omit [BEq T] in
theorem ofQueue_gets (some : shared.queue.isEmpty = false) (now : Int) :
    Turn.ofQueue now (CircularQueue.gets shared.queue) = .returns := by
  obtain ⟨⟨contents, closed⟩, represents⟩ := shared.represents
  cases contents with
  | nil =>
      rw [represents.isEmpty_iff.mpr rfl] at some
      exact nomatch some
  | cons first rest =>
      obtain ⟨next, taken, _⟩ := represents.getAndNotify_ok
      unfold CircularQueue.gets
      rw [taken]
      rfl

omit [BEq T] in
theorem ofQueue_puts (room : shared.queue.isFull = false) (obj : T)
    (now : Int) :
    Turn.ofQueue now (CircularQueue.puts shared.queue obj) = .returns := by
  obtain ⟨fifo, represents⟩ := shared.represents
  have short : fifo.contents.length < shared.queue.size := by
    refine Nat.lt_of_le_of_ne represents.length_le fun full => ?_
    rw [represents.isFull_iff.mpr full] at room
    exact nomatch room
  obtain ⟨next, put, _⟩ := represents.putAndNotify_ok short obj
  unfold CircularQueue.puts
  rw [put]
  rfl

omit [BEq T] in
theorem ofQueue_awaitGet (empty : shared.queue.isEmpty = true)
    (opened : shared.queue.isClosed = false) (now endTime : Int) :
    Turn.ofQueue now (CircularQueue.awaitGet shared.queue now endTime) =
      awaits endTime now := by
  unfold CircularQueue.awaitGet awaits
  by_cases delay : remaining endTime now > 0
  · simp only [delay, empty, opened, if_true, not_true_eq_false, if_false,
      Bool.not_true, Bool.false_eq_true]
    rfl
  · rw [if_neg delay, if_neg delay]
    exact if_neg (opened ▸ Bool.false_ne_true)

omit [BEq T] in
theorem ofQueue_awaitPut (full : shared.queue.isFull = true)
    (opened : shared.queue.isClosed = false) (obj : T) (now endTime : Int) :
    Turn.ofQueue now (CircularQueue.awaitPut shared.queue obj now endTime) =
      awaits endTime now := by
  unfold CircularQueue.awaitPut awaits
  by_cases delay : remaining endTime now > 0
  · simp only [delay, full, opened, if_true, not_true_eq_false, if_false,
      Bool.not_true, Bool.false_eq_true]
    rfl
  · rw [if_neg delay, if_neg delay]
    exact if_neg (opened ▸ Bool.false_ne_true)

/-- A turn after a wait. -/
theorem resume_eq (endTime : Int) (now : Int64) :
    method.resume shared endTime now =
      if method.pending shared then awaits endTime now.toInt
      else .returns := by
  cases method with
  | monitor method => exact ofMonitor_loop method shared.value endTime _
  | get =>
      unfold Method.resume Method.pending resumeGet
      dsimp only
      cases empty : shared.queue.isEmpty with
      | false => exact ofQueue_gets empty _
      | true =>
          cases closed : shared.queue.isClosed with
          | true => exact if_pos closed
          | false => exact ofQueue_awaitGet empty closed _ _
  | put obj =>
      unfold Method.resume Method.pending resumePut
      dsimp only
      cases closed : shared.queue.isClosed with
      | true =>
          rw [Bool.not_true, Bool.and_false]
          exact if_pos closed
      | false =>
          cases full : shared.queue.isFull with
          | false => exact ofQueue_puts full obj _
          | true => exact ofQueue_awaitPut full closed obj _ _

/-- The first turn. -/
theorem enter_eq (delay : 0 ≤ maxDelay.toInt) (now : Int64) :
    method.enter shared maxDelay now =
      if method.pending shared then
        if method.checks ∧ ¬ getEndTime now.toInt maxDelay > now.toInt then
          .throws
        else
          awaits (getEndTime now.toInt maxDelay) now.toInt
      else
        .returns := by
  have skip : ¬ (!true) = true := Bool.false_ne_true
  cases method with
  | monitor method =>
      have unchecked : ¬ ((Method.monitor method : Method T).checks = true ∧
          ¬ getEndTime now.toInt maxDelay > now.toInt) := fun checks =>
        Bool.false_ne_true checks.1
      unfold Method.enter Monitor.Method.enter
      dsimp only
      rw [if_neg (Int.not_lt.mpr delay), ofMonitor_loop, if_neg unchecked]
      rfl
  | get =>
      unfold Method.enter Method.pending enterGet
      dsimp only
      cases empty : shared.queue.isEmpty with
      | false => exact ofQueue_gets empty _
      | true =>
          rw [if_neg skip]
          cases closed : shared.queue.isClosed with
          | true =>
              rw [if_pos (Or.inl rfl : true = true ∨ maxDelay.toInt < 0)]
              exact if_pos closed
          | false =>
              have waits : ¬ (false = true ∨ maxDelay.toInt < 0) := by simpa
              rw [if_neg waits]
              by_cases late : ¬ getEndTime now.toInt maxDelay > now.toInt
              · rw [if_pos late]
                exact (if_pos ⟨rfl, late⟩).symm
              · rw [if_neg late]
                refine (ofQueue_awaitGet empty closed _ _).trans ?_
                exact (if_neg fun checks => late checks.2).symm
  | put obj =>
      unfold Method.enter Method.pending enterPut
      dsimp only
      cases closed : shared.queue.isClosed with
      | true =>
          rw [Bool.not_true, Bool.and_false]
          exact if_pos closed
      | false =>
          rw [if_neg Bool.false_ne_true]
          cases full : shared.queue.isFull with
          | false => exact ofQueue_puts full obj _
          | true =>
              rw [if_neg skip, if_neg (Int.not_lt.mpr delay)]
              by_cases late : ¬ getEndTime now.toInt maxDelay > now.toInt
              · rw [if_pos late]
                exact (if_pos ⟨rfl, late⟩).symm
              · rw [if_neg late]
                refine (ofQueue_awaitPut full closed obj _ _).trans ?_
                exact (if_neg fun checks => late checks.2).symm

end Turns

/-! ## The clock -/

/-- The readings are below this, and not below its negative. -/
def RANGE : Nat := 2 ^ 63

theorem long_eq_wrap (value : Int) :
    long value = Deadline.wrap RANGE value := rfl

theorem le_toInt (now : Int64) : -RANGE ≤ now.toInt := by
  have bound := now.le_toInt
  unfold RANGE
  omega

theorem toInt_lt (now : Int64) : now.toInt < RANGE := by
  have bound := now.toInt_lt
  unfold RANGE
  omega

theorem since_eq (start now : Int64) :
    since start now = Deadline.since RANGE start.toInt now.toInt :=
  Int64.toInt_sub now start

section Clock

variable {maxDelay : Int32} {start now : Int64}

/-- The delay in nanoseconds is no number that wraps. -/
theorem nanos_bounds (delay : 0 < maxDelay.toInt) :
    0 < maxDelay.toInt * NANOS_PER_MILLI ∧
      maxDelay.toInt * NANOS_PER_MILLI < RANGE := by
  have small : maxDelay.toInt < 2 ^ 31 := maxDelay.toInt_lt
  unfold NANOS_PER_MILLI RANGE
  omega

theorem getEndTime_eq (delay : 0 < maxDelay.toInt) (now : Int) :
    getEndTime now maxDelay =
      Deadline.wrap RANGE (now + maxDelay.toInt * NANOS_PER_MILLI) := by
  obtain ⟨positive, small⟩ := nanos_bounds delay
  unfold getEndTime
  rw [if_pos delay, long_eq_wrap, long_eq_wrap,
    Deadline.wrap_eq (by omega) small]

/-- The deadline is behind the start exactly when the clock wraps before. -/
theorem start_lt_getEndTime_iff (delay : 0 < maxDelay.toInt) :
    start.toInt < getEndTime start.toInt maxDelay ↔
      start.toInt + maxDelay.toInt * NANOS_PER_MILLI ≤ MAX_VALUE := by
  obtain ⟨positive, small⟩ := nanos_bounds delay
  rw [getEndTime_eq delay, Deadline.start_lt_deadline_iff positive small
    (le_toInt start) (toInt_lt start)]
  unfold RANGE MAX_VALUE
  omega

/-- Once time has passed, what is left is what is left of the delay. -/
theorem remaining_getEndTime (delay : 0 < maxDelay.toInt)
    (passed : 0 ≤ since start now) :
    remaining (getEndTime start.toInt maxDelay) now.toInt =
      (maxDelay.toInt * NANOS_PER_MILLI - since start now).tdiv
        NANOS_PER_MILLI := by
  obtain ⟨positive, small⟩ := nanos_bounds delay
  rw [since_eq] at passed ⊢
  unfold remaining
  rw [getEndTime_eq delay, long_eq_wrap]
  exact congrArg (Int.tdiv · _)
    (Deadline.since_deadline_eq (by omega) small passed)

theorem millis_pos_iff {nanos : Int} :
    nanos.tdiv NANOS_PER_MILLI > 0 ↔ NANOS_PER_MILLI ≤ nanos := by
  by_cases sign : 0 ≤ nanos
  · rw [Int.tdiv_eq_ediv_of_nonneg sign]
    unfold NANOS_PER_MILLI
    omega
  · have nothing : nanos.tdiv NANOS_PER_MILLI ≤ 0 :=
      @Int.tdiv_le_tdiv nanos 0 _ (by decide) (by omega)
    unfold NANOS_PER_MILLI at *
    omega

/-- Something is left until the greatest reading when a reading is far from
it. -/
theorem remaining_forever_iff :
    remaining MAX_VALUE now.toInt > 0 ↔ FarFromEnd now := by
  have left : long (MAX_VALUE - now.toInt) =
      if 0 ≤ now.toInt then MAX_VALUE - now.toInt
      else -RANGE - 1 - now.toInt :=
    Deadline.since_greatest (by decide) (le_toInt now) (toInt_lt now)
  have lower := le_toInt now
  unfold remaining FarFromEnd
  rw [millis_pos_iff, left]
  unfold MAX_VALUE RANGE NANOS_PER_MILLI at *
  split_ifs with sign <;> omega

end Clock

section Delays

variable [BEq T] {method : Method T} {shared : Shared T} {maxDelay : Int32}
  {start now : Int64} {turn : Turn}

theorem getEndTime_zero (delay : maxDelay.toInt = 0) (now : Int) :
    getEndTime now maxDelay = MAX_VALUE :=
  if_neg (by omega)

/-- A turn of a method that waits without a limit. -/
structure Forever (method : Method T) (shared : Shared T) (now : Int64)
    (turn : Turn) : Prop where
  waits : method.pending shared = true → FarFromEnd now →
    ∃ d, turn = .waits MAX_VALUE d
  ends : method.pending shared = true → ¬ FarFromEnd now →
    turn = .timesOut ∨ turn = .throws
  returns : method.pending shared = false → turn = .returns

theorem awaits_forever (pending : method.pending shared = true) :
    Forever method shared now (awaits MAX_VALUE now.toInt) where
  waits _ far := ⟨_, if_pos (remaining_forever_iff.mpr far)⟩
  ends _ near := .inl (if_neg fun left => near (remaining_forever_iff.mp left))
  returns not := nomatch pending.symm.trans not

theorem returns_forever (idle : method.pending shared = false) :
    Forever method shared now .returns where
  waits pending _ := nomatch pending.symm.trans idle
  ends pending _ := nomatch pending.symm.trans idle
  returns _ := rfl

theorem resume_forever (method : Method T) (shared : Shared T) (now : Int64) :
    Forever method shared now (method.resume shared MAX_VALUE now) := by
  rw [resume_eq]
  split_ifs with pending
  · exact awaits_forever pending
  · exact returns_forever (Bool.not_eq_true _ ▸ pending)

theorem enter_forever (method : Method T) (shared : Shared T) (now : Int64)
    (delay : maxDelay.toInt = 0) :
    Forever method shared now (method.enter shared maxDelay now) := by
  rw [enter_eq (by omega), getEndTime_zero delay]
  split_ifs with pending checks
  · refine ⟨fun _ far => ?_, fun _ _ => .inr rfl,
      fun not => nomatch pending.symm.trans not⟩
    -- a reading that is far from the end is less than it
    have far : now.toInt + NANOS_PER_MILLI ≤ MAX_VALUE := far.2
    unfold NANOS_PER_MILLI at far
    exact absurd (by omega) checks.2
  · exact awaits_forever pending
  · exact returns_forever (Bool.not_eq_true _ ▸ pending)

/-- A turn without a limit is right when it waits or returns. -/
theorem Forever.rightTurn_iff (forever : Forever method shared now turn)
    (delay : maxDelay.toInt = 0) :
    RightTurn maxDelay start now turn ↔
      (method.pending shared = true → FarFromEnd now) := by
  unfold RightTurn
  constructor
  · rintro ⟨right, _⟩ pending
    refine Classical.byContradiction fun near => ?_
    rcases forever.ends pending near with ends | ends
    · exact (right delay).1 ends
    · exact (right delay).2 ends
  · intro far
    refine ⟨fun _ => ?_, fun positive => absurd positive (by omega)⟩
    cases pending : method.pending shared with
    | true =>
        obtain ⟨d, rfl⟩ := forever.waits pending (far pending)
        exact ⟨nofun, nofun⟩
    | false =>
        obtain rfl := forever.returns pending
        exact ⟨nofun, nofun⟩

theorem Forever.right_iff (forever : Forever method shared now turn)
    (delay : maxDelay.toInt = 0) (wakes : List (Shared T × Int64)) :
    Right method maxDelay start turn now wakes ↔
      FarWhilePending method shared now wakes := by
  induction wakes generalizing shared now turn with
  | nil => exact forever.rightTurn_iff delay
  | cons wake wakes ih =>
      obtain ⟨shared', later⟩ := wake
      have ih := ih (resume_forever method shared' later)
      unfold Right FarWhilePending
      rw [forever.rightTurn_iff delay]
      constructor
      · rintro ⟨far, right⟩ pending
        obtain ⟨d, waits⟩ := forever.waits pending (far pending)
        exact ⟨far pending, ih.mp (right _ d waits)⟩
      · intro far
        refine ⟨fun pending => (far pending).1, fun endTime d waits => ?_⟩
        cases pending : method.pending shared with
        | true =>
            obtain ⟨far, rest⟩ := far pending
            obtain ⟨d', waits'⟩ := forever.waits pending far
            obtain ⟨rfl, _⟩ := Turn.waits.inj (waits'.symm.trans waits)
            exact ih.mpr rest
        | false => exact nomatch (forever.returns pending).symm.trans waits

/-! ## Delays that end -/

/-- A turn before a deadline is right. -/
theorem awaits_right (delay : 0 < maxDelay.toInt) (start now : Int64) :
    RightTurn maxDelay start now
      (awaits (getEndTime start.toInt maxDelay) now.toInt) := by
  refine ⟨fun zero => absurd zero (by omega), fun _ => ⟨?_, ?_⟩⟩
  · unfold awaits
    split_ifs <;> exact nofun
  · intro passed endTime d waits
    unfold awaits at waits
    split_ifs at waits with left
    obtain ⟨_, rfl⟩ := Turn.waits.inj waits
    rw [remaining_getEndTime delay passed] at left ⊢
    constructor
    · calc (maxDelay.toInt * NANOS_PER_MILLI - since start now).tdiv
            NANOS_PER_MILLI
          ≤ (maxDelay.toInt * NANOS_PER_MILLI).tdiv NANOS_PER_MILLI :=
            Int.tdiv_le_tdiv (by decide) (by omega)
        _ = maxDelay.toInt := Int.mul_tdiv_cancel _ (by decide)
    · have more := millis_pos_iff.mp left
      unfold NANOS_PER_MILLI at *
      omega

theorem returns_right (maxDelay : Int32) (start now : Int64) :
    RightTurn maxDelay start now .returns :=
  ⟨fun _ => ⟨nofun, nofun⟩, fun _ => ⟨nofun, fun _ _ _ => nofun⟩⟩

/-- Whatever a turn waits for ends at the deadline. -/
structure Limited (maxDelay : Int32) (start now : Int64) (turn : Turn) :
    Prop where
  right : RightTurn maxDelay start now turn
  waits : ∀ endTime d, turn = .waits endTime d →
    endTime = getEndTime start.toInt maxDelay

theorem awaits_limited (delay : 0 < maxDelay.toInt) (start now : Int64) :
    Limited maxDelay start now
      (awaits (getEndTime start.toInt maxDelay) now.toInt) where
  right := awaits_right delay start now
  waits endTime d waits := by
    unfold awaits at waits
    split_ifs at waits
    exact (Turn.waits.inj waits).1.symm

theorem returns_limited (maxDelay : Int32) (start now : Int64) :
    Limited maxDelay start now .returns :=
  ⟨returns_right maxDelay start now, nofun⟩

theorem Limited.right_run (limited : Limited maxDelay start now turn)
    (delay : 0 < maxDelay.toInt) (method : Method T)
    (wakes : List (Shared T × Int64)) :
    Right method maxDelay start turn now wakes := by
  induction wakes generalizing now turn with
  | nil => exact limited.right
  | cons wake wakes ih =>
      obtain ⟨shared, later⟩ := wake
      refine ⟨limited.right, fun endTime d waits => ih ?_⟩
      obtain rfl := limited.waits endTime d waits
      rw [resume_eq]
      split_ifs with pending
      · exact awaits_limited delay start later
      · exact returns_limited maxDelay start later

theorem right_of_enter (wakes : List (Shared T × Int64))
    (right : Right method maxDelay start turn now wakes) :
    RightTurn maxDelay start now turn := by
  cases wakes with
  | nil => exact right
  | cons wake wakes => exact right.1

/-- A delay is kept unless the check of its deadline fails. -/
theorem right_enter_iff (delay : 0 < maxDelay.toInt) (method : Method T)
    (shared : Shared T) (start : Int64) (wakes : List (Shared T × Int64)) :
    Right method maxDelay start (method.enter shared maxDelay start) start
        wakes ↔
      (method.checks = true → method.pending shared = true →
        start.toInt + maxDelay.toInt * NANOS_PER_MILLI ≤ MAX_VALUE) := by
  rw [enter_eq (by omega), ← start_lt_getEndTime_iff delay]
  split_ifs with pending checks
  · refine iff_of_false (fun right => ?_) fun inTime =>
      checks.2 (inTime checks.1 pending)
    exact ((right_of_enter wakes right).2 delay).1 rfl
  · refine iff_of_true
      ((awaits_limited delay start start).right_run delay method wakes) ?_
    exact fun checked _ => Classical.byContradiction fun late =>
      checks ⟨checked, late⟩
  · exact iff_of_true
      ((returns_limited maxDelay start start).right_run delay method wakes)
      fun _ pending' => absurd pending' pending

/-- Without a delay nothing is asked of the turns. -/
theorem right_of_negative (delay : maxDelay.toInt < 0) (method : Method T)
    (turn : Turn) (now : Int64) (wakes : List (Shared T × Int64)) :
    Right method maxDelay start turn now wakes := by
  have right (turn : Turn) (now : Int64) :
      RightTurn maxDelay start now turn :=
    ⟨fun zero => absurd zero (by omega), fun positive =>
      absurd positive (by omega)⟩
  induction wakes generalizing now turn with
  | nil => exact right turn now
  | cons wake wakes ih => exact ⟨right turn now, fun _ _ _ => ih _ _⟩

end Delays

/--
For every reading of the clock a method keeps its delay exactly when, with 0,
the readings are far from the greatest one as long as it has to wait, and, with
a delay that is checked, the clock does not wrap before its end.
-/
theorem keeps_delay_iff [BEq T] (method : Method T) (maxDelay : Int32)
    (shared : Shared T) (start : Int64) (wakes : List (Shared T × Int64)) :
    Right method maxDelay start (method.enter shared maxDelay start) start
      wakes ↔ InTime method maxDelay shared start wakes := by
  unfold InTime
  rcases Int.lt_trichotomy maxDelay.toInt 0 with negative | zero | positive
  · exact iff_of_true (right_of_negative negative method _ _ _)
      ⟨fun zero => absurd zero (by omega), fun positive =>
        absurd positive (by omega)⟩
  · rw [(enter_forever method shared start zero).right_iff zero]
    exact (and_iff_left fun positive => absurd positive (by omega)).symm.trans
      (and_congr_left fun _ => (imp_iff_right zero).symm)
  · rw [right_enter_iff positive]
    exact (and_iff_right fun zero => absurd zero (by omega)).symm.trans
      (and_congr_right fun _ => (imp_iff_right positive).symm)

/-- An empty queue of one slot. -/
def emptyShared : Shared Nat where
  value := none
  queue := ⟨[none], false, 0, 0, 0⟩
  represents := ⟨⟨[], false⟩, CircularQueue.represents_new
    (rfl : CircularQueue.new 1 = .ok ⟨[none], false, 0, 0, 0⟩)⟩

/-- A `get` that is to wait for ever gives up at once, with a clock that is
negative. -/
theorem get_forever_gives_up :
    ¬ Right (.get : Method Nat) 0 (-1)
      (Method.get.enter emptyShared 0 (-1)) (-1) [] := by
  intro right
  have timesOut : Method.get.enter emptyShared 0 (-1) = .timesOut := by decide
  exact (right.1 rfl).1 timesOut

end Etch.Java.WaitDeadlines
