import Etch.Java.AlarmManager
import Etch.Java.ValueFactory
import Etch.Library.Transition

/-!
# The Java `KeepAlive` filter

Both sides wake up every `delay` seconds, and reset the connection when
nothing has been heard for `count` delays.  The server takes both numbers from
the requests of the client.  The methods run one at a time; time goes on
between them, and the clock shows it as a `long` number of nanoseconds.
-/

namespace Etch.Java

open Etch.Library
open Transition (StepBy invariant_of_steps)
open AlarmManager (long NANOS_PER_MILLI)

structure KeepAlive where
  delay : Int32
  count : Int32
  server : Bool
  up : Bool
  lastTickle : Int

namespace KeepAlive

/-! ## The methods -/

/-- `new KeepAlive( transport, uri, resources )`, with the terms of the uri. -/
def new (delay count : Option Int32) (server : Bool) :
    Except Thrown KeepAlive :=
  let delay := delay.getD 15
  let count := count.getD 4
  if delay ≤ 0 then
    .error (.illegalArgumentException (text "delay <= 0"))
  else if count ≤ 0 then
    .error (.illegalArgumentException (text "count <= 0"))
  else
    .ok ⟨delay, count, server, false, 0⟩

/-- `((Number) value).intValue()`, null as none, where the cast of `float` and
`double` to `int` is given. -/
def intValue (cast : Value → Int32) : Value → Except Thrown (Option Int32)
  | .null => .ok none
  | .byte value => .ok (some value.toInt32)
  | .short value => .ok (some value.toInt32)
  | .int value => .ok (some value)
  | .long value => .ok (some value.toInt32)
  | .float bits => .ok (some (cast (.float bits)))
  | .double bits => .ok (some (cast (.double bits)))
  | _ => .error .classCastException

/-- The number that a request brings, if it is positive. -/
def reset (old : Int32) : Option Int32 → Int32
  | none => old
  | some value => if value > 0 then value else old

/-- `tickle()` -/
def tickle (filter : KeepAlive) (nanos : Int) : KeepAlive :=
  { filter with lastTickle := nanos }

/-- `sessionUp()`, which throws where the alarm is not taken. -/
def sessionUp (filter : KeepAlive) (nanos : Int) : KeepAlive :=
  let filter := { filter with up := true }
  -- `AlarmManager.staticAdd( this, null, delay*1000 )`
  if filter.delay * 1000 ≤ 0 then filter else filter.tickle nanos

def sessionDown (filter : KeepAlive) : KeepAlive :=
  { filter with up := false }

def mf_delay : Field :=
  .ofName (text "delay")

def mf_count : Field :=
  .ofName (text "count")

/-- `handleRequest( msg )`, up to the response. -/
def handleRequest (cast : Value → Int32) (filter : KeepAlive)
    (msg : StructValue) (nanos : Int) : KeepAlive :=
  if !filter.server then
    filter
  else
    match intValue cast (msg.get mf_delay) with
    | .error _ => filter
    | .ok delay =>
        let filter := { filter with delay := reset filter.delay delay }
        match intValue cast (msg.get mf_count) with
        | .error _ => filter
        | .ok count =>
            { filter with count := reset filter.count count }.tickle nanos

def handleResponse (filter : KeepAlive) (nanos : Int) : KeepAlive :=
  if filter.server then filter else filter.tickle nanos

/-- `Timer.getMillisSince( startTime )` -/
def getMillisSince (startTime nanos : Int) : Int :=
  (long (nanos - startTime)).tdiv NANOS_PER_MILLI

/-- Whether `checkTickle()` resets the connection. -/
def checkTickle (filter : KeepAlive) (nanos : Int) : Bool :=
  getMillisSince filter.lastTickle nanos ≥
    (filter.count * filter.delay * 1000).toInt

/-- Whether `wakeup( manager, state, due )` resets the connection, and what it
returns. -/
def wakeup (filter : KeepAlive) (nanos : Int) : Bool × Int32 :=
  if !filter.up then
    (false, 0)
  else
    (filter.checkTickle nanos, filter.delay * 1000)

/-! ## Runs -/

/-- A wakeup of a filter that is up, some nanoseconds after it has been
tickled. -/
structure Wakeup where
  delay : Int32
  count : Int32
  idle : Int
  resets : Bool
  returned : Int32

/-- A filter in time, which the clock may show in any way. -/
structure State where
  filter : KeepAlive
  /-- nanoseconds -/
  time : Int
  tickled : Int
  wakeups : List Wakeup

inductive Action where
  | wait (nanos : Nat)
  | sessionUp
  | sessionDown
  | request (msg : StructValue)
  | response
  | wakeup

/-- `System.nanoTime()` -/
def State.nanos (state : State) : Int :=
  long state.time

/-- A filter that may have been tickled. -/
def State.set (state : State) (filter : KeepAlive) (tickled : Bool) :
    State :=
  { state with
    filter
    tickled := if tickled then state.time else state.tickled }

/-- Whether the numbers of a request can be read by the server. -/
def readable (cast : Value → Int32) (filter : KeepAlive)
    (msg : StructValue) : Bool :=
  filter.server && (intValue cast (msg.get mf_delay)).isOk &&
    (intValue cast (msg.get mf_count)).isOk

def step (cast : Value → Int32) (state : State) : Action → Option State
  | .wait nanos => some { state with time := state.time + nanos }
  | .sessionUp =>
      some (state.set (state.filter.sessionUp state.nanos)
        (state.filter.delay * 1000 > 0))
  | .sessionDown => some (state.set state.filter.sessionDown false)
  | .request msg =>
      some (state.set (state.filter.handleRequest cast msg state.nanos)
        (readable cast state.filter msg))
  | .response =>
      some (state.set (state.filter.handleResponse state.nanos)
        (!state.filter.server))
  | .wakeup =>
      if state.filter.up then
        let (resets, returned) := state.filter.wakeup state.nanos
        some { state with
          wakeups := ⟨state.filter.delay, state.filter.count,
            state.time - state.tickled, resets, returned⟩ ::
              state.wakeups }
      else
        some state

/-- Milliseconds without a keep-alive after which a filter may reset. -/
def limit (delay count : Int32) : Int :=
  count.toInt * delay.toInt * 1000

/-- A reset is in time, and the next wakeup is in the future. -/
structure Wakeup.Exact (wakeup : Wakeup) : Prop where
  resets : wakeup.resets = true →
    limit wakeup.delay wakeup.count * NANOS_PER_MILLI ≤ wakeup.idle
  returned : 0 < wakeup.returned

/-- The time that is allowed is an `int`, and the alarm is taken. -/
def Fits (state : State) : Action → Prop
  | .sessionUp => 0 < state.filter.delay * 1000
  | .wakeup => limit state.filter.delay state.filter.count < 2 ^ 31
  | _ => True

/-- A filter that has been created at some time. -/
def State.start (filter : KeepAlive) (time : Int) : State :=
  ⟨filter, time, time, []⟩

/-! ## The numbers -/

theorem toInt_threshold {delay count : Int32} (delayed : 0 < delay)
    (counted : 0 < count) (fits : limit delay count < 2 ^ 31) :
    (count * delay * 1000).toInt = limit delay count := by
  have delay_pos : 0 < delay.toInt := Int32.lt_iff_toInt_lt.mp delayed
  have count_pos : 0 < count.toInt := Int32.lt_iff_toInt_lt.mp counted
  have pos : 0 < count.toInt * delay.toInt := Int.mul_pos count_pos delay_pos
  unfold limit at fits ⊢
  rw [Int32.toInt_mul, Int32.toInt_mul]
  have thousand : (1000 : Int32).toInt = 1000 := rfl
  have product : (count.toInt * delay.toInt).bmod (2 ^ 32) =
      count.toInt * delay.toInt :=
    Int.bmod_eq_of_le (by omega) (by omega)
  rw [thousand, product]
  exact Int.bmod_eq_of_le (by omega) (by omega)

theorem delay_fits {delay count : Int32} (delayed : 0 < delay)
    (counted : 0 < count) (fits : limit delay count < 2 ^ 31) :
    0 < delay * 1000 := by
  have delay_pos : 0 < delay.toInt := Int32.lt_iff_toInt_lt.mp delayed
  have count_pos : 0 < count.toInt := Int32.lt_iff_toInt_lt.mp counted
  have le : 1 * delay.toInt ≤ count.toInt * delay.toInt :=
    Int.mul_le_mul_of_nonneg_right count_pos (Int.le_of_lt delay_pos)
  unfold limit at fits
  rw [Int32.lt_iff_toInt_lt, Int32.toInt_mul]
  have thousand : (1000 : Int32).toInt = 1000 := rfl
  have zero : (0 : Int32).toInt = 0 := rfl
  rw [thousand, zero, Int.bmod_eq_of_le (by omega) (by omega)]
  omega

/-- The clock shows no more than the time that has passed. -/
theorem long_le {nanos : Int} (past : 0 ≤ nanos) : long nanos ≤ nanos := by
  simp only [long, Int.bmod]
  split <;> omega

theorem long_sub_long (first second : Int) :
    long (long first - long second) = long (first - second) := by
  unfold long
  rw [Int.bmod_sub_bmod, Int.sub_bmod_bmod]

/-- So many milliseconds have passed. -/
theorem le_of_getMillisSince {first second millis : Int}
    (past : first ≤ second) (pos : 0 < millis)
    (passed : millis ≤ getMillisSince (long first) (long second)) :
    millis * NANOS_PER_MILLI ≤ second - first := by
  unfold getMillisSince at passed
  rw [long_sub_long] at passed
  have shown := long_le (Int.sub_nonneg.mpr past)
  have forward : 0 ≤ long (second - first) := by
    by_contra back
    have positive : 0 ≤ (-long (second - first)).tdiv NANOS_PER_MILLI :=
      Int.tdiv_nonneg (by omega) (by decide)
    rw [Int.neg_tdiv] at positive
    omega
  rw [Int.tdiv_eq_ediv_of_nonneg forward,
    Int.le_ediv_iff_mul_le (by decide)] at passed
  exact passed.trans shown

/-- A limit that is not an `int` is cut short, so that the filter resets the
connection at some time before it. -/
theorem not_exact_of_large {filter : KeepAlive} {tickled : Int}
    (lastTickle : filter.lastTickle = long tickled)
    (large : 2 ^ 31 ≤ limit filter.delay filter.count) :
    ∃ idle : Nat, ¬ Wakeup.Exact ⟨filter.delay, filter.count, idle,
      filter.checkTickle (long (tickled + idle)), filter.delay * 1000⟩ := by
  have small := (filter.count * filter.delay * 1000).toInt_lt
  obtain ⟨millis, least⟩ :
      ∃ millis, millis = (filter.count * filter.delay * 1000).toInt.toNat :=
    ⟨_, rfl⟩
  refine ⟨millis * 1000000, fun timely => ?_⟩
  have shown : getMillisSince filter.lastTickle
      (long (tickled + (millis * 1000000 : Nat))) = millis := by
    rw [getMillisSince, lastTickle, long_sub_long, add_sub_cancel_left,
      long, Int.bmod_eq_of_le (by omega) (by omega)]
    have million : NANOS_PER_MILLI ≠ 0 := by decide
    exact Int.mul_tdiv_cancel millis million
  have resets := timely.resets (by
    rw [checkTickle, shown]
    exact decide_eq_true (by omega))
  dsimp only [NANOS_PER_MILLI] at resets
  omega

/-! ## Every wakeup -/

/-- Both numbers are positive, and a filter that is up knows when it was
tickled. -/
structure Ticks (state : State) : Prop where
  delayed : 0 < state.filter.delay
  counted : 0 < state.filter.count
  past : state.tickled ≤ state.time
  lastTickle : state.filter.up = true →
    state.filter.lastTickle = long state.tickled
  timely : ∀ wakeup ∈ state.wakeups, wakeup.Exact

theorem reset_pos {old : Int32} (pos : 0 < old) (value : Option Int32) :
    0 < reset old value := by
  unfold reset
  cases value with
  | none => exact pos
  | some value =>
      dsimp only
      split
      · assumption
      · exact pos

theorem ticks_request {cast : Value → Int32} {state : State}
    (ticks : Ticks state) (msg : StructValue) :
    Ticks (state.set (state.filter.handleRequest cast msg state.nanos)
      (readable cast state.filter msg)) := by
  obtain ⟨delayed, counted, past, lastTickle, timely⟩ := ticks
  unfold handleRequest readable
  cases server : state.filter.server with
  | false => exact ⟨delayed, counted, past, lastTickle, timely⟩
  | true =>
      cases intValue cast (msg.get mf_delay) with
      | error thrown => exact ⟨delayed, counted, past, lastTickle, timely⟩
      | ok delay =>
          have delayed := reset_pos delayed delay
          cases intValue cast (msg.get mf_count) with
          | error thrown =>
              exact ⟨delayed, counted, past, lastTickle, timely⟩
          | ok count =>
              exact ⟨delayed, reset_pos counted count, Int.le_refl _,
                fun _ => rfl, timely⟩

/-- A wakeup of a filter that is up is exact. -/
theorem Ticks.wakeup {state : State} (ticks : Ticks state)
    (up : state.filter.up = true)
    (fits : limit state.filter.delay state.filter.count < 2 ^ 31) :
    Wakeup.Exact ⟨state.filter.delay, state.filter.count,
      state.time - state.tickled, state.filter.checkTickle state.nanos,
      state.filter.delay * 1000⟩ where
  resets := by
    intro resets
    have threshold := toInt_threshold ticks.delayed ticks.counted fits
    have passed := of_decide_eq_true resets
    rw [threshold, ticks.lastTickle up] at passed
    have delay_pos := Int32.lt_iff_toInt_lt.mp ticks.delayed
    have count_pos := Int32.lt_iff_toInt_lt.mp ticks.counted
    have pos : 0 < limit state.filter.delay state.filter.count :=
      Int.mul_pos (Int.mul_pos count_pos delay_pos) (by decide)
    exact le_of_getMillisSince ticks.past pos passed
  returned := delay_fits ticks.delayed ticks.counted fits

theorem ticks_step {cast : Value → Int32} {state next : State}
    {action : Action} (ticks : Ticks state) (fits : Fits state action)
    (does : step cast state action = some next) : Ticks next := by
  cases action with
  | wait nanos =>
      obtain rfl := Option.some.inj does
      exact { ticks with
        past := Int.le_trans ticks.past
          (Int.le_add_of_nonneg_right (Int.natCast_nonneg nanos)) }
  | sessionUp =>
      obtain rfl := Option.some.inj does
      have taken : ¬ state.filter.delay * 1000 ≤ 0 := Int32.not_le.mpr fits
      have tickles : decide (state.filter.delay * 1000 > 0) = true :=
        decide_eq_true fits
      rw [sessionUp, tickles]
      dsimp only
      rw [if_neg taken]
      exact ⟨ticks.delayed, ticks.counted, Int.le_refl _, fun _ => rfl,
        ticks.timely⟩
  | sessionDown =>
      obtain rfl := Option.some.inj does
      exact ⟨ticks.delayed, ticks.counted, ticks.past, nofun, ticks.timely⟩
  | request msg =>
      obtain rfl := Option.some.inj does
      exact ticks_request ticks msg
  | response =>
      obtain rfl := Option.some.inj does
      unfold handleResponse
      cases state.filter.server with
      | true => exact ticks
      | false =>
          exact ⟨ticks.delayed, ticks.counted, Int.le_refl _, fun _ => rfl,
            ticks.timely⟩
  | wakeup =>
      dsimp only [step] at does
      split at does
      · rename_i up
        obtain rfl := Option.some.inj does
        have woken := ticks.wakeup up fits
        refine { ticks with timely := fun wakeup member => ?_ }
        rcases List.mem_cons.mp member with rfl | before
        · rw [KeepAlive.wakeup, up]
          exact woken
        · exact ticks.timely wakeup before
      · obtain rfl := Option.some.inj does
        exact ticks

theorem ticks_start {delay count : Option Int32} {server : Bool}
    {filter : KeepAlive} (created : new delay count server = .ok filter)
    (time : Int) : Ticks (.start filter time) := by
  unfold new at created
  dsimp only at created
  split_ifs at created with noDelay noCount
  obtain rfl := Except.ok.inj created
  exact ⟨Int32.not_le.mp noDelay, Int32.not_le.mp noCount, Int.le_refl _,
    nofun, nofun⟩

/-- While the limit is an `int` whenever a filter wakes up, a filter resets
the connection in time only, and always wakes up again. -/
theorem wakeups_exact {delay count : Option Int32} {server : Bool}
    {filter : KeepAlive} (created : new delay count server = .ok filter)
    (time : Int) {cast : Value → Int32} {state : State}
    (reaches : Relation.ReflTransGen (StepBy (step cast) Fits)
      (.start filter time) state) :
    ∀ wakeup ∈ state.wakeups, wakeup.Exact :=
  (invariant_of_steps Ticks
    (fun _ _ _ ticks fits does => ticks_step ticks fits does)
    reaches (ticks_start created time)).timely

/-- Four delays of 15 seconds pass. -/
theorem minute_exact :
    Wakeup.Exact ⟨15, 4, 60000000000, true, 15000⟩ := by
  have created : new none none true = .ok ⟨15, 4, true, false, 0⟩ := rfl
  have up : step (fun _ => 0) (.start ⟨15, 4, true, false, 0⟩ 0)
      .sessionUp = some ⟨⟨15, 4, true, true, 0⟩, 0, 0, []⟩ := rfl
  have waits : step (fun _ => 0) ⟨⟨15, 4, true, true, 0⟩, 0, 0, []⟩
      (.wait 60000000000) =
        some ⟨⟨15, 4, true, true, 0⟩, 60000000000, 0, []⟩ := rfl
  have wakes : step (fun _ => 0)
      ⟨⟨15, 4, true, true, 0⟩, 60000000000, 0, []⟩ .wakeup =
        some ⟨⟨15, 4, true, true, 0⟩, 60000000000, 0,
          [⟨15, 4, 60000000000, true, 15000⟩]⟩ := rfl
  have taken : (0 : Int32) < 15 * 1000 := by decide
  have fits : limit 15 4 < 2 ^ 31 := by decide
  exact wakeups_exact created 0
    (.head ⟨.sessionUp, taken, up⟩ (.head ⟨.wait 60000000000, trivial, waits⟩
      (.single ⟨.wakeup, fits, wakes⟩))) _ List.mem_cons_self

/-- With a delay of 1000000 seconds and a count of 3 the filter resets the
connection at once. -/
theorem large_resets :
    ∃ filter state, new (some 1000000) (some 3) true = .ok filter ∧
      Transition.run (step fun _ => 0) (.start filter 0)
        [.sessionUp, .wakeup] = some state ∧
      ∃ wakeup ∈ state.wakeups, ¬ wakeup.Exact := by
  refine ⟨_, _, rfl, rfl, _, List.mem_cons_self, fun timely => ?_⟩
  exact absurd (timely.resets (by decide)) (by decide)

end KeepAlive

end Etch.Java
