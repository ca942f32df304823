import Etch.Java.History
import Etch.Library.Monitor
import Mathlib.Data.List.Perm.Subperm
import Mathlib.Data.List.ReduceOption

/-!
# The Java `ByteBufferPool`

All that a method does to the pool it does in one section synchronized on the
saved buffers.  The history has a lock of its own, so that a tickle of the
alarm may come between any two accesses to it.
-/

namespace Etch.Java

open Etch.Library.Fallible Etch.Library.Monitor

/-- A buffer, by the order in which they were allocated. -/
abbrev Buffer := Nat

structure ByteBufferPool where
  history : History
  saved : List Buffer
  waiters : List Nat
  /-- the waiters that the todo manager has been given to notify -/
  todos : List (List Nat)
  /-- the next buffer that `ByteBuffer.allocateDirect` returns -/
  next : Buffer
deriving DecidableEq

namespace ByteBufferPool

/-- `new ByteBufferPool(bufferSize, min, limit, interval, length)` -/
def new (bufferSize min limit interval length : Int32) :
    Except Thrown ByteBufferPool :=
  if bufferSize ≤ 0 then
    .error (.illegalArgumentException (text "bufferSize <= 0"))
  else if interval < 0 then
    .error (.illegalArgumentException (text "interval < 0"))
  else do
    let length := if interval = 0 ∨ length = 0 then 0 else length
    let history ← History.new min.toInt limit.toInt length.toInt
    return ⟨history, [], [], [], 0⟩

def register (pool : ByteBufferPool) (notify : Nat) : ByteBufferPool :=
  { pool with waiters := pool.waiters ++ [notify] }

def unregister (pool : ByteBufferPool) (notify : Nat) : ByteBufferPool :=
  { pool with waiters := pool.waiters.erase notify }

def notifyWaiters (pool : ByteBufferPool) : ByteBufferPool :=
  if pool.waiters.length = 0 then
    pool
  else
    { pool with waiters := [], todos := pool.todos ++ [pool.waiters] }

/-- `allocBuf()`, with whether there is memory for one more buffer. -/
def allocBuf (pool : ByteBufferPool) (memory : Bool) :
    Except Thrown (Buffer × ByteBufferPool) :=
  match pool.saved.getLast? with
  | some buf => .ok (buf, { pool with saved := pool.saved.dropLast })
  | none =>
      if memory then do
        let history ← pool.history.adjustAlloc 1
        return (pool.next,
          { pool with history := history, next := pool.next + 1 })
      else
        .error .outOfMemoryError

/-- The end of `releaseBuf(buf)`, where used has been decremented. -/
def save (pool : ByteBufferPool) (buf : Buffer) :
    Except Thrown ByteBufferPool :=
  if pool.saved.length < pool.history.suggested then
    .ok { pool with saved := pool.saved ++ [buf] }
  else do
    let history ← pool.history.adjustAlloc (-1)
    return { pool with history := history }

/-! ## Sections -/

/-- What a call has come to. -/
inductive Outcome where
  | buffer (buf : Buffer)
  | buffers (bufs : List Buffer)
  /-- no buffer, but a notification to come -/
  | null
  | done
  | threw (thrown : Thrown)

/-- An allocation that comes to this has failed. -/
def Outcome.failed : Outcome → Bool
  | null => true
  | threw _ => true
  | _ => false

/-- Where the thread is that holds the lock, if one does. -/
inductive Place where
  | idle
  /-- `used` has set the count and is about to call `bump` -/
  | bump (value : Int) (next : Place)
  | allocBuf
  /-- a call of `alloc` with a count is about to create its array -/
  | newArray (count : Nat)
  | allocBufs (count : Nat) (bufs : List Buffer)
  /-- the one buffer that was reserved has not been allocated -/
  | unreserve (thrown : Thrown)
  | throwing (thrown : Thrown)
  /-- the loop of `release`, called by a client or to clear up -/
  | release (bufs : List (Option Buffer)) (failure : Option Thrown)
  | save (buf : Buffer) (bufs : List (Option Buffer))
      (failure : Option Thrown)
  | notifyWaiters (failure : Option Thrown)
  | trimSaved (n : Int)
deriving DecidableEq

/-- A pool, with what its clients have and have seen. -/
structure State where
  pool : ByteBufferPool
  place : Place
  /-- the buffers handed out and not yet released -/
  out : List Buffer
  /-- the count of used buffers when the last call began -/
  entered : Int
  outcome : Outcome

namespace State

/-- The lock is given back. -/
def leave (state : State) (outcome : Outcome) : State :=
  { state with place := .idle, outcome := outcome }

def within (state : State) (pool : ByteBufferPool) (place : Place) : State :=
  { state with pool := pool, place := place }

/-- A client calls a method. -/
def enter (state : State) (place : Place) : State :=
  { state with place := place, entered := state.pool.history.used }

/-- `history.used(k)` and what follows on either of its results. -/
def use (state : State) (k : Int) (next : Place)
    (refused : State → State) : State :=
  match state.pool.history.adjustUsed k with
  | .error thrown => state.leave (.threw thrown)
  | .ok (false, _) => refused state
  | .ok (true, history) =>
      state.within { state.pool with history := history }
        (.bump history.used next)

/-- What an allocation does if too many buffers are used. -/
def refuse (notify : Option Nat) (state : State) : State :=
  match notify with
  | none => state.leave (.threw (.ioException (text "out of buffers")))
  | some notify =>
      (state.within (state.pool.register notify) .idle).leave .null

/-- `alloc(notify)`, up to its call of `bump`. -/
def alloc (state : State) (notify : Option Nat) : State :=
  (state.enter .idle).use 1 .allocBuf (refuse notify)

/-- `alloc(notify, count)`, up to its call of `bump`. -/
def allocMany (state : State) (notify : Option Nat) (count : Int32) :
    State :=
  if count.toInt ≤ 0 then
    (state.enter .idle).leave
      (.threw (.illegalArgumentException (text "count <= 0")))
  else if count.toInt > state.pool.history.limit then
    (state.enter .idle).leave
      (.threw (.illegalArgumentException (text "count > limit")))
  else
    (state.enter .idle).use count.toInt (.newArray count.toInt.toNat)
      (refuse notify)

/-- `release(buf)` -/
def releaseOne (state : State) (buf : Option Buffer) : State :=
  state.enter (.release [buf] none)

/-- `release(bufs)` -/
def releaseMany (state : State) (bufs : Option (List (Option Buffer))) :
    State :=
  match bufs with
  | none => (state.enter .idle).leave .done
  | some bufs =>
      if bufs.length = 0 then
        (state.enter .idle).leave .done
      else
        state.enter (.release bufs none)

/-- How `release` ends, for its client or in a handler. -/
def ended : Option Thrown → Outcome
  | none => .done
  | some thrown => .threw thrown

/-- The next thing that the thread does that holds the lock. -/
def proceed (state : State) (memory : Bool) : Option State :=
  match state.place with
  | .idle => none
  | .bump value next =>
      some (state.within
        { state.pool with history := state.pool.history.bump value } next)
  | .allocBuf =>
      match state.pool.allocBuf memory with
      | .error thrown => some { state with place := .unreserve thrown }
      | .ok (buf, pool) =>
          some { (state.within pool .idle).leave (.buffer buf) with
            out := buf :: state.out }
  | .newArray count =>
      if memory then
        some { state with place := .allocBufs count [] }
      else
        some (state.leave (.threw .outOfMemoryError))
  | .allocBufs count bufs =>
      if bufs.length < count then
        match state.pool.allocBuf memory with
        | .error thrown =>
            -- the rest of the array is null
            some { state with
              place := .release (bufs.map some ++
                List.replicate (count - bufs.length) none) (some thrown) }
        | .ok (buf, pool) =>
            some (state.within pool (.allocBufs count (bufs ++ [buf])))
      else
        some { state.leave (.buffers bufs) with out := bufs ++ state.out }
  | .unreserve thrown =>
      some (state.use (-1) (.throwing thrown) fun state =>
        state.leave (.threw thrown))
  | .throwing thrown => some (state.leave (.threw thrown))
  | .release [] failure =>
      some { state with place := .notifyWaiters failure }
  | .release (none :: bufs) failure =>
      some { state with place := .release bufs failure }
  | .release (some buf :: bufs) failure =>
      some { state.use (-1) (.save buf bufs failure) fun state =>
          { state with place := .save buf bufs failure } with
        out := state.out.erase buf }
  | .save buf bufs failure =>
      match state.pool.save buf with
      | .error thrown => some (state.leave (.threw thrown))
      | .ok pool => some (state.within pool (.release bufs failure))
  | .notifyWaiters failure =>
      some ((state.within state.pool.notifyWaiters .idle).leave
        (ended failure))
  | .trimSaved n =>
      if state.pool.saved.length > n then
        match state.pool.saved with
        | [] =>
            some (state.leave (.threw (.buffer .indexOutOfBoundsException)))
        | _ :: _ =>
            let pool :=
              { state.pool with saved := state.pool.saved.dropLast }
            match pool.history.adjustAlloc (-1) with
            | .error thrown =>
                some ((state.within pool .idle).leave (.threw thrown))
            | .ok history =>
                some (state.within { pool with history := history }
                  (.trimSaved n))
      else
        some (state.leave .done)

end State

/-- What may happen next. -/
inductive Action where
  | alloc (notify : Option Nat)
  | allocMany (notify : Option Nat) (count : Int32)
  | release (buf : Option Buffer)
  | releaseMany (bufs : Option (List (Option Buffer)))
  | trimSaved
  | proceed (memory : Bool)
  | tickle
  | register (notify : Nat)
  | unregister (notify : Nat)

/-- A call has to wait until the lock is free. -/
def step (state : State) : Action → Option State
  | .alloc notify =>
      if state.place = .idle then some (state.alloc notify) else none
  | .allocMany notify count =>
      if state.place = .idle then
        some (state.allocMany notify count)
      else
        none
  | .release buf =>
      if state.place = .idle then some (state.releaseOne buf) else none
  | .releaseMany bufs =>
      if state.place = .idle then some (state.releaseMany bufs) else none
  | .trimSaved =>
      if state.place = .idle then
        some (state.enter (.trimSaved state.pool.history.suggested))
      else
        none
  | .proceed memory => state.proceed memory
  | .tickle =>
      some { state with
        pool := { state.pool with history := state.pool.history.tickle } }
  | .register notify =>
      some { state with pool := state.pool.register notify }
  | .unregister notify =>
      some { state with pool := state.pool.unregister notify }

/-- A new pool. -/
def State.start (pool : ByteBufferPool) : State :=
  ⟨pool, .idle, [], 0, .done⟩

/-! ## Accounting -/

/-- A buffer that cannot be allocated for an array, or the array itself. -/
def Fails (state : State) : Action → Prop
  | .proceed false =>
      match state.place with
      | .newArray _ => True
      | .allocBufs count bufs =>
          bufs.length < count ∧ state.pool.saved = []
      | _ => False
  | _ => False

/-- The buffers that a client releases. -/
def releases : Action → List Buffer
  | .release buf => [buf].reduceOption
  | .releaseMany (some bufs) => bufs.reduceOption
  | _ => []

/--
No allocation of many buffers fails after it has reserved them, and clients
release what they have, and each buffer once.
-/
def Sound (state : State) (action : Action) : Prop :=
  ¬Fails state action ∧ (releases action).Subperm state.out

/-- A step that is sound. -/
def SoundStep (state next : State) : Prop :=
  ∃ action, Sound state action ∧ step state action = some next

/-- The counts are right whenever no call is under way. -/
structure Accounts (limit : Int) (state : State) : Prop where
  within : state.pool.history.used ≤ limit
  distinct : state.out.Nodup
  used : state.place = .idle → state.pool.history.used = state.out.length
  alloc : state.place = .idle → state.pool.history.alloc =
    state.pool.history.used + state.pool.saved.length
  failed : state.place = .idle → state.outcome.failed = true →
    state.pool.history.used = state.entered

namespace Place

/-- The buffers that have been counted as used for a call. -/
@[simp]
def reserved : Place → Nat
  | bump _ next => next.reserved
  | allocBuf => 1
  | newArray count => count
  | allocBufs count _ => count
  | unreserve _ => 1
  | _ => 0

/-- The buffers that are neither handed out nor saved. -/
@[simp]
def held : Place → List Buffer
  | bump _ next => next.held
  | allocBufs _ bufs => bufs
  | save buf _ _ => [buf]
  | _ => []

/-- What is known of a call under way. -/
def Proper (entered : Int) (out : List Buffer) : Place → Prop
  | idle => True
  | bump _ next => next ≠ idle ∧ next.Proper entered out
  | allocBufs count bufs => bufs.length ≤ count ∧ entered = out.length
  | release bufs failure => failure = none ∧ bufs.reduceOption.Subperm out
  | save _ bufs failure => failure = none ∧ bufs.reduceOption.Subperm out
  | notifyWaiters failure => failure = none
  | _ => entered = out.length

end Place

/-- Counts that agree with numbers of buffers. -/
structure Counts (limit : Int) (history : History)
    (out reserved saved held : Nat) : Prop where
  itsLimit : history.limit = limit
  small : limit < 2 ^ 31
  used : history.used = out + reserved
  alloc : history.alloc = out + saved + held
  usedWithin : (out : Int) + reserved ≤ limit
  allocWithin : (out : Int) + saved + held ≤ limit

/-- Buffers of which none is there twice and none is still to come. -/
def Distinct (next : Buffer) (buffers : List Buffer) : Prop :=
  buffers.Nodup ∧ ∀ buf ∈ buffers, buf < next

structure Invariant (limit : Int) (state : State) : Prop where
  counts : Counts limit state.pool.history state.out.length
    state.place.reserved state.pool.saved.length state.place.held.length
  distinct : Distinct state.pool.next
    (state.out ++ (state.pool.saved ++ state.place.held))
  proper : state.place.Proper state.entered state.out
  failed : state.place = .idle → state.outcome.failed = true →
    state.entered = state.out.length

theorem Invariant.accounted {limit : Int} {state : State}
    (invariant : Invariant limit state) : Accounts limit state where
  within := by
    rw [invariant.counts.used]
    exact invariant.counts.usedWithin
  distinct := (List.nodup_append.mp invariant.distinct.1).1
  used idle := by
    have used := invariant.counts.used
    rw [idle] at used
    simpa [Place.reserved] using used
  alloc idle := by
    have used := invariant.counts.used
    have alloc := invariant.counts.alloc
    rw [idle] at used alloc
    simp only [Place.reserved, Place.held, List.length_nil] at used alloc
    omega
  failed idle failed := by
    have used := invariant.counts.used
    rw [idle] at used
    rw [invariant.failed idle failed]
    simpa [Place.reserved] using used

theorem Counts.bounded {limit : Int} {history : History}
    {out reserved saved held : Nat}
    (counts : Counts limit history out reserved saved held) :
    history.Bounded := by
  obtain ⟨rfl, small, used, alloc, usedWithin, allocWithin⟩ := counts
  constructor <;> omega

theorem Counts.same {limit : Int} {history next : History}
    {out reserved saved held : Nat}
    (counts : Counts limit history out reserved saved held)
    (same : history.SameCounts next) :
    Counts limit next out reserved saved held where
  itsLimit := same.limit.trans counts.itsLimit
  small := counts.small
  used := same.used.trans counts.used
  alloc := same.alloc.trans counts.alloc
  usedWithin := counts.usedWithin
  allocWithin := counts.allocWithin

theorem Distinct.perm {next : Buffer} {first second : List Buffer}
    (distinct : Distinct next first) (perm : first.Perm second) :
    Distinct next second :=
  ⟨perm.nodup_iff.mp distinct.1,
    fun buf mem => distinct.2 buf (perm.mem_iff.mpr mem)⟩

theorem Distinct.sublist {next : Buffer} {first second : List Buffer}
    (distinct : Distinct next first) (sublist : second.Sublist first) :
    Distinct next second :=
  ⟨distinct.1.sublist sublist,
    fun buf mem => distinct.2 buf (sublist.subset mem)⟩

/-- A new buffer is different from those there are. -/
theorem Distinct.new {next : Buffer} {buffers : List Buffer}
    (distinct : Distinct next buffers) :
    Distinct (next + 1) (next :: buffers) := by
  refine ⟨List.nodup_cons.mpr ⟨fun mem => ?_, distinct.1⟩, ?_⟩
  · exact Nat.lt_irrefl next (distinct.2 next mem)
  · refine List.forall_mem_cons.mpr ⟨Nat.lt_succ_self next, ?_⟩
    exact fun buf mem => Nat.lt_succ_of_lt (distinct.2 buf mem)

theorem invariant_start {bufferSize min limit interval length : Int32}
    {pool : ByteBufferPool}
    (made : new bufferSize min limit interval length = .ok pool) :
    Invariant limit.toInt (.start pool) := by
  unfold new at made
  by_cases size : bufferSize ≤ 0
  · rw [if_pos size] at made
    exact nomatch made
  by_cases negative : interval < 0
  · rw [if_neg size, if_pos negative] at made
    exact nomatch made
  rw [if_neg size, if_neg negative] at made
  obtain ⟨history, built, rest⟩ := bind_eq_ok_iff.mp made
  obtain rfl := Except.ok.inj rest
  obtain ⟨positive, itsLimit, used, alloc⟩ := History.new_ok built
  refine ⟨⟨itsLimit, limit.toInt_lt, used, alloc, ?_, ?_⟩,
    ⟨List.nodup_nil, nofun⟩, trivial, nofun⟩
  · simpa [State.start] using positive
  · simpa [State.start] using positive

section Steps

variable {limit : Int} {state next : State}

/-- A call that ends with nothing reserved or held. -/
theorem Invariant.leave (invariant : Invariant limit state)
    (reserved : state.place.reserved = 0) (held : state.place.held = [])
    {outcome : Outcome}
    (entered : outcome.failed = true → state.entered = state.out.length) :
    Invariant limit (state.leave outcome) := by
  obtain ⟨counts, distinct, _, _⟩ := invariant
  rw [reserved, held] at counts
  rw [held] at distinct
  exact ⟨counts, distinct, trivial, fun _ => entered⟩

theorem Invariant.used_of_idle (invariant : Invariant limit state)
    (idle : state.place = .idle) :
    state.pool.history.used = state.out.length := by
  have used := invariant.counts.used
  rw [idle] at used
  simpa using used

/-- A call begins. -/
theorem Invariant.enter (invariant : Invariant limit state)
    (idle : state.place = .idle) {place : Place}
    (reserved : place.reserved = 0) (held : place.held = [])
    (proper : place.Proper state.out.length state.out) :
    Invariant limit (state.enter place) := by
  have used := invariant.used_of_idle idle
  obtain ⟨counts, distinct, _, _⟩ := invariant
  rw [idle] at counts distinct
  refine ⟨?_, ?_, ?_, fun _ _ => used⟩
  · change Counts limit state.pool.history state.out.length place.reserved
      state.pool.saved.length place.held.length
    rw [reserved, held]
    exact counts
  · change Distinct state.pool.next
      (state.out ++ (state.pool.saved ++ place.held))
    rw [held]
    exact distinct
  · change place.Proper state.pool.history.used state.out
    rw [used]
    exact proper

/-- The pool changes in what does not count. -/
theorem Invariant.pool (invariant : Invariant limit state)
    {pool : ByteBufferPool}
    (history : state.pool.history.SameCounts pool.history)
    (saved : pool.saved = state.pool.saved)
    (buffer : pool.next = state.pool.next) :
    Invariant limit { state with pool := pool } := by
  obtain ⟨counts, distinct, proper, failed⟩ := invariant
  refine ⟨?_, ?_, proper, failed⟩
  · dsimp only
    rw [saved]
    exact counts.same history
  · dsimp only
    rw [saved, buffer]
    exact distinct

/-- An allocation reserves what it asks for, or is refused. -/
theorem Invariant.reserve (invariant : Invariant limit state)
    (idle : state.place = .idle) {k : Int} (positive : 0 < k)
    (small : k < 2 ^ 31) (place : Place) (busy : place ≠ .idle)
    (reserved : (place.reserved : Int) = k) (held : place.held = [])
    (proper : place.Proper state.out.length state.out)
    (notify : Option Nat) :
    Invariant limit
      ((state.enter .idle).use k place (State.refuse notify)) := by
  have entered := invariant.used_of_idle idle
  have calm : Invariant limit (state.enter .idle) :=
    invariant.enter idle rfl rfl trivial
  unfold State.use
  cases adjusted : (state.enter .idle).pool.history.adjustUsed k with
  | error thrown => exact calm.leave rfl rfl fun _ => entered
  | ok pair =>
      obtain ⟨within, history⟩ := pair
      rcases History.adjustUsed_ok calm.counts.bounded positive small
        adjusted with ⟨rfl, rfl⟩ | ⟨rfl, fits, rfl⟩
      · cases notify with
        | none => exact calm.leave rfl rfl fun _ => entered
        | some notify =>
            have registered : Invariant limit
                ((state.enter .idle).within
                  (state.pool.register notify) .idle) :=
              calm.pool (.refl _) rfl rfl
            exact registered.leave rfl rfl fun _ => entered
      · obtain ⟨counts, distinct, _, _⟩ := calm
        obtain ⟨itsLimit, small, used, alloc, _, allocWithin⟩ := counts
        refine ⟨⟨itsLimit, small, ?_, ?_, ?_, ?_⟩, ?_, ?_, nofun⟩
        · simpa [State.within, State.enter, reserved] using used
        · simpa [State.within, State.enter, held] using alloc
        · have fits' : state.pool.history.used + k ≤ limit :=
            itsLimit ▸ fits
          rw [entered] at fits'
          simpa [State.within, State.enter, reserved] using fits'
        · simpa [State.within, State.enter, held] using allocWithin
        · simpa [State.within, State.enter, held] using distinct
        · change place ≠ .idle ∧
            place.Proper state.pool.history.used state.out
          rw [entered]
          exact ⟨busy, proper⟩

/-- A pool with one used buffer less. -/
def unused (pool : ByteBufferPool) : ByteBufferPool :=
  { pool with
    history := { pool.history with used := pool.history.used - 1 } }

theorem use_back (bounded : state.pool.history.Bounded)
    (inUse : 0 < state.pool.history.used) (place : Place)
    (refused : State → State) :
    state.use (-1) place refused =
      state.within state.pool.unused
        (.bump (state.pool.history.used - 1) place) := by
  rw [State.use, History.adjustUsed_back bounded inUse]
  rfl

/-- A buffer that was counted as used is used no longer. -/
theorem Invariant.unuse (invariant : Invariant limit state)
    {out : List Buffer} {place : Place} {value : Int}
    (busy : place ≠ .idle)
    (fewer : out.length + place.reserved + 1 =
      state.out.length + state.place.reserved)
    (same : out.length + place.held.length =
      state.out.length + state.place.held.length)
    (perm : (state.out ++ (state.pool.saved ++ state.place.held)).Perm
      (out ++ (state.pool.saved ++ place.held)))
    (proper : place.Proper state.entered out) :
    Invariant limit
      { state.within state.pool.unused (.bump value place) with
        out := out } := by
  obtain ⟨counts, distinct, _, _⟩ := invariant
  obtain ⟨itsLimit, small, used, alloc, usedWithin, allocWithin⟩ := counts
  refine ⟨⟨itsLimit, small, ?_, ?_, ?_, ?_⟩, ?_, ⟨busy, proper⟩, nofun⟩
  · change state.pool.history.used - 1 = out.length + place.reserved
    omega
  · change state.pool.history.alloc =
      out.length + state.pool.saved.length + place.held.length
    omega
  · change (out.length : Int) + place.reserved ≤ limit
    omega
  · change (out.length : Int) + state.pool.saved.length +
      place.held.length ≤ limit
    omega
  · exact distinct.perm perm

/-- A buffer that was reserved is obtained. -/
theorem Invariant.obtained (invariant : Invariant limit state)
    (room : state.place.held.length < state.place.reserved)
    {memory : Bool} {buf : Buffer} {pool : ByteBufferPool}
    (does : state.pool.allocBuf memory = .ok (buf, pool))
    {out : List Buffer} {place : Place} {outcome : Outcome}
    (reserved : out.length + place.reserved =
      state.out.length + state.place.reserved)
    (more : out.length + place.held.length =
      state.out.length + state.place.held.length + 1)
    (perm : ∀ saved : List Buffer,
      (buf :: (state.out ++ (saved ++ state.place.held))).Perm
        (out ++ (saved ++ place.held)))
    (proper : place.Proper state.entered out)
    (done : place = .idle → outcome.failed = false) :
    Invariant limit ⟨pool, place, out, state.entered, outcome⟩ := by
  have bounded := invariant.counts.bounded
  obtain ⟨counts, distinct, _, _⟩ := invariant
  obtain ⟨itsLimit, small, used, alloc, usedWithin, allocWithin⟩ := counts
  have finished (idle : place = .idle) (failed : outcome.failed = true) :
      state.entered = out.length :=
    nomatch (done idle).symm.trans failed
  unfold allocBuf at does
  cases last : state.pool.saved.getLast? with
  | some buf' =>
      -- the saved buffer that is taken changes place only
      rw [last] at does
      obtain ⟨rfl, rfl⟩ := Prod.mk.inj (Except.ok.inj does)
      obtain ⟨saved, split⟩ := List.getLast?_eq_some_iff.mp last
      have fewer : state.pool.saved.dropLast = saved := by
        rw [split, List.dropLast_concat]
      have length : state.pool.saved.length = saved.length + 1 := by
        rw [split, List.length_append]
        rfl
      refine ⟨⟨itsLimit, small, ?_, ?_, ?_, ?_⟩, ?_, proper, finished⟩
      · dsimp only
        omega
      · dsimp only
        rw [fewer]
        omega
      · dsimp only
        omega
      · dsimp only
        rw [fewer]
        omega
      · dsimp only
        rw [fewer]
        refine distinct.perm (List.Perm.trans ?_ (perm saved))
        rw [split]
        rw [List.append_assoc, List.singleton_append, ← List.append_assoc,
          ← List.append_assoc]
        exact List.perm_middle
  | none =>
      rw [last] at does
      dsimp only at does
      cases memory with
      | false => exact nomatch does
      | true =>
          have empty := List.getLast?_eq_none_iff.mp last
          have free : state.pool.history.alloc <
              state.pool.history.limit := by
            rw [empty, List.length_nil] at alloc
            omega
          rw [if_pos rfl, History.adjustAlloc_one bounded free] at does
          obtain ⟨rfl, rfl⟩ := Prod.mk.inj (Except.ok.inj does)
          rw [empty] at alloc allocWithin distinct
          refine ⟨⟨itsLimit, small, ?_, ?_, ?_, ?_⟩, ?_, proper, finished⟩
          · dsimp only
            omega
          · dsimp only
            rw [empty]
            omega
          · dsimp only
            omega
          · dsimp only
            rw [empty]
            omega
          · dsimp only
            rw [empty]
            exact distinct.new.perm (perm [])

/-- A reserved buffer is saved, or is within the limit on allocations. -/
theorem Invariant.allocBuf_ok (invariant : Invariant limit state)
    (room : state.place.held.length < state.place.reserved) {memory : Bool}
    (possible : memory = true ∨ state.pool.saved ≠ []) :
    ∃ buf pool, state.pool.allocBuf memory = .ok (buf, pool) := by
  have bounded := invariant.counts.bounded
  obtain ⟨itsLimit, small, used, alloc, usedWithin, allocWithin⟩ :=
    invariant.counts
  unfold allocBuf
  cases last : state.pool.saved.getLast? with
  | some buf => exact ⟨_, _, rfl⟩
  | none =>
      have empty := List.getLast?_eq_none_iff.mp last
      obtain rfl := possible.resolve_right (absurd empty)
      rw [empty, List.length_nil] at alloc
      rw [if_pos rfl, History.adjustAlloc_one bounded (by omega)]
      exact ⟨_, _, rfl⟩

/-- The call is somewhere else with as much reserved and held. -/
theorem Invariant.move (invariant : Invariant limit state) {place : Place}
    (reserved : place.reserved = state.place.reserved)
    (held : place.held = state.place.held)
    (proper : place.Proper state.entered state.out)
    (busy : place ≠ .idle) :
    Invariant limit { state with place := place } := by
  obtain ⟨counts, distinct, _, _⟩ := invariant
  rw [← reserved, ← held] at counts
  rw [← held] at distinct
  exact ⟨counts, distinct, proper, fun idle => absurd idle busy⟩

/-- A buffer that was given back is saved, or dropped. -/
theorem Invariant.saved (invariant : Invariant limit state)
    {buf : Buffer} {bufs : List (Option Buffer)}
    (saving : state.place = .save buf bufs none)
    (does : some next = match state.pool.save buf with
      | .error thrown => some (state.leave (.threw thrown))
      | .ok pool => some (state.within pool (.release bufs none))) :
    Invariant limit next := by
  have bounded := invariant.counts.bounded
  obtain ⟨counts, distinct, proper, _⟩ := invariant
  rw [saving] at counts distinct proper
  obtain ⟨itsLimit, small, used, alloc, usedWithin, allocWithin⟩ := counts
  simp only [Place.reserved, Place.held, List.length_singleton] at *
  unfold ByteBufferPool.save at does
  by_cases few : state.pool.saved.length < state.pool.history.suggested
  · rw [if_pos few] at does
    obtain rfl := Option.some.inj does
    refine ⟨⟨itsLimit, small, used, ?_, usedWithin, ?_⟩, ?_, proper, nofun⟩
    · simp [State.within]
      omega
    · simp [State.within]
      omega
    · simpa [State.within] using distinct
  · rw [if_neg few, History.adjustAlloc_back bounded (by omega)] at does
    obtain rfl := Option.some.inj does
    refine ⟨⟨itsLimit, small, used, ?_, usedWithin, ?_⟩, ?_, proper, nofun⟩
    · simp [State.within]
      omega
    · simp [State.within]
      omega
    · refine distinct.sublist ?_
      simp [State.within]

/-- A step of the thread that holds the lock. -/
theorem Invariant.proceed (invariant : Invariant limit state)
    {memory : Bool} (sound : ¬Fails state (.proceed memory))
    (does : state.proceed memory = some next) : Invariant limit next := by
  obtain ⟨pool, place, out, entered, outcome⟩ := state
  have proper := invariant.proper
  cases place with
  | idle => exact nomatch does
  | bump value place =>
      obtain rfl := Option.some.inj does
      obtain ⟨counts, distinct, ⟨busy, proper⟩, _⟩ := invariant
      exact ⟨counts.same (pool.history.sameCounts_bump value), distinct,
        proper, fun idle => absurd idle busy⟩
  | allocBuf =>
      dsimp only [State.proceed] at does
      cases allocated : pool.allocBuf memory with
      | error thrown =>
          rw [allocated] at does
          obtain rfl := Option.some.inj does
          exact invariant.move rfl rfl proper nofun
      | ok pair =>
          obtain ⟨buf, pool'⟩ := pair
          rw [allocated] at does
          obtain rfl := Option.some.inj does
          exact invariant.obtained Nat.one_pos allocated rfl rfl
            (fun saved => .refl _) trivial fun _ => rfl
  | newArray count =>
      cases memory with
      | false => exact absurd trivial sound
      | true =>
          obtain rfl := Option.some.inj does
          exact invariant.move rfl rfl ⟨Nat.zero_le _, proper⟩ nofun
  | allocBufs count bufs =>
      obtain ⟨short, same⟩ := proper
      dsimp only [State.proceed] at does
      by_cases more : bufs.length < count
      · rw [if_pos more] at does
        have possible : memory = true ∨ pool.saved ≠ [] := by
          cases memory with
          | true => exact Or.inl rfl
          | false => exact Or.inr fun empty => sound ⟨more, empty⟩
        obtain ⟨buf, pool', allocated⟩ :=
          invariant.allocBuf_ok more possible
        dsimp only at allocated
        rw [allocated] at does
        obtain rfl := Option.some.inj does
        refine invariant.obtained more allocated rfl ?_ (fun saved => ?_)
          ⟨?_, same⟩ nofun
        · exact congrArg (out.length + ·) List.length_append
        · have last : out ++ (saved ++ (bufs ++ [buf])) =
              (out ++ (saved ++ bufs)) ++ [buf] := by simp
          exact ((List.perm_append_singleton buf _).symm.trans
            (.of_eq last.symm))
        · rw [List.length_append]
          exact more
      · rw [if_neg more] at does
        obtain rfl := Option.some.inj does
        obtain rfl : count = bufs.length :=
          Nat.le_antisymm (Nat.not_lt.mp more) short
        obtain ⟨counts, distinct, _, _⟩ := invariant
        obtain ⟨itsLimit, small, used, alloc, usedWithin, allocWithin⟩ :=
          counts
        simp only [Place.reserved, Place.held] at *
        refine ⟨⟨itsLimit, small, ?_, ?_, ?_, ?_⟩, ?_, trivial, nofun⟩
        · simp [State.leave]
          omega
        · simp [State.leave]
          omega
        · simp [State.leave]
          omega
        · simp [State.leave]
          omega
        · refine distinct.perm ?_
          simp only [State.leave, Place.held, List.append_nil,
            ← List.append_assoc]
          exact List.perm_append_comm.trans (.of_eq
            (List.append_assoc ..).symm)
  | unreserve thrown =>
      have used := invariant.counts.used
      have inUse : 0 < pool.history.used := by
        simp only [Place.reserved] at used
        omega
      dsimp only [State.proceed] at does
      rw [use_back invariant.counts.bounded inUse] at does
      obtain rfl := Option.some.inj does
      exact invariant.unuse nofun rfl rfl (.refl _) proper
  | throwing thrown =>
      obtain rfl := Option.some.inj does
      exact invariant.leave rfl rfl fun _ => proper
  | release bufs failure =>
      obtain ⟨rfl, owned⟩ := proper
      cases bufs with
      | nil =>
          obtain rfl := Option.some.inj does
          exact invariant.move rfl rfl rfl nofun
      | cons first bufs =>
          cases first with
          | none =>
              obtain rfl := Option.some.inj does
              exact invariant.move rfl rfl ⟨rfl, owned⟩ nofun
          | some buf =>
              have mem : buf ∈ out :=
                owned.subset List.mem_cons_self
              have used := invariant.counts.used
              have inUse : 0 < pool.history.used := by
                have := List.length_pos_of_mem mem
                simp only at used
                omega
              dsimp only [State.proceed] at does
              rw [use_back invariant.counts.bounded inUse] at does
              obtain rfl := Option.some.inj does
              have length := List.length_erase_add_one mem
              refine invariant.unuse nofun length ?_ ?_
                ⟨rfl, ?_⟩
              · exact length
              · dsimp only [Place.held]
                rw [List.append_nil, ← List.append_assoc]
                have moved := (List.perm_cons_erase mem).append_right
                  pool.saved
                exact moved.trans (List.perm_append_singleton buf _).symm
              · have rest := owned.erase buf
                rwa [List.reduceOption_cons_of_some,
                  List.erase_cons_head] at rest
  | save buf bufs failure =>
      obtain ⟨rfl, owned⟩ := proper
      exact invariant.saved rfl does.symm
  | notifyWaiters failure =>
      obtain rfl := proper
      obtain rfl := Option.some.inj does
      have calm : Invariant limit
          ⟨pool.notifyWaiters, .notifyWaiters none, out, entered,
            outcome⟩ := by
        have unchanged : pool.notifyWaiters.history = pool.history ∧
            pool.notifyWaiters.saved = pool.saved ∧
            pool.notifyWaiters.next = pool.next := by
          unfold notifyWaiters
          split_ifs <;> exact ⟨rfl, rfl, rfl⟩
        exact invariant.pool (unchanged.1 ▸ .refl _) unchanged.2.1
          unchanged.2.2
      exact calm.leave rfl rfl nofun
  | trimSaved n =>
      dsimp only [State.proceed] at does
      by_cases more : (pool.saved.length : Int) > n
      · rw [if_pos more] at does
        cases saved : pool.saved with
        | nil =>
            rw [saved] at does
            obtain rfl := Option.some.inj does
            exact invariant.leave rfl rfl fun _ => proper
        | cons first rest =>
            have alloc := invariant.counts.alloc
            have some : 0 < pool.history.alloc := by
              dsimp only at alloc
              rw [saved, List.length_cons] at alloc
              omega
            rw [saved] at does
            dsimp only at does
            rw [History.adjustAlloc_back invariant.counts.bounded some]
              at does
            obtain rfl := Option.some.inj does
            obtain ⟨counts, distinct, _, _⟩ := invariant
            obtain ⟨itsLimit, small, used, alloc, usedWithin, allocWithin⟩ :=
              counts
            simp only [Place.reserved, Place.held, saved] at *
            refine ⟨⟨itsLimit, small, used, ?_, usedWithin, ?_⟩, ?_,
              proper, nofun⟩
            · simp [State.within] at *
              omega
            · simp [State.within] at *
              omega
            · refine distinct.sublist ?_
              exact (List.Sublist.refl out).append
                ((List.dropLast_sublist _).append (.refl []))
      · rw [if_neg more] at does
        obtain rfl := Option.some.inj does
        exact invariant.leave rfl rfl nofun

/-- What any step keeps. -/
theorem Invariant.step (invariant : Invariant limit state) {action : Action}
    (sound : Sound state action)
    (does : step state action = some next) : Invariant limit next := by
  cases action with
  | alloc notify =>
      obtain ⟨idle, rfl⟩ := Option.ite_some_none_eq_some.mp does
      exact invariant.reserve idle Int.one_pos (by decide) .allocBuf nofun
        rfl rfl rfl notify
  | allocMany notify count =>
      obtain ⟨idle, rfl⟩ := Option.ite_some_none_eq_some.mp does
      have entered := invariant.used_of_idle idle
      have calm : Invariant limit (state.enter .idle) :=
        invariant.enter idle rfl rfl trivial
      unfold State.allocMany
      split_ifs with negative exceeds
      · exact calm.leave rfl rfl fun _ => entered
      · exact calm.leave rfl rfl fun _ => entered
      · have positive : 0 < count.toInt := by omega
        exact invariant.reserve idle positive count.toInt_lt
          (.newArray count.toInt.toNat) nofun
          (Int.toNat_of_nonneg (Int.le_of_lt positive)) rfl rfl notify
  | release buf =>
      obtain ⟨idle, rfl⟩ := Option.ite_some_none_eq_some.mp does
      exact invariant.enter idle rfl rfl ⟨rfl, sound.2⟩
  | releaseMany bufs =>
      obtain ⟨idle, rfl⟩ := Option.ite_some_none_eq_some.mp does
      have calm : Invariant limit (state.enter .idle) :=
        invariant.enter idle rfl rfl trivial
      unfold State.releaseMany
      cases bufs with
      | none => exact calm.leave rfl rfl nofun
      | some bufs =>
          dsimp only
          split_ifs
          · exact calm.leave rfl rfl nofun
          · exact invariant.enter idle rfl rfl ⟨rfl, sound.2⟩
  | trimSaved =>
      obtain ⟨idle, rfl⟩ := Option.ite_some_none_eq_some.mp does
      exact invariant.enter idle rfl rfl rfl
  | proceed memory => exact invariant.proceed sound.1 does
  | tickle =>
      obtain rfl := Option.some.inj does
      exact invariant.pool (History.sameCounts_tickle _) rfl rfl
  | register notify =>
      obtain rfl := Option.some.inj does
      exact invariant.pool (.refl _) rfl rfl
  | unregister notify =>
      obtain rfl := Option.some.inj does
      exact invariant.pool (.refl _) rfl rfl

/-- Any step, also one that is not sound. -/
def Step (state next : State) : Prop :=
  ∃ action, step state action = some next

def run (state : State) : List Action → Option State
  | [] => some state
  | action :: actions => do
      let next ← step state action
      run next actions

theorem reaches_of_run {actions : List Action}
    (runs : run state actions = some next) :
    Relation.ReflTransGen Step state next := by
  induction actions generalizing state with
  | nil =>
      obtain rfl := Option.some.inj runs
      exact .refl
  | cons action actions ih =>
      obtain ⟨middle, first, rest⟩ := Option.bind_eq_some_iff.mp runs
      exact .head ⟨action, first⟩ (ih rest)

/-- A pool of at most two buffers. -/
def couple : ByteBufferPool :=
  ⟨⟨0, 2, [], 0, 0, 0, 0⟩, [], [], [], 0⟩

/-- Two buffers are asked for, and there is memory for one. -/
def halfway : List Action :=
  [.allocMany none 2, .proceed true, .proceed true, .proceed true,
    .proceed false, .proceed true, .proceed true, .proceed true,
    .proceed true, .proceed true, .proceed true]

end Steps

end ByteBufferPool

end Etch.Java
