import Etch.C.QueueApr

/-!
# What the C `etch_apr_queue_t` promises

The ring holds what has been pushed and not been popped yet.  As long as the
threads are fair, there is an element, or room, for every thread that has been
signalled.
-/

namespace Etch.C

open Etch.Library Etch.Library.Transition

namespace EtchAprQueue

variable {T Thread : Type} [DecidableEq Thread] [Fintype Thread]

/-! ## Signals -/

theorem Call.woken_eq_term {call : Call T} {wake : Wake}
    (same : call.woken wake = .term) : call = .term := by
  cases call <;> trivial

@[simp]
theorem Call.promisedRoom_interrupted (call : Call T) :
    (call.woken .interrupted).promisedRoom = false := by
  cases call <;> simp [woken, promisedRoom]

@[simp]
theorem Call.promisedElement_interrupted (call : Call T) :
    (call.woken .interrupted).promisedElement = false := by
  cases call <;> simp [woken, promisedElement]

@[simp]
theorem Call.promisedRoom_asleep {timeout : Int} {data : T} :
    (notFull timeout data .asleep).promisedRoom = false := by
  simp [promisedRoom]

@[simp]
theorem Call.promisedElement_asleep {timeout : Int} :
    (notEmpty timeout .asleep : Call T).promisedElement = false := by
  simp [promisedElement]

/-- A thread that is signalled for one condition is promised nothing by the
other. -/
theorem Call.promisedRoom_signalled (call : Call T)
    (waits : call.waitsEmpty = some .asleep) :
    (call.woken .signalled).promisedRoom = false := by
  cases call <;> first | rfl | cases waits

theorem Call.promisedElement_signalled (call : Call T)
    (waits : call.waitsFull = some .asleep) :
    (call.woken .signalled).promisedElement = false := by
  cases call <;> first | rfl | cases waits

/-- A signal wakes one thread that is asleep, or none. -/
theorem signalWaiters_cases {waiters : Nat} {waits : Call T → Option Wake}
    {calls next : Thread → Call T} {wakes : Option Thread}
    (signals : signalWaiters waiters waits calls wakes = some next) :
    next = calls ∨
      ∃ thread, waits (calls thread) = some .asleep ∧
        next = Function.update calls thread
          ((calls thread).woken .signalled) := by
  unfold signalWaiters at signals
  split at signals
  · split at signals
    · exact .inl (Option.some.inj signals).symm
    · contradiction
  · cases wakes with
    | none =>
        simp only [signal] at signals
        split at signals
        · exact .inl (Option.some.inj signals).symm
        · contradiction
    | some thread =>
        simp only [signal] at signals
        split at signals
        next asleep =>
          exact .inr ⟨thread, asleep, (Option.some.inj signals).symm⟩
        · contradiction

/-! ## Promises to threads -/

/-- The promise a thread has been given goes, and its next one comes. -/
theorem promised_update (kind : Call T → Bool) (calls : Thread → Call T)
    (thread : Thread) (call : Call T) :
    promised kind (Function.update calls thread call) +
        (kind (calls thread)).toNat =
      promised kind calls + (kind call).toNat :=
  Census.census_update _ calls thread call

/-- A thread that goes on without a promise. -/
theorem promised_update_le (kind : Call T → Bool) (calls : Thread → Call T)
    (thread : Thread) {call : Call T} (quiet : kind call = false) :
    promised kind (Function.update calls thread call) ≤
      promised kind calls := by
  have update := promised_update kind calls thread call
  rw [quiet, Bool.toNat_false, Nat.add_zero] at update
  omega

/-- A thread that takes what it has been promised. -/
theorem promised_update_lt {kind : Call T → Bool} {calls : Thread → Call T}
    {thread : Thread} {call : Call T} (own : kind (calls thread) = true)
    (quiet : kind call = false) :
    promised kind (Function.update calls thread call) <
      promised kind calls := by
  have update := promised_update kind calls thread call
  rw [quiet, own, Bool.toNat_false, Bool.toNat_true] at update
  omega

omit [DecidableEq Thread] in
theorem promised_pos {kind : Call T → Bool} {calls : Thread → Call T}
    {thread : Thread} (own : kind (calls thread) = true) :
    0 < promised kind calls :=
  Census.census_pos thread own

omit [DecidableEq Thread] in
theorem promised_eq_zero {kind : Call T → Bool} {calls : Thread → Call T}
    (quiet : ∀ thread, kind (calls thread) = false) :
    promised kind calls = 0 :=
  Census.census_eq_zero_iff.mpr quiet

/-- A thread that returns promises to one thread at most. -/
theorem promised_signal_le {waiters : Nat} {waits : Call T → Option Wake}
    {kind : Call T → Bool} {calls next : Thread → Call T} {thread : Thread}
    {wakes : Option Thread} (quiet : kind .idle = false)
    (signals : signalWaiters waiters waits
      (Function.update calls thread .idle) wakes = some next) :
    promised kind next ≤ promised kind calls + 1 := by
  have returned := promised_update_le kind calls thread quiet
  rcases signalWaiters_cases signals with rfl | ⟨woken, _, rfl⟩
  · omega
  · have update := promised_update kind
      (Function.update calls thread .idle) woken
      ((Function.update calls thread .idle woken).woken .signalled)
    have atMost := Bool.toNat_le
      (kind ((Function.update calls thread .idle woken).woken .signalled))
    omega

/-- A thread that returns takes what it has been promised itself, or what is
promised to nobody. -/
theorem promised_return_lt {waiters bound : Nat}
    {waits : Call T → Option Wake} {kind : Call T → Bool}
    {calls next : Thread → Call T} {thread : Thread} {wakes : Option Thread}
    (apart : ∀ call, waits call = some .asleep →
      kind (call.woken .signalled) = false)
    (quiet : kind .idle = false)
    (signals : signalWaiters waiters waits
      (Function.update calls thread .idle) wakes = some next)
    (kept : promised kind calls ≤ bound)
    (spare : kind (calls thread) = true ∨ promised kind calls < bound) :
    promised kind next < bound := by
  have returned : promised kind (Function.update calls thread .idle) <
      bound := by
    rcases spare with own | spare
    · exact (promised_update_lt own quiet).trans_le kept
    · exact (promised_update_le kind calls thread quiet).trans_lt spare
  rcases signalWaiters_cases signals with rfl | ⟨woken, asleep, rfl⟩
  · exact returned
  · exact (promised_update_le kind _ woken (apart _ asleep)).trans_lt
      returned

theorem term_of_signalWaiters {waiters : Nat}
    {waits : Call T → Option Wake} {calls next : Thread → Call T}
    {wakes : Option Thread}
    (signals : signalWaiters waiters waits calls wakes = some next)
    {thread : Thread} (term : next thread = .term) :
    calls thread = .term := by
  rcases signalWaiters_cases signals with rfl | ⟨woken, _, rfl⟩
  · exact term
  · by_cases same : thread = woken
    · subst same
      rw [Function.update_self] at term
      exact Call.woken_eq_term term
    · rwa [Function.update_of_ne same] at term

omit [Fintype Thread] in
/-- A thread that goes anywhere else is in no `term`. -/
theorem term_of_update {calls : Thread → Call T} {thread : Thread}
    {call : Call T} (other : call ≠ .term) {witness : Thread}
    (term : Function.update calls thread call witness = .term) :
    calls witness = .term := by
  by_cases same : witness = thread
  · subst same
    rw [Function.update_self] at term
    exact absurd term other
  · rwa [Function.update_of_ne same] at term

/-! ## What every fair step keeps -/

/-- The ring carries what has been pushed and not been popped yet. -/
structure InOrder (queue : EtchAprQueue T) (events : List (Event T))
    (contents : List T) : Prop where
  carries : Ring.Carries queue.data queue.bounds queue.out contents
  nelts : queue.nelts = contents.length
  input : queue.input = (queue.out + contents.length) % queue.bounds
  out : 0 < queue.bounds → queue.out < queue.bounds
  pushed_eq : pushed events = popped events ++ contents

namespace InOrder

variable {queue : EtchAprQueue T} {events : List (Event T)}
  {contents : List T}

/-- An element is stored behind all the others. -/
theorem stored (inOrder : InOrder queue events contents)
    (space : queue.nelts < queue.bounds) (data : T) :
    InOrder (queue.stored data) (.pushed data :: events)
      (contents ++ [data]) where
  carries := by
    have carries := inOrder.carries.push
      (inOrder.nelts ▸ space : contents.length < queue.bounds) data
    rwa [← inOrder.input] at carries
  nelts := by
    rw [List.length_append, List.length_singleton, ← inOrder.nelts]
    rfl
  input := by
    show (queue.input + 1) % queue.bounds = _
    rw [inOrder.input, Nat.mod_add_mod, List.length_append,
      List.length_singleton, Nat.add_assoc]
    rfl
  out := inOrder.out
  pushed_eq := by
    show pushed (.pushed data :: events) = popped events ++ _
    rw [← List.append_assoc, ← inOrder.pushed_eq]
    simp [pushed]

/-- The element that is taken is the first one. -/
theorem taken (inOrder : InOrder queue events contents)
    (holds : queue.nelts ≠ 0) :
    ∃ rest, InOrder queue.taken
      (.popped (queue.data queue.out) :: events) rest := by
  cases contents with
  | nil => exact absurd inOrder.nelts holds
  | cons first rest =>
      have positive : 0 < queue.bounds :=
        Nat.lt_of_lt_of_le (Nat.succ_pos _) inOrder.carries.fits
      refine ⟨rest, ?_⟩
      exact
        { carries := inOrder.carries.pop
          nelts := by
            show queue.nelts - 1 = rest.length
            rw [inOrder.nelts]
            rfl
          input := by
            show queue.input =
              ((queue.out + 1) % queue.bounds + rest.length) % queue.bounds
            rw [inOrder.input, Nat.mod_add_mod, List.length_cons,
              Nat.add_right_comm, Nat.add_assoc]
          out := fun _ => Nat.mod_lt _ positive
          pushed_eq := by
            show pushed events = popped (.popped _ :: events) ++ rest
            rw [inOrder.pushed_eq, inOrder.carries.first
              (inOrder.out positive)]
            simp [popped] }

end InOrder

structure Keeps (system : System T Thread) : Prop where
  inOrder : ∃ contents, InOrder system.queue system.events contents
  /-- there is room for those who have been told so -/
  room : promised Call.promisedRoom system.calls + system.queue.nelts ≤
    system.queue.bounds
  /-- there are elements for those who have been told so -/
  elements : promised Call.promisedElement system.calls ≤ system.queue.nelts
  terminating : ∀ thread, system.calls thread = .term →
    system.queue.terminated = true
  terminated : .terminated ∈ system.events →
    system.queue.terminated = true
  closed : Closed system.events
  interrupted : ∀ wake, .failed 0 wake .eintr ∈ system.events →
    wake = .interrupted

omit [DecidableEq Thread] in
theorem Keeps.promises {system : System T Thread} (keeps : Keeps system) :
    Promises system.events where
  inOrder := by
    obtain ⟨contents, inOrder⟩ := keeps.inOrder
    exact ⟨contents, inOrder.pushed_eq.symm⟩
  closed := keeps.closed
  interrupted := keeps.interrupted

omit [DecidableEq Thread] in
theorem Keeps.start (null : T) (queue_capacity : Nat) :
    Keeps (System.start null queue_capacity : System T Thread) where
  inOrder := ⟨[], Ring.Carries.nil _ _ _, rfl, (Nat.zero_mod _).symm, id,
    rfl⟩
  room := by
    have none : promised Call.promisedRoom
        (System.start null queue_capacity : System T Thread).calls = 0 :=
      promised_eq_zero fun _ => rfl
    rw [none]
    exact Nat.zero_le _
  elements := by
    have none : promised Call.promisedElement
        (System.start null queue_capacity : System T Thread).calls = 0 :=
      promised_eq_zero fun _ => rfl
    rw [none]
    exact Nat.zero_le _
  terminating := nofun
  terminated := nofun
  closed := trivial
  interrupted := nofun

omit [DecidableEq Thread] in
theorem Fair.waiters {system : System T Thread} {thread : Thread}
    (fair : Fair system thread) (full_waiters empty_waiters : Nat) :
    Fair { system with
      queue := { system.queue with full_waiters, empty_waiters } } thread :=
  ⟨fair.open_stores, fair.room, fair.elements⟩

namespace Keeps

variable {system next : System T Thread}

omit [DecidableEq Thread] in
/-- The waiters are counted for the signals only. -/
theorem waiters (keeps : Keeps system) (full_waiters empty_waiters : Nat) :
    Keeps { system with
      queue := { system.queue with full_waiters, empty_waiters } } where
  inOrder := by
    obtain ⟨contents, inOrder⟩ := keeps.inOrder
    exact ⟨contents, inOrder.carries, inOrder.nelts, inOrder.input,
      inOrder.out, inOrder.pushed_eq⟩
  room := keeps.room
  elements := keeps.elements
  terminating := keeps.terminating
  terminated := keeps.terminated
  closed := keeps.closed
  interrupted := keeps.interrupted

/-- A thread goes somewhere else, to a wait or not. -/
theorem goes (keeps : Keeps system) (thread : Thread) {call : Call T}
    (full : call.promisedRoom = false)
    (empty : call.promisedElement = false)
    (other : call ≠ .term) : Keeps (system.goes thread call) where
  inOrder := keeps.inOrder
  room := (Nat.add_le_add_right (promised_update_le _ _ _ full) _).trans keeps.room
  elements := (promised_update_le _ _ _ empty).trans keeps.elements
  terminating _ term := keeps.terminating _ (term_of_update other term)
  terminated := keeps.terminated
  closed := keeps.closed
  interrupted := keeps.interrupted

/-- A thread that waits for ever returns `eintr` if it has been interrupted. -/
theorem fails (keeps : Keeps system) (thread : Thread) {timeout : Int}
    {wake : Wake} {status : Status}
    (interrupted : timeout = 0 → status = .eintr → wake = .interrupted) :
    Keeps (system.fails thread timeout wake status) where
  inOrder := by
    obtain ⟨contents, inOrder⟩ := keeps.inOrder
    exact ⟨contents, inOrder.carries, inOrder.nelts, inOrder.input,
      inOrder.out, inOrder.pushed_eq⟩
  room := (Nat.add_le_add_right (promised_update_le _ _ _ rfl) _).trans
    keeps.room
  elements := (promised_update_le _ _ _ rfl).trans keeps.elements
  terminating _ term := keeps.terminating _ (term_of_update (by nofun) term)
  terminated ended := by
    rcases List.mem_cons.mp ended with failed | ended
    · contradiction
    · exact keeps.terminated ended
  closed := keeps.closed
  interrupted other member := by
    rcases List.mem_cons.mp member with same | member
    · cases same
      exact interrupted rfl rfl
    · exact keeps.interrupted other member

/-- A push into a queue with room to spare. -/
theorem stores (keeps : Keeps system) {thread : Thread} {data : T}
    {wakes : Option Thread} (opened : system.queue.terminated = false)
    (spare : (system.calls thread).promisedRoom = true ∨
      promised Call.promisedRoom system.calls + system.queue.nelts <
        system.queue.bounds)
    (does : system.stores thread data wakes = some next) : Keeps next := by
  obtain ⟨calls, signals, same⟩ := Option.bind_eq_some_iff.mp does
  obtain rfl := Option.some.inj same
  have room := keeps.room
  have space : system.queue.nelts < system.queue.bounds := by
    rcases spare with own | spare
    · have promise := promised_pos own
      omega
    · omega
  exact
    { inOrder := by
        obtain ⟨contents, inOrder⟩ := keeps.inOrder
        exact ⟨contents ++ [data], inOrder.stored space data⟩
      room := by
        have fewer := promised_return_lt Call.promisedRoom_signalled rfl
          signals (Nat.le_sub_of_add_le room)
          (spare.imp_right Nat.lt_sub_of_add_lt)
        show promised Call.promisedRoom calls + (system.queue.nelts + 1) ≤
          system.queue.bounds
        omega
      elements := (promised_signal_le rfl signals).trans
        (Nat.succ_le_succ keeps.elements)
      terminating := fun other term => keeps.terminating other
        (term_of_update (by nofun) (term_of_signalWaiters signals term))
      terminated := by
        intro ended
        rcases List.mem_cons.mp ended with pushed | ended
        · contradiction
        · exact keeps.terminated ended
      closed := by
        refine ⟨fun ended => ?_, keeps.closed⟩
        rw [keeps.terminated ended] at opened
        contradiction
      interrupted := by
        intro wake member
        rcases List.mem_cons.mp member with pushed | member
        · contradiction
        · exact keeps.interrupted wake member }

/-- A pop from a queue with elements to spare. -/
theorem takes (keeps : Keeps system) {thread : Thread}
    {wakes : Option Thread}
    (spare : (system.calls thread).promisedElement = true ∨
      promised Call.promisedElement system.calls < system.queue.nelts)
    (does : system.takes thread wakes = some next) : Keeps next := by
  obtain ⟨calls, signals, same⟩ := Option.bind_eq_some_iff.mp does
  obtain rfl := Option.some.inj same
  have elements := keeps.elements
  have holds : system.queue.nelts ≠ 0 := by
    rcases spare with own | spare
    · have promise := promised_pos own
      omega
    · omega
  exact
    { inOrder := by
        obtain ⟨contents, inOrder⟩ := keeps.inOrder
        exact inOrder.taken holds
      room := by
        have more : promised Call.promisedRoom calls ≤ _ :=
          promised_signal_le rfl signals
        have room := keeps.room
        show promised Call.promisedRoom calls + (system.queue.nelts - 1) ≤
          system.queue.bounds
        omega
      elements := Nat.le_sub_one_of_lt
        (promised_return_lt Call.promisedElement_signalled rfl signals elements
          spare)
      terminating := fun other term => keeps.terminating other
        (term_of_update (by nofun) (term_of_signalWaiters signals term))
      terminated := by
        intro ended
        rcases List.mem_cons.mp ended with popped | ended
        · contradiction
        · exact keeps.terminated ended
      closed := keeps.closed
      interrupted := by
        intro wake member
        rcases List.mem_cons.mp member with popped | member
        · contradiction
        · exact keeps.interrupted wake member }

omit [DecidableEq Thread] in
/-- All promises are over once every thread has been interrupted. -/
theorem interruptAll (keeps : Keeps system) : Keeps system.interruptAll where
  inOrder := keeps.inOrder
  room := by
    have none : promised Call.promisedRoom system.interruptAll.calls = 0 :=
      promised_eq_zero fun thread => by simp [System.interruptAll]
    have room := keeps.room
    show promised Call.promisedRoom system.interruptAll.calls +
      system.queue.nelts ≤ system.queue.bounds
    omega
  elements := by
    have none : promised Call.promisedElement system.interruptAll.calls = 0 :=
      promised_eq_zero fun thread => by simp [System.interruptAll]
    rw [none]
    exact Nat.zero_le _
  terminating thread term :=
    keeps.terminating thread (Call.woken_eq_term term)
  terminated := keeps.terminated
  closed := keeps.closed
  interrupted := keeps.interrupted

/-- The first section of `term`. -/
theorem terminate (keeps : Keeps system) (thread : Thread) :
    Keeps { system.goes thread .term with
      queue := { system.queue with terminated := true } } where
  inOrder := by
    obtain ⟨contents, inOrder⟩ := keeps.inOrder
    exact ⟨contents, inOrder.carries, inOrder.nelts, inOrder.input,
      inOrder.out, inOrder.pushed_eq⟩
  room := (Nat.add_le_add_right (promised_update_le _ _ _ rfl) _).trans
    keeps.room
  elements := (promised_update_le _ _ _ rfl).trans keeps.elements
  terminating _ _ := rfl
  terminated _ := rfl
  closed := keeps.closed
  interrupted := keeps.interrupted

omit [DecidableEq Thread] in
/-- `term` returns. -/
theorem ends (keeps : Keeps system)
    (terminated : system.queue.terminated = true) :
    Keeps { system with events := .terminated :: system.events } where
  inOrder := by
    obtain ⟨contents, inOrder⟩ := keeps.inOrder
    exact ⟨contents, inOrder.carries, inOrder.nelts, inOrder.input,
      inOrder.out, inOrder.pushed_eq⟩
  room := keeps.room
  elements := keeps.elements
  terminating := keeps.terminating
  terminated _ := terminated
  closed := keeps.closed
  interrupted wake member := by
    rcases List.mem_cons.mp member with ended | member
    · contradiction
    · exact keeps.interrupted wake member

/-- A thread that may store finds room to spare. -/
theorem stores_of_fair (keeps : Keeps system) {thread : Thread} {data : T}
    {wakes : Option Thread} (fair : Fair system thread)
    (may : (system.calls thread).stores = true)
    (space : ¬system.queue.full = true)
    (does : system.stores thread data wakes = some next) : Keeps next :=
  have space := Bool.eq_false_iff.mpr space
  keeps.stores (fair.open_stores may space) (fair.room may space) does

/-- A thread that may take finds elements to spare. -/
theorem takes_of_fair (keeps : Keeps system) {thread : Thread}
    {wakes : Option Thread} (fair : Fair system thread)
    (may : (system.calls thread).takes = true)
    (holds : ¬system.queue.empty = true)
    (does : system.takes thread wakes = some next) : Keeps next :=
  keeps.takes (fair.elements may (Bool.eq_false_iff.mpr holds)) does

/-! ### The sections of the calls -/

theorem push (keeps : Keeps system) {thread : Thread} {timeout : Int}
    {data : T} {wakes : Option Thread} (fair : Fair system thread)
    (call : system.calls thread = .push timeout data)
    (does : system.push thread timeout data wakes = some next) :
    Keeps next := by
  unfold System.push at does
  split at does
  · split at does
    · obtain rfl := Option.some.inj does
      exact keeps.fails thread nofun
    · split at does
      · obtain rfl := Option.some.inj does
        exact keeps.fails thread nofun
      · obtain rfl := Option.some.inj does
        exact (keeps.goes thread Call.promisedRoom_asleep rfl
          (by nofun)).waiters _ _
  next space =>
    exact keeps.stores_of_fair fair (by rw [call]; rfl) space does

theorem trypush (keeps : Keeps system) {thread : Thread} {data : T}
    {wakes : Option Thread} (fair : Fair system thread)
    (call : system.calls thread = .trypush data)
    (does : system.trypush thread data wakes = some next) :
    Keeps next := by
  unfold System.trypush at does
  split at does
  · obtain rfl := Option.some.inj does
    exact keeps.fails thread nofun
  next space =>
    exact keeps.stores_of_fair fair (by rw [call]; rfl) space does

theorem pop (keeps : Keeps system) {thread : Thread} {timeout : Int}
    {wakes : Option Thread} (fair : Fair system thread)
    (call : system.calls thread = .pop timeout)
    (does : system.pop thread timeout wakes = some next) : Keeps next := by
  unfold System.pop at does
  split at does
  · split at does
    · obtain rfl := Option.some.inj does
      exact keeps.fails thread nofun
    · split at does
      · obtain rfl := Option.some.inj does
        exact keeps.fails thread nofun
      · obtain rfl := Option.some.inj does
        exact (keeps.goes thread rfl Call.promisedElement_asleep
          (by nofun)).waiters _ _
  next holds =>
    exact keeps.takes_of_fair fair (by rw [call]; rfl) holds does

theorem trypop (keeps : Keeps system) {thread : Thread}
    {wakes : Option Thread} (fair : Fair system thread)
    (call : system.calls thread = .trypop)
    (does : system.trypop thread wakes = some next) : Keeps next := by
  unfold System.trypop at does
  split at does
  · obtain rfl := Option.some.inj does
    exact keeps.fails thread nofun
  next holds =>
    exact keeps.takes_of_fair fair (by rw [call]; rfl) holds does

/-- A thread that has been signalled finds room. -/
theorem pushWoken (keeps : Keeps system) {thread : Thread} {timeout : Int}
    {data : T} {wake : Wake} {wakes : Option Thread}
    (fair : Fair system thread)
    (sound : (system.calls thread).sleepsForEver = false)
    (call : system.calls thread = .notFull timeout data wake)
    (does : system.pushWoken thread timeout data wake wakes = some next) :
    Keeps next := by
  simp only [System.pushWoken] at does
  have woken := keeps.waiters (system.queue.full_waiters - 1)
    system.queue.empty_waiters
  split at does
  next noRoom =>
    split at does
    · obtain rfl := Option.some.inj does
      exact woken.fails thread nofun
    · obtain rfl := Option.some.inj does
      refine woken.fails thread fun forEver _ => ?_
      cases wake with
      | asleep =>
          rw [call, forEver] at sound
          contradiction
      | signalled =>
          have promise : 0 < promised Call.promisedRoom system.calls :=
            promised_pos (by rw [call, forEver]; rfl)
          have room := keeps.room
          have full : system.queue.nelts = system.queue.bounds :=
            beq_iff_eq.mp noRoom
          omega
      | interrupted => rfl
  next space =>
    exact woken.stores_of_fair (fair.waiters _ _) (by rw [call]; rfl) space
      does

/-- A thread that has been signalled finds an element. -/
theorem popWoken (keeps : Keeps system) {thread : Thread} {timeout : Int}
    {wake : Wake} {wakes : Option Thread} (fair : Fair system thread)
    (sound : (system.calls thread).sleepsForEver = false)
    (call : system.calls thread = .notEmpty timeout wake)
    (does : system.popWoken thread timeout wake wakes = some next) :
    Keeps next := by
  simp only [System.popWoken] at does
  have woken := keeps.waiters system.queue.full_waiters
    (system.queue.empty_waiters - 1)
  split at does
  next nothing =>
    split at does
    · obtain rfl := Option.some.inj does
      exact woken.fails thread nofun
    · obtain rfl := Option.some.inj does
      refine woken.fails thread fun forEver _ => ?_
      cases wake with
      | asleep =>
          rw [call, forEver] at sound
          contradiction
      | signalled =>
          have promise : 0 < promised Call.promisedElement system.calls :=
            promised_pos (by rw [call, forEver]; rfl)
          have elements := keeps.elements
          have empty : system.queue.nelts = 0 := beq_iff_eq.mp nothing
          omega
      | interrupted => rfl
  next holds =>
    exact woken.takes_of_fair (fair.waiters _ _) (by rw [call]; rfl) holds
      does

/-- A wait that is over in time. -/
theorem timeUp (keeps : Keeps system) (thread : Thread)
    {timeout : Int} (full_waiters empty_waiters : Nat) :
    Keeps { system.fails thread timeout .asleep .timeup with
      queue := { system.queue with full_waiters, empty_waiters } } :=
  (keeps.waiters full_waiters empty_waiters).fails thread (by nofun)

/-- A call fails at its test of `terminated`, or goes on to the lock. -/
theorem tests (keeps : Keeps system) {thread : Thread} {timeout : Int}
    {call : Call T} {terminated : Prop} [Decidable terminated]
    (full : call.promisedRoom = false) (empty : call.promisedElement = false)
    (other : call ≠ .term)
    (does : (if terminated then
        some (system.fails thread timeout .asleep .eof)
      else some (system.goes thread call)) = some next) : Keeps next := by
  split at does
  · obtain rfl := Option.some.inj does
    exact keeps.fails thread nofun
  · obtain rfl := Option.some.inj does
    exact keeps.goes thread full empty other

theorem step (keeps : Keeps system) {action : Action T Thread}
    (sound : Sound system action)
    (does : EtchAprQueue.step system action = some next) : Keeps next := by
  cases action with
  | push thread timeout data =>
      simp only [EtchAprQueue.step] at does
      split at does
      · exact keeps.tests rfl rfl (by nofun) does
      · contradiction
  | trypush thread data =>
      simp only [EtchAprQueue.step] at does
      split at does
      · exact keeps.tests rfl rfl (by nofun) does
      · contradiction
  | pop thread timeout =>
      simp only [EtchAprQueue.step] at does
      split at does
      · exact keeps.tests rfl rfl (by nofun) does
      · contradiction
  | trypop thread =>
      simp only [EtchAprQueue.step] at does
      split at does
      · exact keeps.tests rfl rfl (by nofun) does
      · contradiction
  | interruptAll thread =>
      simp only [EtchAprQueue.step] at does
      split at does
      · obtain rfl := Option.some.inj does
        exact keeps.interruptAll
      · contradiction
  | term thread =>
      simp only [EtchAprQueue.step] at does
      split at does
      · obtain rfl := Option.some.inj does
        exact keeps.terminate thread
      · contradiction
  | lock thread wakes =>
      simp only [EtchAprQueue.step] at does
      split at does
      next call => exact keeps.push sound call does
      next call => exact keeps.trypush sound call does
      next call => exact keeps.pop sound call does
      next call => exact keeps.trypop sound call does
      next call =>
        obtain rfl := Option.some.inj does
        exact (keeps.interruptAll.goes thread rfl rfl
          (by nofun)).ends (keeps.terminating thread call)
      · contradiction
  | wake thread wakes =>
      simp only [EtchAprQueue.step] at does
      split at does
      next call => exact keeps.pushWoken sound.1 sound.2 call does
      next call => exact keeps.popWoken sound.1 sound.2 call does
      · contradiction
  | timeUp thread =>
      simp only [EtchAprQueue.step] at does
      split at does
      · split at does
        · contradiction
        · obtain rfl := Option.some.inj does
          exact keeps.timeUp thread _ _
      · split at does
        · contradiction
        · obtain rfl := Option.some.inj does
          exact keeps.timeUp thread _ _
      · contradiction

end Keeps

/-! ## Runs -/

/-- A pop that waits for ever is signalled by a push, and returns `eintr`
after another thread has taken the element. -/
def stolenElement : List (Action Nat (Fin 3)) :=
  [.pop 0 0, .lock 0 none, .push 1 0 7, .lock 1 (some 0), .trypop 2,
    .lock 2 none, .wake 0 none]

/-- A push that has found the queue open stores its data after a `term` has
returned. -/
def lateElement : List (Action Nat (Fin 3)) :=
  [.push 0 0 7, .term 1, .lock 1 none, .lock 0 none]

end EtchAprQueue

end Etch.C
