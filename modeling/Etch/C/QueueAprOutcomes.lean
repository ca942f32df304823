import Etch.C.QueueAprPromises

/-!
# What a section of an `etch_apr_queue_t` call does

A thread that has the lock goes to sleep, returns without success, stores its
data or takes an element.  Whichever it is, the ring carries what has been
pushed and not been popped.
-/

namespace Etch.C.EtchAprQueue

open Etch.Library

variable {T Thread : Type}

/-- What a queue holds, from the next filled location on. -/
def contents (queue : EtchAprQueue T) : List T :=
  (List.range queue.nelts).map fun index =>
    queue.data ((queue.out + index) % queue.bounds)

theorem InOrder.contents_eq {queue : EtchAprQueue T}
    {events : List (Event T)} {elements : List T}
    (inOrder : InOrder queue events elements) :
    queue.contents = elements := by
  apply List.ext_getElem
  · rw [contents, List.length_map, List.length_range, inOrder.nelts]
  · intro index _ inside
    simp only [contents, List.getElem_map, List.getElem_range]
    exact inOrder.carries.slot index inside

theorem InOrder.start (null : T) (queue_capacity : Nat) :
    InOrder (create null queue_capacity) [] [] :=
  ⟨Ring.Carries.nil _ _ _, rfl, (Nat.zero_mod _).symm, id, rfl⟩

theorem contents_eq_nil_iff {queue : EtchAprQueue T} :
    queue.contents = [] ↔ queue.empty = true := by
  simp [contents, empty]

/-! ## Rings with other waiters -/

/-- Two queues that differ in how many wait. -/
def SameRing (queue next : EtchAprQueue T) : Prop :=
  ∃ full_waiters empty_waiters,
    next = { queue with full_waiters, empty_waiters }

namespace SameRing

variable {queue next : EtchAprQueue T}

theorem refl (queue : EtchAprQueue T) : SameRing queue queue :=
  ⟨_, _, rfl⟩

theorem full_eq (same : SameRing queue next) : next.full = queue.full := by
  obtain ⟨_, _, rfl⟩ := same
  rfl

theorem contents_eq (same : SameRing queue next) :
    next.contents = queue.contents := by
  obtain ⟨_, _, rfl⟩ := same
  rfl

theorem terminated_eq (same : SameRing queue next) :
    next.terminated = queue.terminated := by
  obtain ⟨_, _, rfl⟩ := same
  rfl

theorem inOrder (same : SameRing queue next) {events : List (Event T)}
    {elements : List T} (inOrder : InOrder queue events elements) :
    InOrder next events elements := by
  obtain ⟨_, _, rfl⟩ := same
  exact ⟨inOrder.carries, inOrder.nelts, inOrder.input, inOrder.out,
    inOrder.pushed_eq⟩

end SameRing

/-! ## Outcomes -/

/-- The threads once one has returned, which may have signalled another. -/
structure Returned (calls : Thread → Call T) (thread : Thread)
    (next : Thread → Call T) : Prop where
  own : next thread = .idle
  others : ∀ other, other ≠ thread →
    next other = calls other ∨ next other = (calls other).woken .signalled

variable [DecidableEq Thread]

theorem Returned.update (calls : Thread → Call T) (thread : Thread) :
    Returned calls thread (Function.update calls thread .idle) where
  own := Function.update_self ..
  others _ differs := .inl (Function.update_of_ne differs ..)

/-- A signal is for a thread that is asleep, which is another one. -/
theorem Returned.of_signals [Fintype Thread] {waiters : Nat}
    {waits : Call T → Option Wake} (quiet : waits .idle = none)
    {calls next : Thread → Call T} {thread : Thread} {wakes : Option Thread}
    (signals : signalWaiters waiters waits
      (Function.update calls thread .idle) wakes = some next) :
    Returned calls thread next := by
  rcases signalWaiters_cases signals with rfl | ⟨woken, asleep, rfl⟩
  · exact .update calls thread
  · have apart : thread ≠ woken := by
      rintro rfl
      rw [Function.update_self, quiet] at asleep
      contradiction
    refine ⟨?_, fun other differs => ?_⟩
    · rw [Function.update_of_ne apart, Function.update_self]
    · by_cases same : other = woken
      · subst same
        rw [Function.update_self, Function.update_of_ne differs]
        exact .inr rfl
      · rw [Function.update_of_ne same, Function.update_of_ne differs]
        exact .inl rfl

/-- What a thread has done when it gives the lock back. -/
inductive Outcome (system : System T Thread) (thread : Thread)
    (next : System T Thread) : Prop where
  /-- it waits for room -/
  | waitsFull (timeout : Int) (data : T)
      (call : system.calls thread = .push timeout data)
      (blocks : timeout ≠ -1) (full : system.queue.full = true)
      (opened : system.queue.terminated = false)
      (ring : SameRing system.queue next.queue)
      (calls : next.calls = Function.update system.calls thread
        (.notFull timeout data .asleep))
      (events : next.events = system.events)
  /-- it waits for an element -/
  | waitsEmpty (timeout : Int)
      (call : system.calls thread = .pop timeout)
      (opened : system.queue.terminated = false)
      (ring : SameRing system.queue next.queue)
      (calls : next.calls = Function.update system.calls thread
        (.notEmpty timeout .asleep))
      (events : next.events = system.events)
  | fails (timeout : Int) (wake : Wake) (status : Status)
      (busy : system.calls thread ≠ .idle)
      (eof : (system.calls thread).takes = true → status = .eof →
        system.queue.empty = true)
      (ring : SameRing system.queue next.queue)
      (calls : Returned system.calls thread next.calls)
      (events : next.events =
        .failed timeout wake status :: system.events)
  | stores (data : T) (may : (system.calls thread).stores = true)
      (space : system.queue.full = false)
      (ring : SameRing (system.queue.stored data) next.queue)
      (calls : Returned system.calls thread next.calls)
      (events : next.events = .pushed data :: system.events)
  | takes (may : (system.calls thread).takes = true)
      (holds : system.queue.empty = false)
      (ring : SameRing system.queue.taken next.queue)
      (calls : Returned system.calls thread next.calls)
      (events : next.events =
        .popped (system.queue.data system.queue.out) :: system.events)
  /-- it has been in `term` -/
  | ends (call : system.calls thread = .term)

namespace Outcome

variable [Fintype Thread] {system next : System T Thread} {thread : Thread}

theorem of_stores {data : T} {wakes : Option Thread}
    {full_waiters empty_waiters : Nat}
    (may : (system.calls thread).stores = true)
    (space : system.queue.full = false)
    (does : System.stores { system with
      queue := { system.queue with full_waiters, empty_waiters } }
        thread data wakes = some next) : Outcome system thread next := by
  obtain ⟨calls, signals, same⟩ := Option.bind_eq_some_iff.mp does
  obtain rfl := Option.some.inj same
  exact .stores data may space ⟨_, _, rfl⟩
    (Returned.of_signals rfl signals) rfl

theorem of_takes {wakes : Option Thread} {full_waiters empty_waiters : Nat}
    (may : (system.calls thread).takes = true)
    (holds : system.queue.empty = false)
    (does : System.takes { system with
      queue := { system.queue with full_waiters, empty_waiters } }
        thread wakes = some next) : Outcome system thread next := by
  obtain ⟨calls, signals, same⟩ := Option.bind_eq_some_iff.mp does
  obtain rfl := Option.some.inj same
  exact .takes may holds ⟨_, _, rfl⟩ (Returned.of_signals rfl signals) rfl

omit [Fintype Thread] in
theorem of_fails {timeout : Int} {wake : Wake} {status : Status}
    {full_waiters empty_waiters : Nat}
    (busy : system.calls thread ≠ .idle)
    (eof : (system.calls thread).takes = true → status = .eof →
      system.queue.empty = true) :
    Outcome system thread (System.fails { system with
      queue := { system.queue with full_waiters, empty_waiters } }
        thread timeout wake status) :=
  .fails timeout wake status busy eof ⟨_, _, rfl⟩ (.update _ _) rfl

theorem of_push {timeout : Int} {data : T} {wakes : Option Thread}
    (call : system.calls thread = .push timeout data)
    (does : system.push thread timeout data wakes = some next) :
    Outcome system thread next := by
  have gives : (system.calls thread).takes = true → False := by
    rw [call]
    rintro ⟨⟩
  unfold System.push at does
  split at does
  next full =>
    split at does
    · obtain rfl := Option.some.inj does
      exact of_fails (by rw [call]; nofun) fun takes => (gives takes).elim
    next opened =>
      split at does
      · obtain rfl := Option.some.inj does
        exact of_fails (by rw [call]; nofun) fun takes => (gives takes).elim
      next blocks =>
        obtain rfl := Option.some.inj does
        exact .waitsFull timeout data call blocks full
          (Bool.eq_false_iff.mpr opened) ⟨_, _, rfl⟩ rfl rfl
  next space =>
    exact of_stores (by rw [call]; rfl) (Bool.eq_false_iff.mpr space) does

theorem of_trypush {data : T} {wakes : Option Thread}
    (call : system.calls thread = .trypush data)
    (does : system.trypush thread data wakes = some next) :
    Outcome system thread next := by
  unfold System.trypush at does
  split at does
  · obtain rfl := Option.some.inj does
    exact of_fails (by rw [call]; nofun) fun _ eof => nomatch eof
  next space =>
    exact of_stores (by rw [call]; rfl) (Bool.eq_false_iff.mpr space) does

theorem of_pop {timeout : Int} {wakes : Option Thread}
    (call : system.calls thread = .pop timeout)
    (does : system.pop thread timeout wakes = some next) :
    Outcome system thread next := by
  unfold System.pop at does
  split at does
  next empty =>
    split at does
    · obtain rfl := Option.some.inj does
      exact of_fails (by rw [call]; nofun) fun _ eof => nomatch eof
    · split at does
      · obtain rfl := Option.some.inj does
        exact of_fails (by rw [call]; nofun) fun _ _ => empty
      next opened =>
        obtain rfl := Option.some.inj does
        exact .waitsEmpty timeout call (Bool.eq_false_iff.mpr opened)
          ⟨_, _, rfl⟩ rfl rfl
  next holds =>
    exact of_takes (by rw [call]; rfl) (Bool.eq_false_iff.mpr holds) does

theorem of_trypop {wakes : Option Thread}
    (call : system.calls thread = .trypop)
    (does : system.trypop thread wakes = some next) :
    Outcome system thread next := by
  unfold System.trypop at does
  split at does
  · obtain rfl := Option.some.inj does
    exact of_fails (by rw [call]; nofun) fun _ eof => nomatch eof
  next holds =>
    exact of_takes (by rw [call]; rfl) (Bool.eq_false_iff.mpr holds) does

theorem of_pushWoken {timeout : Int} {data : T} {wake : Wake}
    {wakes : Option Thread}
    (call : system.calls thread = .notFull timeout data wake)
    (does : system.pushWoken thread timeout data wake wakes = some next) :
    Outcome system thread next := by
  have gives : (system.calls thread).takes = true → False := by
    rw [call]
    rintro ⟨⟩
  simp only [System.pushWoken] at does
  split at does
  · split at does
    all_goals
      obtain rfl := Option.some.inj does
      exact of_fails (by rw [call]; rintro ⟨⟩) fun takes => (gives takes).elim
  next space =>
    exact of_stores (by rw [call]; rfl) (Bool.eq_false_iff.mpr space) does

theorem of_popWoken {timeout : Int} {wake : Wake} {wakes : Option Thread}
    (call : system.calls thread = .notEmpty timeout wake)
    (does : system.popWoken thread timeout wake wakes = some next) :
    Outcome system thread next := by
  simp only [System.popWoken] at does
  split at does
  next empty =>
    split at does
    all_goals
      obtain rfl := Option.some.inj does
      exact of_fails (by rw [call]; rintro ⟨⟩) fun _ _ => empty
  next holds =>
    exact of_takes (by rw [call]; rfl) (Bool.eq_false_iff.mpr holds) does

theorem of_lock {wakes : Option Thread}
    (does : step system (.lock thread wakes) = some next) :
    Outcome system thread next := by
  simp only [step] at does
  split at does
  next call => exact of_push call does
  next call => exact of_trypush call does
  next call => exact of_pop call does
  next call => exact of_trypop call does
  next call => exact .ends call
  · contradiction

theorem of_wake {wakes : Option Thread}
    (does : step system (.wake thread wakes) = some next) :
    Outcome system thread next := by
  simp only [step] at does
  split at does
  next call => exact of_pushWoken call does
  next call => exact of_popWoken call does
  · contradiction

theorem of_timeUp (does : step system (.timeUp thread) = some next) :
    Outcome system thread next := by
  simp only [step] at does
  split at does
  next call =>
    split at does
    · contradiction
    · obtain rfl := Option.some.inj does
      exact .fails _ .asleep .timeup (by rw [call]; rintro ⟨⟩)
        (fun _ eof => by cases eof) ⟨_, _, rfl⟩ (.update _ _) rfl
  next call =>
    split at does
    · contradiction
    · obtain rfl := Option.some.inj does
      exact .fails _ .asleep .timeup (by rw [call]; rintro ⟨⟩)
        (fun _ eof => by cases eof) ⟨_, _, rfl⟩ (.update _ _) rfl
  · contradiction

omit [Fintype Thread] in
/-- The ring carries what has been pushed and not been popped, fair or not. -/
theorem inOrder (outcome : Outcome system thread next)
    (goes : system.calls thread ≠ .term) {elements : List T}
    (inOrder : InOrder system.queue system.events elements) :
    ∃ elements, InOrder next.queue next.events elements := by
  cases outcome with
  | waitsFull timeout data call blocks full opened ring calls events =>
      rw [events]
      exact ⟨elements, ring.inOrder inOrder⟩
  | waitsEmpty timeout call opened ring calls events =>
      rw [events]
      exact ⟨elements, ring.inOrder inOrder⟩
  | fails timeout wake status busy eof ring calls events =>
      rw [events]
      exact ⟨elements, ring.inOrder
        ⟨inOrder.carries, inOrder.nelts, inOrder.input, inOrder.out,
          inOrder.pushed_eq⟩⟩
  | stores data may space ring calls events =>
      have room : system.queue.nelts < system.queue.bounds := by
        have fits := inOrder.carries.fits
        rw [← inOrder.nelts] at fits
        exact lt_of_le_of_ne fits fun same =>
          Bool.eq_false_iff.mp space (beq_iff_eq.mpr same)
      rw [events]
      exact ⟨_, ring.inOrder (inOrder.stored room data)⟩
  | takes may holds ring calls events =>
      have some : system.queue.nelts ≠ 0 := fun none =>
        Bool.eq_false_iff.mp holds (beq_iff_eq.mpr none)
      obtain ⟨rest, taken⟩ := inOrder.taken some
      rw [events]
      exact ⟨rest, ring.inOrder taken⟩
  | ends call => exact absurd call goes

end Outcome

end Etch.C.EtchAprQueue
