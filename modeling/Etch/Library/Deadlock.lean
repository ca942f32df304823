import Mathlib.Logic.Relation

/-!
# Threads that wait for each other

A thread blocks another one if it holds a lock that the other one waits to
acquire.  Where all locks but one are taken alone or within that one, a cycle
of threads is two threads that have come from both sides.
-/

namespace Etch.Library.Deadlock

variable {Thread Name : Type*}

/-- A thread holds a lock that another one waits for. -/
def Blocks (holds waits : Thread → Name → Prop) (holder waiter : Thread) :
    Prop :=
  holder ≠ waiter ∧ ∃ name, waits waiter name ∧ holds holder name

/-- Each thread of a cycle blocks the next one. -/
def Cyclic (holds waits : Thread → Name → Prop) : Prop :=
  ∃ thread, Relation.TransGen (Blocks holds waits) thread thread

/-- A thread that holds the outer lock waits for another one, whose holder
waits for the outer lock. -/
def Clash (holds waits : Thread → Name → Prop) (outer : Name)
    (first second : Thread) : Prop :=
  first ≠ second ∧ holds first outer ∧ waits second outer ∧
    ∃ name, name ≠ outer ∧ waits first name ∧ holds second name

/-- A cycle goes on. -/
theorem next_of_cycle {r : Thread → Thread → Prop} {thread : Thread}
    (cycle : Relation.TransGen r thread thread) :
    ∃ next, r thread next ∧ Relation.TransGen r next next := by
  obtain ⟨next, first, rest⟩ := Relation.TransGen.head'_iff.mp cycle
  exact ⟨next, first, Relation.TransGen.tail' rest first⟩

/-- Each lock has one holder at most, and who waits for another lock than the
outer one holds none but the outer one, or waits for a lock that only it
itself can hold. -/
structure Nested (holds waits : Thread → Name → Prop) (outer : Name) :
    Prop where
  unique : ∀ first second name, holds first name → holds second name →
    first = second
  inner : ∀ thread name, waits thread name → name ≠ outer →
    (∀ other, holds thread other → other = outer) ∨
      ∀ holder, holds holder name → holder = thread

variable {holds waits : Thread → Name → Prop} {outer : Name}

namespace Nested

/-- Of two blocks in a row one is by the outer lock. -/
theorem eq_outer (nested : Nested holds waits outer)
    {first second : Thread} {name other : Name} (apart : first ≠ second)
    (waiting : waits second name) (holding : holds first name)
    (inner : name ≠ outer) (next : holds second other) : other = outer := by
  rcases nested.inner second name waiting inner with only | own
  · exact only other next
  · exact absurd (own first holding) apart

theorem ne_outer (nested : Nested holds waits outer)
    {first second : Thread} {other : Name} (apart : first ≠ second)
    (holding : holds first outer) (next : holds second other) :
    other ≠ outer := by
  rintro rfl
  exact apart (nested.unique first second other holding next)

/-- Three blocks in a row, the first one by the outer lock. -/
theorem clash (nested : Nested holds waits outer)
    {first second third fourth : Thread}
    (apart : first ≠ second) (waiting : waits second outer)
    (holding : holds first outer) (next : Blocks holds waits second third)
    (last : Blocks holds waits third fourth) :
    Clash holds waits outer first second := by
  obtain ⟨apart', name, waiting', holding'⟩ := next
  obtain ⟨_, other, _, holding''⟩ := last
  have inner := nested.ne_outer apart holding holding'
  obtain rfl := nested.eq_outer apart' waiting' holding' inner holding''
  obtain rfl := nested.unique first third other holding holding''
  exact ⟨apart, holding, waiting, name, inner, waiting', holding'⟩

theorem cyclic_iff (nested : Nested holds waits outer) :
    Cyclic holds waits ↔
      ∃ first second, Clash holds waits outer first second := by
  constructor
  · rintro ⟨thread, cycle⟩
    obtain ⟨second, blocks, cycle⟩ := next_of_cycle cycle
    obtain ⟨third, blocks', cycle⟩ := next_of_cycle cycle
    obtain ⟨fourth, blocks'', cycle⟩ := next_of_cycle cycle
    obtain ⟨fifth, blocks''', _⟩ := next_of_cycle cycle
    obtain ⟨apart, name, waiting, holding⟩ := blocks
    by_cases here : name = outer
    · subst here
      exact ⟨thread, second,
        nested.clash apart waiting holding blocks' blocks''⟩
    · obtain ⟨apart', other, waiting', holding'⟩ := blocks'
      obtain rfl := nested.eq_outer apart waiting holding here holding'
      exact ⟨second, third,
        nested.clash apart' waiting' holding' blocks'' blocks'''⟩
  · rintro ⟨first, second, apart, holding, waiting, name, _, waiting',
      holding'⟩
    have forth : Blocks holds waits first second :=
      ⟨apart, outer, waiting, holding⟩
    have back : Blocks holds waits second first :=
      ⟨apart.symm, name, waiting', holding'⟩
    exact ⟨first, .tail (.single forth) back⟩

end Nested

end Etch.Library.Deadlock
