import Mathlib.Logic.Relation

/-!
# Re-entrant locks and the states of a concurrent system

A lock is free, or held by one thread as many times as it has acquired it.
`count` is the number of times a given thread holds it, which is all that the
invariants of a system need to know about a lock.
-/

namespace Etch.Library.Monitor

/-- A property that every step keeps holds in every state reached. -/
theorem invariant_of_reaches {State : Type*} {step : State → State → Prop}
    (invariant : State → Prop)
    (keeps : ∀ state next, invariant state → step state next →
      invariant next)
    {state final : State}
    (reaches : Relation.ReflTransGen step state final)
    (holds : invariant state) : invariant final := by
  induction reaches with
  | refl => exact holds
  | tail _ last ih => exact keeps _ _ ih last

/-- A re-entrant lock, held by `owner` once and `more` times. -/
inductive Lock (Thread : Type*) where
  | free
  | held (owner : Thread) (more : Nat)

namespace Lock

variable {Thread : Type*} [DecidableEq Thread]

/-- How many times `thread` holds the lock. -/
def count (lock : Lock Thread) (thread : Thread) : Nat :=
  match lock with
  | .free => 0
  | .held owner more => if owner = thread then more + 1 else 0

/-- The lock as `thread` takes it, none while another one holds it. -/
def acquire (lock : Lock Thread) (thread : Thread) :
    Option (Lock Thread) :=
  match lock with
  | .free => some (.held thread 0)
  | .held owner more =>
      if owner = thread then some (.held owner (more + 1)) else none

/-- The lock as `thread` gives it back, none if it does not hold it. -/
def release (lock : Lock Thread) (thread : Thread) :
    Option (Lock Thread) :=
  match lock with
  | .free => none
  | .held owner more =>
      if owner = thread then
        match more with
        | 0 => some .free
        | more + 1 => some (.held owner more)
      else
        none

theorem count_acquire {lock next : Lock Thread} {thread : Thread}
    (acquired : lock.acquire thread = some next) (other : Thread) :
    next.count other =
      lock.count other + if other = thread then 1 else 0 := by
  cases lock with
  | free =>
      obtain rfl := Option.some.inj acquired
      simp only [count, eq_comm, Nat.zero_add]
  | held owner more =>
      simp only [acquire] at acquired
      split at acquired
      · rename_i same
        subst same
        obtain rfl := Option.some.inj acquired
        by_cases mine : other = owner
        · simp [count, mine]
        · simp [count, mine, Ne.symm mine]
      · exact nomatch acquired

theorem count_release {lock next : Lock Thread} {thread : Thread}
    (released : lock.release thread = some next) (other : Thread) :
    lock.count other =
      next.count other + if other = thread then 1 else 0 := by
  cases lock with
  | free => exact nomatch released
  | held owner more =>
      simp only [release] at released
      split at released
      · rename_i same
        subst same
        cases more with
        | zero =>
            obtain rfl := Option.some.inj released
            simp only [count, eq_comm, Nat.zero_add]
        | succ more =>
            obtain rfl := Option.some.inj released
            by_cases mine : other = owner
            · simp [count, mine]
            · simp [count, mine, Ne.symm mine]
      · exact nomatch released

/-- One thread holds a lock at a time. -/
theorem count_pos_unique {lock : Lock Thread} {first second : Thread}
    (held : 0 < lock.count first) (held' : 0 < lock.count second) :
    first = second := by
  cases lock with
  | free => exact absurd held (Nat.lt_irrefl 0)
  | held owner more =>
      simp only [count] at held held'
      split at held
      · split at held'
        · rename_i same same'
          exact same.symm.trans same'
        · omega
      · omega

/-- A thread has to wait for a lock that another one holds. -/
theorem acquire_eq_none {lock : Lock Thread} {holder thread : Thread}
    (held : 0 < lock.count holder) (different : thread ≠ holder) :
    lock.acquire thread = none := by
  cases lock with
  | free => exact absurd held (Nat.lt_irrefl 0)
  | held owner more =>
      simp only [count] at held
      split at held
      · rename_i mine
        rw [acquire, if_neg]
        exact fun same => different (same.symm.trans mine)
      · exact absurd held (Nat.lt_irrefl 0)

end Lock

end Etch.Library.Monitor
