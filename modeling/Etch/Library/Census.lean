import Mathlib.Algebra.BigOperators.Group.Finset.Piecewise
import Mathlib.Data.Fintype.Basic

/-!
# Counting threads

`census kind marks` is the number of threads whose mark is of a kind that may
depend on the thread.  When one thread changes its mark, the census changes by
that thread alone.
-/

namespace Etch.Library.Census

open Finset

variable {Thread Mark : Type*} [Fintype Thread]

def census (kind : Thread → Mark → Bool) (marks : Thread → Mark) : Nat :=
  (univ.filter fun thread => kind thread (marks thread) = true).card

theorem census_eq_sum (kind : Thread → Mark → Bool)
    (marks : Thread → Mark) :
    census kind marks = ∑ thread, (kind thread (marks thread)).toNat := by
  rw [census, card_filter]
  apply sum_congr rfl
  intro thread _
  cases kind thread (marks thread) <;> rfl

/-- The change of one mark adds its new share and takes its old one. -/
theorem census_update [DecidableEq Thread] (kind : Thread → Mark → Bool)
    (marks : Thread → Mark) (thread : Thread) (mark : Mark) :
    census kind (Function.update marks thread mark) +
        (kind thread (marks thread)).toNat =
      census kind marks + (kind thread mark).toNat := by
  rw [census_eq_sum, census_eq_sum,
    ← add_sum_erase univ _ (mem_univ thread),
    ← add_sum_erase univ (fun other => (kind other (marks other)).toNat)
      (mem_univ thread), Function.update_self]
  have others : ∑ other ∈ univ.erase thread,
        (kind other (Function.update marks thread mark other)).toNat =
      ∑ other ∈ univ.erase thread, (kind other (marks other)).toNat := by
    apply sum_congr rfl
    intro other inside
    rw [Function.update_of_ne (ne_of_mem_erase inside)]
  rw [others]
  omega

/-- A census is not empty while a thread is of its kind. -/
theorem census_pos {kind : Thread → Mark → Bool} {marks : Thread → Mark}
    (thread : Thread) (member : kind thread (marks thread) = true) :
    0 < census kind marks :=
  card_pos.mpr ⟨thread, mem_filter.mpr ⟨mem_univ thread, member⟩⟩

theorem census_eq_zero_iff {kind : Thread → Mark → Bool}
    {marks : Thread → Mark} :
    census kind marks = 0 ↔
      ∀ thread, kind thread (marks thread) = false := by
  rw [census, card_eq_zero, filter_eq_empty_iff]
  constructor
  · intro none thread
    exact Bool.eq_false_iff.mpr (none (mem_univ thread))
  · intro none thread _
    exact Bool.eq_false_iff.mp (none thread)

end Etch.Library.Census
