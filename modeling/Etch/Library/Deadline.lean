import Mathlib.Tactic.SplitIfs

/-!
# Deadlines on a clock that wraps

The readings of a clock are the numbers from `-range` on below `range`, and
come round to the least one behind the greatest.  What is left of a delay can
be told from the deadline and a reading, wherever the readings start; how far
the greatest reading is ahead can not.
-/

namespace Etch.Library.Deadline

variable {range : Nat} {start delay now : Int}

/-- A number as a reading of the clock. -/
def wrap (range : Nat) (number : Int) : Int :=
  number.bmod (2 * range)

/-- How far a reading is behind another one. -/
def since (range : Nat) (start now : Int) : Int :=
  wrap range (now - start)

theorem wrap_eq {number : Int} (lower : -range ≤ number)
    (upper : number < range) : wrap range number = number := by
  refine Int.bmod_eq_of_le ?_ ?_ <;> omega

theorem wrap_lt (positive : 0 < range) (number : Int) :
    wrap range number < range := by
  have bound := @Int.bmod_lt number (2 * range) (by omega)
  unfold wrap
  omega

/-- What is left until a deadline is what is left of the delay. -/
theorem since_deadline (range : Nat) (start delay now : Int) :
    since range now (wrap range (start + delay)) =
      wrap range (delay - since range start now) := by
  unfold since wrap
  rw [Int.bmod_sub_bmod, Int.sub_bmod_bmod]
  congr 1
  omega

/-- While time has passed, the rest of a delay is no reading that wrapped. -/
theorem since_deadline_eq (positive : 0 ≤ delay) (small : delay < range)
    (passed : 0 ≤ since range start now) :
    since range now (wrap range (start + delay)) =
      delay - since range start now := by
  rw [since_deadline]
  have bound := @wrap_lt range (by omega) (now - start)
  refine wrap_eq ?_ ?_ <;> unfold since at * <;> omega

/-- A deadline is behind its start when the clock wraps in between. -/
theorem start_lt_deadline_iff (positive : 0 < delay) (small : delay < range)
    (lower : -range ≤ start) (upper : start < range) :
    start < wrap range (start + delay) ↔ start + delay < range := by
  constructor
  · intro ahead
    refine Int.not_le.mp fun beyond => ?_
    have around : wrap range (start + delay) = start + delay - 2 * range := by
      unfold wrap
      rw [← Int.sub_bmod_right (start + delay)]
      exact Int.bmod_eq_of_le (by omega) (by omega)
    omega
  · intro within
    rw [wrap_eq (by omega) within]
    omega

/-- The greatest reading is ahead by what there is in between, but only for
the readings that are not negative. -/
theorem since_greatest (positive : 0 < range) (lower : -range ≤ now)
    (upper : now < range) :
    since range now (range - 1) =
      if 0 ≤ now then range - 1 - now else -range - 1 - now := by
  unfold since wrap
  split_ifs with sign
  · exact Int.bmod_eq_of_le (by omega) (by omega)
  · rw [← Int.sub_bmod_right (range - 1 - now)]
    rw [Int.bmod_eq_of_le (by omega) (by omega)]
    omega

end Etch.Library.Deadline
