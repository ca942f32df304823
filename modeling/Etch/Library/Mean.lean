import Mathlib.Algebra.Order.BigOperators.Group.List
import Mathlib.Tactic.Linarith

/-!
# Means of integers

The integer mean of a list lies between any bounds of its elements.  A program
that adds up the elements in a word that wraps around finds the mean exactly
if the sum fits.
-/

namespace Etch.Library.Mean

/-- The mean of some integers, rounded down. -/
def mean (values : List Int) : Int :=
  values.sum / values.length

theorem mean_mem {values : List Int} {low high : Int}
    (nonempty : values ≠ [])
    (each : ∀ value ∈ values, low ≤ value ∧ value ≤ high) :
    low ≤ mean values ∧ mean values ≤ high := by
  have positive : (0 : Int) < values.length := by
    exact_mod_cast List.length_pos_iff.mpr nonempty
  have lower : values.length * low ≤ values.sum := by
    simpa using List.card_nsmul_le_sum values low fun value member =>
      (each value member).1
  have upper : values.sum ≤ values.length * high := by
    simpa using List.sum_le_card_nsmul values high fun value member =>
      (each value member).2
  constructor
  · exact Int.le_ediv_of_mul_le positive (by rwa [mul_comm])
  · exact Int.ediv_le_of_le_mul positive (by rwa [mul_comm])

/-- A sum in a word of `size` values. -/
theorem foldl_bmod (size : ℕ) (values : List Int) (start : Int) :
    values.foldl (fun left right => (left + right).bmod size)
        (start.bmod size) =
      (start + values.sum).bmod size := by
  induction values generalizing start with
  | nil => simp
  | cons value values ih =>
      rw [List.foldl_cons, Int.bmod_add_bmod, ih, List.sum_cons, add_assoc]

theorem bmod_eq_self {size : ℕ} {total : Int} (nonnegative : 0 ≤ total)
    (fits : 2 * total < size) : total.bmod size = total :=
  Int.bmod_eq_of_le_mul_two (by omega) (by omega)

/-- A sum that does not fit comes out a whole word too small at least. -/
theorem bmod_le_sub {size : ℕ} {total : Int} (positive : 0 < size)
    (large : (size : Int) ≤ 2 * total) :
    total.bmod size ≤ total - size := by
  have parts := Int.bmod_add_bdiv total size
  have upper := @Int.bmod_lt total size (by exact_mod_cast positive)
  have below : total.bmod size < total := by omega
  have quotient : 0 < total.bdiv size := by
    by_contra least
    have product := Int.mul_nonpos_of_nonneg_of_nonpos
      (Int.natCast_nonneg size) (not_lt.mp least)
    omega
  have product := Int.mul_le_mul_of_nonneg_left
    (show 1 ≤ total.bdiv size from quotient) (Int.natCast_nonneg size)
  omega

/-- The quotient of a wrapped sum is the mean if and only if the sum fits. -/
theorem tdiv_bmod_eq_iff {size count : ℕ} {total : Int}
    (nonnegative : 0 ≤ total) (positive : 0 < count)
    (few : 2 * count < size) :
    (total.bmod size).tdiv count = total / count ↔ 2 * total < size := by
  constructor
  · intro equal
    by_contra! large
    have less := bmod_le_sub (by omega) large
    have share : 1 ≤ total / (count : Int) :=
      Int.le_ediv_of_mul_le (by exact_mod_cast positive) (by omega)
    have wrapped : 0 ≤ total.bmod size := by
      by_contra! negative
      have opposite := Int.tdiv_nonneg (neg_nonneg.mpr negative.le)
        (Int.natCast_nonneg count)
      rw [Int.neg_tdiv] at opposite
      omega
    rw [Int.tdiv_eq_ediv_of_nonneg wrapped] at equal
    have first := Int.ediv_mul_le (total.bmod size)
      (b := (count : Int)) (by omega)
    have second := Int.lt_ediv_add_one_mul_self total
      (b := (count : Int)) (by omega)
    rw [equal] at first
    rw [add_mul] at second
    omega
  · intro fits
    rw [bmod_eq_self nonnegative fits, Int.tdiv_eq_ediv_of_nonneg nonnegative]

end Etch.Library.Mean
