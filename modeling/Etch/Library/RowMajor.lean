import Mathlib.Algebra.BigOperators.Group.List.Basic
import Mathlib.Tactic.Linarith

/-!
# Row-major positions

An array of several dimensions in one vector stores the item of an index at
its rank among all indexes, the last coordinate counting fastest.  The
extents and the coordinates are listed with the slowest first.  Ranks lie
below the number of items, no two indexes share one, and none is unused; so
the slots of a vector with room for all items do not overlap.  Where slot
numbers wrap around, every slot inside the vector is overlapped by another.
-/

namespace Etch.Library.RowMajor

/-- The indexes with every coordinate inside its extent. -/
def Inside (extents index : List Nat) : Prop :=
  List.Forall₂ (· < ·) index extents

def rank : List Nat → List Nat → Nat
  | _ :: extents, coordinate :: index =>
      coordinate * extents.prod + rank extents index
  | _, _ => 0

theorem rank_cons (extent : Nat) (extents : List Nat) (coordinate : Nat)
    (index : List Nat) :
    rank (extent :: extents) (coordinate :: index) =
      coordinate * extents.prod + rank extents index :=
  rfl

theorem rank_lt {extents index : List Nat} (inside : Inside extents index) :
    rank extents index < extents.prod := by
  induction inside with
  | nil => simp [rank]
  | @cons coordinate extent index extents below inside ih =>
      have row : (coordinate + 1) * extents.prod ≤ extent * extents.prod :=
        Nat.mul_le_mul_right _ below
      rw [rank_cons, List.prod_cons]
      rw [Nat.add_mul, Nat.one_mul] at row
      omega

theorem rank_injective {extents left right : List Nat}
    (insideLeft : Inside extents left) (insideRight : Inside extents right)
    (same : rank extents left = rank extents right) : left = right := by
  induction insideLeft generalizing right with
  | nil =>
      cases insideRight
      rfl
  | @cons coordinate extent index extents below inside ih =>
      cases insideRight with
      | @cons coordinate' _ index' _ below' inside' =>
          rw [rank_cons, rank_cons] at same
          have rest := rank_lt inside
          have rest' := rank_lt inside'
          have order : coordinate = coordinate' := by
            by_contra distinct
            rcases Nat.lt_or_gt_of_ne distinct with less | more
            · have row : (coordinate + 1) * extents.prod ≤
                  coordinate' * extents.prod :=
                Nat.mul_le_mul_right _ less
              rw [Nat.add_mul, Nat.one_mul] at row
              omega
            · have row : (coordinate' + 1) * extents.prod ≤
                  coordinate * extents.prod :=
                Nat.mul_le_mul_right _ more
              rw [Nat.add_mul, Nat.one_mul] at row
              omega
          subst order
          rw [ih inside' (Nat.add_left_cancel same)]

/-- No rank is unused. -/
theorem exists_rank {extents : List Nat} {number : Nat}
    (small : number < extents.prod) :
    ∃ index, Inside extents index ∧ rank extents index = number := by
  induction extents generalizing number with
  | nil =>
      rw [List.prod_nil, Nat.lt_one_iff] at small
      exact ⟨[], .nil, small.symm⟩
  | cons extent extents ih =>
      rw [List.prod_cons, Nat.mul_comm] at small
      have positive : 0 < extents.prod := Nat.pos_of_mul_pos_right
        (Nat.zero_lt_of_lt small)
      obtain ⟨index, inside, rest⟩ := ih (Nat.mod_lt number positive)
      refine ⟨number / extents.prod :: index,
        .cons (Nat.div_lt_of_lt_mul small) inside, ?_⟩
      rw [rank_cons, rest, Nat.mul_comm, Nat.div_add_mod]

/-! ## Slots -/

theorem slot_inside {size count number : Nat} (inside : number < count) :
    number * size + size ≤ count * size := by
  have last : (number + 1) * size ≤ count * size :=
    Nat.mul_le_mul_right _ inside
  rwa [Nat.add_mul, Nat.one_mul] at last

theorem slots_apart {size left right : Nat} (distinct : left ≠ right) :
    left * size + size ≤ right * size ∨
      right * size + size ≤ left * size := by
  rcases Nat.lt_or_gt_of_ne distinct with less | more
  · exact .inl (slot_inside less)
  · exact .inr (slot_inside more)

/-- The first slot from a position on. -/
theorem exists_slot {size position : Nat} (positive : 0 < size) :
    ∃ number, position ≤ number * size ∧
      number * size < position + size := by
  refine ⟨(position + size - 1) / size, ?_, ?_⟩
  · have parts := Nat.div_add_mod (position + size - 1) size
    have rest := Nat.mod_lt (position + size - 1) positive
    rw [Nat.mul_comm] at parts
    omega
  · have least := Nat.div_mul_le_self (position + size - 1) size
    omega

/--
Where positions wrap around at `modulus` before the last slot ends, each slot
inside the bytes that are left meets the start of another slot.
-/
theorem exists_overlap {size count modulus number : Nat}
    (positive : 0 < size) (wraps : modulus ≤ count * size)
    (nonzero : 0 < modulus)
    (fits : number * size % modulus + size ≤ count * size % modulus) :
    ∃ other < count, other ≠ number ∧
      number * size % modulus ≤ other * size % modulus ∧
      other * size % modulus < number * size % modulus + size := by
  have total := Nat.div_add_mod (count * size) modulus
  have below := Nat.mod_lt (count * size) nonzero
  have turns : modulus ≤ modulus * (count * size / modulus) :=
    Nat.le_mul_of_pos_right _ (Nat.div_pos wraps nonzero)
  have split := Nat.div_add_mod (number * size) modulus
  by_cases last : modulus * (count * size / modulus) ≤ number * size
  · -- the slot belongs to the last turn, so take one of the first
    obtain ⟨other, from_, to_⟩ :=
      @exists_slot size (number * size % modulus) positive
    have inside : other * size < count * size := by omega
    have whole : other * size % modulus = other * size :=
      Nat.mod_eq_of_lt (by omega)
    refine ⟨other, Nat.lt_of_mul_lt_mul_right inside, ?_, ?_, ?_⟩
    · rintro rfl
      omega
    · omega
    · omega
  · -- otherwise take one of the last turn
    obtain ⟨other, from_, to_⟩ := @exists_slot size
      (modulus * (count * size / modulus) + number * size % modulus)
      positive
    have inside : other * size < count * size := by omega
    have whole : other * size % modulus =
        other * size - modulus * (count * size / modulus) := by
      have parts : other * size =
          modulus * (count * size / modulus) +
            (other * size - modulus * (count * size / modulus)) := by
        omega
      rw [parts, Nat.mul_add_mod, Nat.mod_eq_of_lt (by omega)]
      omega
    refine ⟨other, Nat.lt_of_mul_lt_mul_right inside, ?_, ?_, ?_⟩
    · rintro rfl
      omega
    · omega
    · omega

end Etch.Library.RowMajor
