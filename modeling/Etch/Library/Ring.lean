import Mathlib.Data.List.Basic
import Mathlib.Data.Nat.ModEq

/-!
# Ring buffers

`Holds slots head contents` says that the slots, walked from `head` around the
end of the array, hold the contents one after another and are empty from there
on.  Taking the first element and adding one at the end keep this.
-/

namespace Etch.Library.Ring

variable {Element : Type*}

/-- The slot after `index` in a ring of `size` slots. -/
def next (size index : Nat) : Nat :=
  if index + 1 = size then 0 else index + 1

theorem next_eq_mod {size index : Nat} (inside : index < size) :
    next size index = (index + 1) % size := by
  unfold next
  split_ifs with last
  · rw [last, Nat.mod_self]
  · rw [Nat.mod_eq_of_lt (by omega)]

theorem next_lt {size index : Nat} (inside : index < size) :
    next size index < size := by
  rw [next_eq_mod inside]
  exact Nat.mod_lt _ (by omega)

/-- The slots from `head` on hold `contents`, the others nothing. -/
structure Holds (slots : List (Option Element)) (head : Nat)
    (contents : List Element) : Prop where
  head_lt : head < slots.length
  fits : contents.length ≤ slots.length
  slot : ∀ index < slots.length,
    slots[(head + index) % slots.length]? = some contents[index]?

namespace Holds

variable {slots : List (Option Element)} {head : Nat}
  {contents : List Element}

theorem size_pos (holds : Holds slots head contents) : 0 < slots.length :=
  Nat.lt_of_le_of_lt (Nat.zero_le head) holds.head_lt

/-- A ring of empty slots holds nothing. -/
theorem empty {size : Nat} (positive : 0 < size) :
    Holds (List.replicate size none) 0 ([] : List Element) where
  head_lt := by simpa using positive
  fits := by simp
  slot := by
    intro index inside
    rw [List.length_replicate] at inside ⊢
    rw [Nat.zero_add, Nat.mod_eq_of_lt inside,
      List.getElem?_replicate, if_pos inside, List.getElem?_nil]

/-- The head slot holds the first element. -/
theorem getElem?_head (holds : Holds slots head contents) :
    slots[head]? = some contents.head? := by
  have first := holds.slot 0 holds.size_pos
  rwa [Nat.add_zero, Nat.mod_eq_of_lt holds.head_lt,
    ← List.head?_eq_getElem?] at first

/-- The slot after the last element is empty. -/
theorem getElem?_tail (holds : Holds slots head contents)
    (room : contents.length < slots.length) :
    slots[(head + contents.length) % slots.length]? = some none := by
  rw [holds.slot _ room, List.getElem?_eq_none (Nat.le_refl _)]

/-- Slots are told apart by their distance from the head. -/
theorem distance_inj {size head first second : Nat}
    (inside : first < size) (inside' : second < size)
    (same : (head + first) % size = (head + second) % size) :
    first = second := by
  have congruent : first ≡ second [MOD size] :=
    Nat.ModEq.add_left_cancel' head same
  rwa [Nat.ModEq, Nat.mod_eq_of_lt inside, Nat.mod_eq_of_lt inside']
    at congruent

/-- The first element is taken and its slot cleared. -/
theorem pop {first : Element} {rest : List Element}
    (holds : Holds slots head (first :: rest)) :
    Holds (slots.set head none) (next slots.length head) rest := by
  refine ⟨?_, ?_, ?_⟩
  · rw [List.length_set]
    exact next_lt holds.head_lt
  · rw [List.length_set]
    exact Nat.le_of_succ_le holds.fits
  · intro index inside
    rw [List.length_set] at inside ⊢
    rw [next_eq_mod holds.head_lt, Nat.mod_add_mod,
      Nat.add_right_comm, Nat.add_assoc]
    by_cases last : index + 1 = slots.length
    · -- once around: this is the slot that has been cleared
      have around : (head + (index + 1)) % slots.length = head := by
        rw [last, Nat.add_mod_right, Nat.mod_eq_of_lt holds.head_lt]
      have beyond : rest.length ≤ index := by
        have fits := holds.fits
        rw [List.length_cons] at fits
        omega
      rw [around, List.getElem?_set_self holds.head_lt,
        List.getElem?_eq_none beyond]
    · have before : index + 1 < slots.length := by omega
      have other : head ≠ (head + (index + 1)) % slots.length := by
        intro same
        have zero : (head + 0) % slots.length =
            (head + (index + 1)) % slots.length := by
          rwa [Nat.add_zero, Nat.mod_eq_of_lt holds.head_lt]
        exact absurd (distance_inj holds.size_pos before zero)
          (Nat.succ_ne_zero index).symm
      rw [List.getElem?_set_ne other, holds.slot _ before,
        List.getElem?_cons_succ]

/-- An element is added after the last one. -/
theorem push (holds : Holds slots head contents)
    (room : contents.length < slots.length) (last : Element) :
    Holds
      (slots.set ((head + contents.length) % slots.length) (some last))
      head (contents ++ [last]) := by
  have tail_lt : (head + contents.length) % slots.length < slots.length :=
    Nat.mod_lt _ holds.size_pos
  refine ⟨?_, ?_, ?_⟩
  · rw [List.length_set]
    exact holds.head_lt
  · rw [List.length_set, List.length_append, List.length_singleton]
    exact room
  · intro index inside
    rw [List.length_set] at inside ⊢
    by_cases same : index = contents.length
    · rw [same, List.getElem?_set_self tail_lt,
        List.getElem?_concat_length]
    · have other : (head + contents.length) % slots.length ≠
          (head + index) % slots.length := fun equal =>
        same (distance_inj room inside equal).symm
      rw [List.getElem?_set_ne other, holds.slot index inside]
      rcases Nat.lt_or_gt_of_ne same with before | behind
      · rw [List.getElem?_append_left before]
      · rw [List.getElem?_eq_none (Nat.le_of_lt behind),
          List.getElem?_eq_none]
        rw [List.length_append, List.length_singleton]
        exact behind

end Holds

/-! ## Rings that are not cleared -/

/-- The slots from `head` on carry `contents`; the others have been left as
they were. -/
structure Carries (slots : Nat → Element) (size head : Nat)
    (contents : List Element) : Prop where
  fits : contents.length ≤ size
  slot : ∀ index (inside : index < contents.length),
    slots ((head + index) % size) = contents[index]

namespace Carries

variable {slots : Nat → Element} {size head : Nat} {contents : List Element}

theorem nil (slots : Nat → Element) (size head : Nat) :
    Carries slots size head [] :=
  ⟨Nat.zero_le _, nofun⟩

/-- The head slot carries the first element. -/
theorem first {first : Element} {rest : List Element}
    (carries : Carries slots size head (first :: rest))
    (inside : head < size) : slots head = first := by
  have slot := carries.slot 0 (Nat.zero_lt_succ _)
  rwa [Nat.add_zero, Nat.mod_eq_of_lt inside] at slot

/-- The head moves past the first element. -/
theorem pop {first : Element} {rest : List Element}
    (carries : Carries slots size head (first :: rest)) :
    Carries slots size ((head + 1) % size) rest where
  fits := (Nat.le_succ _).trans carries.fits
  slot index inside := by
    have slot := carries.slot (index + 1) (Nat.succ_lt_succ inside)
    rw [Nat.mod_add_mod, Nat.add_right_comm, Nat.add_assoc, slot,
      List.getElem_cons_succ]

/-- An element is added after the last one. -/
theorem push (carries : Carries slots size head contents)
    (room : contents.length < size) (last : Element) :
    Carries
      (Function.update slots ((head + contents.length) % size) last)
      size head (contents ++ [last]) where
  fits := by
    rw [List.length_append]
    exact room
  slot index inside := by
    rw [List.length_append, List.length_singleton] at inside
    by_cases same : index = contents.length
    · subst same
      rw [Function.update_self, List.getElem_concat_length rfl]
    · have before : index < contents.length := by omega
      have other : (head + index) % size ≠
          (head + contents.length) % size := fun equal =>
        same (Holds.distance_inj (before.trans room) room equal)
      rw [Function.update_of_ne other, carries.slot index before,
        List.getElem_append_left before]

end Carries

end Etch.Library.Ring
