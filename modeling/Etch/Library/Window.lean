import Mathlib.Data.List.Basic
import Mathlib.Data.List.TakeDrop

/-!
# Windows of an array

A byte buffer with a cursor reads and writes one contiguous stretch of its
backing array.  `window` is such a stretch, `overwrite` replaces one in place,
and the lemmas below say how the two interact, so that a buffer's operations
are reasoned about without ever unfolding `take` and `drop`.
-/

namespace Etch.Library.Window

variable {α : Type*}

/-- The elements of `store` at the positions `start ≤ position < stop`. -/
def window (store : List α) (start stop : Nat) : List α :=
  (store.take stop).drop start

/-- `store` with `values` stored from position `start` on. -/
def overwrite (store : List α) (start : Nat) (values : List α) : List α :=
  store.take start ++ values ++ store.drop (start + values.length)

theorem start_le_start : (0 : Nat) ≤ 0 :=
  Nat.le_refl 0

theorem start_le_length (store : List α) : 0 ≤ store.length :=
  Nat.zero_le _

theorem length_le_length (store : List α) : store.length ≤ store.length :=
  Nat.le_refl _

theorem length_window {store : List α} {start stop : Nat}
    (inside : stop ≤ store.length) :
    (window store start stop).length = stop - start := by
  simp [window, Nat.min_eq_left inside]

theorem window_eq_take (store : List α) (start stop : Nat) :
    window store start stop =
      (store.drop start).take (stop - start) := by
  rw [window, List.drop_take]

@[simp]
theorem window_self (store : List α) (position : Nat) :
    window store position position = [] := by
  simp [window_eq_take]

theorem window_of_le {store : List α} {start stop : Nat}
    (order : stop ≤ start) :
    window store start stop = [] := by
  simp [window_eq_take, Nat.sub_eq_zero_of_le order]

@[simp]
theorem window_zero (store : List α) (stop : Nat) :
    window store 0 stop = store.take stop := by
  simp [window]

@[simp]
theorem window_length (store : List α) (start : Nat) :
    window store start store.length = store.drop start := by
  simp [window]

theorem window_append_window (store : List α) {start middle stop : Nat}
    (left : start ≤ middle) (right : middle ≤ stop) :
    window store start middle ++ window store middle stop =
      window store start stop := by
  have total : stop - start = (middle - start) + (stop - middle) := by
    omega
  have skip : store.drop middle =
      (store.drop start).drop (middle - start) := by
    rw [List.drop_drop, Nat.add_sub_cancel' left]
  rw [window_eq_take, window_eq_take, window_eq_take, total, skip,
    List.take_add]

/-- Growing the array past `stop` leaves the window alone. -/
theorem window_append_right {store : List α} (more : List α)
    (start : Nat) {stop : Nat} (inside : stop ≤ store.length) :
    window (store ++ more) start stop = window store start stop := by
  simp only [window]
  rw [List.take_append_of_le_length inside]

theorem take_window (store : List α) (start stop count : Nat) :
    (window store start stop).take count =
      window store start (min (start + count) stop) := by
  simp only [window]
  rw [List.take_drop, List.take_take]

theorem drop_window (store : List α) (start stop count : Nat) :
    (window store start stop).drop count =
      window store (start + count) stop := by
  simp only [window, List.drop_drop]

@[simp]
theorem length_overwrite {store : List α} {start : Nat} {values : List α}
    (inside : start + values.length ≤ store.length) :
    (overwrite store start values).length = store.length := by
  simp only [overwrite, List.length_append, List.length_take,
    List.length_drop]
  omega

@[simp]
theorem overwrite_nil (store : List α) (start : Nat) :
    overwrite store start [] = store := by
  simp [overwrite]

theorem window_overwrite_before {store : List α} {start : Nat}
    {values : List α} (inside : start ≤ store.length)
    (first : Nat) {stop : Nat} (before : stop ≤ start) :
    window (overwrite store start values) first stop =
      window store first stop := by
  have size : (store.take start).length = start := by
    simp [inside]
  simp only [window, overwrite, List.append_assoc]
  rw [List.take_append_of_le_length (by omega), List.take_take,
    Nat.min_eq_left before]

theorem window_overwrite_self {store : List α} {start : Nat}
    {values : List α} (inside : start ≤ store.length) :
    window (overwrite store start values) start
        (start + values.length) =
      values := by
  have size : (store.take start).length = start := by
    simp [inside]
  have head : (store.take start ++ values).length =
      start + values.length := by
    simp [inside]
  simp only [window, overwrite]
  rw [← head, List.take_left, List.drop_left' size]

theorem window_overwrite_after {store : List α} {start : Nat}
    {values : List α} (inside : start + values.length ≤ store.length)
    {first : Nat} (after : start + values.length ≤ first) (stop : Nat) :
    window (overwrite store start values) first stop =
      window store first stop := by
  have head : (store.take start ++ values).length =
      start + values.length := by
    simp only [List.length_append, List.length_take]
    omega
  by_cases order : stop ≤ first
  · rw [window_of_le order, window_of_le order]
  · simp only [window]
    rw [List.drop_take, List.drop_take, overwrite,
      List.drop_append, List.drop_eq_nil_of_le (by omega), head,
      List.nil_append, List.drop_drop]
    congr 2
    omega

/-- Writing over the front of a window replaces as much of it. -/
theorem window_overwrite_front {store : List α} {start : Nat}
    {values : List α} (inside : start + values.length ≤ store.length)
    {stop : Nat} (covered : start + values.length ≤ stop) :
    window (overwrite store start values) start stop =
      values ++ (window store start stop).drop values.length := by
  rw [← window_append_window _ (Nat.le_add_right start values.length)
      covered,
    window_overwrite_self (by omega),
    window_overwrite_after inside (Nat.le_refl _), drop_window]

/-- Writing two stretches one after the other writes them together. -/
theorem overwrite_overwrite {store : List α} {start : Nat}
    {left right : List α} (inside : start + left.length ≤ store.length) :
    overwrite (overwrite store start left) (start + left.length) right =
      overwrite store start (left ++ right) := by
  have head : (store.take start ++ left).length =
      start + left.length := by
    simp only [List.length_append, List.length_take]
    omega
  have front : (overwrite store start left).take
      (start + left.length) = store.take start ++ left :=
    List.take_left' head
  have back : (overwrite store start left).drop
        (start + left.length + right.length) =
      store.drop (start + left.length + right.length) := by
    rw [overwrite, ← List.drop_drop, List.drop_left' head,
      List.drop_drop]
  rw [overwrite, front, back, overwrite, List.length_append,
    ← Nat.add_assoc, List.append_assoc (store.take start)]

theorem getElem?_window {store : List α} {start stop position : Nat}
    (inside : start + position < stop) :
    (window store start stop)[position]? = store[start + position]? := by
  rw [window, List.getElem?_drop, List.getElem?_take_of_lt inside]

theorem getElem?_overwrite {store : List α} {start position : Nat}
    {values : List α} (inside : start ≤ store.length)
    (from_ : start ≤ position) (to_ : position < start + values.length) :
    (overwrite store start values)[position]? =
      values[position - start]? := by
  have size : (store.take start).length = start := by
    simp [inside]
  rw [overwrite, List.append_assoc,
    List.getElem?_append_right (by omega), size,
    List.getElem?_append_left (by omega)]

end Etch.Library.Window
