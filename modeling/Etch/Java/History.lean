import Etch.Java.IdName

/-!
# The Java `History`

How many items are in use and how many are allocated, neither of which may
exceed a limit, and how many were in use lately.
-/

namespace Etch.Java

open Etch.Library.Fallible

structure History where
  min : Int
  limit : Int
  history : List Int
  highwatermark : Int
  suggested : Int
  used : Int
  alloc : Int
deriving DecidableEq

namespace History

/-- `init()` -/
def init (history : History) : History :=
  let h := max history.min history.used
  { history with
    history := history.history.map fun _ => h
    highwatermark := h
    suggested := h }

/-- `new History(min, limit, len)` -/
def new (min limit len : Int) : Except Thrown History :=
  if min < 0 then
    .error (.illegalArgumentException (text "min < 0"))
  else if limit < min then
    .error (.illegalArgumentException (text "limit < min"))
  else if len < 0 then
    .error (.illegalArgumentException (text "len < 0"))
  else
    .ok (init ⟨min, limit, List.replicate len.toNat 0, 0, 0, 0, 0⟩)

/-- `used(k)` up to its call of `bump`, which it makes if it returns true. -/
def adjustUsed (history : History) (k : Int) :
    Except Thrown (Bool × History) :=
  if k = 0 then
    .error (.illegalArgumentException (text "k == 0"))
  else
    let newUsed := intAdd history.used k
    if newUsed > history.limit then
      .ok (false, history)
    else if newUsed < 0 then
      .error (.illegalStateException (text "newUsed < 0"))
    else
      .ok (true, { history with used := newUsed })

/-- `bump(value)` -/
def bump (history : History) (value : Int) : History :=
  if value > history.highwatermark then
    { history with highwatermark := value }
  else
    history

/-- `alloc(k)` -/
def adjustAlloc (history : History) (k : Int) : Except Thrown History :=
  if k = 0 then
    .error (.illegalArgumentException (text "k == 0"))
  else
    let newAlloc := intAdd history.alloc k
    if newAlloc > history.limit then
      .error (.illegalStateException (text "newAlloc > limit"))
    else if newAlloc < 0 then
      .error (.illegalStateException (text "newAlloc < 0"))
    else
      .ok { history with alloc := newAlloc }

/-- `recalc(hstry)` -/
def recalc (hstry : List Int) : Int :=
  (hstry.foldl intAdd 0).tdiv hstry.length

/-- `tickle()` -/
def tickle (history : History) : History :=
  if history.history.length = 0 then
    history
  else
    let hstry := history.highwatermark :: history.history.dropLast
    { history with
      history := hstry
      highwatermark := max history.min history.used
      suggested := recalc hstry }

/-! ## What the methods do to the counts -/

/-- Counts that are in bounds. -/
structure Bounded (history : History) : Prop where
  used : 0 ≤ history.used ∧ history.used ≤ history.limit
  alloc : 0 ≤ history.alloc ∧ history.alloc ≤ history.limit
  limit : history.limit < 2 ^ 31

/-- Two histories with the same counts. -/
structure SameCounts (history next : History) : Prop where
  used : next.used = history.used
  alloc : next.alloc = history.alloc
  limit : next.limit = history.limit

theorem SameCounts.refl (history : History) : history.SameCounts history :=
  ⟨rfl, rfl, rfl⟩

theorem sameCounts_bump (history : History) (value : Int) :
    history.SameCounts (history.bump value) := by
  unfold bump
  split_ifs <;> exact ⟨rfl, rfl, rfl⟩

theorem sameCounts_tickle (history : History) :
    history.SameCounts history.tickle := by
  unfold tickle
  split_ifs <;> exact ⟨rfl, rfl, rfl⟩

theorem new_ok {min limit len : Int} {history : History}
    (done : new min limit len = .ok history) :
    0 ≤ limit ∧ history.limit = limit ∧ history.used = 0 ∧
      history.alloc = 0 := by
  unfold new at done
  split_ifs at done with negative below
  obtain rfl := Except.ok.inj done
  exact ⟨by omega, rfl, rfl, rfl⟩

theorem intAdd_eq {left right : Int} (lower : -2 ^ 31 ≤ left + right)
    (upper : left + right < 2 ^ 31) : intAdd left right = left + right := by
  unfold intAdd
  rw [Int.bmod_eq_of_le] <;> omega

/-- A sum of counts that is too large for an `int` is negative. -/
theorem intAdd_neg {left right : Int} (lower : 2 ^ 31 ≤ left + right)
    (upper : left + right < 2 ^ 32) : intAdd left right < 0 := by
  simp only [intAdd, Int.bmod]
  split <;> omega

/-- More items come in use only as far as the limit. -/
theorem adjustUsed_ok {history next : History} {k : Int} {within : Bool}
    (bounded : history.Bounded) (positive : 0 < k) (small : k < 2 ^ 31)
    (done : history.adjustUsed k = .ok (within, next)) :
    (within = false ∧ next = history) ∨
      (within = true ∧ history.used + k ≤ history.limit ∧
        next = { history with used := history.used + k }) := by
  obtain ⟨⟨lower, upper⟩, _, limit⟩ := bounded
  rw [adjustUsed, if_neg (by omega)] at done
  dsimp only at done
  split_ifs at done with exceeds negative
  · obtain ⟨rfl, rfl⟩ := Prod.mk.inj (Except.ok.inj done)
    exact Or.inl ⟨rfl, rfl⟩
  · obtain ⟨rfl, rfl⟩ := Prod.mk.inj (Except.ok.inj done)
    have fits : history.used + k < 2 ^ 31 := by
      by_contra large
      exact negative (intAdd_neg (by omega) (by omega))
    rw [intAdd_eq (by omega) fits] at exceeds ⊢
    exact Or.inr ⟨rfl, by omega, rfl⟩

/-- An item in use can be given back. -/
theorem adjustUsed_back {history : History} (bounded : history.Bounded)
    (inUse : 0 < history.used) :
    history.adjustUsed (-1) =
      .ok (true, { history with used := history.used - 1 }) := by
  obtain ⟨⟨_, upper⟩, _, limit⟩ := bounded
  have difference : intAdd history.used (-1) = history.used - 1 :=
    intAdd_eq (by omega) (by omega)
  rw [adjustUsed, if_neg (by omega)]
  dsimp only
  rw [difference, if_neg (by omega), if_neg (by omega)]

theorem adjustAlloc_one {history : History} (bounded : history.Bounded)
    (room : history.alloc < history.limit) :
    history.adjustAlloc 1 =
      .ok { history with alloc := history.alloc + 1 } := by
  obtain ⟨_, ⟨lower, _⟩, limit⟩ := bounded
  have sum : intAdd history.alloc 1 = history.alloc + 1 :=
    intAdd_eq (by omega) (by omega)
  rw [adjustAlloc, if_neg (by omega)]
  dsimp only
  rw [sum, if_neg (by omega), if_neg (by omega)]

theorem adjustAlloc_back {history : History} (bounded : history.Bounded)
    (some : 0 < history.alloc) :
    history.adjustAlloc (-1) =
      .ok { history with alloc := history.alloc - 1 } := by
  obtain ⟨_, ⟨_, upper⟩, limit⟩ := bounded
  have difference : intAdd history.alloc (-1) = history.alloc - 1 :=
    intAdd_eq (by omega) (by omega)
  rw [adjustAlloc, if_neg (by omega)]
  dsimp only
  rw [difference, if_neg (by omega), if_neg (by omega)]

end History

end Etch.Java
