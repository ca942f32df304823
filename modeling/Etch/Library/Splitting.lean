import Mathlib.Data.List.Basic

/-!
# Splitting at a delimiter

A list is cut at the first delimiter that it has, which leaves the part in
front and, where there is a delimiter, the part behind.  Joining the parts is
the inverse, provided that the part in front has no delimiter.
-/

namespace Etch.Library.Splitting

variable {Symbol : Type*} [DecidableEq Symbol]

/-- What stands in front of the first delimiter, and what stands behind. -/
def cut (delimiter : Symbol) :
    List Symbol → List Symbol × Option (List Symbol)
  | [] => ([], none)
  | symbol :: rest =>
      if symbol = delimiter then
        ([], some rest)
      else
        (symbol :: (cut delimiter rest).1, (cut delimiter rest).2)

/-- The two parts with the delimiter between them. -/
def joined (delimiter : Symbol) (front : List Symbol) :
    Option (List Symbol) → List Symbol
  | none => front
  | some back => front ++ delimiter :: back

omit [DecidableEq Symbol] in
@[simp]
theorem joined_none (delimiter : Symbol) (front : List Symbol) :
    joined delimiter front none = front :=
  rfl

omit [DecidableEq Symbol] in
@[simp]
theorem joined_some (delimiter : Symbol) (front back : List Symbol) :
    joined delimiter front (some back) = front ++ delimiter :: back :=
  rfl

omit [DecidableEq Symbol] in
theorem not_mem_joined {symbol delimiter : Symbol} {front : List Symbol}
    {back : Option (List Symbol)} (other : symbol ≠ delimiter)
    (free : symbol ∉ front) (free' : ∀ back' ∈ back, symbol ∉ back') :
    symbol ∉ joined delimiter front back := by
  cases back with
  | none => exact free
  | some back =>
      rw [joined_some, List.mem_append, List.mem_cons, not_or, not_or]
      exact ⟨free, other, free' back rfl⟩

theorem cut_joined {delimiter : Symbol} {front : List Symbol}
    (free : delimiter ∉ front) (back : Option (List Symbol)) :
    cut delimiter (joined delimiter front back) = (front, back) := by
  induction front with
  | nil =>
      cases back with
      | none => rfl
      | some back => simp [cut]
  | cons symbol front ih =>
      rw [List.mem_cons, not_or] at free
      have rest := ih free.2
      cases back with
      | none =>
          rw [joined_none] at rest ⊢
          rw [cut, if_neg (Ne.symm free.1), rest]
      | some back =>
          rw [joined_some] at rest ⊢
          rw [List.cons_append, cut, if_neg (Ne.symm free.1), rest]

theorem not_mem_cut (delimiter : Symbol) (symbols : List Symbol) :
    delimiter ∉ (cut delimiter symbols).1 := by
  induction symbols with
  | nil => exact List.not_mem_nil
  | cons symbol rest ih =>
      rw [cut]
      split_ifs with same
      · exact List.not_mem_nil
      · rw [List.mem_cons, not_or]
        exact ⟨Ne.symm same, ih⟩

theorem joined_cut (delimiter : Symbol) (symbols : List Symbol) :
    joined delimiter (cut delimiter symbols).1 (cut delimiter symbols).2 =
      symbols := by
  induction symbols with
  | nil => rfl
  | cons symbol rest ih =>
      rw [cut]
      split_ifs with same
      · rw [joined_some, same, List.nil_append]
      · cases behind : (cut delimiter rest).2 with
        | none =>
            rw [behind] at ih
            exact congrArg (symbol :: ·) ih
        | some back =>
            rw [behind] at ih
            exact congrArg (symbol :: ·) ih

/-- The cut is the one way to take the list apart. -/
theorem cut_eq_iff {delimiter : Symbol} {symbols front : List Symbol}
    {back : Option (List Symbol)} :
    cut delimiter symbols = (front, back) ↔
      delimiter ∉ front ∧ joined delimiter front back = symbols := by
  constructor
  · intro parts
    have free := not_mem_cut delimiter symbols
    have whole := joined_cut delimiter symbols
    rw [parts] at free whole
    exact ⟨free, whole⟩
  · rintro ⟨free, rfl⟩
    exact cut_joined free back

/-- Without a delimiter there is nothing to cut. -/
theorem cut_eq_self {delimiter : Symbol} {symbols : List Symbol}
    (free : delimiter ∉ symbols) : cut delimiter symbols = (symbols, none) :=
  cut_joined free none

theorem cut_append {delimiter : Symbol} {front : List Symbol}
    (free : delimiter ∉ front) (back : List Symbol) :
    cut delimiter (front ++ delimiter :: back) = (front, some back) :=
  cut_joined free (some back)

theorem cut_cons (delimiter : Symbol) (back : List Symbol) :
    cut delimiter (delimiter :: back) = ([], some back) :=
  cut_append List.not_mem_nil back

/-- A delimiter in front is found before the one in between. -/
theorem cut_append_of_mem {delimiter : Symbol} {front : List Symbol}
    (mem : delimiter ∈ front) (rest : List Symbol) :
    ∃ back, cut delimiter (front ++ rest) =
      ((cut delimiter front).1, some (back ++ rest)) := by
  have whole := joined_cut delimiter front
  have free := not_mem_cut delimiter front
  cases behind : (cut delimiter front).2 with
  | none =>
      rw [behind, joined_none] at whole
      exact absurd (whole ▸ mem) (whole ▸ free)
  | some back =>
      rw [behind, joined_some] at whole
      refine ⟨back, cut_eq_iff.mpr ⟨free, ?_⟩⟩
      rw [joined_some]
      conv_rhs => rw [← whole]
      simp

omit [DecidableEq Symbol] in
/-- A unit that one symbol only is written with. -/
theorem not_mem_flatMap {Code : Type*} {code : Symbol → List Code}
    {delimiter : Symbol} {unit : Code}
    (only : ∀ symbol, unit ∈ code symbol → symbol = delimiter)
    {symbols : List Symbol} (free : delimiter ∉ symbols) :
    unit ∉ symbols.flatMap code := by
  intro mem
  obtain ⟨symbol, mem', coded⟩ := List.mem_flatMap.mp mem
  exact free (only symbol coded ▸ mem')

/-- Where a delimiter is written as a unit of its own, that of no other symbol,
the parts of a text are written as the parts of what is written. -/
theorem cut_flatMap {Code : Type*} [DecidableEq Code]
    {code : Symbol → List Code} {delimiter : Symbol} {unit : Code}
    (own : code delimiter = [unit])
    (only : ∀ symbol, unit ∈ code symbol → symbol = delimiter)
    (symbols : List Symbol) :
    cut unit (symbols.flatMap code) =
      ((cut delimiter symbols).1.flatMap code,
        (cut delimiter symbols).2.map (·.flatMap code)) := by
  rw [cut_eq_iff]
  refine ⟨not_mem_flatMap only (not_mem_cut delimiter symbols), ?_⟩
  conv_rhs => rw [← joined_cut delimiter symbols]
  cases (cut delimiter symbols).2 with
  | none => rfl
  | some back => simp [own]

/-- All parts of a list, one after the other. -/
theorem splitOn_eq_cut (delimiter : Symbol) (symbols : List Symbol) :
    symbols.splitOn delimiter =
      match cut delimiter symbols with
      | (front, none) => [front]
      | (front, some back) => front :: back.splitOn delimiter := by
  cases parts : cut delimiter symbols with
  | mk front back =>
      obtain ⟨free, rfl⟩ := cut_eq_iff.mp parts
      cases back with
      | none => exact List.splitOn_eq_singleton free
      | some back => exact List.splitOn_append_cons_self_of_not_mem free back

theorem length_lt_of_cut {delimiter : Symbol}
    {symbols front back : List Symbol}
    (parts : cut delimiter symbols = (front, some back)) :
    back.length < symbols.length := by
  obtain ⟨-, rfl⟩ := cut_eq_iff.mp parts
  rw [joined_some, List.length_append, List.length_cons]
  omega

end Etch.Library.Splitting
