import Etch.Library.Loop
import Mathlib.Data.List.Nodup
import Mathlib.Logic.Function.Iterate

/-!
# Singly linked chains in a memory

A chain is the list of its cells, each an address with what is stored there.
The memory that holds a chain and nothing else is a function of the chain;
inserting and removing cells are two or fewer updates of it.  A loop that
walks along a chain goes round once for each cell that it passes.
-/

namespace Etch.Library.Linked

universe u v w

variable {Address : Type u} {Data : Type v}

/-- What is stored at an address. -/
structure Node (Address : Type u) (Data : Type v) where
  data : Data
  next : Option Address

/-- The first address of a chain that goes on with `stop`. -/
def first (stop : Option Address) : List (Address × Data) → Option Address
  | [] => stop
  | (address, _) :: _ => some address

/-- The addresses of a chain. -/
def addresses (cells : List (Address × Data)) : List Address :=
  cells.map Prod.fst

@[simp]
theorem first_append_cons (stop : Option Address)
    (front rest : List (Address × Data)) :
    first stop (front ++ rest) = first (first stop rest) front := by
  cases front with
  | nil => rfl
  | cons cell front => rfl

variable {stop : Option Address} {cells front rest : List (Address × Data)}
  {address other : Address} {data value : Data}

theorem not_mem_front
    (apart : (addresses ((other, value) :: front ++
      (address, data) :: rest)).Nodup) : address ≠ other := by
  rintro rfl
  exact (List.nodup_cons.mp apart).1 (List.mem_map.mpr
    ⟨(address, data), List.mem_append_right _ List.mem_cons_self, rfl⟩)

variable [DecidableEq Address]

/-- The memory that holds the chain. -/
def linked (stop : Option Address) :
    List (Address × Data) → Address → Option (Node Address Data)
  | [] => fun _ => none
  | (address, data) :: rest =>
      Function.update (linked stop rest) address
        (some ⟨data, first stop rest⟩)

theorem linked_eq_none_iff :
    linked stop cells other = none ↔ other ∉ addresses cells := by
  induction cells with
  | nil => exact iff_of_true rfl List.not_mem_nil
  | cons cell rest ih =>
      obtain ⟨address, data⟩ := cell
      rw [addresses, List.map_cons, List.mem_cons, not_or]
      by_cases same : other = address
      · subst same
        refine iff_of_false ?_ fun apart => apart.1 rfl
        rw [linked, Function.update_self]
        exact nofun
      · rw [linked, Function.update_of_ne same, ih]
        exact (and_iff_right same).symm

theorem linked_self :
    linked stop ((address, data) :: rest) address =
      some ⟨data, first stop rest⟩ :=
  Function.update_self _ _ _

/-- The node of a cell anywhere in the chain. -/
theorem linked_middle
    (apart : (addresses (front ++ (address, data) :: rest)).Nodup) :
    linked stop (front ++ (address, data) :: rest) address =
      some ⟨data, first stop rest⟩ := by
  induction front with
  | nil => exact linked_self
  | cons cell front ih =>
      obtain ⟨other, value⟩ := cell
      have apart' := List.nodup_cons.mp apart
      have different : address ≠ other := by
        rintro rfl
        exact apart'.1 (List.mem_map.mpr
          ⟨(address, data), List.mem_append_right _ List.mem_cons_self, rfl⟩)
      rw [List.cons_append, linked, Function.update_of_ne different]
      exact ih apart'.2

/-- The first cell is taken off the chain. -/
theorem linked_tail (apart : (addresses ((address, data) :: rest)).Nodup) :
    Function.update (linked stop ((address, data) :: rest)) address none =
      linked stop rest := by
  have absent : linked stop rest address = none :=
    linked_eq_none_iff.mpr (List.nodup_cons.mp apart).1
  rw [linked, Function.update_idem]
  exact Function.update_eq_self_iff.mpr absent.symm

/-- Writing a cell of the chain leaves the cells before it alone. -/
theorem update_cons (different : other ≠ address)
    (memory : Address → Option (Node Address Data))
    (node node' : Option (Node Address Data)) :
    Function.update (Function.update memory address node) other node' =
      Function.update (Function.update memory other node') address node :=
  Function.update_comm different.symm _ _ _

/-- A new cell behind one of the chain. -/
theorem linked_insert {fresh : Address}
    (apart : (addresses (front ++ (address, data) :: rest)).Nodup)
    (unused : fresh ∉ addresses (front ++ (address, data) :: rest)) :
    Function.update
      (Function.update (linked stop (front ++ (address, data) :: rest))
        fresh (some ⟨value, first stop rest⟩))
      address (some ⟨data, some fresh⟩) =
    linked stop (front ++ (address, data) :: (fresh, value) :: rest) := by
  induction front with
  | nil =>
      have different : fresh ≠ address := fun same =>
        unused (same ▸ List.mem_cons_self)
      rw [List.nil_append, linked, update_cons different,
        Function.update_idem]
      rfl
  | cons cell front ih =>
      obtain ⟨other, old⟩ := cell
      have different := not_mem_front apart
      have different' : fresh ≠ other := fun same =>
        unused (same ▸ List.mem_cons_self)
      rw [List.cons_append, linked, update_cons different',
        update_cons different, ih (List.nodup_cons.mp apart).2
          fun mem => unused (List.mem_cons_of_mem _ mem)]
      rw [List.cons_append, linked, first_append_cons, first_append_cons]
      rfl

/-- The cell behind one of the chain is taken off. -/
theorem linked_erase {old : Address}
    (apart : (addresses
      (front ++ (address, data) :: (old, value) :: rest)).Nodup) :
    Function.update
      (Function.update
        (linked stop (front ++ (address, data) :: (old, value) :: rest))
        address (some ⟨data, first stop rest⟩))
      old none =
    linked stop (front ++ (address, data) :: rest) := by
  induction front with
  | nil =>
      have apart' := List.nodup_cons.mp apart
      have different : old ≠ address := fun same =>
        apart'.1 (same ▸ List.mem_cons_self)
      rw [List.nil_append, linked, Function.update_idem,
        update_cons different, linked_tail apart'.2]
      rfl
  | cons cell front ih =>
      obtain ⟨other, kept⟩ := cell
      have apart' := List.nodup_cons.mp apart
      have different : old ≠ other := by
        rintro rfl
        exact apart'.1 (List.mem_map.mpr ⟨(old, value),
          List.mem_append_right _ (List.mem_cons_of_mem _
            List.mem_cons_self), rfl⟩)
      rw [List.cons_append, linked, update_cons (not_mem_front apart),
        update_cons different, ih apart'.2]
      rw [List.cons_append, linked, first_append_cons, first_append_cons]
      rfl

/-! ## Positions -/

omit [DecidableEq Address] in
theorem exists_split {position : Nat} (inside : position < cells.length) :
    ∃ front address data rest,
      cells = front ++ (address, data) :: rest ∧ front.length = position := by
  refine ⟨cells.take position, cells[position].1, cells[position].2,
    cells.drop (position + 1), ?_, List.length_take_of_le (Nat.le_of_lt inside)⟩
  rw [← List.drop_eq_getElem_cons inside, List.take_append_drop]

theorem exists_bound (cells : List (Nat × Data)) :
    ∃ bound, ∀ address ∈ addresses cells, address < bound := by
  induction cells with
  | nil => exact ⟨0, nofun⟩
  | cons cell cells ih =>
      obtain ⟨bound, below⟩ := ih
      refine ⟨max bound (cell.1 + 1), fun address mem => ?_⟩
      cases mem with
      | head => omega
      | tail _ mem =>
          have less := below _ mem
          omega

/-- An address that no cell has. -/
theorem exists_unused (cells : List (Nat × Data)) :
    ∃ fresh, fresh ∉ addresses cells := by
  obtain ⟨bound, below⟩ := exists_bound cells
  exact ⟨bound, fun mem => Nat.lt_irrefl _ (below _ mem)⟩

section Walk

open Loop

variable {Counter Result : Type w}

omit [DecidableEq Address] in
/-- A loop that only counts the first cells comes to the others. -/
theorem returns_walk
    {body : Option Address × Counter →
      Pass (Option Address × Counter) Result}
    (next : Counter → Counter) {counter : Counter} {result : Result}
    (goes : ∀ before cell after, front = before ++ cell :: after →
      body (some cell.1, Nat.iterate next before.length counter) =
        .again (first (first stop rest) after,
          Nat.iterate next (before.length + 1) counter)) :
    Returns body (first stop (front ++ rest), counter) result ↔
      Returns body
        (first stop rest, Nat.iterate next front.length counter) result := by
  induction front generalizing counter with
  | nil => exact Iff.rfl
  | cons cell front ih =>
      have round : body (some cell.1, counter) =
          .again (first stop (front ++ rest), next counter) := by
        rw [first_append_cons]
        exact goes [] cell front rfl
      refine (returns_again_iff round).trans ?_
      refine (@ih (next counter) fun before cell' after same => ?_).trans ?_
      · exact goes (cell :: before) cell' after (congrArg _ same)
      · exact Iff.rfl

end Walk

end Etch.Library.Linked
