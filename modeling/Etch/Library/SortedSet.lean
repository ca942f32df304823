import Mathlib.Order.Lattice

/-!
# Sets ordered by a key

A set is the list of its items in the order of their keys, which are all
different.  An item is looked for by its key, so that a set is a set no longer
if the key of one of its items has been changed.
-/

namespace Etch.Library.SortedSet

variable {Item Key : Type*} [LinearOrder Key]

/-- The items are in the order of their keys. -/
def Sorted (key : Item → Key) (items : List Item) : Prop :=
  items.Pairwise fun first second => key first < key second

/-- An item is put in its place, unless its key is there. -/
def insert (key : Item → Key) (item : Item) : List Item → List Item
  | [] => [item]
  | first :: rest =>
      if key item < key first then
        item :: first :: rest
      else if key first < key item then
        first :: insert key item rest
      else
        first :: rest

/-- The item at the place of a key is taken out. -/
def remove (key : Item → Key) (item : Item) : List Item → List Item
  | [] => []
  | first :: rest =>
      if key item < key first then
        first :: rest
      else if key first < key item then
        first :: remove key item rest
      else
        rest

variable {key : Item → Key} {item other : Item} {items : List Item}

theorem Sorted.nil : Sorted key [] :=
  List.Pairwise.nil

theorem Sorted.tail {first : Item} {rest : List Item}
    (sorted : Sorted key (first :: rest)) : Sorted key rest :=
  List.Pairwise.of_cons sorted

/-- A set does not depend on keys of items that it does not have. -/
theorem Sorted.congr {changed : Item → Key} (sorted : Sorted key items)
    (same : ∀ item ∈ items, changed item = key item) :
    Sorted changed items := by
  refine List.Pairwise.imp_of_mem (fun memFirst memSecond less => ?_) sorted
  rw [same _ memFirst, same _ memSecond]
  exact less

theorem mem_insert (injective : Function.Injective key) :
    other ∈ insert key item items ↔ other = item ∨ other ∈ items := by
  induction items with
  | nil => simp [insert]
  | cons first rest ih =>
      unfold insert
      split_ifs with less greater
      · exact List.mem_cons
      · rw [List.mem_cons, List.mem_cons, ih]
        exact or_left_comm
      · have same : item = first := injective
          (le_antisymm (le_of_not_gt greater) (le_of_not_gt less))
        rw [List.mem_cons, same]
        exact ⟨Or.inr, fun mem => mem.elim Or.inl id⟩

theorem Sorted.insert (injective : Function.Injective key)
    (sorted : Sorted key items) : Sorted key (insert key item items) := by
  induction items with
  | nil => exact List.pairwise_singleton ..
  | cons first rest ih =>
      have above := (List.pairwise_cons.mp sorted).1
      unfold SortedSet.insert
      split_ifs with less greater
      · refine List.pairwise_cons.mpr ⟨fun other mem => ?_, sorted⟩
        rcases List.mem_cons.mp mem with rfl | mem
        · exact less
        · exact lt_trans less (above other mem)
      · refine List.pairwise_cons.mpr ⟨fun other mem => ?_, ih sorted.tail⟩
        rcases (mem_insert injective).mp mem with rfl | mem
        · exact greater
        · exact above other mem
      · exact sorted

theorem mem_remove (injective : Function.Injective key)
    (sorted : Sorted key items) :
    other ∈ remove key item items ↔ other ≠ item ∧ other ∈ items := by
  induction items with
  | nil => simp [remove]
  | cons first rest ih =>
      have above := (List.pairwise_cons.mp sorted).1
      unfold remove
      split_ifs with less greater
      · -- all items come after the one that is looked for
        refine (and_iff_right_of_imp ?_).symm
        rintro mem rfl
        rcases List.mem_cons.mp mem with rfl | mem
        · exact lt_irrefl _ less
        · exact lt_asymm less (above other mem)
      · have different : first ≠ item := by
          rintro rfl
          exact lt_irrefl _ greater
        rw [List.mem_cons, List.mem_cons, ih sorted.tail]
        constructor
        · rintro (rfl | ⟨other, mem⟩)
          · exact ⟨different, Or.inl rfl⟩
          · exact ⟨other, Or.inr mem⟩
        · rintro ⟨other, rfl | mem⟩
          · exact Or.inl rfl
          · exact Or.inr ⟨other, mem⟩
      · have same : item = first := injective
          (le_antisymm (le_of_not_gt greater) (le_of_not_gt less))
        subst same
        constructor
        · intro mem
          refine ⟨?_, List.mem_cons_of_mem _ mem⟩
          rintro rfl
          exact lt_irrefl _ (above other mem)
        · rintro ⟨different, mem⟩
          exact (List.mem_cons.mp mem).resolve_left different

theorem remove_sublist : (remove key item items).Sublist items := by
  induction items with
  | nil => exact .refl _
  | cons first rest ih =>
      unfold remove
      split_ifs
      · exact .refl _
      · exact ih.cons_cons first
      · exact List.sublist_cons_self first rest

theorem Sorted.remove (sorted : Sorted key items) :
    Sorted key (remove key item items) :=
  List.Pairwise.sublist remove_sublist sorted

end Etch.Library.SortedSet
