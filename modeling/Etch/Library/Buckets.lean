import Mathlib.Data.List.Induction
import Mathlib.Data.List.Perm.Basic
import Mathlib.Data.List.Flatten

/-!
# Chained buckets

A hash table keeps an item in the chain of its remainder.  What is asked of
the items of one code is asked of their chain; putting an item in, taking one
out and spreading all of them over more buckets are, of the items as a whole,
adding one, removing one and nothing.
-/

namespace Etch.Library.Buckets

universe u

variable {Item : Type u} (code : Item → Nat)

/-- The chain for a code. -/
def chain (buckets : List (List Item)) (value : Nat) : List Item :=
  buckets.getD (value % buckets.length) []

/-- The item in front of its chain. -/
def push (buckets : List (List Item)) (item : Item) : List (List Item) :=
  buckets.modify (code item % buckets.length) (item :: ·)

/-- The items, one after another, in so many buckets. -/
def spread (size : Nat) (items : List Item) : List (List Item) :=
  items.foldl (push code) (List.replicate size [])

/-- The chain for a code without its first item of this kind. -/
def erase (buckets : List (List Item)) (value : Nat) (kind : Item → Bool) :
    List (List Item) :=
  buckets.modify (value % buckets.length) (List.eraseP kind)

/-- Every item is in its chain. -/
structure Bucketed (buckets : List (List Item)) : Prop where
  inhabited : 0 < buckets.length
  place : ∀ index items, buckets[index]? = some items →
    ∀ item ∈ items, code item % buckets.length = index

variable {code} {buckets : List (List Item)}

/-! ## Chains -/

theorem chain_eq {value : Nat} (inhabited : 0 < buckets.length) :
    buckets[value % buckets.length]? = some (chain buckets value) := by
  have inside := Nat.mod_lt value inhabited
  rw [chain, List.getD_eq_getElem?_getD, List.getElem?_eq_getElem inside]
  rfl

/-- A chain has the items of its remainder. -/
theorem mem_chain_iff (placed : Bucketed code buckets) {item : Item}
    {value : Nat} :
    item ∈ chain buckets value ↔ item ∈ buckets.flatten ∧
      code item % buckets.length = value % buckets.length := by
  have here := @chain_eq _ _ value placed.inhabited
  constructor
  · intro mem
    exact ⟨List.mem_flatten.mpr ⟨_, List.mem_of_getElem? here, mem⟩,
      placed.place _ _ here item mem⟩
  · rintro ⟨mem, same⟩
    obtain ⟨items, mem', there⟩ := List.mem_flatten.mp mem
    obtain ⟨index, found⟩ := List.mem_iff_getElem?.mp mem'
    have place := placed.place index items found item there
    rw [← same, place, found] at here
    exact Option.some.inj here ▸ there

/-! ## Putting in and taking out -/

theorem getElem?_modify_cases {index place : Nat}
    {change : List Item → List Item} {items : List Item}
    (found : (buckets.modify place change)[index]? = some items) :
    ∃ old, buckets[index]? = some old ∧
      (items = old ∨ index = place ∧ items = change old) := by
  rw [List.getElem?_modify] at found
  obtain ⟨old, there, rfl⟩ := Option.map_eq_some_iff.mp found
  refine ⟨old, there, ?_⟩
  split_ifs with same
  · exact .inr ⟨same.symm, rfl⟩
  · exact .inl rfl

theorem Bucketed.push (placed : Bucketed code buckets) (item : Item) :
    Bucketed code (push code buckets item) where
  inhabited := by
    rw [Buckets.push, List.length_modify]
    exact placed.inhabited
  place := by
    intro index items found other mem
    rw [Buckets.push, List.length_modify]
    obtain ⟨old, there, rfl | ⟨rfl, rfl⟩⟩ := getElem?_modify_cases found
    · exact placed.place index items there other mem
    · cases mem with
      | head => rfl
      | tail _ mem => exact placed.place _ old there other mem

theorem Bucketed.erase (placed : Bucketed code buckets) (value : Nat)
    (kind : Item → Bool) : Bucketed code (erase buckets value kind) where
  inhabited := by
    rw [Buckets.erase, List.length_modify]
    exact placed.inhabited
  place := by
    intro index items found other mem
    rw [Buckets.erase, List.length_modify]
    obtain ⟨old, there, rfl | ⟨rfl, rfl⟩⟩ := getElem?_modify_cases found
    · exact placed.place index items there other mem
    · exact placed.place _ old there other (List.mem_of_mem_eraseP mem)

theorem placed_replicate {size : Nat} (positive : 0 < size) :
    Bucketed code (List.replicate size []) where
  inhabited := by rwa [List.length_replicate]
  place := by
    intro index items found item mem
    cases List.eq_of_mem_replicate (List.mem_of_getElem? found)
    exact nomatch mem

theorem placed_spread {size : Nat} (positive : 0 < size)
    (items : List Item) : Bucketed code (spread code size items) := by
  unfold spread
  induction items using List.reverseRecOn with
  | nil => exact placed_replicate positive
  | append_singleton items item ih =>
      rw [List.foldl_append]
      exact ih.push item

/-! ## All items -/

theorem perm_modify_cons {place : Nat} (inside : place < buckets.length)
    (item : Item) :
    (buckets.modify place (item :: ·)).flatten.Perm
      (item :: buckets.flatten) := by
  induction buckets generalizing place with
  | nil => exact absurd inside (Nat.not_lt_zero _)
  | cons items buckets ih =>
      cases place with
      | zero => exact .refl _
      | succ place =>
          rw [List.modify_succ_cons, List.flatten_cons, List.flatten_cons]
          exact ((ih (Nat.lt_of_succ_lt_succ inside)).append_left
            items).trans List.perm_middle

theorem push_perm (inhabited : 0 < buckets.length) (item : Item) :
    (push code buckets item).flatten.Perm (item :: buckets.flatten) :=
  perm_modify_cons (Nat.mod_lt _ inhabited) item

theorem spread_perm {size : Nat} (positive : 0 < size)
    (items : List Item) : (spread code size items).flatten.Perm items := by
  induction items using List.reverseRecOn with
  | nil =>
      unfold spread
      rw [List.foldl_nil, List.flatten_replicate_nil]
  | append_singleton items item ih =>
      have placed := @placed_spread _ code _ positive items
      have step := @push_perm _ code _ placed.inhabited item
      unfold spread at step ih ⊢
      rw [List.foldl_append]
      exact (step.trans (ih.cons item)).trans
        (List.perm_append_singleton item items).symm

theorem perm_cons_eraseP {items : List Item} {kind : Item → Bool}
    {item : Item} (found : items.find? kind = some item) :
    items.Perm (item :: items.eraseP kind) := by
  induction items with
  | nil => exact nomatch found
  | cons first items ih =>
      by_cases is : kind first = true
      · rw [List.find?_cons_of_pos is] at found
        cases found
        rw [List.eraseP_cons_of_pos is]
      · rw [List.find?_cons_of_neg is] at found
        rw [List.eraseP_cons_of_neg is]
        exact ((ih found).cons first).trans (.swap _ _ _)

theorem perm_modify_erase {place : Nat} {items : List Item}
    {kind : Item → Bool} {item : Item} (here : buckets[place]? = some items)
    (found : items.find? kind = some item) :
    buckets.flatten.Perm
      (item :: (buckets.modify place (List.eraseP kind)).flatten) := by
  induction buckets generalizing place with
  | nil => exact nomatch here
  | cons first buckets ih =>
      cases place with
      | zero =>
          cases here
          exact (perm_cons_eraseP found).append_right buckets.flatten
      | succ place =>
          rw [List.modify_succ_cons, List.flatten_cons, List.flatten_cons]
          exact ((ih here).append_left first).trans List.perm_middle

/-- The item that is found is taken out. -/
theorem erase_perm (inhabited : 0 < buckets.length) {value : Nat}
    {kind : Item → Bool} {item : Item}
    (found : (chain buckets value).find? kind = some item) :
    buckets.flatten.Perm (item :: (erase buckets value kind).flatten) :=
  perm_modify_erase (chain_eq inhabited) found

end Etch.Library.Buckets
