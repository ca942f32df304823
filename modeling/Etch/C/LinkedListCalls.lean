import Etch.C.LinkedList
import Mathlib.Algebra.Group.Nat.Defs

/-!
# The calls of the C `etch_linked_list`

A list is a chain of nodes from its head to its tail, with nothing else in
its memory, and a call acts on it as on the list of the data.  The counters of
the loops have 32 bits, which is where long lists go wrong.
-/

namespace Etch.C.EtchLinkedList

open Etch.Library.Loop
open Etch.Library.Linked

variable {D : Type}

/-- The chain of a list. -/
structure Holds (list : EtchLinkedList D) (cells : List (Nat × D)) :
    Prop where
  apart : (addresses cells).Nodup
  nodes : list.nodes = linked none cells
  head : list.head = first none cells
  tail : list.tail = cells.getLast?.map Prod.fst
  count : list.count.toNat = cells.length

/-- The data in the order of the chain. -/
def Represents (list : EtchLinkedList D) (data : List D) : Prop :=
  ∃ cells, list.Holds cells ∧ cells.map Prod.snd = data

theorem holds_create : (create : EtchLinkedList D).Holds [] :=
  ⟨List.nodup_nil, rfl, rfl, rfl, rfl⟩

theorem represents_create : (create : EtchLinkedList D).Represents [] :=
  ⟨[], holds_create, rfl⟩

variable {list : EtchLinkedList D} {cells front rest : List (Nat × D)}

theorem Holds.length_lt (holds : list.Holds cells) :
    cells.length < 2 ^ 32 := by
  rw [← holds.count]
  exact list.count.toNat_lt

theorem Represents.length_lt {data : List D}
    (represents : list.Represents data) : data.length < 2 ^ 32 := by
  obtain ⟨cells, holds, rfl⟩ := represents
  rw [List.length_map]
  exact holds.length_lt

theorem Holds.unused {newnode : Nat} (holds : list.Holds cells)
    (unused : list.nodes newnode = none) : newnode ∉ addresses cells := by
  rw [holds.nodes] at unused
  exact linked_eq_none_iff.mp unused

theorem Holds.exists_unused (holds : list.Holds cells) :
    ∃ newnode, list.nodes newnode = none := by
  obtain ⟨fresh, absent⟩ := Library.Linked.exists_unused cells
  exact ⟨fresh, by rw [holds.nodes]; exact linked_eq_none_iff.mpr absent⟩

theorem Holds.node {address : Nat} {value : D}
    (holds : list.Holds (front ++ (address, value) :: rest)) :
    list.nodes address = some ⟨value, first none rest⟩ := by
  rw [holds.nodes]
  exact linked_middle holds.apart

/-! ## Counters -/

theorem iterate_succ (count : Nat) :
    Nat.iterate (fun i : UInt32 => i + 1) count 0 = UInt32.ofNat count := by
  induction count with
  | zero => rfl
  | succ count ih =>
      rw [Function.iterate_succ_apply', ih, UInt32.ofNat_add]
      rfl

theorem ofNat_inj {left right : Nat} (small : left < 2 ^ 32)
    (small' : right < 2 ^ 32)
    (same : UInt32.ofNat left = UInt32.ofNat right) : left = right := by
  have equal := congrArg UInt32.toNat same
  rwa [UInt32.toNat_ofNat_of_lt' small, UInt32.toNat_ofNat_of_lt' small']
    at equal

theorem ofNat_succ_sub (position : Nat) :
    (Int32.ofNat (position + 1) - 1).toUInt32 = UInt32.ofNat position := by
  rw [Int32.toUInt32_sub]
  change UInt32.ofNat (position + 1) - 1 = _
  rw [UInt32.ofNat_add]
  exact UInt32.add_sub_cancel _ _

theorem ofNat_succ_ne {position : Nat} (small : position + 1 < 2 ^ 31) :
    Int32.ofNat (position + 1) ≠ 0 := fun same => by
  have equal := congrArg Int32.toInt same
  rw [Int32.toInt_ofNat_of_lt small] at equal
  change ((position + 1 : Nat) : Int) = 0 at equal
  omega

/-- The indices that a list has. -/
def Inside (data : List D) (index : Int32) : Prop :=
  0 ≤ index.toInt ∧ index.toInt < data.length

instance (data : List D) (index : Int32) : Decidable (Inside data index) :=
  inferInstanceAs (Decidable (_ ∧ _))

theorem Inside.exists_ofNat {data : List D} {index : Int32}
    (inside : Inside data index) :
    ∃ position, position < data.length ∧ position < 2 ^ 31 ∧
      index = Int32.ofNat position ∧ index.toInt.toNat = position := by
  obtain ⟨nonneg, less⟩ := inside
  have small := index.toInt_lt
  refine ⟨index.toInt.toNat, by omega, by omega, ?_, rfl⟩
  apply Int32.toInt.inj
  rw [Int32.toInt_ofNat_of_lt (by omega), Int.toNat_of_nonneg nonneg]

theorem Holds.isOutside_eq (holds : list.Holds cells) (index : Int32) :
    list.isOutside index =
      !decide (Inside (cells.map Prod.snd) index) := by
  have large := holds.length_lt
  unfold isOutside
  by_cases inside : Inside (cells.map Prod.snd) index
  · obtain ⟨position, less, small, rfl, -⟩ := inside.exists_ofNat
    rw [List.length_map] at less
    rw [decide_eq_true inside]
    refine Bool.or_eq_false_iff.mpr ⟨decide_eq_false ?_,
      decide_eq_false ?_⟩
    · change ¬ list.count ≤ UInt32.ofNat position
      rw [UInt32.le_iff_toNat_le, holds.count,
        UInt32.toNat_ofNat_of_lt' (Nat.lt_trans small (by decide))]
      omega
    · rw [Int32.lt_iff_toInt_lt, Int32.toInt_ofNat_of_lt small]
      change ¬ (position : Int) < 0
      omega
  · rw [decide_eq_false inside]
    refine Bool.or_eq_true_iff.mpr ?_
    by_cases negative : index < 0
    · exact .inr (decide_eq_true negative)
    · have nonneg := Int32.not_lt.mp negative
      refine .inl (decide_eq_true ?_)
      have nonneg' : 0 ≤ index.toInt := Int32.le_iff_toInt_le.mp nonneg
      rw [UInt32.le_iff_toNat_le, holds.count,
        Int32.toNat_toUInt32_of_le nonneg]
      have outside : ¬ index.toInt < (cells.map Prod.snd).length :=
        fun less => inside ⟨nonneg', less⟩
      rw [List.length_map] at outside
      change cells.length ≤ index.toInt.toNat
      omega

section Outside

variable {index : Int32}

theorem Holds.isOutside (holds : list.Holds cells)
    (outside : ¬ Inside (cells.map Prod.snd) index) :
    list.isOutside index = true := by
  rw [holds.isOutside_eq, decide_eq_false outside]
  rfl

theorem Holds.insert_outside (holds : list.Holds cells)
    (outside : ¬ Inside (cells.map Prod.snd) index) (rounds newnode : Nat)
    (value : D) : list.insert rounds newnode index value =
      some (.ETCH_EOUTOFBOUNDS, list) := by
  unfold EtchLinkedList.insert
  rw [holds.isOutside outside]
  rfl

theorem Holds.get_outside (holds : list.Holds cells)
    (outside : ¬ Inside (cells.map Prod.snd) index) (rounds : Nat) :
    list.get rounds index = some (.ETCH_EINVAL, none) := by
  unfold EtchLinkedList.get
  rw [holds.isOutside outside]
  rfl

theorem Holds.removeAt_outside (holds : list.Holds cells)
    (outside : ¬ Inside (cells.map Prod.snd) index) (rounds : Nat) :
    list.removeAt rounds index = some (.ETCH_EOUTOFBOUNDS, list) := by
  unfold EtchLinkedList.removeAt
  rw [holds.isOutside outside]
  rfl

end Outside

/-! ## Walking along the chain -/

/-- A loop that only counts the cells in front comes to the others. -/
theorem Holds.walk {C R : Type} (holds : list.Holds (front ++ rest))
    {body : Option Nat × C → Pass (Option Nat × C) R} (next : C → C)
    {start : C} {result : R}
    (goes : ∀ before cell after, front = before ++ cell :: after →
      ∀ there : Node Nat D, there.data = cell.2 →
        list.nodes cell.1 = some there →
        body (some cell.1, Nat.iterate next before.length start) =
          .again (there.next,
            Nat.iterate next (before.length + 1) start)) :
    Returns body (list.head, start) result ↔
      Returns body
        (first none rest, Nat.iterate next front.length start) result := by
  rw [holds.head]
  refine returns_walk next fun before cell after same => ?_
  subst same
  obtain ⟨address, value⟩ := cell
  have holds' := holds
  rw [List.append_assoc, List.cons_append] at holds'
  rw [goes before (address, value) after rfl _ rfl holds'.node]
  rw [first_append_cons]

/-! ## Lists -/

theorem insertIdx_middle {A : Type} (before after : List A) (value : A) :
    (before ++ after).insertIdx before.length value =
      before ++ value :: after := by
  induction before with
  | nil => rfl
  | cons head before ih =>
      rw [List.cons_append, List.length_cons, List.insertIdx_succ_cons, ih]
      rfl

theorem eraseIdx_middle {A : Type} (before after : List A) (value : A) :
    (before ++ value :: after).eraseIdx before.length =
      before ++ after := by
  rw [List.eraseIdx_append_of_length_le (Nat.le_refl _), Nat.sub_self]
  rfl

/-! ## Adding -/

/-- The count goes up by one where it fits. -/
theorem count_succ {count : UInt32} {length : Nat}
    (same : count.toNat = length) (fits : length + 1 < 2 ^ 32) :
    (count + 1).toNat = length + 1 := by
  rw [UInt32.toNat_add, same]
  exact Nat.mod_eq_of_lt fits

theorem Holds.add (holds : list.Holds cells) {newnode : Nat}
    (unused : list.nodes newnode = none) (value : D)
    (fits : cells.length + 1 < 2 ^ 32) :
    ∃ next, list.add newnode value = some next ∧
      next.Holds (cells ++ [(newnode, value)]) := by
  have absent := holds.unused unused
  have apart : (addresses (cells ++ [(newnode, value)])).Nodup := by
    rw [addresses, List.map_append, List.map_singleton]
    exact List.nodup_append.mpr ⟨holds.apart, List.nodup_singleton _,
      fun address mem other mem' same => absent (by
        have equal : other = newnode := List.mem_singleton.mp mem'
        rw [← equal, ← same]
        exact mem)⟩
  unfold EtchLinkedList.add
  rw [holds.head, holds.tail, holds.nodes]
  rcases List.eq_nil_or_concat cells with rfl | ⟨front, cell, rfl⟩
  · refine ⟨_, rfl, apart, rfl, rfl, rfl, ?_⟩
    exact count_succ holds.count fits
  · obtain ⟨address, last⟩ := cell
    rw [List.concat_eq_append] at holds absent apart fits ⊢
    have found : Function.update
        (linked none (front ++ [(address, last)])) newnode
        (some ⟨value, none⟩) address = some ⟨last, none⟩ := by
      have different : address ≠ newnode := fun same =>
        absent (same ▸ List.mem_map.mpr ⟨(address, last),
          List.mem_append_right _ List.mem_cons_self, rfl⟩)
      rw [Function.update_of_ne different]
      exact linked_middle holds.apart
    have head : ∃ address',
        first none (front ++ [(address, last)]) = some address' := by
      cases front with
      | nil => exact ⟨_, rfl⟩
      | cons cell front => exact ⟨_, rfl⟩
    obtain ⟨address', head⟩ := head
    rw [head, List.getLast?_concat, Option.map_some]
    simp only [Option.bind_eq_bind, Option.bind_some, found]
    refine ⟨_, rfl, apart, ?_, ?_, ?_, ?_⟩
    · have linked := @linked_insert _ _ none front [] address last value
        _ newnode holds.apart absent
      rw [List.append_assoc]
      exact linked
    · rw [← head]
      cases front with
      | nil => rfl
      | cons cell front => rfl
    · rw [List.getLast?_concat]
      rfl
    · rw [List.length_append]
      exact count_succ holds.count fits

/-! ## Inserting -/

/-- The counter is the position of a node before the one that is sought. -/
theorem ofNat_ne_of_before {before after : List (Nat × D)}
    {cell : Nat × D} (small : (before ++ cell :: after).length < 2 ^ 32) :
    UInt32.ofNat (before ++ cell :: after).length ≠
      UInt32.ofNat before.length := fun equal => by
  have longer : (before ++ cell :: after).length =
      before.length + (after.length + 1) := by
    rw [List.length_append, List.length_cons]
  have same := ofNat_inj small (by omega) equal
  omega

theorem Holds.head_isNone (holds : list.Holds cells)
    (inhabited : 0 < cells.length) : list.head.isNone = false := by
  rw [holds.head]
  cases cells with
  | nil => exact absurd inhabited (Nat.lt_irrefl _)
  | cons cell cells => rfl

theorem Holds.inside_ofNat (holds : list.Holds cells) {position : Nat}
    (less : position < cells.length) (small : position < 2 ^ 31) :
    list.isOutside (Int32.ofNat position) = false := by
  rw [holds.isOutside_eq, decide_eq_true]
  · rfl
  · rw [Inside, Int32.toInt_ofNat_of_lt small, List.length_map]
    omega

theorem nodup_insert {newnode : Nat} {value : D}
    (apart : (addresses (front ++ rest)).Nodup)
    (absent : newnode ∉ addresses (front ++ rest)) :
    (addresses (front ++ (newnode, value) :: rest)).Nodup := by
  rw [addresses, List.map_append, List.map_cons]
  rw [addresses, List.map_append] at apart absent
  exact List.nodup_middle.mpr (List.nodup_cons.mpr ⟨absent, apart⟩)

theorem Holds.insert (holds : list.Holds cells) {newnode : Nat}
    (unused : list.nodes newnode = none) (value : D) {position : Nat}
    (less : position < cells.length) (small : position < 2 ^ 31)
    (fits : cells.length + 1 < 2 ^ 32) :
    ∃ rounds next,
      list.insert rounds newnode (Int32.ofNat position) value =
        some (.ETCH_SUCCESS, next) ∧
      next.Holds (cells.insertIdx position (newnode, value)) := by
  have absent := holds.unused unused
  have outside := holds.inside_ofNat less small
  have inhabited := holds.head_isNone (Nat.zero_lt_of_lt less)
  suffices returned : ∃ next, Returns
      (list.insertPass (Int32.ofNat position) newnode value)
      (list.head, 0) (some next) ∧ next.count = list.count ∧
      { next with count := next.count + 1 }.Holds
        (cells.insertIdx position (newnode, value)) by
    obtain ⟨next, ⟨rounds, done⟩, count, holds'⟩ := returned
    refine ⟨rounds, _, ?_, holds'⟩
    unfold EtchLinkedList.insert
    rw [outside, inhabited, done]
    rfl
  cases position with
  | zero =>
      match cells, less with
      | (address, data) :: rest, _ =>
          refine ⟨{ list with
            nodes := Function.update list.nodes newnode
              (some ⟨value, list.head⟩)
            head := some newnode }, .leave ?_, rfl, ?_⟩
          · have head : list.head = some address := holds.head
            unfold insertPass
            rw [head]
            exact if_pos rfl
          · refine ⟨List.nodup_cons.mpr ⟨absent, holds.apart⟩, ?_, rfl,
              ?_, count_succ holds.count fits⟩
            · change Function.update list.nodes newnode _ = _
              rw [holds.nodes, holds.head]
              rfl
            · exact holds.tail
  | succ position =>
      obtain ⟨front, address, data, rest, rfl, rfl⟩ :=
        exists_split (Nat.lt_of_succ_lt less)
      have others : rest ≠ [] := by
        rintro rfl
        rw [List.length_append] at less
        exact absurd less (Nat.lt_irrefl _)
      have nonzero := ofNat_succ_ne small
      have inserted : (front ++ (address, data) :: rest).insertIdx
          (front.length + 1) (newnode, value) =
          front ++ (address, data) :: (newnode, value) :: rest := by
        have middle := insertIdx_middle (front ++ [(address, data)]) rest
          (newnode, value)
        rwa [List.length_append, List.append_assoc, List.append_assoc]
          at middle
      rw [inserted]
      refine ⟨{ list with
        nodes := Function.update (Function.update list.nodes newnode
            (some ⟨value, first none rest⟩)) address
          (some ⟨data, some newnode⟩) }, ?_, rfl, ?_⟩
      · refine (holds.walk (· + 1) fun before cell after same there _ found =>
          ?_).mpr (.leave ?_)
        · subst same
          have apart := @ofNat_ne_of_before _ before after cell (by omega)
          rw [iterate_succ, Function.iterate_succ_apply', iterate_succ]
          unfold insertPass
          dsimp only
          rw [if_neg nonzero, found, ofNat_succ_sub]
          exact if_neg apart
        · rw [iterate_succ]
          unfold insertPass first
          dsimp only
          rw [if_neg nonzero, holds.node, ofNat_succ_sub]
          exact if_pos rfl
      · refine ⟨?_, ?_, ?_, ?_, ?_⟩
        · have apart := @nodup_insert _ (front ++ [(address, data)]) rest
            newnode value (by
              rw [List.append_assoc]
              exact holds.apart) (by
              rw [List.append_assoc]
              exact absent)
          rwa [List.append_assoc] at apart
        · change Function.update (Function.update list.nodes _ _) _ _ = _
          rw [holds.nodes]
          exact linked_insert holds.apart absent
        · change list.head = _
          rw [holds.head, first_append_cons, first_append_cons]
          rfl
        · change list.tail = _
          obtain ⟨cell, rest, rfl⟩ := List.exists_cons_of_ne_nil others
          rw [holds.tail]
          simp only [List.getLast?_append, List.getLast?_cons_cons]
        · have count := count_succ holds.count fits
          rw [List.length_append] at count ⊢
          exact count

/-! ## Removing -/

theorem count_pred {count : UInt32} {length : Nat}
    (same : count.toNat = length + 1) : (count - 1).toNat = length := by
  have least : (1 : UInt32) ≤ count := by
    rw [UInt32.le_iff_toNat_le, same]
    exact Nat.succ_le_succ (Nat.zero_le _)
  rw [UInt32.toNat_sub_of_le _ _ least, same]
  rfl

theorem Holds.count_eq_one_iff (holds : list.Holds cells) :
    list.count = 1 ↔ cells.length = 1 := by
  rw [← holds.count, ← UInt32.toNat_inj]
  rfl

/-- The list without the cell behind another one. -/
theorem Holds.erase {address removed : Nat} {data value : D}
    (holds : list.Holds
      (front ++ (address, data) :: (removed, value) :: rest)) :
    Holds
      { list with
        nodes := Function.update
          (Function.update list.nodes address
            (some ⟨data, first none rest⟩)) removed none
        count := list.count - 1
        tail := (front ++ (address, data) :: rest).getLast?.map Prod.fst }
      (front ++ (address, data) :: rest) where
  apart := by
    have apart := holds.apart
    refine apart.sublist ?_
    exact (List.Sublist.append_left
      ((List.sublist_cons_self _ _).cons_cons _) front).map _
  nodes := by
    change Function.update (Function.update list.nodes _ _) _ _ = _
    rw [holds.nodes]
    exact linked_erase holds.apart
  head := by
    change list.head = _
    rw [holds.head, first_append_cons, first_append_cons]
    rfl
  tail := rfl
  count := by
    have count := holds.count
    rw [List.length_append] at count ⊢
    exact count_pred count

theorem Holds.eq_pred_iff (holds : list.Holds cells) {position : Nat}
    (inhabited : 0 < cells.length) (small : position < 2 ^ 31) :
    (Int32.ofNat position).toUInt32 = list.count - 1 ↔
      position + 1 = cells.length := by
  have pred : (list.count - 1).toNat = cells.length - 1 :=
    count_pred (by rw [holds.count]; omega)
  rw [← UInt32.toNat_inj, pred]
  change (UInt32.ofNat position).toNat = _ ↔ _
  rw [UInt32.toNat_ofNat_of_lt' (Nat.lt_trans small (by decide))]
  omega

/-- The loop comes to the cell before the one that is removed. -/
theorem Holds.walk_remove {address : Nat} {data : D}
    {result : Option (Nat × EtchLinkedList D)}
    (holds : list.Holds (front ++ (address, data) :: rest))
    (small : front.length + 1 < 2 ^ 31) :
    Returns (list.removePass (Int32.ofNat (front.length + 1)))
        (list.head, 0) result ↔
      Returns (list.removePass (Int32.ofNat (front.length + 1)))
        (some address, UInt32.ofNat front.length) result := by
  refine (holds.walk (· + 1) fun before cell after same there _ found =>
    ?_).trans ?_
  · subst same
    have apart := @ofNat_ne_of_before _ before after cell (by omega)
    rw [iterate_succ, Function.iterate_succ_apply', iterate_succ]
    unfold removePass
    dsimp only
    rw [found]
    dsimp only
    rw [if_neg (ofNat_succ_ne small), ofNat_succ_sub,
      if_neg fun both => apart both.1]
    exact if_neg apart
  · rw [iterate_succ]
    rfl

/-- What the removal of a cell leaves. -/
def Removed (list : EtchLinkedList D) (cells : List (Nat × D))
    (position : Nat) : Prop :=
  ∃ rmnode next,
    Returns (list.removePass (Int32.ofNat position)) (list.head, 0)
      (some (rmnode, next)) ∧
    { next with
      nodes := Function.update next.nodes rmnode none
      count := next.count - 1 }.Holds (cells.eraseIdx position)

theorem Holds.removed_zero {address : Nat} {data : D} {cell : Nat × D}
    (holds : list.Holds ((address, data) :: cell :: rest)) :
    Removed list ((address, data) :: cell :: rest) 0 := by
  have head : list.head = some address := holds.head
  have found := @Holds.node _ _ [] _ _ _ holds
  refine ⟨address, { list with head := some cell.1 }, .leave ?_, ?_⟩
  · unfold removePass
    rw [head]
    dsimp only
    rw [found]
    exact if_pos rfl
  · refine ⟨(List.nodup_cons.mp holds.apart).2, ?_, rfl, ?_,
      count_pred holds.count⟩
    · change Function.update list.nodes address none = _
      rw [holds.nodes]
      exact linked_tail holds.apart
    · change list.tail = _
      rw [holds.tail]
      rfl

theorem eraseIdx_behind {address : Nat} {data : D} {cell : Nat × D} :
    (front ++ (address, data) :: cell :: rest).eraseIdx
      (front.length + 1) = front ++ (address, data) :: rest := by
  have middle := eraseIdx_middle (front ++ [(address, data)]) rest cell
  rwa [List.length_append, List.append_assoc, List.append_assoc] at middle

theorem Holds.removed_last {address removed : Nat} {data value : D}
    (holds : list.Holds (front ++ [(address, data), (removed, value)]))
    (small : front.length + 1 < 2 ^ 31) :
    Removed list (front ++ [(address, data), (removed, value)])
      (front.length + 1) := by
  have last := (holds.eq_pred_iff (by simp) small).mpr (by simp)
  have holds' := holds.erase
  refine ⟨removed, { list with
    nodes := Function.update list.nodes address (some ⟨data, none⟩)
    tail := some address }, (holds.walk_remove small).mpr (.leave ?_), ?_⟩
  · unfold removePass
    dsimp only
    rw [holds.node]
    dsimp only
    rw [if_neg (ofNat_succ_ne small), ofNat_succ_sub, if_pos ⟨rfl, last⟩]
    rfl
  · rw [List.getLast?_concat] at holds'
    rw [eraseIdx_behind]
    exact holds'

theorem Holds.removed_middle {address removed : Nat} {data value : D}
    {cell : Nat × D}
    (holds : list.Holds
      (front ++ (address, data) :: (removed, value) :: cell :: rest))
    (small : front.length + 1 < 2 ^ 31) :
    Removed list
      (front ++ (address, data) :: (removed, value) :: cell :: rest)
      (front.length + 1) := by
  have length : (front ++ (address, data) :: (removed, value) :: cell ::
      rest).length = front.length + (rest.length + 3) := by
    rw [List.length_append]
    rfl
  have behind := (holds.eq_pred_iff (by omega) small).not.mpr (by omega)
  have holds' := holds.erase
  have found : list.nodes removed = some ⟨value, some cell.1⟩ := by
    have split := holds
    rw [← List.singleton_append, ← List.append_assoc] at split
    exact split.node
  have tail : (front ++ (address, data) :: cell ::
      rest).getLast?.map Prod.fst = list.tail := by
    rw [holds.tail]
    simp only [List.getLast?_append, List.getLast?_cons_cons]
  refine ⟨removed, { list with
    nodes := Function.update list.nodes address
      (some ⟨data, some cell.1⟩) },
    (holds.walk_remove small).mpr (.leave ?_), ?_⟩
  · unfold removePass
    dsimp only
    rw [holds.node]
    dsimp only
    rw [if_neg (ofNat_succ_ne small), ofNat_succ_sub,
      if_neg fun both => behind both.2, if_pos rfl]
    simp only [first, Option.bind_some, found, Option.map_some]
  · rw [tail] at holds'
    rw [eraseIdx_behind]
    exact holds'

theorem Holds.removed (holds : list.Holds cells) {position : Nat}
    (less : position < cells.length) (several : cells.length ≠ 1)
    (small : position < 2 ^ 31) : Removed list cells position := by
  cases position with
  | zero =>
      match cells, less, several with
      | (address, data) :: cell :: rest, _, _ => exact holds.removed_zero
  | succ position =>
      obtain ⟨front, address, data, rest, rfl, rfl⟩ :=
        exists_split (Nat.lt_of_succ_lt less)
      match rest with
      | [] =>
          rw [List.length_append] at less
          exact absurd less (Nat.lt_irrefl _)
      | [(removed, value)] => exact holds.removed_last small
      | (removed, value) :: cell :: rest => exact holds.removed_middle small

theorem Holds.removeAt (holds : list.Holds cells) {position : Nat}
    (less : position < cells.length) (small : position < 2 ^ 31) :
    ∃ rounds next,
      list.removeAt rounds (Int32.ofNat position) =
        some (.ETCH_SUCCESS, next) ∧
      next.Holds (cells.eraseIdx position) := by
  have outside := holds.inside_ofNat less small
  by_cases only : list.count = 1
  · obtain ⟨⟨address, data⟩, rfl⟩ :=
      List.length_eq_one_iff.mp (holds.count_eq_one_iff.mp only)
    obtain rfl : position = 0 := Nat.lt_one_iff.mp less
    refine ⟨0, _, ?_, holds_create⟩
    unfold EtchLinkedList.removeAt
    rw [outside, if_neg Bool.false_ne_true, if_pos only, holds.head,
      holds.nodes]
    simp only [first, Option.bind_eq_bind, Option.bind_some, linked_self,
      linked_tail holds.apart]
    rfl
  · obtain ⟨rmnode, next, ⟨rounds, done⟩, holds'⟩ :=
      holds.removed less (only ∘ holds.count_eq_one_iff.mpr) small
    refine ⟨rounds, _, ?_, holds'⟩
    unfold EtchLinkedList.removeAt
    rw [outside, if_neg Bool.false_ne_true, if_neg only, done]
    rfl

/-- A removal that came to an end does so with more rounds. -/
theorem removeAt_mono {fuel more : Nat} {index : Int32}
    {result : EtchStatus × EtchLinkedList D} (order : fuel ≤ more)
    (done : list.removeAt fuel index = some result) :
    list.removeAt more index = some result := by
  unfold EtchLinkedList.removeAt at done ⊢
  split_ifs at done ⊢ with outside single
  · exact done
  · exact done
  · obtain ⟨left, left', rest⟩ := Option.bind_eq_some_iff.mp done
    rw [run_mono order left']
    exact rest

/-! ## Finding -/

theorem Holds.get (holds : list.Holds cells) {position : Nat}
    (less : position < cells.length) (small : position < 2 ^ 31) :
    ∃ rounds, list.get rounds (Int32.ofNat position) =
      some (.ETCH_SUCCESS, (cells.map Prod.snd)[position]?) := by
  have outside := holds.inside_ofNat less small
  obtain ⟨front, address, data, rest, rfl, rfl⟩ := exists_split less
  have large := holds.length_lt
  have returns : Returns (list.getPass (Int32.ofNat front.length))
      (list.head, 0) (some (some data)) := by
    refine (holds.walk (· + 1) fun before cell after same there _ found =>
      ?_).mpr (.leave ?_)
    · subst same
      have apart := @ofNat_ne_of_before _ before after cell (by
        rw [List.length_append] at large
        omega)
      rw [iterate_succ, Function.iterate_succ_apply', iterate_succ]
      unfold getPass
      dsimp only
      rw [found]
      exact if_neg apart
    · rw [iterate_succ]
      unfold getPass first
      dsimp only
      rw [holds.node]
      exact if_pos rfl
  obtain ⟨rounds, done⟩ := returns
  refine ⟨rounds, ?_⟩
  unfold EtchLinkedList.get
  rw [outside, done, List.map_append, List.map_cons,
    List.getElem?_append_right (Nat.le_of_eq (List.length_map _)),
    List.length_map, Nat.sub_self]
  rfl

section Finding

variable [DecidableEq D]

theorem iterate_succ_int (count : Nat) :
    Nat.iterate (fun i : Int32 => i + 1) count 0 = Int32.ofNat count := by
  induction count with
  | zero => rfl
  | succ count ih =>
      rw [Function.iterate_succ_apply', ih, Int32.ofNat_add]
      rfl

theorem ofNat_eq_maxValue_iff {position : Nat} (small : position < 2 ^ 31) :
    Int32.ofNat position = Int32.maxValue ↔ position + 1 = 2 ^ 31 := by
  rw [← Int32.toInt_inj, Int32.toInt_ofNat_of_lt small]
  change (position : Int) = 2147483647 ↔ _
  omega

/-- The loop goes past cells that do not have the value. -/
theorem Holds.walk_indexOf {value : D} {result : Option Int32}
    (holds : list.Holds (front ++ rest))
    (absent : value ∉ front.map Prod.snd) (small : front.length < 2 ^ 31) :
    Returns (list.indexOfPass value) (list.head, 0) result ↔
      Returns (list.indexOfPass value)
        (first none rest, Int32.ofNat front.length) result := by
  refine (holds.walk (· + 1) fun before cell after same there equal found =>
    ?_).trans ?_
  · subst same
    have differs : there.data ≠ value := by
      rw [equal]
      rintro rfl
      exact absent (List.mem_map_of_mem
        (List.mem_append_right _ List.mem_cons_self))
    rw [List.length_append, List.length_cons] at small
    have below : before.length < 2 ^ 31 := by omega
    rw [iterate_succ_int, Function.iterate_succ_apply', iterate_succ_int]
    unfold indexOfPass
    dsimp only
    rw [found]
    dsimp only
    rw [if_neg differs]
    refine if_neg fun last => ?_
    have reached := (ofNat_eq_maxValue_iff below).mp last
    omega
  · rw [iterate_succ_int]

/-- The counter of the search does not come to its end. -/
def Reached (data : List D) (value : D) : Prop :=
  value ∈ data.take (2 ^ 31) ∨ data.length < 2 ^ 31

instance (data : List D) (value : D) : Decidable (Reached data value) :=
  inferInstanceAs (Decidable (_ ∨ _))

/-- The index of the first of several equal values. -/
def indexIn (data : List D) (value : D) : Int32 :=
  if value ∈ data then Int32.ofNat (data.idxOf value) else -1

theorem indexIn_append {before after : List D} {value : D}
    (absent : value ∉ before) :
    indexIn (before ++ value :: after) value =
      Int32.ofNat before.length := by
  rw [indexIn, if_pos (List.mem_append_right _ List.mem_cons_self),
    List.idxOf_append_of_notMem absent, List.idxOf_cons_self]
  rfl

omit [DecidableEq D] in
theorem reached_append_iff {before after : List D} {value : D}
    (absent : value ∉ before) :
    Reached (before ++ value :: after) value ↔ before.length < 2 ^ 31 := by
  constructor
  · intro reached
    by_contra long
    cases reached with
    | inl mem =>
        rw [List.take_append_of_le_length (Nat.not_lt.mp long)] at mem
        exact absent (List.mem_of_mem_take mem)
    | inr less =>
        rw [List.length_append] at less
        omega
  · intro less
    refine .inl ?_
    rw [List.take_append, List.take_of_length_le (Nat.le_of_lt less)]
    refine List.mem_append_right _ ?_
    obtain ⟨left, more⟩ : ∃ left, 2 ^ 31 - before.length = left + 1 :=
      ⟨2 ^ 31 - before.length - 1, by omega⟩
    rw [more]
    exact List.mem_cons_self

theorem Holds.indexOf_found {address : Nat} {value : D}
    (holds : list.Holds (front ++ (address, value) :: rest))
    (absent : value ∉ front.map Prod.snd) (small : front.length < 2 ^ 31) :
    Returns (list.indexOfPass value) (list.head, 0)
      (some (Int32.ofNat front.length)) := by
  refine (holds.walk_indexOf absent small).mpr (.leave ?_)
  unfold indexOfPass first
  dsimp only
  rw [holds.node]
  exact if_pos rfl

theorem Holds.indexOf_absent {value : D} (holds : list.Holds cells)
    (absent : value ∉ cells.map Prod.snd) (small : cells.length < 2 ^ 31) :
    Returns (list.indexOfPass value) (list.head, 0) (some (-1)) := by
  have holds' := holds
  rw [← List.append_nil cells] at holds'
  exact (holds'.walk_indexOf absent small).mpr (.leave rfl)

/-- The counter cannot go past its largest value. -/
theorem Holds.indexOf_undefined {address : Nat} {data value : D}
    (holds : list.Holds (front ++ (address, data) :: rest))
    (absent : value ∉ front.map Prod.snd) (differs : data ≠ value)
    (large : front.length + 1 = 2 ^ 31) :
    Returns (list.indexOfPass value) (list.head, 0) none := by
  have small : front.length < 2 ^ 31 := by omega
  refine (holds.walk_indexOf absent small).mpr (.leave ?_)
  unfold indexOfPass first
  dsimp only
  rw [holds.node]
  dsimp only
  rw [if_neg differs]
  exact if_pos ((ofNat_eq_maxValue_iff small).mpr large)

/-- The search comes to an end where its counter does not. -/
theorem Holds.indexOf_returns {value : D} (holds : list.Holds cells)
    (reached : Reached (cells.map Prod.snd) value) :
    Returns (list.indexOfPass value) (list.head, 0)
      (some (indexIn (cells.map Prod.snd) value)) := by
  by_cases mem : value ∈ cells.map Prod.snd
  · obtain ⟨before, after, split, absent⟩ := List.eq_append_cons_of_mem mem
    obtain ⟨front, behind, rfl, rfl, split'⟩ := List.map_eq_append_iff.mp split
    obtain ⟨⟨address, value⟩, rest, rfl, rfl, rfl⟩ :=
      List.map_eq_cons_iff.mp split'
    rw [List.map_append, List.map_cons] at reached ⊢
    have small := (reached_append_iff absent).mp reached
    rw [indexIn_append absent]
    rw [List.length_map] at small ⊢
    exact holds.indexOf_found absent small
  · have small : cells.length < 2 ^ 31 := by
      cases reached with
      | inl mem' => exact absurd (List.mem_of_mem_take mem') mem
      | inr less => rwa [List.length_map] at less
    rw [indexIn, if_neg mem]
    exact holds.indexOf_absent mem small

/-- A search that came to an end does so with more rounds. -/
theorem indexOf_mono {fuel more : Nat} {value : D} {index : Int32}
    (order : fuel ≤ more)
    (done : list.indexOf fuel (some value) = some index) :
    list.indexOf more (some value) = some index := by
  obtain ⟨left, left', rest⟩ := Option.bind_eq_some_iff.mp done
  unfold EtchLinkedList.indexOf
  dsimp only
  rw [run_mono order left']
  exact rest

/-- The counter is at its largest value, and there is another cell. -/
theorem Holds.indexOf_diverts {value : D} (holds : list.Holds cells)
    (unreached : ¬ Reached (cells.map Prod.snd) value) :
    Returns (list.indexOfPass value) (list.head, 0) none := by
  obtain ⟨absent, long⟩ := not_or.mp unreached
  rw [List.length_map] at long
  obtain ⟨front, address, data, rest, rfl, length⟩ :=
    exists_split (show 2 ^ 31 - 1 < cells.length by omega)
  have taken : ((front ++ (address, data) :: rest).map Prod.snd).take
      (2 ^ 31) = front.map Prod.snd ++ [data] := by
    have full : (front.map Prod.snd ++ [data]).length = 2 ^ 31 := by
      simp only [List.length_append, List.length_map, List.length_singleton]
      omega
    rw [List.map_append, List.map_cons, ← List.singleton_append,
      ← List.append_assoc, ← full]
    exact List.take_left
  rw [taken] at absent
  refine holds.indexOf_undefined
    (fun mem => absent (List.mem_append_left _ mem))
    (fun same => absent (List.mem_append_right _
      (same ▸ List.mem_cons_self))) (by omega)

/-- The question goes past cells that do not have the value. -/
theorem Holds.walk_contains {value : D} {result : Option Bool}
    (holds : list.Holds (front ++ rest))
    (absent : value ∉ front.map Prod.snd) :
    Returns (list.containsPass value) (list.head, ()) result ↔
      Returns (list.containsPass value) (first none rest, ()) result := by
  refine holds.walk id fun before cell after same there equal found => ?_
  subst same
  have differs : there.data ≠ value := by
    rw [equal]
    rintro rfl
    exact absent (List.mem_map_of_mem
      (List.mem_append_right _ List.mem_cons_self))
  unfold containsPass
  dsimp only
  rw [found]
  exact if_neg differs

theorem Holds.contains (holds : list.Holds cells) (value : D) :
    ∃ rounds, list.contains rounds (some value) =
      some (decide (value ∈ cells.map Prod.snd)) := by
  suffices returned : Returns (list.containsPass value) (list.head, ())
      (some (decide (value ∈ cells.map Prod.snd))) by
    obtain ⟨rounds, done⟩ := returned
    refine ⟨rounds, ?_⟩
    unfold EtchLinkedList.contains
    dsimp only
    rw [done]
    rfl
  by_cases mem : value ∈ cells.map Prod.snd
  · rw [decide_eq_true mem]
    obtain ⟨before, after, split, absent⟩ := List.eq_append_cons_of_mem mem
    obtain ⟨front, behind, rfl, rfl, split'⟩ := List.map_eq_append_iff.mp split
    obtain ⟨⟨address, value⟩, rest, rfl, rfl, rfl⟩ :=
      List.map_eq_cons_iff.mp split'
    refine (holds.walk_contains absent).mpr (.leave ?_)
    unfold containsPass first
    dsimp only
    rw [holds.node]
    exact if_pos rfl
  · rw [decide_eq_false mem]
    rw [← List.append_nil cells] at holds
    exact (holds.walk_contains mem).mpr (.leave rfl)

end Finding

/-! ## Clearing -/

theorem returns_clear (apart : (addresses cells).Nodup) :
    Returns clearPass (first none cells, linked none cells)
      (some fun _ => none) := by
  induction cells with
  | nil => exact .leave rfl
  | cons cell rest ih =>
      obtain ⟨address, data⟩ := cell
      refine .again ?_ (ih (List.nodup_cons.mp apart).2)
      unfold clearPass first
      dsimp only
      rw [linked_self, linked_tail apart]
      rfl

theorem Holds.clear (holds : list.Holds cells) :
    ∃ rounds, list.clear rounds = some (.ETCH_SUCCESS, create) := by
  obtain ⟨rounds, done⟩ := returns_clear holds.apart
  refine ⟨rounds, ?_⟩
  unfold EtchLinkedList.clear
  rw [holds.head, holds.nodes, done]
  rfl

end Etch.C.EtchLinkedList
