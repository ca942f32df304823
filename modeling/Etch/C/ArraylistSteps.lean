import Etch.C.Arraylist

/-!
# The operations of the C `etch_arraylist` as those of a list

A list that has room for one entry more takes it.  One that is full grows by
its delta; it has no room when the bytes that it would have are no
`unsigned int`, or when the bytes of its delta are 0 and it has a slot.
-/

namespace Etch.C

variable {Item : Type} {machine : Machine} {list list' : EtchArraylist Item}

theorem Machine.slot_cases (machine : Machine) :
    machine.slot = 4 ∨ machine.slot = 8 := by
  cases machine with
  | mk pointer mallocZero =>
      cases pointer with
      | bits32 => exact .inl rfl
      | bits64 => exact .inr rfl

theorem Machine.slot_dvd (machine : Machine) : machine.slot ∣ 2 ^ 32 := by
  rcases machine.slot_cases with is | is <;> rw [is] <;> decide

theorem Machine.slot_pos (machine : Machine) : 0 < machine.slot := by
  rcases machine.slot_cases with is | is <;> rw [is] <;> decide

namespace EtchArraylist

/-! ## Sizes -/

/-- The entries of a list. -/
def content (list : EtchArraylist Item) : List (Option Item) :=
  list.base.take list.count

/-- The buffer has the bytes that the list says, and the entries are in it. -/
structure Sized (machine : Machine) (list : EtchArraylist Item) : Prop where
  length : list.base.length * machine.slot = list.size
  small : list.size < 2 ^ 32
  delta_dvd : machine.slot ∣ list.delta
  delta_small : list.delta < 2 ^ 32
  inside : list.count ≤ list.base.length

theorem Sized.count_le (sized : list.Sized machine) :
    list.count * machine.slot ≤ list.size :=
  (Nat.mul_le_mul_right _ sized.inside).trans sized.length.le

theorem Sized.length_content (sized : list.Sized machine) :
    list.content.length = list.count :=
  List.length_take_of_le sized.inside

theorem Sized.size_dvd (sized : list.Sized machine) :
    machine.slot ∣ list.size :=
  ⟨_, sized.length.symm.trans (Nat.mul_comm _ _)⟩

/-- There is room for one entry behind so many, in so many bytes. -/
def Roomy (machine : Machine) (delta size count : Nat) : Prop :=
  (count + 1) * machine.slot ≤ size ∨ 0 < delta ∧ size + delta < 2 ^ 32 ∨
    size = 0 ∧ delta = 0

/-- The bytes once one entry more was put in. -/
def grownSize (machine : Machine) (delta size count : Nat) : Nat :=
  if (count + 1) * machine.slot ≤ size then size
  else if delta = 0 then machine.slot
  else size + delta

theorem sized_new (machine : Machine) (initsize deltsize : Nat) :
    (new machine initsize deltsize : EtchArraylist Item).Sized machine where
  length := by
    unfold new
    dsimp only
    rw [List.length_replicate]
    exact Nat.div_mul_cancel ((Nat.dvd_mod_iff machine.slot_dvd).mpr
      (Nat.dvd_mul_left _ _))
  small := Nat.mod_lt _ (by decide)
  delta_dvd := (Nat.dvd_mod_iff machine.slot_dvd).mpr (Nat.dvd_mul_left _ _)
  delta_small := Nat.mod_lt _ (by decide)
  inside := Nat.zero_le _

theorem content_new (machine : Machine) (initsize deltsize : Nat) :
    (new machine initsize deltsize : EtchArraylist Item).content = [] :=
  List.take_zero

/-! ## Growing -/

/-- The entries are as they were, and the delta. -/
structure Kept (machine : Machine) (list list' : EtchArraylist Item) : Prop
    where
  sized : list'.Sized machine
  count : list'.count = list.count
  delta : list'.delta = list.delta
  content : list'.content = list.content

/-- The entries are copied into the new buffer when they fit. -/
theorem Sized.realloc (sized : list.Sized machine) (size newsize : Nat)
    (is : (if size > list.size then size
      else (list.size + list.delta) % 2 ^ 32) = newsize)
    (dvd : machine.slot ∣ newsize) (small : newsize < 2 ^ 32) :
    (newsize < list.count * machine.slot ∧ list.realloc machine size = none) ∨
      ∃ list', list.realloc machine size = some list' ∧ list.Kept machine list' ∧
        list'.size = newsize := by
  have bytes : list.count * machine.slot % 2 ^ 32 =
      list.count * machine.slot :=
    Nat.mod_eq_of_lt (sized.count_le.trans_lt sized.small)
  have copied : list.count * machine.slot / machine.slot = list.count :=
    Nat.mul_div_cancel _ machine.slot_pos
  unfold EtchArraylist.realloc
  dsimp only
  rw [is, bytes, copied]
  split_ifs with fits
  · have slots : list.count ≤ newsize / machine.slot :=
      (Nat.le_div_iff_mul_le machine.slot_pos).mpr fits
    have taken : (list.base.take list.count).length = list.count :=
      sized.length_content
    refine .inr ⟨_, rfl, ⟨⟨?_, small, sized.delta_dvd, sized.delta_small, ?_⟩,
      rfl, rfl, ?_⟩, rfl⟩
    · dsimp only
      rw [List.length_append, taken, List.length_replicate,
        Nat.add_sub_cancel' slots]
      exact Nat.div_mul_cancel dvd
    · dsimp only
      rw [List.length_append, taken]
      exact Nat.le_add_right _ _
    · unfold EtchArraylist.content
      dsimp only
      exact List.take_left' taken
  · exact .inl ⟨Nat.lt_of_not_le fits, rfl⟩

/-- The bytes of a full list and those of one slot more. -/
theorem Sized.size_add_slot_le (sized : list.Sized machine) :
    list.size + machine.slot ≤ 2 ^ 32 := by
  obtain ⟨slots, size⟩ := sized.size_dvd
  obtain ⟨all, bytes⟩ := machine.slot_dvd
  have less : slots < all := by
    by_contra more
    have := Nat.mul_le_mul_left machine.slot (Nat.le_of_not_lt more)
    have small := sized.small
    omega
  have := Nat.mul_le_mul_left machine.slot (Nat.succ_le_of_lt less)
  rw [Nat.mul_succ] at this
  omega

theorem Sized.slot_le_delta (sized : list.Sized machine)
    (some : list.delta ≠ 0) : machine.slot ≤ list.delta :=
  Nat.le_of_dvd (Nat.pos_of_ne_zero some) sized.delta_dvd

theorem Sized.slot_le_size (sized : list.Sized machine)
    (some : list.size ≠ 0) : machine.slot ≤ list.size :=
  Nat.le_of_dvd (Nat.pos_of_ne_zero some) sized.size_dvd

/-- A buffer whose bytes and those of its entries are known. -/
theorem Kept.length_eq (kept : list.Kept machine list') (slots : Nat)
    (size : list'.size = slots * machine.slot) :
    list'.base.length = slots :=
  Nat.eq_of_mul_eq_mul_right machine.slot_pos
    (kept.sized.length.trans size)

/-- What making sure of room for one entry comes to when every slot is in
use. -/
theorem Sized.checksize_full (sized : list.Sized machine)
    (full : list.count * machine.slot = list.size) :
    (Roomy machine list.delta list.size list.count ∧
      ∃ list', list.checksize machine = some list' ∧
        list.Kept machine list' ∧ list.count < list'.base.length ∧
          list'.size = grownSize machine list.delta list.size list.count) ∨
    ¬ Roomy machine list.delta list.size list.count ∧
      (list.delta ≠ 0 ∧ list.size + machine.slot < 2 ^ 32 ∧
        list.checksize machine = none ∨
      (list.delta = 0 ∨ list.size + machine.slot = 2 ^ 32) ∧
        ∃ list', list.checksize machine = some list' ∧
          list.Kept machine list' ∧ list'.base.length = list'.count) := by
  have next : (list.count + 1) * machine.slot = list.size + machine.slot := by
    rw [Nat.succ_mul, full]
  have slot_pos := machine.slot_pos
  have small := sized.small
  have top := sized.size_add_slot_le
  have fits : ¬ (list.count + 1) * machine.slot ≤ list.size := by omega
  have grown : grownSize machine list.delta list.size list.count =
      if list.delta = 0 then machine.slot else list.size + list.delta :=
    if_neg fits
  unfold checksize Roomy
  dsimp only
  rw [full, Nat.mod_eq_of_lt small, next, grown]
  by_cases whole : list.size + machine.slot = 2 ^ 32
  · -- the sum of the bytes is 0 again
    refine .inr ⟨?_, .inr ⟨.inr whole, list, ?_, ⟨sized, rfl, rfl, rfl⟩, ?_⟩⟩
    · rintro (room | ⟨positive, room⟩ | ⟨empty, _⟩)
      · omega
      · have := sized.slot_le_delta (by omega)
        omega
      · have := machine.slot_cases
        omega
    · rw [whole]
      exact if_neg (Nat.not_lt_zero _)
    · exact Nat.eq_of_mul_eq_mul_right slot_pos (sized.length.trans full.symm)
  have below : list.size + machine.slot < 2 ^ 32 := by omega
  rw [Nat.mod_eq_of_lt below, if_pos (by omega)]
  by_cases still : list.delta = 0
  · rw [if_pos still, if_pos (by omega)]
    by_cases empty : list.size = 0
    · obtain ⟨less, _⟩ | ⟨list', done, kept, size⟩ := sized.realloc
        _ _ (if_pos (by omega)) (Nat.dvd_refl _)
        (machine.slot_cases.elim (by omega) (by omega))
      · omega
      · refine .inl ⟨.inr (.inr ⟨empty, still⟩), list', done, kept, ?_, size⟩
        rw [kept.length_eq 1 (by omega)]
        have : list.count * machine.slot = 0 := by omega
        rcases Nat.mul_eq_zero.mp this with none | none <;> omega
    · have slots := sized.slot_le_size empty
      obtain ⟨less, _⟩ | ⟨list', done, kept, size⟩ := sized.realloc
        machine.slot list.size
        (by rw [if_neg (by omega), still]; exact Nat.mod_eq_of_lt small)
        sized.size_dvd small
      · omega
      · refine .inr ⟨?_, .inr ⟨.inl still, list', done, kept, ?_⟩⟩
        · omega
        · rw [kept.count]
          exact kept.length_eq _ (size.trans full.symm)
  · have slots := sized.slot_le_delta still
    have delta_small := sized.delta_small
    rw [if_neg still, if_neg (by omega)]
    by_cases room : list.size + list.delta < 2 ^ 32
    · obtain ⟨less, _⟩ | ⟨list', done, kept, size⟩ := sized.realloc
        0 (list.size + list.delta)
        (by rw [if_neg (by omega)]; exact Nat.mod_eq_of_lt room)
        ((Nat.dvd_add_right sized.size_dvd).mpr sized.delta_dvd) room
      · omega
      · refine .inl ⟨.inr (.inl ⟨by omega, room⟩), list', done, kept, ?_, size⟩
        have := kept.sized.length
        by_contra more
        have := Nat.mul_le_mul_right machine.slot (Nat.le_of_not_lt more)
        omega
    · have wrapped : (list.size + list.delta) % 2 ^ 32 =
          list.size + list.delta - 2 ^ 32 := by omega
      obtain ⟨_, done⟩ | ⟨list', _, kept, size⟩ := sized.realloc
        0 (list.size + list.delta - 2 ^ 32)
        (by rw [if_neg (by omega), wrapped])
        ((Nat.dvd_sub ((Nat.dvd_add_right sized.size_dvd).mpr
          sized.delta_dvd)) machine.slot_dvd) (by omega)
      · exact .inr ⟨by omega, .inl ⟨still, below, done⟩⟩
      · -- the entries do not fit
        have := kept.sized.count_le
        rw [kept.count, size, full] at this
        omega

/-- What making sure of room for one entry comes to. -/
theorem Sized.checksize_cases (sized : list.Sized machine) :
    (Roomy machine list.delta list.size list.count ∧
      ∃ list', list.checksize machine = some list' ∧
        list.Kept machine list' ∧ list.count < list'.base.length ∧
          list'.size = grownSize machine list.delta list.size list.count) ∨
    ¬ Roomy machine list.delta list.size list.count ∧
      (list.delta ≠ 0 ∧ list.size + machine.slot < 2 ^ 32 ∧
        list.checksize machine = none ∨
      (list.delta = 0 ∨ list.size + machine.slot = 2 ^ 32) ∧
        ∃ list', list.checksize machine = some list' ∧
          list.Kept machine list' ∧ list'.base.length = list'.count) := by
  by_cases fits : (list.count + 1) * machine.slot ≤ list.size
  · -- there is an empty slot
    refine .inl ⟨.inl fits, list, ?_, ⟨sized, rfl, rfl, rfl⟩, ?_,
      (if_pos fits).symm⟩
    · unfold checksize
      dsimp only
      rw [Nat.mod_eq_of_lt (sized.count_le.trans_lt sized.small), if_neg]
      rw [Nat.succ_mul] at fits
      rw [Nat.mod_eq_of_lt (fits.trans_lt sized.small)]
      exact Nat.not_lt.mpr fits
    · rw [← sized.length] at fits
      exact Nat.le_of_mul_le_mul_right fits machine.slot_pos
  · refine sized.checksize_full ?_
    rw [← sized.length] at fits ⊢
    refine Nat.le_antisymm (Nat.mul_le_mul_right _ sized.inside) ?_
    exact Nat.mul_le_mul_right _ (Nat.le_of_lt_succ (Nat.lt_of_mul_lt_mul_right
      (Nat.lt_of_not_le fits)))

/-! ## Adding -/

/-- The list, with this content. -/
structure Holds (machine : Machine) (list : EtchArraylist Item)
    (content : List (Option Item)) : Prop where
  sized : list.Sized machine
  content : list.content = content

theorem Kept.holds (kept : list.Kept machine list') :
    list'.Holds machine list.content :=
  ⟨kept.sized, kept.content⟩

/-- A list is taken to be able to take one entry more. -/
def Ready (machine : Machine) (list : EtchArraylist Item) : Prop :=
  list.based machine ∧ Roomy machine list.delta list.size list.count

theorem write_eq {base : List (Option Item)} {index : Nat}
    (inside : index < base.length) (entry : Option Item) :
    write base index entry = some (base.set index entry) :=
  if_pos inside

theorem write_eq_none {base : List (Option Item)} {index : Nat}
    (outside : base.length ≤ index) (entry : Option Item) :
    write base index entry = none :=
  if_neg (Nat.not_lt.mpr outside)

/-- An entry in the slot behind the others. -/
theorem Sized.append (sized : list.Sized machine)
    (inside : list.count < list.base.length) (entry : Option Item) :
    ({ list with
        base := list.base.set list.count entry
        count := list.count + 1 } : EtchArraylist Item).Holds machine
      (list.content ++ [entry]) where
  sized := {
    length := by
      dsimp only
      rw [List.length_set]
      exact sized.length
    small := sized.small
    delta_dvd := sized.delta_dvd
    delta_small := sized.delta_small
    inside := by
      dsimp only
      rw [List.length_set]
      exact inside }
  content := by
    unfold content
    dsimp only
    rw [List.take_set, List.take_succ_eq_append_getElem inside,
      List.set_append_right _ _ (List.length_take_le _ _),
      List.length_take_of_le inside.le, Nat.sub_self]
    rfl

/-- What is put at the end, if there is room. -/
theorem Sized.checksize_write (sized : list.Sized machine)
    (roomy : Roomy machine list.delta list.size list.count)
    (entry : Option Item) :
    ∃ grown base, list.checksize machine = some grown ∧
      write grown.base grown.count entry = some base ∧
        ({ grown with base, count := grown.count + 1 } :
          EtchArraylist Item).Holds machine (list.content ++ [entry]) ∧
        grown.delta = list.delta ∧ grown.count = list.count ∧
          grown.size = grownSize machine list.delta list.size list.count := by
  obtain ⟨_, grown, done, kept, inside, size⟩ | ⟨not, _⟩ :=
    sized.checksize_cases
  · rw [← kept.count] at inside
    have holds := kept.sized.append inside entry
    rw [kept.content] at holds
    exact ⟨grown, _, done, write_eq inside entry, holds, kept.delta,
      kept.count, size⟩
  · exact absurd roomy not

/-- Without room nothing is put at the end. -/
theorem Sized.checksize_write_none (sized : list.Sized machine)
    (full : ¬ Roomy machine list.delta list.size list.count)
    {grown : EtchArraylist Item} (done : list.checksize machine = some grown)
    (entry : Option Item) : write grown.base grown.count entry = none := by
  obtain ⟨roomy, _⟩ | ⟨_, ⟨_, _, none⟩ | ⟨_, other, done', _, length⟩⟩ :=
    sized.checksize_cases
  · exact absurd roomy full
  · exact nomatch none.symm.trans done
  · cases done'.symm.trans done
    exact write_eq_none length.le entry

theorem Sized.add (sized : list.Sized machine) (ready : list.Ready machine)
    (entry : Option Item) :
    ∃ list', list.add machine entry = some (0, list') ∧
      list'.Holds machine (list.content ++ [entry]) := by
  obtain ⟨grown, base, done, written, holds, _⟩ :=
    sized.checksize_write ready.2 entry
  refine ⟨_, ?_, holds⟩
  unfold EtchArraylist.add
  rw [if_pos ready.1, done]
  dsimp only [Option.bind_eq_bind, Option.bind_some]
  rw [written]
  rfl

theorem Sized.ready_of_add (sized : list.Sized machine) {entry : Option Item}
    (added : list.add machine entry = some (0, list')) :
    list.Ready machine := by
  unfold EtchArraylist.add at added
  split_ifs at added with based
  · refine ⟨based, ?_⟩
    by_contra full
    obtain ⟨grown, done, added⟩ := Option.bind_eq_some_iff.mp added
    rw [sized.checksize_write_none full done] at added
    exact nomatch added
  · exact absurd (Prod.mk.inj (Option.some.inj added)).1 (by decide)

/-! ## Shifting -/

theorem shiftUp_eq {base : List (Option Item)} {q shiftcount : Nat}
    (inside : q < base.length) (below : shiftcount ≤ q) :
    ∃ base', shiftUp base q shiftcount = some base' ∧
      base'.length = base.length ∧ ∀ k, base'[k]? =
        if q - shiftcount < k ∧ k ≤ q then base[k - 1]? else base[k]? := by
  induction shiftcount generalizing base q with
  | zero =>
      refine ⟨base, rfl, rfl, fun k => ?_⟩
      rw [if_neg (by omega)]
  | succ shiftcount ih =>
      obtain ⟨base', done, length, entries⟩ := @ih
        (base.set q (base.getD (q - 1) none)) (q - 1)
        (by rw [List.length_set]; omega) (by omega)
      refine ⟨base', ?_, length.trans (List.length_set ..), fun k => ?_⟩
      · rw [shiftUp, write_eq inside]
        exact done
      · rw [entries, List.getElem?_set, List.getElem?_set]
        have under : q - 1 < base.length := by omega
        by_cases between : q - 1 - shiftcount < k ∧ k ≤ q - 1
        · rw [if_pos between, if_neg (show ¬ q = k - 1 by omega),
            if_pos (show q - (shiftcount + 1) < k ∧ k ≤ q by omega)]
        · rw [if_neg between]
          by_cases here : q = k
          · subst here
            rw [if_pos rfl, if_pos inside,
              if_pos (show q - (shiftcount + 1) < q ∧ q ≤ q by omega),
              List.getD_eq_getElem?_getD, List.getElem?_eq_getElem under]
            rfl
          · rw [if_neg here,
              if_neg (show ¬ (q - (shiftcount + 1) < k ∧ k ≤ q) by omega)]

theorem length_shiftDown (base : List (Option Item)) (p shiftcount : Nat) :
    (shiftDown base p shiftcount).length = base.length := by
  induction shiftcount generalizing base p with
  | zero => rfl
  | succ shiftcount ih => exact (ih _ _).trans (List.length_set ..)

theorem shiftDown_eq {base : List (Option Item)} {p shiftcount : Nat}
    (inside : p + shiftcount < base.length) (k : Nat) :
    (shiftDown base p shiftcount)[k]? =
      if p ≤ k ∧ k < p + shiftcount then base[k + 1]? else base[k]? := by
  induction shiftcount generalizing base p with
  | zero => rw [if_neg (by omega), shiftDown]
  | succ shiftcount ih =>
      rw [shiftDown, ih (by rw [List.length_set]; omega), List.getElem?_set,
        List.getElem?_set]
      have above : p + 1 < base.length := by omega
      by_cases between : p + 1 ≤ k ∧ k < p + 1 + shiftcount
      · rw [if_pos between, if_neg (show ¬ p = k + 1 by omega),
          if_pos (show p ≤ k ∧ k < p + (shiftcount + 1) by omega)]
      · rw [if_neg between]
        by_cases here : p = k
        · subst here
          rw [if_pos rfl, if_pos (show p < base.length by omega),
            if_pos (show p ≤ p ∧ p < p + (shiftcount + 1) by omega),
            List.getD_eq_getElem?_getD, List.getElem?_eq_getElem above]
          rfl
        · rw [if_neg here,
            if_neg (show ¬ (p ≤ k ∧ k < p + (shiftcount + 1)) by omega)]

/-! ## Inserting, replacing and removing -/

/-- A list whose entries are those of another one, in a buffer of the same
size. -/
theorem Sized.holds_of_getElem? (sized : list.Sized machine)
    {base content : List (Option Item)} {count : Nat}
    (length : base.length = list.base.length) (inside : count ≤ base.length)
    (entries : ∀ k : Nat, (base.take count)[k]? = content[k]?) :
    ({ list with base, count } : EtchArraylist Item).Holds machine content where
  sized := {
    length := by
      dsimp only
      rw [length]
      exact sized.length
    small := sized.small
    delta_dvd := sized.delta_dvd
    delta_small := sized.delta_small
    inside := inside }
  content := List.ext_getElem? entries

/-- The entries above a place are shifted before one is put there. -/
theorem Sized.shiftUp_write (sized : list.Sized machine)
    (inside : list.count < list.base.length) {i : Nat} (le : i ≤ list.count)
    (entry : Option Item) :
    ∃ shifted base, shiftUp list.base list.count (list.count - i) =
        some shifted ∧ write shifted i entry = some base ∧
      ({ list with base, count := list.count + 1 } :
        EtchArraylist Item).Holds machine (list.content.insertIdx i entry) := by
  obtain ⟨shifted, done, length, entries⟩ :=
    shiftUp_eq inside (Nat.sub_le list.count i)
  have here : i < shifted.length := by omega
  refine ⟨shifted, shifted.set i entry, done, write_eq here entry,
    sized.holds_of_getElem? ((List.length_set ..).trans length)
      (by rw [List.length_set]; omega) fun k => ?_⟩
  have count := sized.length_content
  rw [List.getElem?_take, List.getElem?_insertIdx, List.getElem?_set, count,
    entries, Nat.sub_sub_self le]
  unfold content
  rw [List.getElem?_take, List.getElem?_take]
  rcases Nat.lt_trichotomy k i with less | rfl | more
  · rw [if_pos (show k < list.count + 1 by omega), if_neg (show ¬ i = k by omega),
      if_neg (show ¬ (i < k ∧ k ≤ list.count) by omega), if_pos less,
      if_pos (show k < list.count by omega)]
  · rw [if_pos (show k < list.count + 1 by omega), if_pos rfl, if_pos here,
      if_neg (show ¬ k < k by omega), if_pos rfl, if_pos le]
  · rw [if_neg (show ¬ i = k by omega), if_neg (show ¬ k < i by omega),
      if_neg (show ¬ k = i by omega)]
    by_cases last : k < list.count + 1
    · rw [if_pos last, if_pos (show i < k ∧ k ≤ list.count by omega),
        if_pos (show k - 1 < list.count by omega)]
    · rw [if_neg last, if_neg (show ¬ k - 1 < list.count by omega)]

theorem Sized.insert (sized : list.Sized machine) {i : Nat}
    (le : i ≤ list.count)
    (roomy : Roomy machine list.delta list.size list.count)
    (entry : Option Item) :
    ∃ list', list.insert machine i entry = some (0, list') ∧
      list'.Holds machine (list.content.insertIdx i entry) := by
  obtain ⟨_, grown, done, kept, inside, _⟩ | ⟨not, _⟩ := sized.checksize_cases
  · rw [← kept.count] at le inside
    obtain ⟨shifted, base, up, written, holds⟩ :=
      kept.sized.shiftUp_write inside le entry
    rw [kept.content] at holds
    refine ⟨_, ?_, holds⟩
    unfold EtchArraylist.insert
    rw [done]
    dsimp only [Option.bind_eq_bind, Option.bind_some]
    rw [if_pos le, up]
    dsimp only [Option.bind_some]
    rw [written]
    rfl
  · exact absurd roomy not

/-- Nothing is put behind a gap; the list may grow. -/
theorem Sized.insert_far (sized : list.Sized machine) {i : Nat}
    (far : list.count < i)
    (keeps : Roomy machine list.delta list.size list.count ∨
      list.delta = 0 ∨ list.size + machine.slot = 2 ^ 32)
    (entry : Option Item) :
    ∃ list', list.insert machine i entry = some (-1, list') ∧
      list'.Holds machine list.content := by
  have refuses {grown : EtchArraylist Item}
      (done : list.checksize machine = some grown)
      (kept : list.Kept machine grown) :
      list.insert machine i entry = some (-1, grown) := by
    unfold EtchArraylist.insert
    rw [done]
    dsimp only [Option.bind_eq_bind, Option.bind_some]
    rw [if_neg (by rw [kept.count]; omega)]
  obtain ⟨_, grown, done, kept, _⟩ |
      ⟨not, ⟨delta, size, _⟩ | ⟨_, grown, done, kept, _⟩⟩ :=
    sized.checksize_cases
  · exact ⟨grown, refuses done kept, kept.holds⟩
  · rcases keeps with roomy | none | whole
    · exact absurd roomy not
    · exact absurd none delta
    · omega
  · exact ⟨grown, refuses done kept, kept.holds⟩

/-- A call that inserts had the room. -/
theorem Sized.roomy_of_insert (sized : list.Sized machine) {i : Nat}
    {entry : Option Item} {result : Int32}
    (inserted : list.insert machine i entry = some (result, list')) :
    Roomy machine list.delta list.size list.count ∨ list.count < i ∧
      (list.delta = 0 ∨ list.size + machine.slot = 2 ^ 32) := by
  obtain ⟨roomy, _⟩ |
      ⟨_, ⟨_, _, none⟩ | ⟨keeps, grown, done, kept, full⟩⟩ :=
    sized.checksize_cases
  · exact .inl roomy
  · unfold EtchArraylist.insert at inserted
    rw [none] at inserted
    exact nomatch inserted
  · refine .inr ⟨?_, keeps⟩
    by_contra near
    unfold EtchArraylist.insert at inserted
    rw [done] at inserted
    dsimp only [Option.bind_eq_bind, Option.bind_some] at inserted
    rw [if_pos (by rw [kept.count]; omega)] at inserted
    obtain ⟨shifted, up, inserted⟩ := Option.bind_eq_some_iff.mp inserted
    obtain ⟨base, written, _⟩ := Option.bind_eq_some_iff.mp inserted
    -- the first write is outside
    cases count : grown.count - i with
    | zero =>
        rw [count, shiftUp] at up
        cases up
        rw [write_eq_none (by omega)] at written
        exact nomatch written
    | succ shiftcount =>
        rw [count, shiftUp, write_eq_none full.le] at up
        exact nomatch up

/-- An entry is replaced. -/
theorem Sized.set (sized : list.Sized machine) (i : Nat) (entry : Option Item) :
    ∃ list', list.set i entry =
        (if i < list.content.length then 0 else -1, list') ∧
      list'.Holds machine (list.content.set i entry) := by
  have count := sized.length_content
  have inside := sized.inside
  unfold EtchArraylist.set
  rw [count]
  split_ifs with here
  · refine ⟨_, rfl, sized.holds_of_getElem? (List.length_set ..)
      (by rw [List.length_set]; exact inside) fun k => ?_⟩
    unfold content
    rw [List.take_set]
  · refine ⟨list, rfl, sized, ?_⟩
    exact (List.set_eq_of_length_le (by omega)).symm

/-- An entry is removed. -/
theorem Sized.remove (sized : list.Sized machine) (i : Nat) :
    ∃ list', list.remove i =
        (if i < list.content.length then 0 else -1, list') ∧
      list'.Holds machine (list.content.eraseIdx i) := by
  have count := sized.length_content
  have inside := sized.inside
  unfold EtchArraylist.remove
  rw [count]
  split_ifs with here
  · refine ⟨_, rfl, sized.holds_of_getElem?
      ((List.length_set ..).trans (length_shiftDown ..))
      (by rw [List.length_set, length_shiftDown]; omega) fun k => ?_⟩
    rw [List.getElem?_take, List.getElem?_eraseIdx, List.getElem?_set,
      shiftDown_eq (by omega)]
    unfold content
    rw [List.getElem?_take, List.getElem?_take]
    by_cases below : k < i
    · rw [if_pos (show k < list.count - 1 by omega),
        if_neg (show ¬ list.count - 1 = k by omega),
        if_neg (show ¬ (i ≤ k ∧ k < i + (list.count - 1 - i)) by omega),
        if_pos below, if_pos (show k < list.count by omega)]
    · rw [if_neg below]
      by_cases last : k < list.count - 1
      · rw [if_pos last, if_neg (show ¬ list.count - 1 = k by omega),
          if_pos (show i ≤ k ∧ k < i + (list.count - 1 - i) by omega),
          if_pos (show k + 1 < list.count by omega)]
      · rw [if_neg last, if_neg (show ¬ k + 1 < list.count by omega)]
  · refine ⟨list, rfl, sized, ?_⟩
    exact (List.eraseIdx_of_length_le (by omega)).symm

/-! ## Looking for an entry, clearing and copying -/

/-- The first entry from a place on that is equal. -/
def firstEqual (compare : Comparator Item) (entry : Option Item)
    (startat : Nat) (content : List (Option Item)) : Option Nat :=
  ((content.drop startat).findIdx? fun other =>
    compare entry other = 0).map (· + startat)

/-- Whether an entry is equal to one of these. -/
def Contains (compare : Comparator Item) (content : List (Option Item))
    (entry : Option Item) : Prop :=
  ∃ other ∈ content, compare entry other = 0

instance (compare : Comparator Item) (content : List (Option Item))
    (entry : Option Item) : Decidable (Contains compare content entry) :=
  inferInstanceAs (Decidable (∃ other ∈ content, _))

theorem find?_range' (is : Option Item → Bool) {base : List (Option Item)}
    {startat : Nat} (found : List (Option Item))
    (entries : ∀ k, k < found.length →
      base[startat + k]? = found[k]?) :
    (List.range' startat found.length).find?
        (fun i => is (base.getD i none)) =
      (found.findIdx? is).map (· + startat) := by
  induction found generalizing startat with
  | nil => rfl
  | cons entry found ih =>
      have here : base.getD startat none = entry := by
        rw [List.getD_eq_getElem?_getD]
        exact congrArg (Option.getD · none) (entries 0 (Nat.succ_pos _))
      rw [List.length_cons, List.range'_succ, List.find?_cons,
        List.findIdx?_cons, here]
      cases is entry with
      | true => simp
      | false =>
          have rest := @ih (startat + 1) fun k less => by
            rw [Nat.add_assoc, Nat.add_comm 1 k]
            exact entries (k + 1) (Nat.succ_lt_succ less)
          dsimp only
          rw [rest]
          simp [Option.map_map, Function.comp_def, Nat.add_comm,
            Nat.add_left_comm]

theorem Sized.indexof (sized : list.Sized machine) (entry : Option Item)
    (startat : Nat) (compare : Comparator Item) :
    list.indexof entry startat compare =
      firstEqual compare entry startat list.content := by
  have count := sized.length_content
  have length : (list.content.drop startat).length = list.count - startat := by
    rw [List.length_drop, count]
  unfold EtchArraylist.indexof firstEqual
  rw [← length]
  refine find?_range' (fun other => compare entry other = 0) _
    fun k less => ?_
  rw [List.getElem?_drop]
  unfold content
  rw [List.getElem?_take, if_pos (by omega)]

theorem Sized.contains (sized : list.Sized machine) (entry : Option Item)
    (compare : Comparator Item) :
    list.contains entry compare = true ↔
      Contains compare list.content entry := by
  unfold EtchArraylist.contains
  rw [sized.indexof]
  unfold firstEqual Contains
  simp [List.findIdx?_isSome]

theorem Sized.removeContent (sized : list.Sized machine) (entry : Option Item)
    (startat : Nat) (compare : Comparator Item) :
    ∃ list', list.removeContent entry startat compare =
        (if (firstEqual compare entry startat list.content).isSome then 0
          else -1, list') ∧
      list'.Holds machine
        (match firstEqual compare entry startat list.content with
          | some index => list.content.eraseIdx index
          | none => list.content) := by
  unfold EtchArraylist.removeContent
  rw [sized.indexof]
  cases found : firstEqual compare entry startat list.content with
  | none => exact ⟨list, rfl, sized, rfl⟩
  | some index =>
      obtain ⟨list', removed, holds⟩ := sized.remove index
      have inside : index < list.content.length := by
        obtain ⟨place, there, rfl⟩ := Option.map_eq_some_iff.mp found
        have := (List.findIdx?_eq_some_iff_getElem.mp there).1
        rw [List.length_drop] at this
        omega
      rw [if_pos inside] at removed
      exact ⟨list', removed, holds⟩

/-- Whether clearing calls through `NULL`. -/
def callsNull (list : EtchArraylist Item) (is_free_content : Bool) : Bool :=
  is_free_content && !list.isReadonly &&
    (List.range list.count).any fun i =>
      list.destroyed i && (list.base.getD i none).isNone

theorem Sized.count_of_not_based (sized : list.Sized machine)
    (not : list.based machine = false) : list.count = 0 := by
  have size : list.size = 0 := by
    unfold based at not
    simpa using (Bool.or_eq_false_iff.mp not).1
  have count := sized.count_le
  rw [size, Nat.le_zero] at count
  exact (Nat.mul_eq_zero.mp count).resolve_right machine.slot_pos.ne'

theorem Sized.clear (sized : list.Sized machine) {is_free_content : Bool}
    (calls : list.callsNull is_free_content = false) :
    ∃ list', list.clear machine is_free_content = some list' ∧
      list'.Holds machine [] := by
  unfold EtchArraylist.clear
  unfold callsNull at calls
  by_cases based : list.based machine = true
  · rw [if_pos based, calls]
    refine ⟨_, rfl, sized.holds_of_getElem? ?_ (Nat.zero_le _) fun k => rfl⟩
    rw [List.length_append, List.length_replicate, List.length_drop]
    exact Nat.add_sub_cancel' sized.inside
  · rw [if_neg based]
    refine ⟨list, rfl, sized, ?_⟩
    have none := sized.count_of_not_based (Bool.not_eq_true _ ▸ based)
    unfold content
    rw [none]
    exact List.take_zero

theorem Sized.callsNull_of_clear (sized : list.Sized machine)
    {is_free_content : Bool}
    (cleared : list.clear machine is_free_content = some list') :
    list.callsNull is_free_content = false := by
  by_cases based : list.based machine = true
  · unfold EtchArraylist.clear at cleared
    rw [if_pos based] at cleared
    by_contra calls
    rw [if_pos (Bool.not_eq_false _ ▸ calls)] at cleared
    exact nomatch cleared
  · unfold callsNull
    rw [sized.count_of_not_based (Bool.not_eq_true _ ▸ based)]
    exact Bool.and_false _

/-- The entries fit into a buffer for as many entries as the buffer has
bytes. -/
def Copyable (machine : Machine) (list : EtchArraylist Item) : Prop :=
  list.count * machine.slot ≤ list.size * machine.slot % 2 ^ 32

theorem Sized.newFrom_iff (sized : list.Sized machine) :
    list.count * machine.slot ≤
        (new machine list.size list.delta : EtchArraylist Item).size ↔
      list.Copyable machine := by
  unfold new Copyable
  dsimp only
  by_cases empty : list.size = 0
  · have count : list.count * machine.slot = 0 :=
      Nat.le_zero.mp (empty ▸ sized.count_le)
    rw [count]
    exact iff_of_true (Nat.zero_le _) (Nat.zero_le _)
  · rw [if_pos (Nat.pos_of_ne_zero empty)]

theorem Sized.newFrom (sized : list.Sized machine)
    (copyable : list.Copyable machine) :
    ∃ list', list.newFrom machine = some list' ∧
      list'.Holds machine list.content := by
  have fits := sized.newFrom_iff.mpr copyable
  have new_sized : (new machine list.size list.delta :
      EtchArraylist Item).Sized machine := sized_new machine _ _
  have slots : list.count ≤ (new machine list.size list.delta :
      EtchArraylist Item).base.length := by
    rw [← new_sized.length] at fits
    exact Nat.le_of_mul_le_mul_right fits machine.slot_pos
  have length : (list.base.take list.count ++ (new machine list.size
      list.delta : EtchArraylist Item).base.drop list.count).length =
      (new machine list.size list.delta : EtchArraylist Item).base.length := by
    rw [List.length_append, List.length_take_of_le sized.inside,
      List.length_drop]
    exact Nat.add_sub_cancel' slots
  unfold EtchArraylist.newFrom
  dsimp only
  rw [if_pos fits]
  refine ⟨_, rfl, ⟨?_, new_sized.small, new_sized.delta_dvd,
    new_sized.delta_small, ?_⟩, ?_⟩
  · exact (congrArg (· * machine.slot) length).trans new_sized.length
  · exact slots.trans length.ge
  · exact List.take_left' sized.length_content

theorem Sized.copyable_of_newFrom (sized : list.Sized machine)
    (copied : list.newFrom machine = some list') :
    list.Copyable machine := by
  unfold EtchArraylist.newFrom at copied
  dsimp only at copied
  split_ifs at copied with fits
  exact sized.newFrom_iff.mp fits

end EtchArraylist

end Etch.C
