import Etch.Cpp.NativeArrayAccess

/-!
# Where an `EtchNativeArray` stays in bounds

A call ends at the first object that it does not pass.  There it meets its
purpose exactly if the object and its entry have what the call needs, so a
call meets its purpose if and only if all objects that its position leads to
have it.
-/

namespace Etch.Cpp

open Etch.Library.Descent
open Etch.Library.Window

variable {T : Type}

/-! ## Copies -/

theorem set_eq_overwrite {Item : Type} {list : List Item} {position : Nat}
    (inside : position < list.length) (item : Item) :
    list.set position item = overwrite list position [item] := by
  rw [List.set_eq_take_append_cons_drop, if_pos inside, overwrite,
    List.append_assoc, List.singleton_append, List.length_singleton]

theorem window_succ {Item : Type} {list : List Item} {start count : Nat}
    {item : Item} (is : list[start + count]? = some item) :
    window list start (start + count) ++ [item] =
      window list start (start + (count + 1)) := by
  have inside := (List.getElem?_eq_some_iff.mp is).1
  rw [← window_append_window list (Nat.le_add_right start count)
    (Nat.add_le_add_left (Nat.le_succ count) start)]
  congr 1
  rw [window_eq_take, show start + (count + 1) - (start + count) = 1 by omega,
    List.take_one, List.head?_drop, is]
  rfl

/-- The loop is defined if it copies nothing or inside both lists. -/
theorem copy_of_fits {target source : List T} {start offset : Int}
    {count : Nat} (low : 0 ≤ start) (low' : 0 ≤ offset)
    (high : start + count ≤ target.length)
    (high' : offset + count ≤ source.length) :
    copy target source start offset count =
      some (overwrite target start.toNat
        (window source offset.toNat (offset.toNat + count))) := by
  induction count with
  | zero => simp [copy]
  | succ count ih =>
      push_cast at high high'
      have is : source[offset.toNat + count]? =
          some source[offset.toNat + count] :=
        List.getElem?_eq_getElem (by omega)
      have loaded : load source (offset + count) =
          some source[offset.toNat + count] := by
        rw [load_eq_some_iff, ← is]
        exact ⟨by omega, by congr 1; omega⟩
      have size : (window source offset.toNat
          (offset.toNat + count)).length = count := by
        rw [length_window (by omega)]
        omega
      have length := @length_overwrite _ target start.toNat
        (window source offset.toNat (offset.toNat + count)) (by omega)
      rw [copy, ih (by omega) (by omega)]
      simp only [Option.bind_eq_bind, Option.bind_some, loaded]
      rw [store_inside ⟨by omega, by rw [length]; omega⟩,
        set_eq_overwrite (by rw [length]; omega),
        show (start + count).toNat = start.toNat + (window source offset.toNat
          (offset.toNat + count)).length by omega,
        overwrite_overwrite (by omega), window_succ is]

theorem copy_fits {target source result : List T} {start offset : Int}
    {count : Nat}
    (run : copy target source start offset count = some result) :
    result.length = target.length ∧
      (count = 0 ∧ result = target ∨
        (0 ≤ start ∧ start + count ≤ target.length) ∧
          0 ≤ offset ∧ offset + count ≤ source.length) := by
  induction count generalizing result with
  | zero =>
      simp only [copy, Option.some.injEq] at run
      simp [run]
  | succ count ih =>
      simp only [copy, Option.bind_eq_bind, Option.bind_eq_some_iff] at run
      obtain ⟨before, first, item, loaded, stored⟩ := run
      obtain ⟨length, fits⟩ := ih first
      unfold store at stored
      split at stored
      · rename_i inside
        have inside' := inside_of_load loaded
        simp only [Option.some.injEq] at stored
        refine ⟨by rw [← stored, List.length_set, length], .inr ?_⟩
        push_cast
        omega
      · cases stored

theorem exists_copy_iff {target source : List T} {start offset : Int}
    {count : Nat} :
    (∃ result, copy target source start offset count = some result) ↔
      count = 0 ∨ (0 ≤ start ∧ start + count ≤ target.length) ∧
        0 ≤ offset ∧ offset + count ≤ source.length := by
  constructor
  · rintro ⟨result, run⟩
    exact (copy_fits run).2.imp And.left id
  · rintro (rfl | ⟨⟨low, high⟩, low', high'⟩)
    · exact ⟨target, rfl⟩
    · exact ⟨_, copy_of_fits low low' high high'⟩

/-- What the loop leaves. -/
theorem copy_eq_some_iff {target source result : List T}
    {start offset : Int} {count : Nat} :
    copy target source start offset count = some result ↔
      Copied target source result start offset count := by
  constructor
  · intro run
    obtain ⟨-, none_ | ⟨⟨low, high⟩, low', high'⟩⟩ := copy_fits run
    · exact .inl none_
    · rw [copy_of_fits low low' high high', Option.some.injEq] at run
      exact .inr ⟨⟨low, high⟩, ⟨low', high'⟩, run.symm⟩
  · rintro (⟨rfl, rfl⟩ | ⟨⟨low, high⟩, ⟨low', high'⟩, rfl⟩)
    · rfl
    · exact copy_of_fits low low' high high'

/-! ## Bulk calls -/

/-- The sum is an `int`. -/
theorem int32Add_of_summable {bulk : Bulk T} (summable : bulk.Summable) :
    int32Add bulk.offset bulk.length = some (bulk.offset + bulk.length) :=
  if_pos summable

theorem int32Add_of_not_summable {bulk : Bulk T}
    (overflows : ¬ bulk.Summable) :
    int32Add bulk.offset bulk.length = none :=
  if_neg overflows

/-- With room in the buffer, only the array and the offset matter. -/
theorem fits_iff {bulk : Bulk T} {length : Nat} (buffer : List T)
    {position : Int} (inside : 0 ≤ position ∧ position < length)
    (room : bulk.offset + bulk.length ≤ buffer.length) :
    bulk.Fits length (some position) ↔
      bulk.count length = 0 ∨
        (0 ≤ position ∧ position + bulk.count length ≤ length) ∧
          0 ≤ bulk.offset ∧
          bulk.offset + bulk.count length ≤ buffer.length := by
  have least : bulk.count length = 0 ∨
      (bulk.count length : Int) ≤ bulk.length := by
    unfold Bulk.count
    omega
  constructor
  · rintro ⟨_, is, fits⟩
    rw [← Option.some.inj is] at fits
    omega
  · intro fits
    exact ⟨position, rfl, by omega⟩

theorem Heap.put_self {heap : Heap T} {address : Nat}
    {object : EtchArrayBase T} (is : heap.objects address = object) :
    heap.put address object = heap := by
  rw [Heap.put, ← is, Function.update_eq_self]

theorem Heap.put_injective {heap : Heap T} {address : Nat}
    {left right : EtchArrayBase T}
    (same : heap.put address left = heap.put address right) :
    left = right := by
  have objects := congrArg (fun heap : Heap T => heap.objects address) same
  simpa [Heap.put] using objects

theorem overwrite_injective {Item : Type} {list left right : List Item}
    (length : left.length = right.length)
    (same : overwrite list 0 left = overwrite list 0 right) :
    left = right := by
  have first := @window_overwrite_self _ list 0 left (Nat.zero_le _)
  rw [same, length, window_overwrite_self (Nat.zero_le _)] at first
  exact first.symm

theorem Pos.entries_single (i : Nat) (stack : Fin 8 → Int) :
    (Pos.single i stack).entries = (i : Int) :: List.ofFn stack := by
  rw [Pos.entries, Pos.single, List.ofFn_succ]
  rfl

section Each

variable {heap heap' : Heap T} {child : Nat} {stack : Nat → Fin 8 → Int}

/-- A round at a sub-array of elements. -/
theorem run_setElement_data {elements : List T} {i : Nat} {item : T}
    {stack : Fin 8 → Int}
    (is : heap.objects child = .etchArrayData elements) :
    run (setElement heap (Pos.single i stack) item)
        (Pos.single i stack).entries 0 child =
      if i < elements.length then
        some
          { status := .ETCH_OK
            heap := heap.put child (.etchArrayData (elements.set i item)) }
      else if i = elements.length then
        none
      else
        some { status := .ETCH_ERANGE, heap := heap } := by
  have size : (Pos.single i stack).size = 1 := rfl
  rw [Pos.entries_single, run]
  by_cases above : (i : Int) > elements.length
  · have level : setElement heap (Pos.single i stack) item child
        (some (i : Int)) 0 = some (refuse heap .ETCH_ERANGE) := by
      simp [setElement, is, size, above]
    rw [level, if_neg (by omega), if_neg (by omega)]
    rfl
  · by_cases inside : 0 ≤ (i : Int) ∧ (i : Int) < elements.length
    · have level : setElement heap (Pos.single i stack) item child
          (some (i : Int)) 0 = some (.finish
            { status := .ETCH_OK
              heap := heap.put child
                (.etchArrayData (elements.set i item)) }) := by
        simp [setElement, is, size, above, store_inside inside]
      rw [level, if_pos (by omega)]
    · have level : setElement heap (Pos.single i stack) item child
          (some (i : Int)) 0 = none := by
        simp [setElement, is, size, above, store_outside inside]
      rw [level, if_neg (by omega), if_pos (by omega)]

/-- All rounds inside a sub-array of elements. -/
theorem setEach_data {elements buffer : List T} {count : Nat}
    (is : heap.objects child = .etchArrayData elements)
    (inside : count ≤ elements.length) (room : count ≤ buffer.length) :
    setEach heap child (some buffer) stack count =
      some (heap.put child
        (.etchArrayData (overwrite elements 0 (buffer.take count)))) := by
  induction count with
  | zero =>
      rw [List.take_zero, overwrite_nil, Heap.put_self is]
      rfl
  | succ count ih =>
      have taken : (buffer.take count).length = count := by
        rw [List.length_take]
        omega
      have loaded : load buffer (count : Int) = some buffer[count] := by
        rw [load_eq_some_iff, Int.toNat_natCast]
        exact ⟨by omega, List.getElem?_eq_getElem room⟩
      have length := @length_overwrite _ elements 0 (buffer.take count)
        (by omega)
      have stored : (overwrite elements 0 (buffer.take count)).set count
          buffer[count] = overwrite elements 0 (buffer.take (count + 1)) := by
        rw [set_eq_overwrite (by rw [length]; omega)]
        have chain := @overwrite_overwrite _ elements 0 (buffer.take count)
          [buffer[count]] (by omega)
        rw [Nat.zero_add, taken] at chain
        rw [chain, List.take_append_getElem room]
      have object : (heap.put child (.etchArrayData
          (overwrite elements 0 (buffer.take count)))).objects child =
            .etchArrayData (overwrite elements 0 (buffer.take count)) :=
        Function.update_self ..
      simp only [setEach, ih (by omega) (by omega), Option.bind_eq_bind,
        Option.bind_some, loaded, run_setElement_data object]
      rw [if_pos (by rw [length]; omega), stored]
      simp only [Option.bind_some, Heap.put, Function.update_idem]
      rfl

theorem fits_of_setEach {data : Option (List T)} {elements : List T}
    {count : Nat} (is : heap.objects child = .etchArrayData elements)
    (runs : setEach heap child data stack count = some heap') :
    count = 0 ∨ ∃ buffer, data = some buffer ∧
      count ≤ elements.length ∧ count ≤ buffer.length := by
  induction count generalizing heap' with
  | zero => exact .inl rfl
  | succ count ih =>
      simp only [setEach, Option.bind_eq_bind, Option.pure_def,
        Option.bind_eq_some_iff, Option.some.injEq] at runs
      obtain ⟨before, first, buffer, rfl, item, loaded, outcome, last, -⟩ :=
        runs
      have room := (inside_of_load loaded).2
      have inside : count ≤ elements.length := by
        rcases ih first with rfl | ⟨_, -, inside, -⟩
        · exact Nat.zero_le _
        · exact inside
      rw [setEach_data is inside (by omega), Option.some.injEq] at first
      subst first
      have length := @length_overwrite _ elements 0 (buffer.take count)
        (by rw [List.length_take]; omega)
      rw [run_setElement_data (Function.update_self ..), length] at last
      refine .inr ⟨buffer, rfl, ?_, by omega⟩
      by_contra short
      rw [if_neg (by omega), if_pos (by omega)] at last
      cases last

end Each

/-! ## The ends -/

/-- The object behind a position whose last entry finds a child. -/
theorem leads_child {heap : Heap T} {root address index child : Nat}
    {pos : Pos} {mDim : Int} {mData : List (Option Nat)} {position : Int}
    (leads : Leads heap root pos index address)
    (entry_is : pos.entries[index]? = some position)
    (is : heap.objects address = .etchArray mDim mData)
    (loaded : load mData position = some (some child)) :
    Leads heap root pos (index + 1) child := by
  refine reached_succ_iff.mpr ⟨address, position, leads, entry_is, ?_⟩
  simp only [Heap.step, is, loaded, Option.join_some]

/-- There is one element at a position. -/
theorem ElementAt.unique {heap : Heap T} {root address index object : Nat}
    {pos : Pos} {mData mData' : List T}
    {position position' : Int}
    (element : ElementAt heap root pos object mData' position')
    (last : pos.size = index + 1) (leads : Leads heap root pos index address)
    (entry_is : pos.entries[index]? = some position)
    (is : heap.objects address = .etchArrayData mData) :
    object = address ∧ mData' = mData ∧ position' = position := by
  obtain ⟨index', last', leads', entry_is'⟩ := element.leads
  obtain rfl : index' = index := by omega
  obtain rfl := leads'.unique leads
  rw [entry_is, Option.some.injEq] at entry_is'
  refine ⟨rfl, ?_, entry_is'.symm⟩
  have same := element.data
  rw [is, EtchArrayBase.etchArrayData.injEq] at same
  exact same.symm


@[simp]
theorem inside_none {length : Nat} : ¬ Inside length none := by
  rintro ⟨_, is, -⟩
  cases is

@[simp]
theorem inside_some {length : Nat} {position : Int} :
    Inside length (some position) ↔ 0 ≤ position ∧ position < length :=
  ⟨fun ⟨_, is, inside⟩ => by rwa [Option.some.inj is],
    fun inside => ⟨position, rfl, inside⟩⟩

@[simp]
theorem refused_none {length : Nat} : ¬ Refused length none := by
  rintro ⟨_, is, -⟩
  cases is

@[simp]
theorem refused_some {length : Nat} {position : Int} :
    Refused length (some position) ↔ (length : Int) < position :=
  ⟨fun ⟨_, is, above⟩ => by rwa [Option.some.inj is],
    fun above => ⟨position, rfl, above⟩⟩

/-- A missing sub-array is at the end of a position only. -/
theorem SlotAt.last {heap : Heap T} {root address index object : Nat}
    {pos : Pos} {mDim mDim' : Int}
    {mData mData' : List (Option Nat)} {position position' : Int}
    (slot : SlotAt heap root pos object mDim' mData' position')
    (missing : mData'[position'.toNat]? = some none)
    (leads : Leads heap root pos index address)
    (entry_is : pos.entries[index]? = some position)
    (is : heap.objects address = .etchArray mDim mData)
    (loaded : load mData position = some none) :
    pos.size = index + 1 := by
  obtain ⟨index', last', leads', entry_is'⟩ := slot.leads
  have loaded' : load mData' position' = some none :=
    load_eq_some_iff.mpr ⟨slot.inside.1, missing⟩
  rcases Nat.lt_trichotomy index' index with before | rfl | behind
  · -- the walk went on behind the slot
    obtain ⟨next, reached⟩ := leads.before (index' + 1) before
    obtain ⟨node, key, reached', is', step⟩ := reached_succ_iff.mp reached
    rw [entry_is', Option.some.injEq] at is'
    rw [← leads'.unique reached', ← is', Heap.step, slot.array] at step
    simp [loaded'] at step
  · exact last'
  · obtain ⟨next, reached⟩ := leads'.before (index + 1) behind
    obtain ⟨node, key, reached', is', step⟩ := reached_succ_iff.mp reached
    rw [entry_is, Option.some.injEq] at is'
    rw [← leads.unique reached', ← is', Heap.step, is] at step
    simp [loaded] at step

/-- An object that a call passes has what the call needs. -/
theorem needs_of_passes {heap : Heap T} {root address index child : Nat}
    {pos : Pos} {call : Call T} {key : Int}
    (passes : call.Passes heap root pos index)
    (step : heap.step address key = some child) :
    call.Needs heap pos index (some key) (heap.objects address) := by
  cases is : heap.objects address with
  | etchArrayData mData =>
      rw [Heap.step, is] at step
      cases step
  | etchArray mDim mData =>
      have loaded : load mData key = some (some child) := by
        simpa only [Heap.step, is, Option.join_eq_some_iff] using step
      have inside := inside_of_load loaded
      have slot := (load_eq_some_iff.mp loaded).2
      cases call with
      | setElement data => simpa [Call.Needs] using inside
      | setBulk bulk stack =>
          refine .inr (.inr ⟨inside_some.mpr inside, fun last => ?_⟩)
          exact absurd last passes.2
      | setArray data =>
          refine .inr (.inr ?_)
          rw [if_neg passes.2]
          exact ⟨key, child, rfl, inside.1, slot⟩
      | getElement result => exact .inr (.inr (inside_some.mpr inside))
      | getBulk bulk => exact .inr (.inr (inside_some.mpr inside))
      | getArray => exact .inr (.inr (inside_some.mpr inside))
      | createArray length =>
          refine ⟨inside_some.mpr inside, ?_⟩
          rintro _ ⟨⟩ missing
          rw [slot] at missing
          cases missing

section Ends

variable [Inhabited T] {heap : Heap T} {root : Nat} {pos : Pos}
  {address index : Nat} {entry : Option Int} {call : Call T}

/-- Whether a level ends with a result that meets the purpose. -/
def Ends (heap : Heap T) (root : Nat) (pos : Pos) (call : Call T)
    (level : Option (Move Nat (Outcome T))) : Prop :=
  ∃ outcome, level = some (.finish outcome) ∧
    call.Meets heap root pos outcome

theorem ends_refuse {status : Status} (error : status ≠ .ETCH_OK) :
    Ends heap root pos call (some (refuse heap status)) :=
  ⟨_, rfl, .inl ⟨error, rfl, rfl, rfl, rfl⟩⟩

theorem not_ends_none : ¬ Ends heap root pos call none := by
  rintro ⟨outcome, is, -⟩
  cases is

theorem ends_finish_iff {outcome : Outcome T}
    (success : outcome.status = .ETCH_OK) :
    Ends heap root pos call (some (.finish outcome)) ↔
      call.Effect heap root pos outcome := by
  constructor
  · rintro ⟨_, is, meets⟩
    simp only [Option.some.injEq, Move.finish.injEq] at is
    subst is
    exact meets.elim (fun refused => absurd success refused.1) And.right
  · exact fun effect => ⟨_, rfl, .inr ⟨success, effect⟩⟩


theorem setElement_ends {data : T}
    (leads : Leads heap root pos index address)
    (entry_is : pos.entries[index]? = entry)
    (stops : ∀ child, setElement heap pos data address entry index ≠
      some (.descend child)) :
    Ends heap root pos (.setElement data)
        (setElement heap pos data address entry index) ↔
      (Call.setElement data).Needs heap pos index entry
        (heap.objects address) := by
  cases is : heap.objects address with
  | etchArrayData mData =>
      simp only [Call.Needs]
      by_cases short : pos.size < index
      · have level : setElement heap pos data address entry index =
            some (refuse heap .ETCH_ERANGE) := by
          simp [setElement, is, short]
        rw [level]
        exact iff_of_true (ends_refuse (by decide)) (.inl short)
      cases entry with
      | none =>
          have level : setElement heap pos data address none index =
              none := by
            simp [setElement, is, short]
          rw [level]
          exact iff_of_false not_ends_none (by simp [short])
      | some position =>
          simp only [inside_some, refused_some, Option.isSome_some, true_and]
          by_cases refused :
              position > mData.length ∨ pos.size ≠ index + 1
          · have level : setElement heap pos data address (some position)
                index = some (refuse heap .ETCH_ERANGE) := by
              simp [setElement, is, short, refused]
            rw [level]
            exact iff_of_true (ends_refuse (by decide)) (by omega)
          by_cases inside : 0 ≤ position ∧ position < mData.length
          · have level : setElement heap pos data address (some position)
                index = some (.finish
                  { status := .ETCH_OK
                    heap := heap.put address
                      (.etchArrayData (mData.set position.toNat data)) }) := by
              simp [setElement, is, short, refused, store_inside inside]
            rw [level, ends_finish_iff rfl]
            refine iff_of_true ⟨address, mData, position,
              ⟨⟨index, by omega, leads, entry_is⟩, is, inside⟩, rfl⟩
              (by omega)
          · have level : setElement heap pos data address (some position)
                index = none := by
              simp [setElement, is, short, refused, store_outside inside]
            rw [level]
            exact iff_of_false not_ends_none (by omega)
  | etchArray mDim mData =>
      simp only [Call.Needs]
      cases entry with
      | none =>
          have level : setElement heap pos data address none index =
              none := by
            simp [setElement, is]
          rw [level]
          exact iff_of_false not_ends_none inside_none
      | some position =>
          rw [inside_some]
          rcases loaded : load mData position with _ | _ | child
          · have level : setElement heap pos data address (some position)
                index = none := by
              simp [setElement, is, loaded]
            rw [level]
            exact iff_of_false not_ends_none (load_eq_none_iff.mp loaded)
          · have level : setElement heap pos data address (some position)
                index = some (refuse heap .ETCH_ERANGE) := by
              simp [setElement, is, loaded]
            rw [level]
            exact iff_of_true (ends_refuse (by decide))
              (inside_of_load loaded)
          · refine absurd ?_ (stops child)
            simp [setElement, is, loaded]

/-- At an array the calls that get elements end with an error only. -/
theorem getFromArray_ends {mData : List (Option Nat)}
    (stops : ∀ child, getFromArray heap pos mData entry index ≠
      some (.descend child)) :
    Ends heap root pos call
        (getFromArray heap pos mData entry index) ↔
      pos.size < index ∨ Refused mData.length entry ∨
        Inside mData.length entry := by
  by_cases short : pos.size < index
  · have level : getFromArray heap pos mData entry index =
        some (refuse heap .ETCH_ERANGE) := by
      simp [getFromArray, short]
    rw [level]
    exact iff_of_true (ends_refuse (by decide)) (.inl short)
  cases entry with
  | none =>
      have level : getFromArray heap pos mData none index =
          none := by
        simp [getFromArray, short]
      rw [level]
      exact iff_of_false not_ends_none (by simp [short])
  | some position =>
      simp only [inside_some, refused_some]
      by_cases refused : position > mData.length
      · have level : getFromArray heap pos mData
            (some position) index =
              some (refuse heap .ETCH_ERANGE) := by
          simp [getFromArray, short, refused]
        rw [level]
        exact iff_of_true (ends_refuse (by decide)) (by omega)
      rcases loaded : load mData position with _ | _ | child
      · have level : getFromArray heap pos mData
            (some position) index = none := by
          simp [getFromArray, short, refused, loaded]
        rw [level]
        have outside := load_eq_none_iff.mp loaded
        exact iff_of_false not_ends_none (by omega)
      · have level : getFromArray heap pos mData
            (some position) index =
              some (refuse heap .ETCH_EINVAL) := by
          simp [getFromArray, short, refused, loaded]
        rw [level]
        have inside := inside_of_load loaded
        exact iff_of_true (ends_refuse (by decide)) (by omega)
      · refine absurd ?_ (stops child)
        simp [getFromArray, short, refused, loaded]

theorem getElement_ends {result : Bool}
    (leads : Leads heap root pos index address)
    (entry_is : pos.entries[index]? = entry)
    (stops : ∀ child, getElement heap pos result address entry index ≠
      some (.descend child)) :
    Ends heap root pos (.getElement result)
        (getElement heap pos result address entry index) ↔
      (Call.getElement result).Needs heap pos index entry
        (heap.objects address) := by
  cases is : heap.objects address with
  | etchArrayData mData =>
      simp only [Call.Needs]
      by_cases short : pos.size < index ∨ pos.size ≠ index + 1
      · have level : getElement heap pos result address entry index =
            some (refuse heap .ETCH_ERANGE) := by
          simp [getElement, is, short]
        rw [level]
        exact iff_of_true (ends_refuse (by decide)) (by omega)
      cases entry with
      | none =>
          have level : getElement heap pos result address none index =
              none := by
            simp [getElement, is, short]
          rw [level]
          exact iff_of_false not_ends_none (by simp; omega)
      | some position =>
          simp only [inside_some, refused_some, Option.isSome_some, true_and]
          by_cases refused : position > mData.length
          · have level : getElement heap pos result address
                (some position) index =
                  some (refuse heap .ETCH_ERANGE) := by
              simp [getElement, is, short, refused]
            rw [level]
            exact iff_of_true (ends_refuse (by decide)) (by omega)
          cases result with
          | false =>
              have level : getElement heap pos false address
                  (some position) index =
                    some (refuse heap .ETCH_EINVAL) := by
                simp [getElement, is, short, refused]
              rw [level]
              exact iff_of_true (ends_refuse (by decide)) (by simp)
          | true =>
              cases loaded : load mData position with
              | none =>
                  have level : getElement heap pos true address
                      (some position) index = none := by
                    simp [getElement, is, short, refused, loaded]
                  rw [level]
                  have outside := load_eq_none_iff.mp loaded
                  exact iff_of_false not_ends_none (by simp; omega)
              | some value =>
                  have level : getElement heap pos true address
                      (some position) index = some (.finish
                        { status := .ETCH_OK
                          heap := heap
                          result := some value }) := by
                    simp [getElement, is, short, refused, loaded]
                  have inside := inside_of_load loaded
                  rw [level, ends_finish_iff rfl]
                  refine iff_of_true ⟨rfl, address, mData, position,
                    ⟨⟨index, by omega, leads, entry_is⟩, is, inside⟩,
                    (load_eq_some_iff.mp loaded).2.symm⟩ (by omega)
  | etchArray mDim mData =>
      simp only [getElement, is] at stops ⊢
      exact getFromArray_ends stops

/-- The end of a bulk call at an `EtchArrayData`. -/
theorem bulkData_ends {bulk : Bulk T} {mLength : Nat}
    {copied : List T → Int → Nat → Option (Outcome T)}
    (defined : ∀ buffer position count,
      (copied buffer position count).isSome ↔
        count = 0 ∨ (0 ≤ position ∧ position + count ≤ mLength) ∧
          0 ≤ bulk.offset ∧ bulk.offset + count ≤ buffer.length)
    (success : ∀ buffer position count outcome,
      copied buffer position count = some outcome →
        outcome.status = .ETCH_OK)
    (effect : ∀ buffer position outcome, bulk.data = some buffer →
      pos.size = index + 1 → entry = some position →
      copied buffer position (bulk.count mLength) = some outcome →
        (call.Effect heap root pos outcome ↔
          0 ≤ position ∧ position < mLength)) :
    Ends heap root pos call
        (bulkData heap pos bulk mLength copied entry index) ↔
      pos.size < index ∨ entry.isSome ∧
        (Refused mLength entry ∨ pos.size ≠ index + 1 ∨
          bulk.Summable ∧
            (bulk.dataSize < bulk.offset + bulk.length ∨
              bulk.data = none ∨
              Inside mLength entry ∧ bulk.Fits mLength entry)) := by
  by_cases short : pos.size < index
  · have level : bulkData heap pos bulk mLength copied entry index =
        some (refuse heap .ETCH_ERANGE) := by
      simp [bulkData, short]
    rw [level]
    exact iff_of_true (ends_refuse (by decide)) (.inl short)
  cases entry with
  | none =>
      have level : bulkData heap pos bulk mLength copied none index =
          none := by
        simp [bulkData, short]
      rw [level]
      exact iff_of_false not_ends_none (by simp [short])
  | some position =>
      simp only [inside_some, refused_some, Option.isSome_some, true_and]
      by_cases refused : position > mLength ∨ pos.size ≠ index + 1
      · have level : bulkData heap pos bulk mLength copied (some position)
            index = some (refuse heap .ETCH_ERANGE) := by
          simp [bulkData, short, refused]
        rw [level]
        exact iff_of_true (ends_refuse (by decide))
          (.inr (refused.imp id .inl))
      have last : pos.size = index + 1 := by omega
      by_cases summable : bulk.Summable
      swap
      · have level : bulkData heap pos bulk mLength copied (some position)
            index = none := by
          simp [bulkData, short, refused,
            int32Add_of_not_summable summable]
        rw [level]
        exact iff_of_false not_ends_none (by grind)
      by_cases large : bulk.dataSize < bulk.offset + bulk.length
      · have level : bulkData heap pos bulk mLength copied (some position)
            index = some (refuse heap .ETCH_ERANGE) := by
          simp [bulkData, short, int32Add_of_summable summable, large]
        rw [level]
        exact iff_of_true (ends_refuse (by decide)) (by grind)
      cases given : bulk.data with
      | none =>
          have level : bulkData heap pos bulk mLength copied (some position)
              index = some (refuse heap .ETCH_EINVAL) := by
            simp [bulkData, short, refused, int32Add_of_summable summable,
              large, given]
          rw [level]
          exact iff_of_true (ends_refuse (by decide)) (by grind)
      | some buffer =>
          have sized := bulk.sized buffer given
          have level : bulkData heap pos bulk mLength copied (some position)
              index =
              (copied buffer position (bulk.count mLength)).map .finish := by
            simp [bulkData, short, refused, int32Add_of_summable summable,
              large, given, Option.map_eq_bind]
          rw [level]
          have fits := fun inside =>
            @fits_iff _ bulk mLength buffer position inside (by omega)
          have defined := defined buffer position (bulk.count mLength)
          cases copies : copied buffer position (bulk.count mLength) with
          | none =>
              rw [copies] at defined
              refine iff_of_false not_ends_none ?_
              grind
          | some outcome =>
              rw [copies] at defined
              rw [Option.map_some,
                ends_finish_iff (success _ _ _ _ copies),
                effect buffer position outcome given last rfl copies]
              grind

theorem getBulk_ends {bulk : Bulk T}
    (leads : Leads heap root pos index address)
    (entry_is : pos.entries[index]? = entry)
    (stops : ∀ child, getBulk heap pos bulk address entry index ≠
      some (.descend child)) :
    Ends heap root pos (.getBulk bulk)
        (getBulk heap pos bulk address entry index) ↔
      (Call.getBulk bulk).Needs heap pos index entry
        (heap.objects address) := by
  cases is : heap.objects address with
  | etchArrayData mData =>
      simp only [getBulk, is, Call.Needs]
      refine bulkData_ends ?_ ?_ ?_
      · intro buffer position count
        have copies := @exists_copy_iff _ buffer mData bulk.offset position
          count
        rw [← Option.isSome_iff_exists] at copies
        simp only [Option.bind_eq_bind, Option.pure_def,
          Option.isSome_bind, Option.isSome_some, Option.any_true]
        rw [copies]
        tauto
      · intro buffer position count outcome copied
        simp only [Option.bind_eq_bind, Option.pure_def,
          Option.bind_eq_some_iff, Option.some.injEq] at copied
        obtain ⟨result, -, rfl⟩ := copied
        rfl
      · intro buffer position outcome given last some_ copied
        simp only [Option.bind_eq_bind, Option.pure_def,
          Option.bind_eq_some_iff, Option.some.injEq] at copied
        obtain ⟨result, copied, rfl⟩ := copied
        rw [some_] at entry_is
        constructor
        · rintro ⟨-, _, _, _, _, _, element, -, -, -⟩
          obtain ⟨-, same, same'⟩ := element.unique last leads entry_is is
          have inside := element.inside
          rwa [same, same'] at inside
        · intro inside
          exact ⟨rfl, address, mData, position, buffer, result,
            ⟨⟨index, last, leads, entry_is⟩, is, inside⟩, given,
            copy_eq_some_iff.mp copied, rfl⟩
  | etchArray mDim mData =>
      simp only [getBulk, is] at stops ⊢
      exact getFromArray_ends stops

/-- The end of a bulk call that sets the elements of a sub-array. -/
theorem setEach_ends {bulk : Bulk T} {stack : Nat → Fin 8 → Int}
    {child : Nat} (nonempty : 0 < pos.size)
    (behind : Leads heap root pos pos.size child)
    (above : ∀ object mData position,
      ¬ ElementAt heap root pos object mData position)
    (short : bulk.length ≤ 127) :
    Ends heap root pos (.setBulk bulk stack)
        ((setEach heap child bulk.data stack bulk.length.toNat).map
          fun heap => .finish { status := .ETCH_OK, heap := heap }) ↔
      bulk.length ≤ 0 ∨ bulk.length ≤ 127 ∧ bulk.Aligned ∧ ∃ elements,
        heap.objects child = .etchArrayData elements ∧
          bulk.length ≤ elements.length := by
  have effect : ∀ heap', (Call.setBulk bulk stack).Effect heap root pos
      { status := .ETCH_OK, heap := heap' } ↔
        (bulk.length ≤ 0 ∧ heap' = heap) ∨
          ∃ mData buffer result,
            heap.objects child = .etchArrayData mData ∧
              bulk.data = some buffer ∧
              Copied mData buffer result 0 bulk.offset
                bulk.length.toNat ∧
              heap' = heap.put child (.etchArrayData result) := by
    intro heap'
    constructor
    · rintro (⟨object, mData, position, _, _, element, -⟩ |
        ⟨object, -, behind', effect⟩)
      · exact absurd element (above object mData position)
      · rwa [behind'.unique behind] at effect
    · exact fun effect => .inr ⟨child, nonempty, behind, effect⟩
  by_cases empty : bulk.length ≤ 0
  · have count : bulk.length.toNat = 0 := by omega
    rw [count, setEach, Option.map_some, ends_finish_iff rfl, effect]
    exact iff_of_true (.inl ⟨empty, rfl⟩) (.inl empty)
  · cases is : heap.objects child with
    | etchArray mDim mData =>
        refine iff_of_false ?_ (by simp [empty])
        rintro ⟨outcome, runs, meets⟩
        obtain ⟨heap', runs, finish⟩ := Option.map_eq_some_iff.mp runs
        simp only [Move.finish.injEq] at finish
        subst finish
        rcases meets with ⟨error, -⟩ | ⟨-, meets⟩
        · exact error rfl
        · rcases (effect heap').mp meets with ⟨empty', -⟩ | ⟨_, _, _, no, -⟩
          · exact empty empty'
          · rw [is] at no
            cases no
    | etchArrayData elements =>
        constructor
        · rintro ⟨outcome, runs, meets⟩
          obtain ⟨heap', each, finish⟩ := Option.map_eq_some_iff.mp runs
          simp only [Move.finish.injEq] at finish
          subst finish
          rcases meets with ⟨error, -⟩ | ⟨-, meets⟩
          · exact absurd rfl error
          rcases fits_of_setEach is each with none_ |
            ⟨buffer, given, inside, room⟩
          · omega
          rw [given, setEach_data is inside room, Option.some.injEq] at each
          rcases (effect heap').mp meets with ⟨empty', -⟩ |
            ⟨mData, buffer', result, same, given', copied, written⟩
          · exact .inl empty'
          rw [given, Option.some.injEq] at given'
          rw [is, EtchArrayBase.etchArrayData.injEq] at same
          subst given' same
          rcases copied with ⟨none_, -⟩ | ⟨-, ⟨low, high⟩, rfl⟩
          · omega
          rw [← each] at written
          have stored := Heap.put_injective written
          rw [EtchArrayBase.etchArrayData.injEq] at stored
          have aligned := overwrite_injective (by
            rw [List.length_take, length_window (by omega)]
            omega) stored
          exact .inr ⟨short, ⟨buffer, given, low, by omega, aligned⟩,
            elements, rfl, by omega⟩
        · rintro (empty' | ⟨-, ⟨buffer, given, low, high, aligned⟩, _,
            same, inside⟩)
          · exact absurd empty' empty
          rw [EtchArrayBase.etchArrayData.injEq] at same
          subst same
          rw [given, setEach_data is (by omega) (by omega),
            Option.map_some, ends_finish_iff rfl, effect]
          refine .inr ⟨elements, buffer, _, is, given,
            .inr ⟨⟨Int.le_refl 0, by omega⟩, ⟨low, by omega⟩, rfl⟩, ?_⟩
          rw [aligned]
          rfl

theorem setBulk_ends {bulk : Bulk T} {stack : Nat → Fin 8 → Int}
    (leads : Leads heap root pos index address)
    (entry_is : pos.entries[index]? = entry)
    (stops : ∀ child, setBulk heap pos bulk stack address entry index ≠
      some (.descend child)) :
    Ends heap root pos (.setBulk bulk stack)
        (setBulk heap pos bulk stack address entry index) ↔
      (Call.setBulk bulk stack).Needs heap pos index entry
        (heap.objects address) := by
  cases is : heap.objects address with
  | etchArrayData mData =>
      simp only [setBulk, is, Call.Needs]
      refine bulkData_ends ?_ ?_ ?_
      · intro buffer position count
        have copies := @exists_copy_iff _ mData buffer position bulk.offset
          count
        rw [← Option.isSome_iff_exists] at copies
        simp only [Option.bind_eq_bind, Option.pure_def,
          Option.isSome_bind, Option.isSome_some, Option.any_true]
        exact copies
      · intro buffer position count outcome copied
        simp only [Option.bind_eq_bind, Option.pure_def,
          Option.bind_eq_some_iff, Option.some.injEq] at copied
        obtain ⟨result, -, rfl⟩ := copied
        rfl
      · intro buffer position outcome given last some_ copied
        simp only [Option.bind_eq_bind, Option.pure_def,
          Option.bind_eq_some_iff, Option.some.injEq] at copied
        obtain ⟨result, copied, rfl⟩ := copied
        rw [some_] at entry_is
        constructor
        · rintro (⟨_, _, _, _, _, element, -, -, -⟩ |
            ⟨object, -, behind, -⟩)
          · obtain ⟨-, same, same'⟩ := element.unique last leads entry_is is
            have inside := element.inside
            rwa [same, same'] at inside
          · -- no object lies behind an element
            rw [last] at behind
            obtain ⟨node, key, leads', -, step⟩ :=
              reached_succ_iff.mp behind
            rw [← leads.unique leads', Heap.step, is] at step
            cases step
        · intro inside
          exact .inl ⟨address, mData, position, buffer, result,
            ⟨⟨index, last, leads, entry_is⟩, is, inside⟩, given,
            copy_eq_some_iff.mp copied, rfl⟩
  | etchArray mDim mData =>
      simp only [Call.Needs]
      by_cases short : pos.size < index
      · have level : setBulk heap pos bulk stack address entry index =
            some (refuse heap .ETCH_ERANGE) := by
          simp [setBulk, is, short]
        rw [level]
        exact iff_of_true (ends_refuse (by decide)) (.inl short)
      cases entry with
      | none =>
          have level : setBulk heap pos bulk stack address none index =
              none := by
            simp [setBulk, is, short]
          rw [level]
          exact iff_of_false not_ends_none (by simp [short])
      | some position =>
          simp only [inside_some, refused_some]
          by_cases refused : position > mData.length
          · have level : setBulk heap pos bulk stack address
                (some position) index =
                  some (refuse heap .ETCH_ERANGE) := by
              simp [setBulk, is, short, refused]
            rw [level]
            exact iff_of_true (ends_refuse (by decide))
              (.inr (.inl refused))
          rcases loaded : load mData position with _ | _ | child
          · have level : setBulk heap pos bulk stack address
                (some position) index = none := by
              simp [setBulk, is, short, refused, loaded]
            rw [level]
            have outside := load_eq_none_iff.mp loaded
            exact iff_of_false not_ends_none (by grind)
          · have level : setBulk heap pos bulk stack address
                (some position) index =
                  some (refuse heap .ETCH_EINVAL) := by
              simp [setBulk, is, short, refused, loaded]
            rw [level]
            have inside := inside_of_load loaded
            have slot := (load_eq_some_iff.mp loaded).2
            exact iff_of_true (ends_refuse (by decide)) (by grind)
          by_cases last : pos.size = index + 1
          swap
          · refine absurd ?_ (stops child)
            simp [setBulk, is, short, refused, loaded, last]
          have inside := inside_of_load loaded
          have slot := (load_eq_some_iff.mp loaded).2
          have behind := leads_child leads entry_is is loaded
          rw [← last] at behind
          have needs : (pos.size < index ∨
              (mData.length : Int) < position ∨
              (0 ≤ position ∧ position < mData.length) ∧
                (pos.size = index + 1 → ∀ position' child',
                  some position = some position' →
                  mData[position'.toNat]? = some (some child') →
                    bulk.length ≤ 0 ∨
                      bulk.length ≤ 127 ∧ bulk.Aligned ∧ ∃ elements,
                        heap.objects child' = .etchArrayData elements ∧
                          bulk.length ≤ elements.length)) ↔
              (bulk.length ≤ 0 ∨
                bulk.length ≤ 127 ∧ bulk.Aligned ∧ ∃ elements,
                  heap.objects child = .etchArrayData elements ∧
                    bulk.length ≤ elements.length) := by
            constructor
            · rintro (short' | above | ⟨-, needed⟩)
              · exact absurd short' short
              · exact absurd above refused
              · exact needed last position child rfl slot
            · intro needed
              refine .inr (.inr ⟨inside, ?_⟩)
              rintro - _ child' ⟨⟩ slot'
              rw [slot, Option.some.injEq, Option.some.injEq] at slot'
              rwa [← slot']
          rw [needs]
          by_cases long : bulk.length > 127
          · have level : setBulk heap pos bulk stack address
                (some position) index = none := by
              simp [setBulk, is, refused, loaded, last, long]
            rw [level]
            exact iff_of_false not_ends_none (by omega)
          have level : setBulk heap pos bulk stack address (some position)
              index =
              (setEach heap child bulk.data stack bulk.length.toNat).map
                fun heap => .finish { status := .ETCH_OK, heap := heap } := by
            simp [setBulk, is, refused, loaded, last, long,
              Option.map_eq_bind]
          rw [level]
          refine setEach_ends (by omega) behind ?_ (by omega)
          rintro object elements position' element
          obtain ⟨index', last', leads', -⟩ := element.leads
          obtain rfl : index' = index := by omega
          have data := element.data
          rw [leads'.unique leads, is] at data
          cases data

theorem setArray_ends {data : Nat}
    (leads : Leads heap root pos index address)
    (entry_is : pos.entries[index]? = entry)
    (stops : ∀ child, setArray heap pos data address entry index ≠
      some (.descend child)) :
    Ends heap root pos (.setArray data)
        (setArray heap pos data address entry index) ↔
      (Call.setArray data).Needs heap pos index entry
        (heap.objects address) := by
  cases is : heap.objects address with
  | etchArrayData mData =>
      simp only [Call.Needs, iff_true, setArray, is]
      exact ends_refuse (by decide)
  | etchArray mDim mData =>
      simp only [Call.Needs]
      by_cases short : pos.size < index
      · have level : setArray heap pos data address entry index =
            some (refuse heap .ETCH_ERANGE) := by
          simp [setArray, is, short]
        rw [level]
        exact iff_of_true (ends_refuse (by decide)) (.inl short)
      cases entry with
      | none =>
          have level : setArray heap pos data address none index =
              none := by
            simp [setArray, is, short]
          rw [level]
          exact iff_of_false not_ends_none (by simp [short])
      | some position =>
          simp only [inside_some, refused_some, Option.isSome_some,
            and_true]
          by_cases refused : position > mData.length
          · have level : setArray heap pos data address (some position)
                index = some (refuse heap .ETCH_ERANGE) := by
              simp [setArray, is, short, refused]
            rw [level]
            exact iff_of_true (ends_refuse (by decide))
              (.inr (.inl refused))
          by_cases last : pos.size = index + 1
          · rw [if_pos last]
            by_cases dim : mDim - 1 = (heap.objects data).getDim
            · by_cases inside : 0 ≤ position ∧ position < mData.length
              · have level : setArray heap pos data address
                    (some position) index = some (.finish
                      { status := .ETCH_OK
                        heap := heap.put address (.etchArray mDim
                          (mData.set position.toNat (some data))) }) := by
                  simp [setArray, is, refused, last, dim,
                    store_inside inside]
                rw [level, ends_finish_iff rfl]
                exact iff_of_true ⟨address, mDim, mData, position,
                  ⟨⟨index, last, leads, entry_is⟩, is, inside⟩, rfl⟩
                  (.inr (.inr (.inr inside)))
              · have level : setArray heap pos data address
                    (some position) index = none := by
                  simp [setArray, is, refused, last, dim,
                    store_outside inside]
                rw [level]
                exact iff_of_false not_ends_none (by omega)
            · have level : setArray heap pos data address (some position)
                  index = some (refuse heap .ETCH_ERANGE) := by
                simp [setArray, is, last, dim]
              rw [level]
              exact iff_of_true (ends_refuse (by decide))
                (.inr (.inr (.inl dim)))
          · rw [if_neg last]
            rcases loaded : load mData position with _ | _ | child
            · have level : setArray heap pos data address (some position)
                  index = none := by
                simp [setArray, is, short, refused, last, loaded]
              rw [level]
              refine iff_of_false not_ends_none ?_
              rintro (short' | above | ⟨_, child, ⟨⟩, low, slot⟩)
              · exact short short'
              · exact refused above
              · rw [load, if_pos low, slot] at loaded
                cases loaded
            · have level : setArray heap pos data address (some position)
                  index = none := by
                simp [setArray, is, short, refused, last, loaded]
              rw [level]
              refine iff_of_false not_ends_none ?_
              rintro (short' | above | ⟨_, child, ⟨⟩, low, slot⟩)
              · exact short short'
              · exact refused above
              · rw [load, if_pos low, slot] at loaded
                cases loaded
            · refine absurd ?_ (stops child)
              simp [setArray, is, short, refused, last, loaded]

theorem getArray_ends
    (leads : Leads heap root pos index address)
    (entry_is : pos.entries[index]? = entry)
    (stops : ∀ child, getArray heap pos address entry index ≠
      some (.descend child)) :
    Ends heap root pos .getArray
        (getArray heap pos address entry index) ↔
      Call.getArray.Needs heap pos index entry (heap.objects address) := by
  cases is : heap.objects address with
  | etchArrayData mData =>
      simp only [Call.Needs, iff_true, getArray, is]
      exact ends_refuse (by decide)
  | etchArray mDim mData =>
      simp only [Call.Needs]
      by_cases short : pos.size < index
      · have level : getArray heap pos address entry index =
            some (refuse heap .ETCH_ERANGE) := by
          simp [getArray, is, short]
        rw [level]
        exact iff_of_true (ends_refuse (by decide)) (.inl short)
      cases entry with
      | none =>
          have level : getArray heap pos address none index = none := by
            simp [getArray, is, short]
          rw [level]
          exact iff_of_false not_ends_none (by simp [short])
      | some position =>
          simp only [inside_some, refused_some]
          by_cases refused : position > mData.length
          · have level : getArray heap pos address (some position) index =
                some (refuse heap .ETCH_ERANGE) := by
              simp [getArray, is, short, refused]
            rw [level]
            exact iff_of_true (ends_refuse (by decide))
              (.inr (.inl refused))
          rcases loaded : load mData position with _ | _ | child
          · have level : getArray heap pos address (some position) index =
                none := by
              simp [getArray, is, short, refused, loaded]
            rw [level]
            have outside := load_eq_none_iff.mp loaded
            exact iff_of_false not_ends_none (by omega)
          · have level : getArray heap pos address (some position) index =
                some (refuse heap .ETCH_ERANGE) := by
              simp [getArray, is, short, refused, loaded]
            rw [level]
            have inside := inside_of_load loaded
            exact iff_of_true (ends_refuse (by decide))
              (.inr (.inr inside))
          · have inside := inside_of_load loaded
            by_cases last : pos.size = index + 1
            · have level : getArray heap pos address (some position)
                  index = some (.finish
                    { status := .ETCH_OK
                      heap := heap
                      array := some child }) := by
                simp [getArray, is, refused, loaded, last]
              rw [level, ends_finish_iff rfl]
              exact iff_of_true ⟨rfl, address, mDim, mData, position, child,
                ⟨⟨index, last, leads, entry_is⟩, is, inside⟩,
                (load_eq_some_iff.mp loaded).2, rfl⟩ (.inr (.inr inside))
            · refine absurd ?_ (stops child)
              simp [getArray, is, short, refused, loaded, last]

theorem createArray_ends {length : Int}
    (leads : Leads heap root pos index address)
    (entry_is : pos.entries[index]? = entry)
    (stops : ∀ child, createArray heap pos length
      ((heap.objects root).getDim - 1) address entry index ≠
        some (.descend child)) :
    Ends heap root pos (.createArray length)
        (createArray heap pos length ((heap.objects root).getDim - 1)
          address entry index) ↔
      (Call.createArray length : Call T).Needs heap pos index entry
        (heap.objects address) := by
  cases is : heap.objects address with
  | etchArrayData mData =>
      simp only [Call.Needs, iff_true, createArray, is]
      exact ends_refuse (by decide)
  | etchArray mDim mData =>
      simp only [Call.Needs]
      cases entry with
      | none =>
          have level : createArray heap pos length
              ((heap.objects root).getDim - 1) address none index =
                none := by
            simp [createArray, is]
          rw [level]
          exact iff_of_false not_ends_none (by simp)
      | some position =>
          rw [inside_some]
          rcases loaded : load mData position with _ | _ | child
          · have level : createArray heap pos length
                ((heap.objects root).getDim - 1) address (some position)
                index = none := by
              simp [createArray, is, loaded]
            rw [level]
            have outside := load_eq_none_iff.mp loaded
            exact iff_of_false not_ends_none (by tauto)
          · have inside := inside_of_load loaded
            have missing := (load_eq_some_iff.mp loaded).2
            have needs : ((0 ≤ position ∧ position < mData.length) ∧
                ∀ position', some position = some position' →
                  mData[position'.toNat]? = some none →
                    pos.size = index + 1 ∧ 0 ≤ length) ↔
                pos.size = index + 1 ∧ 0 ≤ length := by
              refine ⟨fun ⟨_, needed⟩ => needed position rfl missing,
                fun needed => ⟨inside, ?_⟩⟩
              rintro _ ⟨⟩ -
              exact needed
            rw [needs]
            have last_of_effect : ∀ outcome,
                (Call.createArray length).Effect heap root pos outcome →
                  pos.size = index + 1 := by
              rintro outcome ⟨_, _, _, _, slot, missing', -⟩
              exact slot.last missing' leads entry_is is loaded
            by_cases stop : (heap.objects root).getDim - 1 - index = 1 ∨
                pos.size = index + 1
            · by_cases negative : length < 0
              · have level : createArray heap pos length
                    ((heap.objects root).getDim - 1) address
                    (some position) index = none := by
                  simp [createArray, is, loaded, stop, negative]
                rw [level]
                exact iff_of_false not_ends_none (by omega)
              · have level : createArray heap pos length
                    ((heap.objects root).getDim - 1) address
                    (some position) index = some (.finish
                      { status := .ETCH_OK
                        heap :=
                          (heap.allocate (.make length
                            ((heap.objects root).getDim - 1 - index))).put
                            address (.etchArray mDim
                              (mData.set position.toNat
                                (some heap.next))) }) := by
                  simp [createArray, is, loaded, stop, negative,
                    store_inside inside]
                rw [level, ends_finish_iff rfl]
                refine ⟨fun effect => ⟨last_of_effect _ effect, by omega⟩,
                  fun ⟨last, _⟩ => ?_⟩
                have dim : (heap.objects root).getDim - 1 - index =
                    (heap.objects root).getDim - pos.size := by omega
                refine ⟨address, mDim, mData, position,
                  ⟨⟨index, last, leads, entry_is⟩, is, inside⟩,
                  missing, ?_⟩
                rw [dim]
            · have level : createArray heap pos length
                  ((heap.objects root).getDim - 1) address (some position)
                  index = some (.finish
                    { status := .ETCH_OK, heap := heap }) := by
                simp [createArray, is, loaded, stop]
              rw [level, ends_finish_iff rfl]
              exact iff_of_false
                (fun effect => stop (.inr (last_of_effect _ effect)))
                (fun needed => stop (.inr needed.1))
          · have inside := inside_of_load loaded
            have slot := (load_eq_some_iff.mp loaded).2
            by_cases stop : (heap.objects root).getDim - 1 - index = 1 ∨
                pos.size = index + 1
            · have level : createArray heap pos length
                  ((heap.objects root).getDim - 1) address (some position)
                  index = some (refuse heap .ETCH_ERANGE) := by
                simp [createArray, is, loaded, stop]
              rw [level]
              refine iff_of_true (ends_refuse (by decide)) ⟨inside, ?_⟩
              rintro _ ⟨⟩ missing
              rw [slot] at missing
              cases missing
            · refine absurd ?_ (stops child)
              simp [createArray, is, loaded, stop]

/-- The end of any call, where the object has what the call needs. -/
theorem level_ends {call : Call T}
    (leads : Leads heap root pos index address)
    (stops : ∀ child, call.level heap root pos address
      pos.entries[index]? index ≠ some (.descend child)) :
    Ends heap root pos call
        (call.level heap root pos address pos.entries[index]? index) ↔
      call.Needs heap pos index pos.entries[index]?
        (heap.objects address) := by
  cases call with
  | setElement data => exact setElement_ends leads rfl stops
  | setBulk bulk stack => exact setBulk_ends leads rfl stops
  | setArray data => exact setArray_ends leads rfl stops
  | getElement result => exact getElement_ends leads rfl stops
  | getBulk bulk => exact getBulk_ends leads rfl stops
  | getArray => exact getArray_ends leads rfl stops
  | createArray length => exact createArray_ends leads rfl stops

/--
A call of an `EtchNativeArray` is refused with nothing changed, or reads or
writes exactly what its position addresses, if and only if every object that
its position leads to, as far as the call passes, has what the call needs.
-/
theorem meets_iff_needs (heap : Heap T) (root : Nat) (pos : Pos)
    (call : Call T) :
    (∃ outcome, call.outcome heap root pos = some outcome ∧
        call.Meets heap root pos outcome) ↔
      ∀ index object, Leads heap root pos index object →
        (∀ before < index, call.Passes heap root pos before) →
          call.Needs heap pos index pos.entries[index]?
            (heap.objects object) := by
  refine exists_run_iff (by simp) ?_ ?_ ?_ ?_
  · intro index passes before below
    exact passes before (by omega)
  · intro index object child leads passes descends
    obtain ⟨key, is, step, passes'⟩ := Call.level_descend_iff.mp descends
    refine ⟨⟨key, is, step⟩, ?_, fun before below => ?_⟩
    · rw [is]
      exact needs_of_passes passes' step
    · rcases Nat.lt_succ_iff_lt_or_eq.mp below with below | rfl
      · exact passes before below
      · exact passes'
  · intro index object child key leads passes is step
    exact ⟨child, Call.level_descend_iff.mpr
      ⟨key, rfl, step, passes index (Nat.lt_succ_self _)⟩⟩
  · intro index object leads passes stops
    exact level_ends leads stops

end Ends

/-- A `set` at the end of an array of two elements writes behind it. -/
theorem set_behind_end :
    ∃ (heap : Heap UInt8) (root : Nat) (pos : Pos),
      heap.objects root = .etchArrayData [1, 2] ∧
        pos.size = 1 ∧ pos.pos 0 = 2 ∧
        ¬ ∃ outcome,
          (Call.setElement 3).outcome heap root pos = some outcome ∧
            (Call.setElement 3).Meets heap root pos outcome := by
  refine ⟨⟨fun _ => .etchArrayData [1, 2], 1⟩, 0,
    Pos.single 2 fun _ => 0, rfl, rfl, rfl, ?_⟩
  rintro ⟨outcome, runs, -⟩
  cases runs

end Etch.Cpp
