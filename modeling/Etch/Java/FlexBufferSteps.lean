import Etch.Java.FlexBufferHeap

/-!
# The steps of a call of a Java `FlexBuffer`

The bounds that the buffers of a heap keep, what it means that a call changes
nothing, and what each of the steps does that the calls are made of.
-/

namespace Etch.Java.FlexBufferHeap

open Etch.Library.Stateful Etch.Library.Window

variable {α β : Type} {heap before after : FlexBufferHeap} {this : Nat}
  {fields : FlexBufferFields} {array : JavaBytes}

structure InBounds (heap : FlexBufferHeap) (fields : FlexBufferFields) :
    Prop where
  index_nonneg : 0 ≤ fields.index.toInt
  index_le : fields.index.toInt ≤ fields.length.toInt
  length_le : ∃ array, heap.arrays[fields.buffer]? = some array ∧
    fields.length.toInt ≤ array.bytes.length

/-- All buffers are in their bounds. -/
def Good (heap : FlexBufferHeap) : Prop :=
  ∀ fields ∈ heap.buffers, heap.InBounds fields

/-- The bytes before `length`. -/
def contents (heap : FlexBufferHeap) (fields : FlexBufferFields) :
    List UInt8 :=
  match heap.arrays[fields.buffer]? with
  | none => []
  | some array => array.bytes.take fields.length.toNatClampNeg

/-- No buffer has changed as far as it can be seen. -/
def Unchanged (before after : FlexBufferHeap) : Prop :=
  ∀ (this : Nat) (fields : FlexBufferFields),
    before.buffers[this]? = some fields → ∃ fields',
      after.buffers[this]? = some fields' ∧
      fields'.index = fields.index ∧ fields'.length = fields.length ∧
      after.contents fields' = before.contents fields

/-- The bounds hold afterwards, and what has thrown has changed nothing. -/
def Meets (before : FlexBufferHeap) :
    EStateM.Result Thrown FlexBufferHeap α → Prop
  | .ok _ after => after.Good
  | .error _ after => after.Good ∧ before.Unchanged after

/-! ## Heaps -/

theorem Unchanged.refl (heap : FlexBufferHeap) : heap.Unchanged heap :=
  fun _ fields found => ⟨fields, found, rfl, rfl, rfl⟩

theorem Unchanged.trans {middle : FlexBufferHeap}
    (first : before.Unchanged middle) (second : middle.Unchanged after) :
    before.Unchanged after := by
  intro this fields found
  obtain ⟨fields₁, found₁, index₁, length₁, contents₁⟩ :=
    first this fields found
  obtain ⟨fields₂, found₂, index₂, length₂, contents₂⟩ :=
    second this fields₁ found₁
  exact ⟨fields₂, found₂, index₂.trans index₁, length₂.trans length₁,
    contents₂.trans contents₁⟩

theorem Good.of_getElem? (good : heap.Good)
    (found : heap.buffers[this]? = some fields) : heap.InBounds fields :=
  good fields (List.mem_of_getElem? found)

/-- Arrays may change their bytes, not their lengths. -/
theorem InBounds.of_arrays {arrays : List JavaBytes}
    {buffers : List FlexBufferFields} (bounds : heap.InBounds fields)
    (same : ∀ (ref : Nat) (array : JavaBytes),
      heap.arrays[ref]? = some array → ∃ array', arrays[ref]? = some array' ∧
        array'.bytes.length = array.bytes.length) :
    InBounds ⟨arrays, buffers⟩ fields := by
  obtain ⟨array, found, length_le⟩ := bounds.length_le
  obtain ⟨array', found', length_eq⟩ := same _ _ found
  exact ⟨bounds.index_nonneg, bounds.index_le,
    array', found', by rwa [length_eq]⟩

theorem set_length {ref : Nat} {array' : JavaBytes}
    (found : heap.arrays[ref]? = some array)
    (same : array'.bytes.length = array.bytes.length) (other : Nat)
    (old : JavaBytes) (there : heap.arrays[other]? = some old) :
    ∃ new, (heap.arrays.set ref array')[other]? = some new ∧
      new.bytes.length = old.bytes.length := by
  by_cases equal : ref = other
  · subst equal
    obtain rfl := Option.some.inj (found.symm.trans there)
    refine ⟨array', ?_, same⟩
    rw [List.getElem?_set_self (List.getElem?_eq_some_iff.mp found).1]
  · exact ⟨old, by rwa [List.getElem?_set_ne equal], rfl⟩

theorem Good.setArray {ref : Nat} {array' : JavaBytes} (good : heap.Good)
    (found : heap.arrays[ref]? = some array)
    (same : array'.bytes.length = array.bytes.length) :
    Good { heap with arrays := heap.arrays.set ref array' } :=
  fun _ member => (good _ member).of_arrays (set_length found same)

theorem Good.setFields {fields' : FlexBufferFields} (good : heap.Good)
    (bounds : heap.InBounds fields') :
    Good { heap with buffers := heap.buffers.set this fields' } := by
  intro fields member
  obtain old | rfl := List.mem_or_eq_of_mem_set member
  · exact ⟨(good fields old).1, (good fields old).2, (good fields old).3⟩
  · exact ⟨bounds.1, bounds.2, bounds.3⟩

theorem append_array {ref : Nat} {old : JavaBytes} (array : JavaBytes)
    (there : heap.arrays[ref]? = some old) :
    (heap.arrays ++ [array])[ref]? = some old := by
  rw [List.getElem?_append_left (List.getElem?_eq_some_iff.mp there).1, there]

theorem Good.newArray (good : heap.Good) (array : JavaBytes) :
    Good { heap with arrays := heap.arrays ++ [array] } :=
  fun _ member => (good _ member).of_arrays
    fun _ old there => ⟨old, append_array array there, rfl⟩

theorem contents_eq (there : heap.arrays[fields.buffer]? = some array) :
    heap.contents fields =
      array.bytes.take fields.length.toNatClampNeg := by
  rw [contents, there]

theorem Unchanged.newArray (good : heap.Good) (array : JavaBytes) :
    heap.Unchanged { heap with arrays := heap.arrays ++ [array] } := by
  intro this fields found
  obtain ⟨old, there, _⟩ := (good.of_getElem? found).length_le
  refine ⟨fields, found, rfl, rfl, ?_⟩
  rw [contents_eq (append_array array there), contents_eq there]

theorem Good.newBuffer (good : heap.Good) (bounds : heap.InBounds fields) :
    Good { heap with buffers := heap.buffers ++ [fields] } := by
  intro other member
  rcases List.mem_append.mp member with old | new
  · exact ⟨(good other old).1, (good other old).2, (good other old).3⟩
  · obtain rfl := List.mem_singleton.mp new
    exact ⟨bounds.1, bounds.2, bounds.3⟩

/-! ## Sums -/

theorem toInt_add_of_lt {left right : Int32} (nonneg : 0 ≤ left.toInt)
    (positive : 0 ≤ right.toInt)
    (small : left.toInt + right.toInt < 2 ^ 31) :
    (left + right).toInt = left.toInt + right.toInt := by
  rw [Int32.toInt_add, Int.bmod_eq_of_le] <;> omega

theorem toInt_add_of_le {left right : Int32}
    (large : 2 ^ 31 ≤ left.toInt + right.toInt) :
    (left + right).toInt < 0 := by
  have := left.toInt_lt
  have := right.toInt_lt
  rw [Int32.toInt_add, Int.bmod]
  split <;> omega

theorem toInt_sub_of_le {left right : Int32} (nonneg : 0 ≤ right.toInt)
    (le : right.toInt ≤ left.toInt) :
    (left - right).toInt = left.toInt - right.toInt := by
  have := left.toInt_lt
  rw [Int32.toInt_sub, Int.bmod_eq_of_le] <;> omega

theorem toInt_length (array : JavaBytes) :
    array.length.toInt = array.bytes.length :=
  Int32.toInt_ofNat_of_lt array.size_lt

theorem toInt_toNatClampNeg {value : Int32} (nonneg : 0 ≤ value.toInt) :
    (value.toNatClampNeg : Int) = value.toInt :=
  Int.toNat_of_nonneg nonneg

/-! ## Steps of a call -/

theorem fields_ok (found : heap.buffers[this]? = some fields) :
    FlexBufferHeap.fields this heap = .ok fields heap := by
  rw [FlexBufferHeap.fields, found]

theorem fields_null (null : heap.buffers[this]? = none) :
    FlexBufferHeap.fields this heap = .error .nullPointerException heap := by
  rw [FlexBufferHeap.fields, null]

theorem fields_found {middle : FlexBufferHeap}
    (reads : FlexBufferHeap.fields this heap = .ok fields middle) :
    heap.buffers[this]? = some fields := by
  cases found : heap.buffers[this]? with
  | none => exact nomatch (fields_null found).symm.trans reads
  | some other =>
      obtain ⟨rfl, _⟩ :=
        EStateM.Result.ok.inj ((fields_ok found).symm.trans reads)
      rfl

theorem array_ok {ref : Nat} (found : heap.arrays[ref]? = some array) :
    FlexBufferHeap.array ref heap = .ok array heap := by
  rw [FlexBufferHeap.array, found]

/-- The buffers do not matter to an array. -/
theorem array_ok_with {ref : Nat} (found : heap.arrays[ref]? = some array)
    (buffers : List FlexBufferFields) :
    FlexBufferHeap.array ref ⟨heap.arrays, buffers⟩ =
      .ok array ⟨heap.arrays, buffers⟩ := by
  rw [FlexBufferHeap.array, found]

theorem array_null {ref : Nat} (null : heap.arrays[ref]? = none) :
    FlexBufferHeap.array ref heap = .error .nullPointerException heap := by
  rw [FlexBufferHeap.array, null]

/-- The computation looks at the heap only. -/
def Reads (m : Run α) : Prop :=
  ∀ heap, final (m heap) = heap

namespace Reads

theorem pure (value : α) : Reads (Pure.pure value) :=
  fun _ => rfl

theorem throw (thrown : Thrown) :
    Reads (MonadExcept.throw thrown : Run α) :=
  fun _ => rfl

theorem bind {m : Run α} {rest : α → Run β} (first : Reads m)
    (next : ∀ value, Reads (rest value)) : Reads (m >>= rest) := by
  intro heap
  have same := first heap
  cases done : m heap with
  | ok value after =>
      rw [done] at same
      rw [bind_ok done, ← same]
      exact next value after
  | error thrown after =>
      rw [done] at same
      rw [bind_error done, ← same]
      rfl

theorem ite {condition : Prop} [Decidable condition] {m n : Run α}
    (first : Reads m) (second : Reads n) :
    Reads (if condition then m else n) := by
  split
  · exact first
  · exact second

end Reads

theorem reads_fields (this : Nat) : Reads (FlexBufferHeap.fields this) := by
  intro heap
  unfold FlexBufferHeap.fields
  cases heap.buffers[this]? with
  | none => rfl
  | some fields => rfl

theorem reads_array (ref : Nat) : Reads (FlexBufferHeap.array ref) := by
  intro heap
  unfold FlexBufferHeap.array
  cases heap.arrays[ref]? with
  | none => rfl
  | some array => rfl

theorem reads_checkBuf (buf : Nat) (off len : Int32) :
    Reads (checkBuf buf off len) :=
  (reads_array buf).bind fun _ =>
    Reads.ite (.throw _) (Reads.ite (.throw _)
      (Reads.ite (.throw _) (.pure _)))

theorem reads_checkAvail (this : Nat) (len : Int32) :
    Reads (checkAvail this len) :=
  (reads_fields this).bind fun _ => Reads.ite (.throw _) (.pure _)

theorem Meets.unchanged (good : heap.Good) (thrown : Thrown) :
    Meets heap (.error thrown heap : EStateM.Result _ _ α) :=
  ⟨good, .refl heap⟩

/-- A call goes on where it has only looked at the heap. -/
theorem Meets.bind {m : Run α} {rest : α → Run β} (good : heap.Good)
    (same : final (m heap) = heap)
    (next : ∀ value, m heap = .ok value heap →
      Meets heap (rest value heap)) :
    Meets heap ((m >>= rest) heap) := by
  cases done : m heap with
  | ok value after =>
      rw [done] at same
      obtain rfl : after = heap := same
      rw [bind_ok done]
      exact next value done
  | error thrown after =>
      rw [done] at same
      obtain rfl : after = heap := same
      rw [bind_error done]
      exact .unchanged good thrown

theorem Meets.trans {middle : FlexBufferHeap}
    {result : EStateM.Result Thrown FlexBufferHeap α}
    (first : before.Unchanged middle) (meets : Meets middle result) :
    Meets before result := by
  cases result with
  | ok value after => exact meets
  | error thrown after => exact ⟨meets.1, first.trans meets.2⟩

theorem Meets.of_reads {m : Run α} (good : heap.Good)
    (same : final (m heap) = heap) : Meets heap (m heap) := by
  cases done : m heap with
  | ok value after =>
      rw [done] at same
      obtain rfl : after = heap := same
      exact good
  | error thrown after =>
      rw [done] at same
      obtain rfl : after = heap := same
      exact .unchanged good thrown

theorem meets_returning_iff {m : Run α} (f : α → β) :
    Meets heap ((m >>= fun value => pure (f value)) heap) ↔
      Meets heap (m heap) := by
  cases done : m heap with
  | ok value after =>
      rw [bind_ok done]
      exact Iff.rfl
  | error thrown after =>
      rw [bind_error done]
      exact Iff.rfl

theorem Meets.returning {m : Run α} (meets : Meets heap (m heap))
    (f : α → β) : Meets heap ((m >>= fun value => pure (f value)) heap) :=
  (meets_returning_iff f).mpr meets

/-- A call that makes an array first. -/
theorem Meets.newArray {rest : Nat → Run α} (good : heap.Good)
    (array : JavaBytes)
    (next : Meets ⟨heap.arrays ++ [array], heap.buffers⟩
      (rest heap.arrays.length ⟨heap.arrays ++ [array], heap.buffers⟩)) :
    Meets heap ((FlexBufferHeap.newArray array >>= rest) heap) :=
  .trans (.newArray good array) next

/-! ## Growing -/

/-- What `ensureLength` leaves when there is room. -/
structure Ensured (heap : FlexBufferHeap) (this : Nat)
    (fields : FlexBufferFields) (len : Int32) (after : FlexBufferHeap) :
    Prop where
  good : after.Good
  unchanged : heap.Unchanged after
  others : ∀ other, other ≠ this →
    after.buffers[other]? = heap.buffers[other]?
  arrays : ∀ (ref : Nat) (array : JavaBytes),
    heap.arrays[ref]? = some array → after.arrays[ref]? = some array
  room : ∃ buffer array,
    after.buffers[this]? = some { fields with buffer } ∧
      after.arrays[buffer]? = some array ∧
      len.toInt ≤ array.bytes.length

theorem ensureLength_of_le (found : heap.buffers[this]? = some fields)
    (there : heap.arrays[fields.buffer]? = some array) (len : Int32)
    (le : len.toInt ≤ array.bytes.length) :
    ensureLength this len heap = .ok () heap := by
  unfold ensureLength
  rw [bind_ok (fields_ok found), bind_ok (array_ok there), if_pos]
  · rfl
  · rwa [Int32.le_iff_toInt_le, toInt_length]

theorem getElem?_newArray (heap : FlexBufferHeap) (array : JavaBytes) :
    (heap.arrays ++ [array])[heap.arrays.length]? = some array := by
  simp

theorem getElem?_setFields {this : Nat} {fields : FlexBufferFields}
    (found : heap.buffers[this]? = some fields)
    (fields' : FlexBufferFields) :
    (heap.buffers.set this fields')[this]? = some fields' :=
  List.getElem?_set_self (List.getElem?_eq_some_iff.mp found).1

/-- A longer array takes the place of the one of a buffer. -/
theorem ensured_extended (good : heap.Good)
    (found : heap.buffers[this]? = some fields)
    (there : heap.arrays[fields.buffer]? = some array) {len : Int32} {k : Nat}
    (small : k < 2 ^ 31) (longer : array.bytes.length ≤ k)
    (room : len.toInt ≤ k) :
    Ensured heap this fields len
      ⟨heap.arrays ++ [array.extended k small],
        heap.buffers.set this
          { fields with buffer := heap.arrays.length }⟩ := by
  have size : (array.extended k small).bytes.length = k := by
    simp only [JavaBytes.extended, List.length_append,
      List.length_replicate]
    omega
  have bounds := good.of_getElem? found
  have length_le : fields.length.toInt ≤ array.bytes.length := by
    obtain ⟨old, same, le⟩ := bounds.length_le
    obtain rfl := Option.some.inj (same.symm.trans there)
    exact le
  have mine := getElem?_setFields found
    { fields with buffer := heap.arrays.length }
  have fresh := heap.getElem?_newArray (array.extended k small)
  have grown := good.newArray (array.extended k small)
  refine ⟨grown.setFields ⟨bounds.1, bounds.2, _, fresh, ?_⟩, ?_,
    fun other different => List.getElem?_set_ne different.symm,
    fun _ _ => append_array _,
    heap.arrays.length, _, mine, fresh, ?_⟩
  · change fields.length.toInt ≤ _
    rw [size]
    omega
  · intro other fields' found'
    by_cases same : this = other
    · subst same
      obtain rfl := Option.some.inj (found.symm.trans found')
      refine ⟨_, mine, rfl, rfl, ?_⟩
      have inside : fields.length.toNatClampNeg ≤ array.bytes.length :=
        Int.toNat_le.mpr length_le
      rw [contents_eq fresh, contents_eq there]
      exact List.take_append_of_le_length inside
    · obtain ⟨old, there', _⟩ := (good.of_getElem? found').length_le
      refine ⟨fields', ?_, rfl, rfl, ?_⟩
      · rwa [← List.getElem?_set_ne same] at found'
      · rw [contents_eq (append_array _ there'), contents_eq there']
  · rwa [size]

theorem ensureLength_spec (good : heap.Good)
    (found : heap.buffers[this]? = some fields) (len : Int32) :
    (∃ thrown, ensureLength this len heap = .error thrown heap) ∨
      ∃ after, ensureLength this len heap = .ok () after ∧
        Ensured heap this fields len after := by
  obtain ⟨array, there, length_le⟩ := (good.of_getElem? found).length_le
  by_cases le : len.toInt ≤ array.bytes.length
  · refine .inr ⟨heap, ensureLength_of_le found there len le, good, .refl heap,
      fun _ _ => rfl, fun _ _ => id, fields.buffer, array, found, there, le⟩
  have large : ¬ len ≤ array.length := by
    rwa [Int32.le_iff_toInt_le, toInt_length]
  unfold ensureLength
  rw [bind_ok (fields_ok found), bind_ok (array_ok there), if_neg large]
  by_cases above :
      len.toInt > FlexBuffer.grown len.toNatClampNeg array.bytes.length
  · refine .inl ⟨.buffer (.ioException "buffer overflow"), ?_⟩
    rw [if_pos above]
    rfl
  · refine .inr ⟨_, ?_, ensured_extended good found there
      (FlexBuffer.grown_lt array.size_lt) (FlexBuffer.le_grown _ _)
      (Int.not_lt.mp above)⟩
    rw [if_neg above]
    rfl

/-! ## One byte after the other -/

theorem toInt_add_one {index : Int32} (nonneg : 0 ≤ index.toInt)
    (small : index.toInt + 1 < 2 ^ 31) :
    (index + 1).toInt = index.toInt + 1 :=
  toInt_add_of_lt nonneg (by decide) small

theorem set_self {l : List α} {n : Nat} {value : α}
    (found : l[n]? = some value) : l.set n value = l := by
  obtain ⟨inside, rfl⟩ := List.getElem?_eq_some_iff.mp found
  exact List.set_getElem_self inside

theorem add_one_add_ofNat (index : Int32) (n : Nat) :
    index + 1 + .ofNat n = index + .ofNat (n + 1) := by
  rw [Int32.ofNat_add, Int32.add_assoc, Int32.add_comm 1]
  rfl

theorem getElem?_setArray {ref : Nat}
    (there : heap.arrays[ref]? = some array) (array' : JavaBytes) :
    (heap.arrays.set ref array')[ref]? = some array' :=
  List.getElem?_set_self (List.getElem?_eq_some_iff.mp there).1

theorem store_fits (value : UInt8)
    (found : heap.buffers[this]? = some fields)
    (there : heap.arrays[fields.buffer]? = some array)
    (nonneg : 0 ≤ fields.index.toInt)
    (fits : fields.index.toInt < array.bytes.length) :
    ∃ array', array'.bytes.length = array.bytes.length ∧
      store this value heap = .ok ()
        ⟨heap.arrays.set fields.buffer array', heap.buffers.set this
          { fields with index := fields.index + 1 }⟩ := by
  have position := toInt_toNatClampNeg nonneg
  have inside : 0 ≤ fields.index ∧
      fields.index.toNatClampNeg + 1 ≤ array.bytes.length :=
    ⟨Int32.le_iff_toInt_le.mpr nonneg, by omega⟩
  refine ⟨array.store fields.index.toNatClampNeg [value] inside.2,
    length_overwrite inside.2, ?_⟩
  unfold store
  rw [bind_ok (fields_ok found)]
  change (FlexBufferHeap.array fields.buffer >>= _) _ = _
  rw [bind_ok (array_ok_with there _), dif_pos inside]
  rfl

/-- A store past the end of the array throws when the index has moved. -/
theorem store_throws (value : UInt8)
    (found : heap.buffers[this]? = some fields)
    (there : heap.arrays[fields.buffer]? = some array)
    (nonneg : 0 ≤ fields.index.toInt)
    (outside : array.bytes.length ≤ fields.index.toInt) :
    store this value heap = .error .arrayIndexOutOfBoundsException
      ⟨heap.arrays, heap.buffers.set this
        { fields with index := fields.index + 1 }⟩ := by
  have position := toInt_toNatClampNeg nonneg
  unfold store
  rw [bind_ok (fields_ok found)]
  change (FlexBufferHeap.array fields.buffer >>= _) _ = _
  rw [bind_ok (array_ok_with there _), dif_neg (by omega)]
  rfl

theorem storeAll_fits {values : List UInt8}
    (found : heap.buffers[this]? = some fields)
    (there : heap.arrays[fields.buffer]? = some array)
    (nonneg : 0 ≤ fields.index.toInt)
    (fits : fields.index.toInt + values.length ≤ array.bytes.length) :
    ∃ array', array'.bytes.length = array.bytes.length ∧
      storeAll this values heap = .ok ()
        ⟨heap.arrays.set fields.buffer array', heap.buffers.set this
          { fields with
            index := fields.index + .ofNat values.length }⟩ := by
  induction values generalizing heap fields array with
  | nil =>
      refine ⟨array, rfl, ?_⟩
      have same : fields.index + .ofNat 0 = fields.index :=
        Int32.add_zero _
      rw [List.length_nil, same, set_self there, set_self found]
      rfl
  | cons value values ih =>
      rw [List.length_cons] at fits ⊢
      obtain ⟨array₁, length₁, stores⟩ :=
        store_fits value found there nonneg (by omega)
      have small := array.size_lt
      have next := toInt_add_one nonneg (by omega)
      obtain ⟨array₂, length₂, rest⟩ := @ih
        ⟨heap.arrays.set fields.buffer array₁, heap.buffers.set this
          { fields with index := fields.index + 1 }⟩
        { fields with index := fields.index + 1 } array₁
        (getElem?_setFields found _) (getElem?_setArray there _)
        (by rw [next]; omega) (by rw [next, length₁]; omega)
      refine ⟨array₂, length₂.trans length₁, ?_⟩
      unfold storeAll
      rw [bind_ok stores, rest]
      simp only [List.set_set, add_one_add_ofNat]

/-- Where the bytes do not fit, the index has moved when that shows. -/
theorem storeAll_short (values : List UInt8)
    (found : heap.buffers[this]? = some fields)
    (there : heap.arrays[fields.buffer]? = some array)
    (nonneg : 0 ≤ fields.index.toInt)
    (inside : fields.index.toInt ≤ array.bytes.length)
    (short : array.bytes.length < fields.index.toInt + values.length) :
    ∃ thrown after moved, storeAll this values heap = .error thrown after ∧
      0 < moved ∧ moved ≤ values.length ∧
      after.buffers[this]? =
        some { fields with index := fields.index + .ofNat moved } := by
  induction values generalizing heap fields array with
  | nil =>
      rw [List.length_nil] at short
      omega
  | cons value values ih =>
      rw [List.length_cons] at short ⊢
      by_cases room : fields.index.toInt < array.bytes.length
      · obtain ⟨array₁, length₁, stores⟩ :=
          store_fits value found there nonneg room
        have small := array.size_lt
        have next := toInt_add_one nonneg (by omega)
        obtain ⟨thrown, after, moved, rest, _, le, now⟩ := @ih
          ⟨heap.arrays.set fields.buffer array₁, heap.buffers.set this
            { fields with index := fields.index + 1 }⟩
          { fields with index := fields.index + 1 } array₁
          (getElem?_setFields found _) (getElem?_setArray there _)
          (by rw [next]; omega) (by rw [next, length₁]; omega)
          (by rw [next, length₁]; omega)
        refine ⟨thrown, after, moved + 1, ?_, by omega, by omega, ?_⟩
        · unfold storeAll
          rw [bind_ok stores, rest]
        · rw [now, ← add_one_add_ofNat]
      · have throws :=
          store_throws value found there nonneg (Int.not_lt.mp room)
        unfold storeAll
        refine ⟨_, _, 1, bind_error throws, by omega, by omega, ?_⟩
        exact getElem?_setFields found
          { fields with index := fields.index + 1 }

theorem load_inside (found : heap.buffers[this]? = some fields)
    (there : heap.arrays[fields.buffer]? = some array)
    (nonneg : 0 ≤ fields.index.toInt)
    (inside : fields.index.toInt < array.bytes.length) :
    ∃ value, load this heap = .ok value
      ⟨heap.arrays, heap.buffers.set this
        { fields with index := fields.index + 1 }⟩ := by
  have position := toInt_toNatClampNeg nonneg
  have within : fields.index.toNatClampNeg < array.bytes.length := by omega
  have positive : 0 ≤ fields.index := Int32.le_iff_toInt_le.mpr nonneg
  refine ⟨array.bytes[fields.index.toNatClampNeg], ?_⟩
  unfold load
  rw [bind_ok (fields_ok found)]
  change (FlexBufferHeap.array fields.buffer >>= _) _ = _
  rw [bind_ok (array_ok_with there _), if_pos positive,
    List.getElem?_eq_getElem within]
  rfl

theorem loadAll_inside {n : Nat}
    (found : heap.buffers[this]? = some fields)
    (there : heap.arrays[fields.buffer]? = some array)
    (nonneg : 0 ≤ fields.index.toInt)
    (inside : fields.index.toInt + n ≤ array.bytes.length) :
    ∃ values, loadAll this n heap = .ok values
      ⟨heap.arrays, heap.buffers.set this
        { fields with index := fields.index + .ofNat n }⟩ := by
  induction n generalizing heap fields with
  | zero =>
      have same : fields.index + .ofNat 0 = fields.index :=
        Int32.add_zero _
      rw [same, set_self found]
      exact ⟨[], rfl⟩
  | succ n ih =>
      push_cast at inside
      obtain ⟨value, loads⟩ :=
        load_inside found there nonneg (by omega)
      have small := array.size_lt
      have next := toInt_add_one nonneg (by omega)
      obtain ⟨values, rest⟩ := @ih
        ⟨heap.arrays, heap.buffers.set this
          { fields with index := fields.index + 1 }⟩
        { fields with index := fields.index + 1 }
        (getElem?_setFields found _) there
        (by rw [next]; omega) (by rw [next]; omega)
      refine ⟨value :: values, ?_⟩
      unfold loadAll
      rw [bind_ok loads, bind_ok rest]
      simp only [List.set_set, add_one_add_ofNat]
      rfl

/-! ## Moving the index -/

/-- The fields with another index, which the length follows. -/
def moved (fields : FlexBufferFields) (index : Int32) : FlexBufferFields :=
  { fields with
    index
    length := if index > fields.length then index else fields.length }

theorem fixLength_eq (found : heap.buffers[this]? = some fields)
    (index : Int32) :
    fixLength this
        ⟨heap.arrays, heap.buffers.set this { fields with index }⟩ =
      .ok () ⟨heap.arrays, heap.buffers.set this (moved fields index)⟩ := by
  have now : (FlexBufferHeap.mk heap.arrays
      (heap.buffers.set this { fields with index })).buffers[this]? =
        some { fields with index } := getElem?_setFields found _
  unfold fixLength moved
  rw [bind_ok (fields_ok now)]
  by_cases above : index > fields.length
  · rw [if_pos above, if_pos above]
    exact congrArg (EStateM.Result.ok ()) (by simp [List.set_set])
  · rw [if_neg above, if_neg above]
    rfl

theorem Good.moved {index : Int32} (good : heap.Good)
    (found : heap.buffers[this]? = some fields)
    (there : heap.arrays[fields.buffer]? = some array)
    (nonneg : 0 ≤ index.toInt) (inside : index.toInt ≤ array.bytes.length) :
    Good ⟨heap.arrays, heap.buffers.set this
      (FlexBufferHeap.moved fields index)⟩ := by
  have bounds := good.of_getElem? found
  obtain ⟨old, same, length_le⟩ := bounds.length_le
  obtain rfl := Option.some.inj (same.symm.trans there)
  refine good.setFields ⟨nonneg, ?_, old, there, ?_⟩
  all_goals
    unfold FlexBufferHeap.moved
    dsimp only
    split
  · exact le_rfl
  · rename_i above
    exact Int.not_lt.mp (Int32.lt_iff_toInt_lt.not.mp above)
  · exact inside
  · exact length_le

theorem addIndex_eq (found : heap.buffers[this]? = some fields)
    (n : Int32) :
    addIndex this n heap = .ok () ⟨heap.arrays, heap.buffers.set this
      { fields with index := fields.index + n }⟩ := by
  unfold addIndex
  rw [bind_ok (fields_ok found)]
  rfl

/-! ## Copying -/

theorem arraycopy_spec (heap : FlexBufferHeap) (src : Nat)
    (srcPos : Int32) (dest : Nat) (destPos length : Int32) :
    (∃ thrown, arraycopy src srcPos dest destPos length heap =
      .error thrown heap) ∨
      ∃ target target', heap.arrays[dest]? = some target ∧
        target'.bytes.length = target.bytes.length ∧
        0 ≤ destPos.toInt ∧ 0 ≤ length.toInt ∧
        destPos.toInt + length.toInt ≤ target.bytes.length ∧
        arraycopy src srcPos dest destPos length heap =
          .ok () ⟨heap.arrays.set dest target', heap.buffers⟩ := by
  unfold arraycopy
  cases source : heap.arrays[src]? with
  | none => exact .inl ⟨_, bind_error (array_null source)⟩
  | some from' =>
      rw [bind_ok (array_ok source)]
      cases found : heap.arrays[dest]? with
      | none => exact .inl ⟨_, bind_error (array_null found)⟩
      | some target =>
          rw [bind_ok (array_ok found)]
          split
          · rename_i fits
            have nonneg := Int32.le_iff_toInt_le.mp fits.2.1
            have positive := Int32.le_iff_toInt_le.mp fits.2.2.1
            have position := toInt_toNatClampNeg nonneg
            have count := toInt_toNatClampNeg positive
            have size := fits.2.2.2.1
            have room := fits.2.2.2.2
            exact .inr ⟨target, _, rfl, length_overwrite room, nonneg,
              positive, by omega, rfl⟩
          · exact .inl ⟨_, rfl⟩

theorem arraycopy_fits {src dest : Nat} {srcPos destPos length : Int32}
    {source target : JavaBytes} (found : heap.arrays[src]? = some source)
    (there : heap.arrays[dest]? = some target)
    (nonneg : 0 ≤ srcPos.toInt) (nonneg' : 0 ≤ destPos.toInt)
    (positive : 0 ≤ length.toInt)
    (inside : srcPos.toInt + length.toInt ≤ source.bytes.length)
    (inside' : destPos.toInt + length.toInt ≤ target.bytes.length) :
    ∃ target', target'.bytes.length = target.bytes.length ∧
      arraycopy src srcPos dest destPos length heap =
        .ok () ⟨heap.arrays.set dest target', heap.buffers⟩ := by
  have first := toInt_toNatClampNeg nonneg
  have second := toInt_toNatClampNeg nonneg'
  have count := toInt_toNatClampNeg positive
  have size : (window source.bytes srcPos.toNatClampNeg
      (srcPos.toNatClampNeg + length.toNatClampNeg)).length =
        length.toNatClampNeg := by
    rw [length_window (by omega)]
    omega
  have fits : 0 ≤ srcPos ∧ 0 ≤ destPos ∧ 0 ≤ length ∧
      (window source.bytes srcPos.toNatClampNeg
        (srcPos.toNatClampNeg + length.toNatClampNeg)).length =
          length.toNatClampNeg ∧
      destPos.toNatClampNeg + (window source.bytes srcPos.toNatClampNeg
        (srcPos.toNatClampNeg + length.toNatClampNeg)).length ≤
          target.bytes.length :=
    ⟨Int32.le_iff_toInt_le.mpr nonneg, Int32.le_iff_toInt_le.mpr nonneg',
      Int32.le_iff_toInt_le.mpr positive, size, by omega⟩
  unfold arraycopy
  rw [bind_ok (array_ok found), bind_ok (array_ok there),
    dif_pos fits]
  exact ⟨_, length_overwrite fits.2.2.2.2, rfl⟩

end Etch.Java.FlexBufferHeap
