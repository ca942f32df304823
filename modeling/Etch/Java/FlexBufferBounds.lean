import Etch.Java.FlexBufferSteps
import Etch.Library.Contract

/-!
# What a Java `FlexBuffer` keeps

`0 <= index <= length <= buffer.length`, and a call that throws has changed
nothing.  Sums of `int` values wrap, so this takes some room above the index
for the calls that do not check it otherwise, and a buffer that is put into
itself moves its index twice.
-/

namespace Etch.Java.FlexBufferHeap

open Etch.Library.Contract Etch.Library.Stateful Etch.Library.Window

variable {α β : Type} {heap before after : FlexBufferHeap} {this : Nat}
  {fields : FlexBufferFields} {array : JavaBytes}

/-! ## Putting bytes one by one -/

/-- The index can move by `n` without wrapping. -/
def Room (heap : FlexBufferHeap) (this n : Nat) : Prop :=
  ∀ fields, heap.buffers[this]? = some fields →
    fields.index.toInt + n < 2 ^ 31

theorem index_le_size (good : heap.Good)
    (found : heap.buffers[this]? = some fields)
    (there : heap.arrays[fields.buffer]? = some array) :
    fields.index.toInt ≤ array.bytes.length := by
  have bounds := good.of_getElem? found
  obtain ⟨old, same, length_le⟩ := bounds.length_le
  obtain rfl := Option.some.inj (same.symm.trans there)
  exact bounds.index_le.trans length_le

/-- An index that has moved has changed. -/
theorem not_meets_moved {n : Nat} {thrown : Thrown}
    {fields' : FlexBufferFields}
    (found : heap.buffers[this]? = some fields)
    (now : after.buffers[this]? = some fields')
    (moves : fields'.index = fields.index + .ofNat n)
    (positive : 0 < n) (small : n < 2 ^ 31) :
    ¬ Meets heap (.error thrown after : EStateM.Result _ _ α) := by
  rintro ⟨_, unchanged⟩
  obtain ⟨same, found', index, _⟩ := unchanged this fields found
  obtain rfl := Option.some.inj (found'.symm.trans now)
  have zero : Int32.ofNat n = 0 := Int32.add_eq_left.mp (moves.symm.trans index)
  have none := congrArg Int32.toInt zero
  rw [Int32.toInt_ofNat_of_lt small, Int32.toInt_zero] at none
  omega

theorem putBytes_meets (good : heap.Good) {values : List UInt8}
    (small : values.length < 2 ^ 31)
    (room : heap.Room this values.length) :
    Meets heap (putBytes this values heap) := by
  unfold putBytes
  cases found : heap.buffers[this]? with
  | none =>
      rw [bind_error (fields_null found)]
      exact .unchanged good _
  | some fields =>
      have nonneg := (good.of_getElem? found).index_nonneg
      have count := Int32.toInt_ofNat_of_lt small
      have sum : (fields.index + .ofNat values.length).toInt =
          fields.index.toInt + values.length := by
        rw [toInt_add_of_lt nonneg (by omega) (by rw [count]; exact room _ found),
          count]
      rw [bind_ok (fields_ok found)]
      obtain ⟨thrown, throws⟩ | ⟨after, ensures, ensured⟩ :=
        ensureLength_spec good found (fields.index + .ofNat values.length)
      · rw [bind_error throws]
        exact .unchanged good thrown
      · obtain ⟨buffer, array, now, there, le⟩ := ensured.room
        rw [sum] at le
        obtain ⟨array', same, stores⟩ := storeAll_fits now there nonneg le
        have good' := ensured.good.setArray there same
        have there' := getElem?_setArray there array'
        rw [bind_ok ensures, bind_ok stores]
        rw [@fixLength_eq ⟨after.arrays.set buffer array', after.buffers⟩
          this _ now]
        exact good'.moved now there' (by rw [sum]; omega)
          (by rw [sum, same]; exact le)

theorem putBytes_overflows (good : heap.Good) {values : List UInt8}
    (small : values.length < 2 ^ 31)
    (wraps : ¬ heap.Room this values.length) :
    ¬ Meets heap (putBytes this values heap) := by
  unfold Room at wraps
  push Not at wraps
  obtain ⟨fields, found, large⟩ := wraps
  have bounds := good.of_getElem? found
  obtain ⟨array, there, length_le⟩ := bounds.length_le
  have size := array.size_lt
  have count := Int32.toInt_ofNat_of_lt small
  have sum : (fields.index + .ofNat values.length).toInt < 0 :=
    toInt_add_of_le (by rw [count]; exact large)
  have ensures := ensureLength_of_le found there
    (fields.index + .ofNat values.length) (by omega)
  obtain ⟨thrown, after, n, throws, positive, le, now⟩ :=
    storeAll_short values found there bounds.index_nonneg
      (index_le_size good found there) (by omega)
  unfold putBytes
  rw [bind_ok (fields_ok found), bind_ok ensures, bind_error throws]
  exact not_meets_moved found now rfl positive (by omega)

theorem putBytes_meets_iff (good : heap.Good) {values : List UInt8} {n : Nat}
    (size : values.length = n) (small : n < 2 ^ 31) :
    Meets heap (putBytes this values heap) ↔ heap.Room this n := by
  subst size
  exact ⟨fun meets => by_contra fun wraps =>
    putBytes_overflows good small wraps meets, putBytes_meets good small⟩

/-! ## Skipping -/

theorem skip_eq (found : heap.buffers[this]? = some fields) {len : Int32}
    (positive : 0 < len.toInt) (put : Bool) :
    skip this len put heap =
      if put = true then
        (ensureLength this (fields.index + len) >>= fun _ =>
          addIndex this len >>= fun _ => fixLength this) heap
      else
        (checkAvail this len >>= fun _ => addIndex this len) heap := by
  have notNegative : ¬ len < 0 := by
    rw [Int32.lt_iff_toInt_lt, Int32.toInt_zero]
    omega
  have notZero : ¬ len = 0 := by
    rintro rfl
    exact absurd positive (by decide)
  unfold skip
  rw [bind_ok (fields_ok found), if_neg notNegative, if_neg notZero]
  cases put with
  | false => rfl
  | true => rfl

theorem checkAvail_spec (found : heap.buffers[this]? = some fields)
    (bounds : heap.InBounds fields) (len : Int32) :
    (∃ thrown, checkAvail this len heap = .error thrown heap) ∧
        fields.length.toInt - fields.index.toInt < len.toInt ∨
      checkAvail this len heap = .ok () heap ∧
        len.toInt ≤ fields.length.toInt - fields.index.toInt := by
  have avail := toInt_sub_of_le bounds.index_nonneg bounds.index_le
  unfold checkAvail
  rw [bind_ok (fields_ok found)]
  by_cases short : len > fields.length - fields.index
  · rw [if_pos short]
    rw [gt_iff_lt, Int32.lt_iff_toInt_lt, avail] at short
    exact .inl ⟨⟨_, rfl⟩, short⟩
  · rw [if_neg short]
    rw [gt_iff_lt, Int32.lt_iff_toInt_lt, avail] at short
    exact .inr ⟨rfl, Int.not_lt.mp short⟩

/-- What is available may be skipped. -/
theorem addIndex_good (good : heap.Good)
    (found : heap.buffers[this]? = some fields) {len : Int32}
    (positive : 0 ≤ len.toInt)
    (enough : len.toInt ≤ fields.length.toInt - fields.index.toInt) :
    Good ⟨heap.arrays, heap.buffers.set this
      { fields with index := fields.index + len }⟩ := by
  have bounds := good.of_getElem? found
  have nonneg := bounds.index_nonneg
  have limit := fields.length.toInt_lt
  have sum : (fields.index + len).toInt = fields.index.toInt + len.toInt :=
    toInt_add_of_lt nonneg positive (by omega)
  refine good.setFields ⟨?_, ?_, bounds.length_le⟩
  · change 0 ≤ (fields.index + len).toInt
    omega
  · change (fields.index + len).toInt ≤ fields.length.toInt
    omega

theorem skip_get_meets (good : heap.Good)
    (found : heap.buffers[this]? = some fields) {len : Int32}
    (positive : 0 < len.toInt) :
    Meets heap (skip this len false heap) := by
  rw [skip_eq found positive, if_neg Bool.false_ne_true]
  obtain ⟨⟨thrown, throws⟩, _⟩ | ⟨checks, enough⟩ :=
    checkAvail_spec found (good.of_getElem? found) len
  · rw [bind_error throws]
    exact .unchanged good thrown
  · rw [bind_ok checks, addIndex_eq found]
    exact addIndex_good good found positive.le enough

theorem skip_put_meets (good : heap.Good)
    (found : heap.buffers[this]? = some fields) {len : Int32}
    (positive : 0 < len.toInt)
    (room : fields.index.toInt + len.toInt < 2 ^ 31) :
    Meets heap (skip this len true heap) := by
  have nonneg := (good.of_getElem? found).index_nonneg
  have sum := toInt_add_of_lt nonneg positive.le room
  rw [skip_eq found positive, if_pos rfl]
  obtain ⟨thrown, throws⟩ | ⟨after, ensures, ensured⟩ :=
    ensureLength_spec good found (fields.index + len)
  · rw [bind_error throws]
    exact .unchanged good thrown
  · obtain ⟨buffer, array, now, there, le⟩ := ensured.room
    rw [bind_ok ensures, bind_ok (addIndex_eq now len), fixLength_eq now]
    exact ensured.good.moved now there (by rw [sum]; omega) le

theorem skip_put_wraps (good : heap.Good)
    (found : heap.buffers[this]? = some fields) {len : Int32}
    (positive : 0 < len.toInt)
    (wraps : 2 ^ 31 ≤ fields.index.toInt + len.toInt) :
    ¬ Meets heap (skip this len true heap) := by
  obtain ⟨array, there, length_le⟩ := (good.of_getElem? found).length_le
  have sum := toInt_add_of_le wraps
  have ensures := ensureLength_of_le found there
    (fields.index + len) (by omega)
  rw [skip_eq found positive, if_pos rfl, bind_ok ensures,
    bind_ok (addIndex_eq found len), fixLength_eq found]
  intro good'
  have bounds := @Good.of_getElem? ⟨heap.arrays, _⟩ _ _ good'
    (getElem?_setFields found (moved fields (fields.index + len)))
  exact absurd bounds.index_nonneg (Int.not_le.mpr sum)

theorem skip_meets_iff (good : heap.Good) (len : Int32) (put : Bool) :
    Meets heap (skip this len put heap) ↔
      (put = true → heap.Room this len.toNatClampNeg) := by
  by_cases positive : 0 < len.toInt
  case neg =>
    have none : len.toNatClampNeg = 0 := Int.toNat_of_nonpos (by omega)
    refine iff_of_true (Meets.bind good (reads_fields this heap) ?_) ?_
    · intro fields _
      by_cases negative : len < 0
      · rw [if_pos negative]
        exact .unchanged good _
      · have zero : len = 0 := by
          rw [Int32.lt_iff_toInt_lt, Int32.toInt_zero] at negative
          refine Int32.toInt_inj.mp ?_
          rw [Int32.toInt_zero]
          omega
        rw [if_neg negative, if_pos zero]
        exact good
    · intro _ fields _
      rw [none, Nat.cast_zero, add_zero]
      exact fields.index.toInt_lt
  have count := toInt_toNatClampNeg positive.le
  cases found : heap.buffers[this]? with
  | none =>
      refine iff_of_true ?_ fun _ fields some => nomatch found.symm.trans some
      unfold skip
      rw [bind_error (fields_null found)]
      exact .unchanged good _
  | some fields =>
      have room : heap.Room this len.toNatClampNeg ↔
          fields.index.toInt + len.toInt < 2 ^ 31 := by
        constructor
        · intro room
          rw [← count]
          exact room fields found
        · intro room other found'
          obtain rfl := Option.some.inj (found.symm.trans found')
          rwa [count]
      cases put with
      | false => exact iff_of_true (skip_get_meets good found positive) nofun
      | true =>
          rw [room, forall_prop_of_true rfl]
          constructor
          · intro meets
            by_contra wraps
            exact skip_put_wraps good found positive (Int.not_lt.mp wraps)
              meets
          · exact skip_put_meets good found positive

/-! ## Putting stretches of an array -/

/-- What a `put` of `len` bytes leaves that has succeeded. -/
structure Put (heap : FlexBufferHeap) (this : Nat)
    (fields : FlexBufferFields) (len : Int32) (after : FlexBufferHeap) :
    Prop where
  good : after.Good
  others : ∀ other, other ≠ this →
    after.buffers[other]? = heap.buffers[other]?
  moved : ∃ buffer, after.buffers[this]? =
    some (moved { fields with buffer } (fields.index + len))

theorem Put.none (good : heap.Good)
    (found : heap.buffers[this]? = some fields) :
    Put heap this fields 0 heap := by
  refine ⟨good, fun _ _ => rfl, fields.buffer, ?_⟩
  have le := (good.of_getElem? found).index_le
  rw [Int32.add_zero, FlexBufferHeap.moved, if_neg]
  · exact found
  · intro above
    exact absurd (Int32.lt_iff_toInt_lt.mp above) (Int.not_lt.mpr le)

theorem putRange_spec (good : heap.Good)
    (found : heap.buffers[this]? = some fields) (buf : Nat)
    (off len : Int32) :
    (∃ thrown after,
      putRange this buf off len heap = .error thrown after ∧
        after.Good ∧ heap.Unchanged after) ∨
      ∃ after, putRange this buf off len heap = .ok () after ∧
        Put heap this fields len after := by
  unfold putRange
  rw [bind_ok (fields_ok found)]
  have same := reads_checkBuf buf off len heap
  cases checks : checkBuf buf off len heap with
  | error thrown after =>
      rw [checks] at same
      obtain rfl : after = heap := same
      exact .inl ⟨thrown, after, bind_error checks, good, .refl after⟩
  | ok done after =>
      rw [checks] at same
      obtain rfl : after = heap := same
      rw [bind_ok checks]
      by_cases none : len = 0
      · rw [if_pos none, none]
        exact .inr ⟨after, rfl, .none good found⟩
      rw [if_neg none]
      obtain ⟨thrown, throws⟩ | ⟨middle, ensures, ensured⟩ :=
        ensureLength_spec good found (fields.index + len)
      · exact .inl ⟨thrown, after, bind_error throws, good, .refl after⟩
      obtain ⟨buffer, array, now, there, _⟩ := ensured.room
      rw [bind_ok ensures, bind_ok (fields_ok now)]
      obtain ⟨thrown, throws⟩ |
          ⟨target, target', there', size, nonneg, positive, fits, copies⟩ :=
        arraycopy_spec middle buf off buffer fields.index len
      · exact .inl ⟨thrown, middle, bind_error throws, ensured.good,
          ensured.unchanged⟩
      have limit := target.size_lt
      have sum := toInt_add_of_lt nonneg positive (by omega)
      have adds := @addIndex_eq
        ⟨middle.arrays.set buffer target', middle.buffers⟩ this _ now len
      have fixes := @fixLength_eq
        ⟨middle.arrays.set buffer target', middle.buffers⟩ this _ now
      rw [bind_ok copies, bind_ok adds, fixes]
      refine .inr ⟨_, rfl, ?_, ?_, buffer, ?_⟩
      · exact (ensured.good.setArray there' size).moved now
          (getElem?_setArray there' _) (by rw [sum]; omega)
          (by rw [sum, size]; exact fits)
      · intro other different
        rw [← ensured.others other different]
        exact List.getElem?_set_ne different.symm
      · exact getElem?_setFields now _

theorem putRange_meets (good : heap.Good) (buf : Nat) (off len : Int32) :
    Meets heap (putRange this buf off len heap) := by
  cases found : heap.buffers[this]? with
  | none =>
      unfold putRange
      rw [bind_error (fields_null found)]
      exact .unchanged good _
  | some fields =>
      obtain ⟨thrown, after, throws, good', unchanged⟩ |
          ⟨after, puts, put⟩ :=
        putRange_spec good found buf off len
      · rw [throws]
        exact ⟨good', unchanged⟩
      · rw [puts]
        exact put.good

theorem putArray_meets (good : heap.Good) (buf : Nat) :
    Meets heap (putArray this buf heap) :=
  .bind good (reads_fields this heap) fun _ _ =>
    .bind good (reads_array buf heap) fun _ _ => putRange_meets good buf 0 _

/-! ## Putting another buffer -/

/-- A buffer is put, as far as the index of `buf` moves. -/
def transfer (this buf : Nat) (source : FlexBufferFields) (len : Int32) :
    Run Unit := do
  putRange this source.buffer source.index len
  skip buf len false

/-- The same buffer cannot be put into itself and skipped, unless there is as
much again. -/
def Fits (this buf : Nat) (source : FlexBufferFields) (len : Int32) : Prop :=
  this = buf → 0 < len.toInt →
    2 * len.toInt ≤ source.length.toInt - source.index.toInt

theorem putRange_self (good : heap.Good)
    (found : heap.buffers[this]? = some fields) {len : Int32}
    (positive : 0 < len.toInt)
    (enough : len.toInt ≤ fields.length.toInt - fields.index.toInt) :
    ∃ after, putRange this fields.buffer fields.index len heap = .ok () after
      := by
  obtain ⟨array, there, length_le⟩ := (good.of_getElem? found).length_le
  have nonneg := (good.of_getElem? found).index_nonneg
  have limit := array.size_lt
  have sum := toInt_add_of_lt nonneg positive.le (by omega)
  have size := toInt_length array
  have checks : checkBuf fields.buffer fields.index len heap =
      .ok () heap := by
    unfold checkBuf
    rw [bind_ok (array_ok there), if_neg, if_neg, if_neg]
    · rfl
    all_goals
      simp only [gt_iff_lt, Int32.lt_iff_toInt_lt, Int32.toInt_zero, sum,
        size]
      omega
  have notZero : ¬ len = 0 := by
    rintro rfl
    exact absurd positive (by decide)
  have ensures := ensureLength_of_le found there
    (fields.index + len) (by omega)
  obtain ⟨target', _, copies⟩ := arraycopy_fits there there nonneg nonneg
    positive.le (by omega) (by omega)
  have adds := @addIndex_eq
    ⟨heap.arrays.set fields.buffer target', heap.buffers⟩ this _ found len
  have fixes := @fixLength_eq
    ⟨heap.arrays.set fields.buffer target', heap.buffers⟩ this _ found
  unfold putRange
  rw [bind_ok (fields_ok found), bind_ok checks, if_neg notZero,
    bind_ok ensures, bind_ok (fields_ok found), bind_ok copies,
    bind_ok adds, fixes]
  exact ⟨_, rfl⟩

theorem checkBuf_ok {buf : Nat} {off len : Int32} {done : Unit}
    (checks : checkBuf buf off len heap = .ok done after) :
    0 ≤ len.toInt := by
  unfold checkBuf at checks
  obtain ⟨array, middle, _, rest⟩ := bind_eq_ok_iff.mp checks
  by_contra negative
  have short : len < 0 := by
    rw [Int32.lt_iff_toInt_lt, Int32.toInt_zero]
    omega
  rw [if_pos short] at rest
  split at rest
  · exact nomatch rest
  · exact nomatch rest

/-- Nothing is put of no bytes, or of a negative number of them. -/
theorem putRange_nothing {len : Int32} (nothing : ¬ 0 < len.toInt)
    (heap : FlexBufferHeap) (this buf : Nat) (off : Int32) :
    final (putRange this buf off len heap) = heap := by
  unfold putRange
  cases found : heap.buffers[this]? with
  | none =>
      rw [bind_error (fields_null found)]
      rfl
  | some fields =>
      rw [bind_ok (fields_ok found)]
      have same := reads_checkBuf buf off len heap
      cases checks : checkBuf buf off len heap with
      | error thrown after =>
          rw [checks] at same
          rw [bind_error checks]
          exact same
      | ok done after =>
          rw [checks] at same
          have nonneg := checkBuf_ok checks
          have zero : len = 0 := by
            refine Int32.toInt_inj.mp ?_
            rw [Int32.toInt_zero]
            omega
          rw [bind_ok checks, if_pos zero]
          exact same

/-- Of what another buffer has, all can be skipped once it has been put. -/
theorem transfer_other (good : heap.Good) {buf : Nat}
    (found : heap.buffers[this]? = some fields)
    {source : FlexBufferFields} (there : heap.buffers[buf]? = some source)
    (different : this ≠ buf) {len : Int32} (positive : 0 < len.toInt)
    (enough : len.toInt ≤ source.length.toInt - source.index.toInt) :
    Meets heap (transfer this buf source len heap) := by
  unfold transfer
  obtain ⟨thrown, after, throws, good', unchanged⟩ | ⟨after, puts, put⟩ :=
    putRange_spec good found source.buffer source.index len
  · rw [bind_error throws]
    exact ⟨good', unchanged⟩
  have still := (put.others buf different.symm).trans there
  rw [bind_ok puts, skip_eq still positive, if_neg Bool.false_ne_true]
  obtain ⟨_, short⟩ | ⟨checks, _⟩ :=
    checkAvail_spec still (put.good.of_getElem? still) len
  · omega
  · rw [bind_ok checks, addIndex_eq still]
    exact addIndex_good put.good still positive.le enough

/-- What a buffer has put into itself is no longer available. -/
theorem transfer_self (good : heap.Good)
    (found : heap.buffers[this]? = some fields) {len : Int32}
    (positive : 0 < len.toInt)
    (enough : len.toInt ≤ fields.length.toInt - fields.index.toInt) :
    Meets heap (transfer this this fields len heap) ↔
      2 * len.toInt ≤ fields.length.toInt - fields.index.toInt := by
  have nonneg := (good.of_getElem? found).index_nonneg
  have limit := fields.length.toInt_lt
  have sum := toInt_add_of_lt nonneg positive.le (by omega)
  obtain ⟨after, puts⟩ := putRange_self good found positive enough
  have put : Put heap this fields len after := by
    obtain ⟨thrown, after', throws, _⟩ | ⟨after', puts', put⟩ :=
      putRange_spec good found fields.buffer fields.index len
    · exact nomatch puts.symm.trans throws
    · obtain ⟨_, rfl⟩ := EStateM.Result.ok.inj (puts.symm.trans puts')
      exact put
  obtain ⟨buffer, now⟩ := put.moved
  have within : ¬ fields.index + len > fields.length := by
    rw [gt_iff_lt, Int32.lt_iff_toInt_lt, sum]
    omega
  rw [moved, if_neg within] at now
  unfold transfer
  rw [bind_ok puts, skip_eq now positive, if_neg Bool.false_ne_true]
  obtain ⟨⟨thrown, throws⟩, short⟩ | ⟨checks, some⟩ :=
    checkAvail_spec now (put.good.of_getElem? now) len
  · dsimp only at short
    rw [sum] at short
    rw [bind_error throws]
    refine iff_of_false ?_ (by omega)
    have moves : fields.index + len =
        fields.index + .ofNat len.toNatClampNeg := by
      rw [Int32.ofNat_toNatClampNeg len
        (Int32.le_iff_toInt_le.mpr positive.le)]
    exact not_meets_moved found now moves
      (by have := toInt_toNatClampNeg positive.le; omega)
      len.toNatClampNeg_lt
  · dsimp only at some
    rw [sum] at some
    rw [bind_ok checks, addIndex_eq now]
    exact iff_of_true (addIndex_good put.good now positive.le (by
      dsimp only
      rw [sum]
      exact some)) (by omega)

theorem transfer_meets_iff (good : heap.Good) {buf : Nat}
    (found : heap.buffers[this]? = some fields)
    {source : FlexBufferFields} (there : heap.buffers[buf]? = some source)
    {len : Int32}
    (enough : len.toInt ≤ source.length.toInt - source.index.toInt) :
    Meets heap (transfer this buf source len heap) ↔
      Fits this buf source len := by
  by_cases positive : 0 < len.toInt
  · by_cases same : this = buf
    · subst same
      obtain rfl := Option.some.inj (found.symm.trans there)
      rw [transfer_self good found positive enough, Fits]
      exact ⟨fun room _ _ => room, fun room => room rfl positive⟩
    · exact iff_of_true
        (transfer_other good found there same positive enough)
        fun equal => absurd equal same
  · refine iff_of_true ?_ fun _ some => absurd some positive
    exact .bind good (putRange_nothing positive heap this _ _) fun _ _ =>
      (skip_meets_iff good len false).mpr nofun

/-- A call of `this` that is given another buffer. -/
theorem given_meets_iff (good : heap.Good) (this buf : Nat)
    {rest : FlexBufferFields → Run Unit} {condition : FlexBufferFields → Prop}
    (each : ∀ fields source, heap.buffers[this]? = some fields →
      heap.buffers[buf]? = some source →
        (Meets heap (rest source heap) ↔ condition source))
    (null : ∀ source, heap.buffers[this]? = none →
      heap.buffers[buf]? = some source → condition source) :
    Meets heap ((FlexBufferHeap.fields this >>= fun _ =>
        FlexBufferHeap.fields buf >>= rest) heap) ↔
      ∀ source, heap.buffers[buf]? = some source → condition source := by
  cases found : heap.buffers[this]? with
  | none =>
      rw [bind_error (fields_null found)]
      exact iff_of_true (.unchanged good _) fun source => null source found
  | some fields =>
      rw [bind_ok (fields_ok found)]
      cases there : heap.buffers[buf]? with
      | none =>
          rw [bind_error (fields_null there)]
          exact iff_of_true (.unchanged good _) nofun
      | some source =>
          rw [bind_ok (fields_ok there), each fields source found there]
          exact ⟨fun holds _ same => Option.some.inj same ▸ holds,
            fun holds => holds source rfl⟩

theorem Fits.of_null {buf : Nat} {source : FlexBufferFields}
    (null : heap.buffers[this]? = none)
    (there : heap.buffers[buf]? = some source) (len : Int32) :
    Fits this buf source len := by
  rintro rfl
  exact nomatch null.symm.trans there

theorem putBuffer_meets_iff (good : heap.Good) (this buf : Nat) :
    Meets heap (putBuffer this buf heap) ↔
      ∀ source, heap.buffers[buf]? = some source →
        Fits this buf source (source.length - source.index) := by
  refine given_meets_iff good this buf (fun fields source found there => ?_)
    fun source null there => .of_null null there _
  have bounds := good.of_getElem? there
  exact transfer_meets_iff good found there
    (toInt_sub_of_le bounds.index_nonneg bounds.index_le).le

theorem putFrom_meets_iff (good : heap.Good) (this buf : Nat)
    (len : Int32) :
    Meets heap (putFrom this buf len heap) ↔
      ∀ source, heap.buffers[buf]? = some source →
        len ≤ source.length - source.index → Fits this buf source len := by
  refine given_meets_iff good this buf (fun fields source found there => ?_)
    fun source null there _ => .of_null null there _
  have bounds := good.of_getElem? there
  have avail := toInt_sub_of_le bounds.index_nonneg bounds.index_le
  by_cases short : len > source.length - source.index
  · rw [if_pos short]
    exact iff_of_true (.unchanged good _)
      fun le => absurd le (Int32.not_le.mpr short)
  · have le := Int32.not_lt.mp short
    rw [if_neg short]
    rw [Int32.le_iff_toInt_le, avail] at le
    exact (transfer_meets_iff good found there le).trans
      ⟨fun fits _ => fits, fun fits => fits (Int32.not_lt.mp short)⟩

/-! ## Reading -/

theorem getBytes_meets (good : heap.Good) (n : Nat) (small : n < 2 ^ 31) :
    Meets heap (getBytes this n heap) := by
  unfold getBytes
  cases found : heap.buffers[this]? with
  | none =>
      refine .bind good (reads_checkAvail this _ heap) fun _ checks => ?_
      unfold checkAvail at checks
      rw [bind_error (fields_null found)] at checks
      exact nomatch checks
  | some fields =>
      have bounds := good.of_getElem? found
      have count := Int32.toInt_ofNat_of_lt small
      obtain ⟨⟨thrown, throws⟩, _⟩ | ⟨checks, enough⟩ :=
        checkAvail_spec found bounds (.ofNat n)
      · rw [bind_error throws]
        exact .unchanged good thrown
      · rw [bind_ok checks]
        obtain ⟨array, there, length_le⟩ := bounds.length_le
        obtain ⟨values, loads⟩ := loadAll_inside (n := n) found there
          bounds.index_nonneg (by omega)
        rw [loads]
        exact addIndex_good good found (by omega) enough

theorem min_le_avail (len avail : Int32) :
    (min len avail).toInt ≤ avail.toInt := by
  change (if len ≤ avail then len else avail).toInt ≤ avail.toInt
  split
  · rename_i le
    exact Int32.le_iff_toInt_le.mp le
  · exact le_rfl

theorem getRange_meets (good : heap.Good) (buf : Nat) (off len : Int32) :
    Meets heap (getRange this buf off len heap) := by
  refine .bind good (reads_fields this heap) fun fields found => ?_
  refine .bind good (reads_checkBuf buf off len heap) fun _ _ => ?_
  by_cases none : len = 0
  · rw [if_pos none]
    exact good
  rw [if_neg none]
  refine .bind good (reads_checkAvail this 1 heap) fun _ _ => ?_
  refine .bind good (reads_fields this heap) fun fields reads => ?_
  have found := fields_found reads
  have bounds := good.of_getElem? found
  have avail := toInt_sub_of_le bounds.index_nonneg bounds.index_le
  obtain ⟨thrown, throws⟩ |
      ⟨target, target', there, size, _, positive, _, copies⟩ :=
    arraycopy_spec heap fields.buffer fields.index buf off
      (min len (fields.length - fields.index))
  · rw [bind_error throws]
    exact .unchanged good thrown
  · have adds := @addIndex_eq
      ⟨heap.arrays.set buf target', heap.buffers⟩ this _ found
      (min len (fields.length - fields.index))
    rw [bind_ok copies, bind_ok adds]
    have enough := min_le_avail len (fields.length - fields.index)
    rw [avail] at enough
    exact addIndex_good (good.setArray there size) found positive enough

theorem getArray_meets (good : heap.Good) (buf : Nat) :
    Meets heap (getArray this buf heap) :=
  .bind good (reads_fields this heap) fun _ _ =>
    .bind good (reads_array buf heap) fun _ _ => getRange_meets good buf 0 _

theorem getFully_meets (good : heap.Good) (b : Nat) :
    Meets heap (getFully this b heap) :=
  .bind good (reads_fields this heap) fun _ _ =>
    .bind good (reads_array b heap) fun _ _ =>
      .bind good (reads_checkAvail this _ heap) fun _ _ =>
        (getRange_meets good b 0 _).returning fun _ => ()

theorem getAvailBytes_meets (good : heap.Good) :
    Meets heap (getAvailBytes this heap) := by
  have reads : Reads (avail this) := (reads_fields this).bind fun _ => .pure _
  refine .bind good (reads heap) fun n _ => ?_
  by_cases negative : n < 0
  · rw [if_pos negative]
    exact .unchanged good _
  · rw [if_neg negative]
    exact .newArray good (.new n)
      ((getArray_meets (good.newArray (.new n)) _).returning fun _ => _)

/-! ## Constructors, length and index -/

theorem new_meets_iff (good : heap.Good) (buffer : Nat)
    (index length : Int32) :
    Meets heap (new buffer index length heap) ↔
      ((heap.arrays[buffer]?).isSome → 0 ≤ index.toInt → 0 ≤ length.toInt →
        index.toInt + length.toInt < 2 ^ 31) := by
  unfold new
  cases found : heap.arrays[buffer]? with
  | none =>
      rw [bind_error (array_null found)]
      exact iff_of_true (.unchanged good _) nofun
  | some array =>
      rw [bind_ok (array_ok found)]
      by_cases first : index < 0
      · rw [if_pos first]
        rw [Int32.lt_iff_toInt_lt, Int32.toInt_zero] at first
        exact iff_of_true (.unchanged good _) (by omega)
      by_cases second : length < 0
      · rw [if_neg first, if_pos second]
        rw [Int32.lt_iff_toInt_lt, Int32.toInt_zero] at second
        exact iff_of_true (.unchanged good _) (by omega)
      rw [if_neg first, if_neg second]
      rw [Int32.lt_iff_toInt_lt, Int32.toInt_zero] at first second
      have nonneg := Int.not_lt.mp first
      have positive := Int.not_lt.mp second
      by_cases small : index.toInt + length.toInt < 2 ^ 31
      · refine iff_of_true ?_ fun _ _ _ => small
        have sum := toInt_add_of_lt nonneg positive small
        by_cases above : index + length > array.length
        · rw [if_pos above]
          exact .unchanged good _
        · rw [if_neg above]
          rw [gt_iff_lt, Int32.lt_iff_toInt_lt, toInt_length, sum] at above
          refine good.newBuffer ⟨nonneg, ?_, array, found, ?_⟩
          · dsimp only
            rw [sum]
            omega
          · dsimp only
            rw [sum]
            omega
      · have sum := toInt_add_of_le (Int.not_lt.mp small)
        have below : ¬ index + length > array.length := by
          rw [gt_iff_lt, Int32.lt_iff_toInt_lt, toInt_length]
          omega
        rw [if_neg below]
        refine iff_of_false (fun good' => ?_)
          fun room => small (room rfl nonneg positive)
        have bounds := good' ⟨buffer, index, index + length⟩
          (List.mem_append_right _ (List.mem_singleton_self _))
        have order : index.toInt ≤ (index + length).toInt := bounds.index_le
        omega

theorem newEmpty_meets (good : heap.Good) :
    Meets heap (newEmpty heap) :=
  .newArray good _ ((new_meets_iff (good.newArray _) _ 0 0).mpr
    fun _ _ _ => by decide)

theorem setLength_meets (good : heap.Good) (length : Int32) :
    Meets heap (setLength this length heap) := by
  refine .bind good (reads_fields this heap) fun fields reads => ?_
  have found := fields_found reads
  have bounds := good.of_getElem? found
  by_cases negative : length < 0
  · rw [if_pos negative]
    exact .unchanged good _
  rw [if_neg negative]
  rw [Int32.lt_iff_toInt_lt, Int32.toInt_zero] at negative
  obtain ⟨thrown, throws⟩ | ⟨after, ensures, ensured⟩ :=
    ensureLength_spec good found length
  · rw [bind_error throws]
    exact .unchanged good thrown
  · obtain ⟨buffer, array, now, there, le⟩ := ensured.room
    rw [bind_ok ensures, bind_ok (fields_ok now)]
    refine ensured.good.setFields ⟨?_, ?_, array, there, le⟩
    all_goals
      dsimp only
      split
    · exact Int.not_lt.mp negative
    · exact bounds.index_nonneg
    · exact le_rfl
    · rename_i above
      exact Int.not_lt.mp (Int32.lt_iff_toInt_lt.not.mp above)

theorem setIndex_meets (good : heap.Good) (index : Int32) :
    Meets heap (setIndex this index heap) := by
  refine .bind good (reads_fields this heap) fun fields reads => ?_
  have bounds := good.of_getElem? (fields_found reads)
  by_cases outside : index < 0 ∨ index > fields.length
  · rw [if_pos outside]
    exact .unchanged good _
  · rw [if_neg outside]
    simp only [gt_iff_lt, Int32.lt_iff_toInt_lt, Int32.toInt_zero, not_or,
      Int.not_lt] at outside
    exact good.setFields ⟨outside.1, outside.2, bounds.length_le⟩

theorem reset_meets (good : heap.Good) : Meets heap (reset this heap) := by
  refine .bind good (reads_fields this heap) fun fields reads => ?_
  have bounds := good.of_getElem? (fields_found reads)
  obtain ⟨array, there, _⟩ := bounds.length_le
  rw [bind_ok (array_ok there)]
  by_cases large : array.length > .ofNat FlexBuffer.TRIM_BUFFER_LEN
  · rw [if_pos large]
    refine .newArray good _ ?_
    exact (good.newArray _).setFields
      ⟨le_rfl, le_rfl, _, heap.getElem?_newArray _, Int.natCast_nonneg _⟩
  · rw [if_neg large]
    exact good.setFields
      ⟨le_rfl, le_rfl, array, there, Int.natCast_nonneg _⟩

theorem compact_meets (good : heap.Good) :
    Meets heap (compact this heap) := by
  refine .bind good (reads_fields this heap) fun fields reads => ?_
  have found := fields_found reads
  have bounds := good.of_getElem? found
  by_cases start : fields.index = 0
  · rw [if_pos start]
    exact good
  by_cases empty : fields.length - fields.index = 0
  · rw [if_neg start, if_pos empty]
    exact reset_meets good
  rw [if_neg start, if_neg empty]
  have avail := toInt_sub_of_le bounds.index_nonneg bounds.index_le
  obtain ⟨thrown, throws⟩ |
      ⟨target, target', there, size, _, positive, fits, copies⟩ :=
    arraycopy_spec heap fields.buffer fields.index fields.buffer 0
      (fields.length - fields.index)
  · rw [bind_error throws]
    exact .unchanged good thrown
  · rw [bind_ok copies]
    rw [Int32.toInt_zero, zero_add] at fits
    exact (good.setArray there size).setFields
      ⟨le_rfl, positive, target', getElem?_setArray there _,
        by rw [size]; exact fits⟩

theorem newOf_meets (good : heap.Good) (buffer : Nat) :
    Meets heap (newOf buffer heap) :=
  .bind good (reads_array buffer heap) fun array _ =>
    (new_meets_iff good buffer 0 array.length).mpr fun _ _ _ => by
      rw [Int32.toInt_zero, zero_add]
      exact array.length.toInt_lt

theorem newOfLength_meets (good : heap.Good) (buffer : Nat)
    (length : Int32) : Meets heap (newOfLength buffer length heap) :=
  (new_meets_iff good buffer 0 length).mpr fun _ _ _ => by
    rw [Int32.toInt_zero, zero_add]
    exact length.toInt_lt

theorem getter_meets (good : heap.Good) (f : FlexBufferFields → α) :
    Meets heap ((FlexBufferHeap.fields this >>= fun fields =>
      pure (f fields)) heap) :=
  .returning (.of_reads good (reads_fields this heap)) f

theorem getValue_meets (good : heap.Good) {n : Nat} (small : n < 2 ^ 31)
    (f : List UInt8 → α) :
    Meets heap (ignoring (getBytes this n >>= fun values =>
      pure (f values)) heap) :=
  ((getBytes_meets good n small).returning f).returning fun _ => ()

theorem array_found {ref : Nat} {middle : FlexBufferHeap}
    (reads : FlexBufferHeap.array ref heap = .ok array middle) :
    heap.arrays[ref]? = some array := by
  cases found : heap.arrays[ref]? with
  | none => exact nomatch (array_null found).symm.trans reads
  | some other =>
      obtain ⟨rfl, _⟩ :=
        EStateM.Result.ok.inj ((array_ok found).symm.trans reads)
      rfl

theorem storeByte_meets (good : heap.Good) (ref position : Nat)
    (value : UInt8) : Meets heap (storeByte ref position value heap) := by
  refine .bind good (reads_array ref heap) fun array reads => ?_
  split
  · rename_i fits
    exact good.setArray (array_found reads) (length_overwrite fits)
  · exact .unchanged good _

/-! ## Sequences of calls -/

/-- A call does not move an index past the largest `int`, nor put a buffer into
itself of which it then cannot skip as much. -/
def Safe (heap : FlexBufferHeap) : Call → Prop
  | .new buffer index length =>
      (heap.arrays[buffer]?).isSome → 0 ≤ index.toInt → 0 ≤ length.toInt →
        index.toInt + length.toInt < 2 ^ 31
  | .put this _ => heap.Room this 1
  | .putByte this _ => heap.Room this 1
  | .putShort this _ => heap.Room this 2
  | .putInt this _ => heap.Room this 4
  | .putFloat this _ => heap.Room this 4
  | .putLong this _ => heap.Room this 8
  | .putDouble this _ => heap.Room this 8
  | .putBuffer this buf =>
      ∀ source, heap.buffers[buf]? = some source →
        Fits this buf source (source.length - source.index)
  | .putFrom this buf len =>
      ∀ source, heap.buffers[buf]? = some source →
        len ≤ source.length - source.index → Fits this buf source len
  | .skip this len put => put = true → heap.Room this len.toNatClampNeg
  | _ => True

theorem perform_meets_iff (good : heap.Good) (call : Call) :
    Meets heap (perform call heap) ↔ Safe heap call := by
  have always {call : Call} (meets : Meets heap (perform call heap))
      (safe : Safe heap call) :
      Meets heap (perform call heap) ↔ Safe heap call :=
    iff_of_true meets safe
  cases call with
  | newArray array => exact always (good.newArray array) trivial
  | setArray ref position value =>
      exact always (storeByte_meets good ref position value) trivial
  | newEmpty => exact always ((newEmpty_meets good).returning _) trivial
  | newOf buffer => exact always ((newOf_meets good buffer).returning _) trivial
  | newOfLength buffer length =>
      exact always ((newOfLength_meets good buffer length).returning _) trivial
  | new buffer index length =>
      exact (meets_returning_iff _).trans
        (new_meets_iff good buffer index length)
  | getBuf this => exact always ((getter_meets good _).returning _) trivial
  | length this => exact always ((getter_meets good _).returning _) trivial
  | index this => exact always ((getter_meets good _).returning _) trivial
  | avail this => exact always ((getter_meets good _).returning _) trivial
  | setLength this length =>
      exact always (setLength_meets good length) trivial
  | setIndex this index => exact always (setIndex_meets good index) trivial
  | reset this => exact always (reset_meets good) trivial
  | compact this => exact always (compact_meets good) trivial
  | get this => exact always (getValue_meets good (by decide) _) trivial
  | getArray this buf =>
      exact always ((getArray_meets good buf).returning _) trivial
  | getRange this buf off len =>
      exact always ((getRange_meets good buf off len).returning _) trivial
  | getByte this => exact always (getValue_meets good (by decide) _) trivial
  | getShort this => exact always (getValue_meets good (by decide) _) trivial
  | getInt this => exact always (getValue_meets good (by decide) _) trivial
  | getLong this => exact always (getValue_meets good (by decide) _) trivial
  | getFloat this => exact always (getValue_meets good (by decide) _) trivial
  | getDouble this => exact always (getValue_meets good (by decide) _) trivial
  | getFully this b => exact always (getFully_meets good b) trivial
  | getAvailBytes this =>
      exact always ((getAvailBytes_meets good).returning _) trivial
  | put this b => exact putBytes_meets_iff good rfl (by decide)
  | putArray this buf => exact always (putArray_meets good buf) trivial
  | putRange this buf off len =>
      exact always (putRange_meets good buf off len) trivial
  | putBuffer this buf => exact putBuffer_meets_iff good this buf
  | putFrom this buf len => exact putFrom_meets_iff good this buf len
  | putByte this value => exact putBytes_meets_iff good rfl (by decide)
  | putShort this value => exact putBytes_meets_iff good rfl (by decide)
  | putInt this value => exact putBytes_meets_iff good rfl (by decide)
  | putLong this value => exact putBytes_meets_iff good rfl (by decide)
  | putFloat this bits => exact putBytes_meets_iff good rfl (by decide)
  | putDouble this bits => exact putBytes_meets_iff good rfl (by decide)
  | skip this len put => exact skip_meets_iff good len put

theorem Meets.good {result : EStateM.Result Thrown FlexBufferHeap α}
    (meets : Meets heap result) : (final result).Good := by
  cases result with
  | ok value after => exact meets
  | error thrown after => exact meets.1

/-- In a sequence of calls, the bounds hold after each of them and those that
throw change nothing, if and only if each of them is safe. -/
theorem calls_meet_iff (calls : List Call) :
    Each step ⟨[], []⟩ (fun heap call => Meets heap (perform call heap))
        calls ↔
      Each step ⟨[], []⟩ Safe calls := by
  have starts : Good ⟨[], []⟩ := fun _ member => nomatch member
  exact each_iff starts (fun heap call _ meets => meets.good)
    fun heap call good => perform_meets_iff good call

/-- The largest number of bytes is skipped from an index of one on. -/
theorem skip_wraps :
    ¬ Each step ⟨[], []⟩ (fun heap call => Meets heap (perform call heap))
      [.newArray ⟨[0], by decide⟩, .new 0 1 0, .skip 0 2147483647 true] := by
  intro each
  have good := each [.newArray ⟨[0], by decide⟩, .new 0 1 0]
    (.skip 0 2147483647 true) (List.prefix_refl _)
  have bounds := good ⟨0, -2147483648, 1⟩ (List.mem_singleton_self _)
  exact absurd bounds.index_nonneg (by decide)

end Etch.Java.FlexBufferHeap
