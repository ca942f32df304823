import Etch.CSharp.FlexBufferHeap
import Etch.Java.FlexBufferSteps
import Etch.Library.Erasure

/-!
# The C# `FlexBuffer` and the Java one

The operations of the two classes come to the same from any heap, apart from
the exceptions they throw, with one exception: the C# `PutInt` makes room
behind the length and the Java `putInt` behind the index.  They agree where
that is the same room.
-/

namespace Etch.CSharp.FlexBufferHeap

open Etch.Java (FlexBufferFields FlexBufferHeap JavaBytes)
open Etch.Library.Erasure
open Etch.Library.Stateful (bind_eq_ok_iff bind_error bind_ok)

/-! ## Steps -/

theorem same_array (ref : Nat) :
    Same (array ref) (Java.FlexBufferHeap.array ref) := by
  intro heap
  unfold erase array Java.FlexBufferHeap.array
  cases heap.arrays[ref]? with
  | none => rfl
  | some array => rfl

theorem same_fields (this : Nat) :
    Same (fields this) (Java.FlexBufferHeap.fields this) := by
  intro heap
  unfold erase fields Java.FlexBufferHeap.fields
  cases heap.buffers[this]? with
  | none => rfl
  | some fields => rfl

theorem same_setArray (ref : Nat) (array : JavaBytes) :
    Same (setArray ref array) (Java.FlexBufferHeap.setArray ref array) :=
  fun _ => rfl

theorem same_setFields (this : Nat) (fields : FlexBufferFields) :
    Same (setFields this fields)
      (Java.FlexBufferHeap.setFields this fields) :=
  fun _ => rfl

theorem same_newArray (array : JavaBytes) :
    Same (newArray array) (Java.FlexBufferHeap.newArray array) :=
  fun _ => rfl

theorem same_blockCopy (src : Nat) (srcOffset : Int32) (dst : Nat)
    (dstOffset count : Int32) :
    Same (blockCopy src srcOffset dst dstOffset count)
      (Java.FlexBufferHeap.arraycopy src srcOffset dst dstOffset count) :=
  (same_array src).bind fun _ => (same_array dst).bind fun _ =>
    .dite
      (and_congr_right fun _ => and_congr_right fun _ =>
        and_congr_right fun _ => and_comm)
      (fun _ _ => same_setArray _ _) fun _ _ => .throw _ _

theorem same_ensureLength (this : Nat) (len : Int32) :
    Same (ensureLength this len)
      (Java.FlexBufferHeap.ensureLength this len) := by
  refine (same_fields this).bind fun fields =>
    (same_array fields.buffer).bind fun array => .ite (.pure ()) ?_
  simp only [grown_eq]
  exact .ite (.throw _ _)
    ((same_newArray _).bind fun _ => same_setFields _ _)

theorem same_setLength (this : Nat) (length : Int32) :
    Same (setLength this length)
      (Java.FlexBufferHeap.setLength this length) :=
  (same_fields this).bind fun _ => .ite (.throw _ _)
    ((same_ensureLength this length).bind fun _ =>
      (same_fields this).bind fun _ => same_setFields _ _)

theorem same_setIndex (this : Nat) (index : Int32) :
    Same (setIndex this index) (Java.FlexBufferHeap.setIndex this index) :=
  (same_fields this).bind fun _ => .ite (.throw _ _) (same_setFields _ _)

theorem same_reset (this : Nat) :
    Same (reset this) (Java.FlexBufferHeap.reset this) :=
  (same_fields this).bind fun fields =>
    (same_array fields.buffer).bind fun _ => .ite
      ((same_newArray _).bind fun _ => same_setFields _ _)
      (same_setFields _ _)

theorem same_compact (this : Nat) :
    Same (compact this) (Java.FlexBufferHeap.compact this) :=
  (same_fields this).bind fun _ => .ite (.pure ())
    (.ite (same_reset this)
      ((same_blockCopy _ _ _ _ _).bind fun _ => same_setFields _ _))

theorem same_fixLength (this : Nat) :
    Same (fixLength this) (Java.FlexBufferHeap.fixLength this) :=
  (same_fields this).bind fun _ => .ite (same_setFields _ _) (.pure ())

theorem same_addIndex (this : Nat) (n : Int32) :
    Same (addIndex this n) (Java.FlexBufferHeap.addIndex this n) :=
  (same_fields this).bind fun _ => same_setFields _ _

theorem same_checkBuf (buf : Nat) (off len : Int32) :
    Same (checkBuf buf off len)
      (Java.FlexBufferHeap.checkBuf buf off len) :=
  (same_array buf).bind fun _ => .ite (.throw _ _)
    (.ite (.throw _ _) (.ite (.throw _ _) (.pure ())))

theorem same_checkAvail (this : Nat) (len : Int32) :
    Same (checkAvail this len)
      (Java.FlexBufferHeap.checkAvail this len) :=
  (same_fields this).bind fun _ => .ite (.throw _ _) (.pure ())

theorem same_skip (this : Nat) (len : Int32) (put : Bool) :
    Same (skip this len put) (Java.FlexBufferHeap.skip this len put) :=
  (same_fields this).bind fun _ => .ite (.throw _ _) (.ite (.pure ())
    (.ite
      ((same_ensureLength this _).bind fun _ =>
        (same_addIndex this len).bind fun _ => same_fixLength this)
      ((same_checkAvail this len).bind fun _ => same_addIndex this len)))

/-! ## Reading -/

theorem same_load (this : Nat) :
    Same (load this) (Java.FlexBufferHeap.load this) := by
  refine (same_fields this).bind fun fields =>
    (same_setFields _ _).bind fun _ =>
      (same_array fields.buffer).bind fun array => .ite ?_ (.throw _ _)
  cases array.bytes[fields.index.toNatClampNeg]? with
  | none => exact .throw _ _
  | some value => exact .pure value

theorem same_loadAll (this n : Nat) :
    Same (loadAll this n) (Java.FlexBufferHeap.loadAll this n) := by
  induction n with
  | zero => exact .pure []
  | succ n ih =>
      exact (same_load this).bind fun _ => ih.map fun values => _ :: values

theorem same_getBytes (this n : Nat) :
    Same (getBytes this n) (Java.FlexBufferHeap.getBytes this n) :=
  (same_checkAvail this _).bind fun _ => same_loadAll this n

theorem same_getRange (this buf : Nat) (off len : Int32) :
    Same (getRange this buf off len)
      (Java.FlexBufferHeap.getRange this buf off len) :=
  (same_fields this).bind fun _ => (same_checkBuf buf off len).bind fun _ =>
    .ite (.pure 0) ((same_checkAvail this 1).bind fun _ =>
      (same_fields this).bind fun _ =>
        (same_blockCopy _ _ _ _ _).bind fun _ =>
          (same_addIndex this _).bind fun _ => .pure _)

theorem same_getArray (this buf : Nat) :
    Same (getArray this buf) (Java.FlexBufferHeap.getArray this buf) :=
  (same_fields this).bind fun _ => (same_array buf).bind fun _ =>
    same_getRange this buf 0 _

theorem same_getFully (this b : Nat) :
    Same (getFully this b) (Java.FlexBufferHeap.getFully this b) :=
  (same_fields this).bind fun _ => (same_array b).bind fun _ =>
    (same_checkAvail this _).bind fun _ =>
      (same_getRange this b 0 _).bind fun _ => .pure ()

theorem same_getAvailBytes (this : Nat) :
    Same (getAvailBytes this) (Java.FlexBufferHeap.getAvailBytes this) :=
  ((same_fields this).bind fun _ => .pure _).bind fun _ =>
    .ite (.throw _ _) ((same_newArray _).bind fun buf =>
      (same_getArray this buf).bind fun _ => .pure buf)

/-! ### Composed values -/

theorem shiftLeft_eq_mul (value : Int64) : value <<< 8 = value * 256 := by
  apply Int64.toBitVec_inj.mp
  have left : (value <<< 8).toBitVec = value.toBitVec <<< 8 := rfl
  have right : (value * 256).toBitVec = value.toBitVec * 256#64 := rfl
  rw [left, right]
  apply BitVec.eq_of_toNat_eq
  simp [Nat.shiftLeft_eq]

/-- A signed byte differs from an unsigned one by what is shifted out. -/
theorem exists_signed (byte : UInt8) :
    ∃ carry : Int64,
      byte.toInt8.toInt64 = byte.toUInt64.toInt64 + 256 * carry := by
  have all : ∀ n : Fin 256, (UInt8.ofNat n).toInt8.toInt64 =
      (UInt8.ofNat n).toUInt64.toInt64 +
        256 * (if n.val < 128 then 0 else -1) := by
    decide +kernel
  have this := all ⟨byte.toNat, byte.toNat_lt⟩
  rw [UInt8.ofNat_toNat] at this
  exact ⟨_, this⟩

theorem composed_short {values : List UInt8} (length : values.length = 2) :
    (composed values).toInt16 =
      (Java.FlexBufferHeap.composed values).toInt16 := by
  obtain ⟨a, b, rfl⟩ := List.length_eq_two.mp length
  obtain ⟨carry, signed⟩ := exists_signed a
  have sum : Java.FlexBufferHeap.composed [a, b] =
      composed [a, b] + 65536 * carry := by
    simp only [composed, Java.FlexBufferHeap.composed, List.foldl_cons,
      List.foldl_nil, shiftLeft_eq_mul, signed]
    grind
  have out : (65536 : Int64).toInt16 = 0 := by decide
  rw [sum, Int64.toInt16_add, Int64.toInt16_mul, out, Int16.zero_mul,
    Int16.add_zero]

theorem composed_int {values : List UInt8} (length : values.length = 4) :
    (composed values).toInt32 =
      (Java.FlexBufferHeap.composed values).toInt32 := by
  match values, length with
  | [a, b, c, d], _ =>
      obtain ⟨carry, signed⟩ := exists_signed a
      have sum : Java.FlexBufferHeap.composed [a, b, c, d] =
          composed [a, b, c, d] + 4294967296 * carry := by
        simp only [composed, Java.FlexBufferHeap.composed,
          List.foldl_cons, List.foldl_nil, shiftLeft_eq_mul, signed]
        grind
      have out : (4294967296 : Int64).toInt32 = 0 := by decide
      rw [sum, Int64.toInt32_add, Int64.toInt32_mul, out, Int32.zero_mul,
        Int32.add_zero]

theorem composed_long {values : List UInt8} (length : values.length = 8) :
    composed values = Java.FlexBufferHeap.composed values := by
  match values, length with
  | [a, b, c, d, e, f, g, h], _ =>
      obtain ⟨carry, signed⟩ := exists_signed a
      simp only [composed, Java.FlexBufferHeap.composed, List.foldl_cons,
        List.foldl_nil, shiftLeft_eq_mul, signed]
      grind
/-- The bytes that are loaded are as many as were asked for. -/
theorem length_loadAll {this n : Nat} {heap after : FlexBufferHeap}
    {values : List UInt8}
    (done : loadAll this n heap = .ok values after) : values.length = n := by
  induction n generalizing heap after values with
  | zero =>
      obtain ⟨rfl, -⟩ := EStateM.Result.ok.inj done
      rfl
  | succ n ih =>
      obtain ⟨value, middle, -, rest⟩ := bind_eq_ok_iff.mp done
      obtain ⟨values', middle', loaded, last⟩ := bind_eq_ok_iff.mp rest
      obtain ⟨rfl, -⟩ := EStateM.Result.ok.inj last
      rw [List.length_cons, ih loaded]

theorem length_getBytes {this n : Nat} {heap after : FlexBufferHeap}
    {values : List UInt8}
    (done : erase (getBytes this n) heap = (some values, after)) :
    values.length = n := by
  cases run : getBytes this n heap with
  | ok values' after' =>
      rw [erase_ok run] at done
      obtain ⟨-, middle, -, loaded⟩ := bind_eq_ok_iff.mp run
      simp only [Prod.mk.injEq, Option.some.injEq] at done
      rw [← done.1]
      exact length_loadAll loaded
  | error thrown after' =>
      rw [erase_error run] at done
      cases done

/-- Values composed of the bytes that were asked for. -/
theorem same_composed {α : Type} {this n : Nat} {f g : List UInt8 → α}
    (equal : ∀ values : List UInt8, values.length = n → f values = g values) :
    Same (getBytes this n >>= fun values => pure (f values))
      (Java.FlexBufferHeap.getBytes this n >>= fun values =>
        pure (g values)) := by
  intro heap
  refine Same.bind_at (same_getBytes this n heap)
    fun values middle done => ?_
  rw [equal values (length_getBytes done)]
  rfl

theorem same_get (this : Nat) :
    Same (get this) (Java.FlexBufferHeap.get this) :=
  same_composed fun _ _ => rfl

theorem same_getByte (this : Nat) :
    Same (getByte this) (Java.FlexBufferHeap.getByte this) :=
  same_composed fun _ _ => rfl

theorem same_getShort (this : Nat) :
    Same (getShort this) (Java.FlexBufferHeap.getShort this) :=
  same_composed fun _ => composed_short

theorem same_getInt (this : Nat) :
    Same (getInt this) (Java.FlexBufferHeap.getInt this) :=
  same_composed fun _ => composed_int

theorem same_getLong (this : Nat) :
    Same (getLong this) (Java.FlexBufferHeap.getLong this) :=
  same_composed fun _ => composed_long

/-! ## Writing -/

theorem same_store (this : Nat) (value : UInt8) :
    Same (store this value) (Java.FlexBufferHeap.store this value) :=
  (same_fields this).bind fun fields => (same_setFields _ _).bind fun _ =>
    (same_array fields.buffer).bind fun _ =>
      .dite and_comm (fun _ _ => same_setArray _ _) fun _ _ => .throw _ _

theorem same_storeAll (this : Nat) (values : List UInt8) :
    Same (storeAll this values)
      (Java.FlexBufferHeap.storeAll this values) := by
  induction values with
  | nil => exact .pure ()
  | cons value values ih => exact (same_store this value).bind fun _ => ih

theorem same_putBytes (this : Nat) (values : List UInt8) :
    Same (putBytes this values)
      (Java.FlexBufferHeap.putBytes this values) :=
  (same_fields this).bind fun _ => (same_ensureLength this _).bind fun _ =>
    (same_storeAll this values).bind fun _ => same_fixLength this

theorem same_putRange (this buf : Nat) (off len : Int32) :
    Same (putRange this buf off len)
      (Java.FlexBufferHeap.putRange this buf off len) :=
  (same_fields this).bind fun _ => (same_checkBuf buf off len).bind fun _ =>
    .ite (.pure ()) ((same_ensureLength this _).bind fun _ =>
      (same_fields this).bind fun _ =>
        (same_blockCopy _ _ _ _ _).bind fun _ =>
          (same_addIndex this len).bind fun _ => same_fixLength this)

theorem same_putArray (this buf : Nat) :
    Same (putArray this buf) (Java.FlexBufferHeap.putArray this buf) :=
  (same_fields this).bind fun _ => (same_array buf).bind fun _ =>
    same_putRange this buf 0 _

theorem same_putBuffer (this buf : Nat) :
    Same (putBuffer this buf) (Java.FlexBufferHeap.putBuffer this buf) :=
  (same_fields this).bind fun _ => (same_fields buf).bind fun _ =>
    (same_putRange this _ _ _).bind fun _ => same_skip buf _ false

theorem same_putFrom (this buf : Nat) (len : Int32) :
    Same (putFrom this buf len)
      (Java.FlexBufferHeap.putFrom this buf len) :=
  (same_fields this).bind fun _ => (same_fields buf).bind fun _ =>
    .ite (.throw _ _) ((same_putRange this _ _ len).bind fun _ =>
      same_skip buf len false)

/-! ### Bytes of a value -/

/-- Both shifts leave the same low byte. -/
theorem sshiftRight_low {width : Nat} (value : BitVec width) {shift : Nat}
    (inside : shift + 8 ≤ width) :
    (value.sshiftRight shift).setWidth 8 = (value >>> shift).setWidth 8 := by
  ext i small
  simp only [BitVec.getElem_setWidth, BitVec.getLsbD_sshiftRight,
    BitVec.getLsbD_ushiftRight]
  rw [if_pos (by omega), decide_eq_false (by omega)]
  rfl

theorem shortBytes_eq (value : Int16) :
    shortBytes value = Java.FlexBufferHeap.shortBytes value := by
  have byte {shift : Nat} (inside : shift + 8 ≤ 16) :=
    sshiftRight_low value.toBitVec inside
  refine List.cons_eq_cons.mpr ⟨?_, List.cons_eq_cons.mpr ⟨?_, rfl⟩⟩
  · exact UInt8.eq_of_toBitVec_eq (@byte 8 (by decide))
  · exact UInt8.eq_of_toBitVec_eq (@byte 0 (by decide))

theorem intBytes_eq (value : Int32) :
    intBytes value = Java.FlexBufferHeap.intBytes value := by
  have byte {shift : Nat} (inside : shift + 8 ≤ 32) :=
    sshiftRight_low value.toBitVec inside
  refine List.cons_eq_cons.mpr ⟨?_, List.cons_eq_cons.mpr ⟨?_,
    List.cons_eq_cons.mpr ⟨?_, List.cons_eq_cons.mpr ⟨?_, rfl⟩⟩⟩⟩
  · exact UInt8.eq_of_toBitVec_eq (@byte 24 (by decide))
  · exact UInt8.eq_of_toBitVec_eq (@byte 16 (by decide))
  · exact UInt8.eq_of_toBitVec_eq (@byte 8 (by decide))
  · exact UInt8.eq_of_toBitVec_eq (@byte 0 (by decide))

theorem longBytes_eq (value : Int64) :
    longBytes value = Java.FlexBufferHeap.longBytes value := by
  have byte {shift : Nat} (inside : shift + 8 ≤ 64) :=
    sshiftRight_low value.toBitVec inside
  refine List.cons_eq_cons.mpr ⟨?_, List.cons_eq_cons.mpr ⟨?_,
    List.cons_eq_cons.mpr ⟨?_, List.cons_eq_cons.mpr ⟨?_,
    List.cons_eq_cons.mpr ⟨?_, List.cons_eq_cons.mpr ⟨?_,
    List.cons_eq_cons.mpr ⟨?_, List.cons_eq_cons.mpr ⟨?_, rfl⟩⟩⟩⟩⟩⟩⟩⟩
  · exact UInt8.eq_of_toBitVec_eq (@byte 56 (by decide))
  · exact UInt8.eq_of_toBitVec_eq (@byte 48 (by decide))
  · exact UInt8.eq_of_toBitVec_eq (@byte 40 (by decide))
  · exact UInt8.eq_of_toBitVec_eq (@byte 32 (by decide))
  · exact UInt8.eq_of_toBitVec_eq (@byte 24 (by decide))
  · exact UInt8.eq_of_toBitVec_eq (@byte 16 (by decide))
  · exact UInt8.eq_of_toBitVec_eq (@byte 8 (by decide))
  · exact UInt8.eq_of_toBitVec_eq (@byte 0 (by decide))

theorem same_putShort (this : Nat) (value : Int16) :
    Same (putShort this value)
      (Java.FlexBufferHeap.putShort this value) := by
  rw [putShort, shortBytes_eq]
  exact same_putBytes this _

theorem same_putLong (this : Nat) (value : Int64) :
    Same (putLong this value) (Java.FlexBufferHeap.putLong this value) := by
  rw [putLong, longBytes_eq]
  exact same_putBytes this _

/-! ### `PutInt` -/

/-- The size that `EnsureLength` leaves, or none where it refuses. -/
def roomFor (len : Int32) (size : Nat) : Option Nat :=
  if len.toInt ≤ size then
    some size
  else if len.toInt > grown len.toNatClampNeg size then
    none
  else
    some (grown len.toNatClampNeg size)

theorem ensureLength_run {this : Nat} {heap : FlexBufferHeap}
    {fields : FlexBufferFields} {array : JavaBytes} {len : Int32}
    (found : heap.buffers[this]? = some fields)
    (there : heap.arrays[fields.buffer]? = some array) :
    ensureLength this len heap =
      if len.toInt ≤ array.bytes.length then
        .ok () heap
      else if len.toInt > grown len.toNatClampNeg array.bytes.length then
        .error (.thrown (.ioException "buffer overflow")) heap
      else
        .ok ()
          { arrays := heap.arrays ++
              [array.extended (grown len.toNatClampNeg array.bytes.length)
                (grown_lt array.size_lt)]
            buffers := heap.buffers.set this
              { fields with buffer := heap.arrays.length } } := by
  have fields_ok : FlexBufferHeap.fields this heap = .ok fields heap := by
    rw [FlexBufferHeap.fields, found]
  have array_ok : FlexBufferHeap.array fields.buffer heap =
      .ok array heap := by
    rw [FlexBufferHeap.array, there]
  rw [ensureLength, bind_ok fields_ok, bind_ok array_ok]
  have order : len ≤ array.length ↔ len.toInt ≤ array.bytes.length := by
    rw [← Java.FlexBufferHeap.toInt_length]
    exact Int32.le_iff_toInt_le
  by_cases small : len ≤ array.length
  · rw [if_pos small, if_pos (order.mp small)]
    rfl
  · rw [if_neg small, if_neg (mt order.mpr small)]
    by_cases large :
        len.toInt > grown len.toNatClampNeg array.bytes.length
    · rw [if_pos large, if_pos large]
      rfl
    · rw [if_neg large, if_neg large]
      rfl

/-- The same room is made for two lengths. -/
theorem ensureLength_eq {this : Nat} {heap : FlexBufferHeap}
    {fields : FlexBufferFields} {array : JavaBytes} {left right : Int32}
    (found : heap.buffers[this]? = some fields)
    (there : heap.arrays[fields.buffer]? = some array)
    (room : roomFor left array.bytes.length =
      roomFor right array.bytes.length) :
    ensureLength this left heap = ensureLength this right heap := by
  rw [ensureLength_run found there, ensureLength_run found there]
  unfold roomFor at room
  by_cases small : left.toInt ≤ array.bytes.length
  · by_cases small' : right.toInt ≤ array.bytes.length
    · rw [if_pos small, if_pos small']
    · rw [if_pos small, if_neg small'] at room
      split at room
      · cases room
      · have same := Option.some.inj room
        omega
  · by_cases small' : right.toInt ≤ array.bytes.length
    · rw [if_neg small, if_pos small'] at room
      split at room
      · cases room
      · have same := Option.some.inj room
        omega
    · rw [if_neg small, if_neg small'] at room ⊢
      by_cases large :
          left.toInt > grown left.toNatClampNeg array.bytes.length
      · rw [if_pos large] at room ⊢
        split at room
        · rename_i large'
          rw [if_pos large']
        · cases room
      · rw [if_neg large] at room ⊢
        split at room
        · cases room
        · rename_i large'
          rw [if_neg large']
          simp only [Option.some.inj room]

/-- Where the same room is made, the bytes of an `int` are put alike. -/
theorem same_putInt {this : Nat} {heap : FlexBufferHeap} (value : Int32)
    (room : ∀ fields array, heap.buffers[this]? = some fields →
      heap.arrays[fields.buffer]? = some array →
      roomFor (fields.length + 4) array.bytes.length =
        roomFor (fields.index + 4) array.bytes.length) :
    erase (putInt this value) heap =
      erase (Java.FlexBufferHeap.putInt this value) heap := by
  unfold putInt Java.FlexBufferHeap.putInt Java.FlexBufferHeap.putBytes
  rw [intBytes_eq]
  refine Same.bind_at (same_fields this heap) fun fields middle done => ?_
  have found : heap.buffers[this]? = some fields ∧ middle = heap := by
    unfold erase FlexBufferHeap.fields at done
    cases there : heap.buffers[this]? with
    | none => simp [there, result] at done
    | some fields' =>
        simp only [there, result, Prod.mk.injEq, Option.some.injEq] at done
        exact ⟨congrArg some done.1, done.2.symm⟩
  obtain ⟨found, rfl⟩ := found
  refine Same.bind_at ?_ fun _ _ _ =>
    ((same_storeAll this _).bind fun _ => same_fixLength this) _
  have four : (4 : Int32) = .ofNat (Java.FlexBufferHeap.intBytes value).length :=
    rfl
  rw [← same_ensureLength, ← four]
  cases there : middle.arrays[fields.buffer]? with
  | none =>
      have fields_ok : FlexBufferHeap.fields this middle =
          .ok fields middle := by
        rw [FlexBufferHeap.fields, found]
      have array_error : FlexBufferHeap.array fields.buffer middle =
          .error (.thrown .nullReferenceException) middle := by
        rw [FlexBufferHeap.array, there]
      unfold erase ensureLength
      rw [bind_ok fields_ok, bind_error array_error, bind_ok fields_ok,
        bind_error array_error]
  | some array =>
      unfold erase
      rw [ensureLength_eq found there (room fields array found there)]

end Etch.CSharp.FlexBufferHeap
