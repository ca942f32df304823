import Etch.CSharp.FlexBufferAgreement

/-!
# Runs of the two `FlexBuffer` classes

The same operations are called one after another on the C# buffers and on the
Java ones, whatever they throw.  The runs agree as long as each `PutInt` finds
the same room behind the length as behind the index.
-/

namespace Etch.CSharp.FlexBufferHeap

open Etch.Java (FlexBufferFields FlexBufferHeap JavaBytes)
open Etch.Library.Erasure
open Etch.Library.Stateful (bind_error bind_ok)

/-- The operations that both classes have. -/
inductive Operation where
  | put (this : Nat) (b : Int32)
  | putArray (this buf : Nat)
  | putRange (this buf : Nat) (off len : Int32)
  | putBuffer (this buf : Nat)
  | putFrom (this buf : Nat) (len : Int32)
  | putByte (this : Nat) (value : Int8)
  | putShort (this : Nat) (value : Int16)
  | putInt (this : Nat) (value : Int32)
  | putLong (this : Nat) (value : Int64)
  | get (this : Nat)
  | getArray (this buf : Nat)
  | getRange (this buf : Nat) (off len : Int32)
  | getByte (this : Nat)
  | getShort (this : Nat)
  | getInt (this : Nat)
  | getLong (this : Nat)
  | getFloat (this : Nat)
  | getDouble (this : Nat)
  | getFully (this b : Nat)
  | getAvailBytes (this : Nat)
  | skip (this : Nat) (len : Int32) (put : Bool)
  | setIndex (this : Nat) (index : Int32)
  | setLength (this : Nat) (length : Int32)
  | compact (this : Nat)
  | reset (this : Nat)

/-- What an operation returns; one that returns its buffer returns nothing. -/
inductive Returned where
  | nothing
  | int8 (value : Int8)
  | int16 (value : Int16)
  | int32 (value : Int32)
  | int64 (value : Int64)
  | array (ref : Nat)

def returning {ε α : Type} (f : α → Returned)
    (m : EStateM ε FlexBufferHeap α) : EStateM ε FlexBufferHeap Returned :=
  m >>= fun value => pure (f value)

def csharp : Operation → Run Returned
  | .put this b => returning (fun _ => .nothing) (put this b)
  | .putArray this buf => returning (fun _ => .nothing) (putArray this buf)
  | .putRange this buf off len =>
      returning (fun _ => .nothing) (putRange this buf off len)
  | .putBuffer this buf =>
      returning (fun _ => .nothing) (putBuffer this buf)
  | .putFrom this buf len =>
      returning (fun _ => .nothing) (putFrom this buf len)
  | .putByte this value =>
      returning (fun _ => .nothing) (putByte this value)
  | .putShort this value =>
      returning (fun _ => .nothing) (putShort this value)
  | .putInt this value => returning (fun _ => .nothing) (putInt this value)
  | .putLong this value =>
      returning (fun _ => .nothing) (putLong this value)
  | .get this => returning .int32 (get this)
  | .getArray this buf => returning .int32 (getArray this buf)
  | .getRange this buf off len =>
      returning .int32 (getRange this buf off len)
  | .getByte this => returning .int8 (getByte this)
  | .getShort this => returning .int16 (getShort this)
  | .getInt this => returning .int32 (getInt this)
  | .getLong this => returning .int64 (getLong this)
  | .getFloat this => returning .int32 (getFloat this)
  | .getDouble this => returning .int64 (getDouble this)
  | .getFully this b => returning (fun _ => .nothing) (getFully this b)
  | .getAvailBytes this => returning .array (getAvailBytes this)
  | .skip this len put =>
      returning (fun _ => .nothing) (skip this len put)
  | .setIndex this index =>
      returning (fun _ => .nothing) (setIndex this index)
  | .setLength this length =>
      returning (fun _ => .nothing) (setLength this length)
  | .compact this => returning (fun _ => .nothing) (compact this)
  | .reset this => returning (fun _ => .nothing) (reset this)

def java : Operation → Java.FlexBufferHeap.Run Returned
  | .put this b =>
      returning (fun _ => .nothing) (Java.FlexBufferHeap.put this b)
  | .putArray this buf =>
      returning (fun _ => .nothing) (Java.FlexBufferHeap.putArray this buf)
  | .putRange this buf off len =>
      returning (fun _ => .nothing)
        (Java.FlexBufferHeap.putRange this buf off len)
  | .putBuffer this buf =>
      returning (fun _ => .nothing)
        (Java.FlexBufferHeap.putBuffer this buf)
  | .putFrom this buf len =>
      returning (fun _ => .nothing)
        (Java.FlexBufferHeap.putFrom this buf len)
  | .putByte this value =>
      returning (fun _ => .nothing)
        (Java.FlexBufferHeap.putByte this value)
  | .putShort this value =>
      returning (fun _ => .nothing)
        (Java.FlexBufferHeap.putShort this value)
  | .putInt this value =>
      returning (fun _ => .nothing) (Java.FlexBufferHeap.putInt this value)
  | .putLong this value =>
      returning (fun _ => .nothing)
        (Java.FlexBufferHeap.putLong this value)
  | .get this => returning .int32 (Java.FlexBufferHeap.get this)
  | .getArray this buf =>
      returning .int32 (Java.FlexBufferHeap.getArray this buf)
  | .getRange this buf off len =>
      returning .int32 (Java.FlexBufferHeap.getRange this buf off len)
  | .getByte this => returning .int8 (Java.FlexBufferHeap.getByte this)
  | .getShort this => returning .int16 (Java.FlexBufferHeap.getShort this)
  | .getInt this => returning .int32 (Java.FlexBufferHeap.getInt this)
  | .getLong this => returning .int64 (Java.FlexBufferHeap.getLong this)
  | .getFloat this => returning .int32 (Java.FlexBufferHeap.getFloat this)
  | .getDouble this =>
      returning .int64 (Java.FlexBufferHeap.getDouble this)
  | .getFully this b =>
      returning (fun _ => .nothing) (Java.FlexBufferHeap.getFully this b)
  | .getAvailBytes this =>
      returning .array (Java.FlexBufferHeap.getAvailBytes this)
  | .skip this len put =>
      returning (fun _ => .nothing) (Java.FlexBufferHeap.skip this len put)
  | .setIndex this index =>
      returning (fun _ => .nothing)
        (Java.FlexBufferHeap.setIndex this index)
  | .setLength this length =>
      returning (fun _ => .nothing)
        (Java.FlexBufferHeap.setLength this length)
  | .compact this =>
      returning (fun _ => .nothing) (Java.FlexBufferHeap.compact this)
  | .reset this =>
      returning (fun _ => .nothing) (Java.FlexBufferHeap.reset this)

/-- What each operation returns, or that it fails, and the objects then. -/
def run {ε : Type} (perform : Operation → EStateM ε FlexBufferHeap Returned) :
    List Operation → FlexBufferHeap → List (Option Returned) × FlexBufferHeap
  | [], heap => ([], heap)
  | operation :: operations, heap =>
      let (value, middle) := erase (perform operation) heap
      let (values, after) := run perform operations middle
      (value :: values, after)

/-- What can be seen of a buffer: its index, length and contents. -/
def visible (heap : FlexBufferHeap) (this : Nat) :
    Option (Int32 × Int32 × List UInt8) :=
  heap.buffers[this]?.map fun fields =>
    (fields.index, fields.length, heap.contents fields)

/-- Both fail at the same operations, return the same and end the same. -/
def Agree (operations : List Operation) (heap : FlexBufferHeap) : Prop :=
  (run csharp operations heap).1 = (run java operations heap).1 ∧
    ∀ this, visible (run csharp operations heap).2 this =
      visible (run java operations heap).2 this

/-- A `PutInt` finds the same room behind the length and behind the index. -/
def Aligned (heap : FlexBufferHeap) : Operation → Prop
  | .putInt this _ =>
      ∀ fields array, heap.buffers[this]? = some fields →
        heap.arrays[fields.buffer]? = some array →
        roomFor (fields.length + 4) array.bytes.length =
          roomFor (fields.index + 4) array.bytes.length
  | _ => True

/-- Every operation of a run is aligned in the state that it is called in. -/
def AllAligned : List Operation → FlexBufferHeap → Prop
  | [], _ => True
  | operation :: operations, heap =>
      Aligned heap operation ∧
        AllAligned operations (erase (java operation) heap).2

/-- One operation comes to the same in both. -/
theorem erase_csharp {heap : FlexBufferHeap} {operation : Operation}
    (aligned : Aligned heap operation) :
    erase (csharp operation) heap = erase (java operation) heap := by
  cases operation with
  | put this b => exact (same_putBytes this _).map _ heap
  | putArray this buf => exact (same_putArray this buf).map _ heap
  | putRange this buf off len =>
      exact (same_putRange this buf off len).map _ heap
  | putBuffer this buf => exact (same_putBuffer this buf).map _ heap
  | putFrom this buf len => exact (same_putFrom this buf len).map _ heap
  | putByte this value => exact (same_putBytes this _).map _ heap
  | putShort this value => exact (same_putShort this value).map _ heap
  | putInt this value =>
      exact Same.bind_at (same_putInt value aligned) fun _ _ _ => rfl
  | putLong this value => exact (same_putLong this value).map _ heap
  | get this => exact (same_get this).map _ heap
  | getArray this buf => exact (same_getArray this buf).map _ heap
  | getRange this buf off len =>
      exact (same_getRange this buf off len).map _ heap
  | getByte this => exact (same_getByte this).map _ heap
  | getShort this => exact (same_getShort this).map _ heap
  | getInt this => exact (same_getInt this).map _ heap
  | getLong this => exact (same_getLong this).map _ heap
  | getFloat this => exact (same_getInt this).map _ heap
  | getDouble this => exact (same_getLong this).map _ heap
  | getFully this b => exact (same_getFully this b).map _ heap
  | getAvailBytes this => exact (same_getAvailBytes this).map _ heap
  | skip this len put => exact (same_skip this len put).map _ heap
  | setIndex this index => exact (same_setIndex this index).map _ heap
  | setLength this length => exact (same_setLength this length).map _ heap
  | compact this => exact (same_compact this).map _ heap
  | reset this => exact (same_reset this).map _ heap

theorem run_eq {operations : List Operation} {heap : FlexBufferHeap}
    (aligned : AllAligned operations heap) :
    run csharp operations heap = run java operations heap := by
  induction operations generalizing heap with
  | nil => rfl
  | cons operation operations ih =>
      rw [run, run, erase_csharp aligned.1]
      simp only [ih aligned.2]

theorem agree_of_aligned {operations : List Operation}
    {heap : FlexBufferHeap} (aligned : AllAligned operations heap) :
    Agree operations heap := by
  rw [Agree, run_eq aligned]
  exact ⟨rfl, fun _ => rfl⟩

/-- An `int` is read back from the place where it was put. -/
theorem agree_putInt_getInt :
    AllAligned [.putInt 0 (-2), .setIndex 0 0, .getInt 0]
        ⟨[.new 32], [⟨0, 0, 0⟩]⟩ ∧
      Agree [.putInt 0 (-2), .setIndex 0 0, .getInt 0]
        ⟨[.new 32], [⟨0, 0, 0⟩]⟩ := by
  have aligned : AllAligned [.putInt 0 (-2), .setIndex 0 0, .getInt 0]
      ⟨[.new 32], [⟨0, 0, 0⟩]⟩ := by
    refine ⟨fun fields array found _ => ?_, trivial, trivial, trivial⟩
    obtain rfl := Option.some.inj found
    rfl
  exact ⟨aligned, agree_of_aligned aligned⟩

/-! ## A full buffer -/

/-- In a buffer without room behind its length only Java overwrites. -/
theorem putInt_full {heap : FlexBufferHeap} {this : Nat}
    {fields : FlexBufferFields} {array : JavaBytes} (value : Int32)
    (found : heap.buffers[this]? = some fields)
    (there : heap.arrays[fields.buffer]? = some array)
    (nonneg : 0 ≤ fields.index.toInt)
    (inside : fields.index.toInt + 4 ≤ array.bytes.length)
    (full : roomFor (fields.length + 4) array.bytes.length = none) :
    (erase (csharp (.putInt this value)) heap).1 = none ∧
      (erase (java (.putInt this value)) heap).1 = some .nothing := by
  have small := array.size_lt
  constructor
  · have fields_ok : FlexBufferHeap.fields this heap = .ok fields heap := by
      rw [FlexBufferHeap.fields, found]
    have refused : ensureLength this (fields.length + 4) heap =
        .error (.thrown (.ioException "buffer overflow")) heap := by
      unfold roomFor at full
      rw [ensureLength_run found there]
      split at full
      · cases full
      · rename_i large
        split at full
        · rename_i larger
          rw [if_neg large, if_pos larger]
        · cases full
    have thrown : putInt this value heap =
        .error (.thrown (.ioException "buffer overflow")) heap := by
      unfold putInt
      rw [bind_ok fields_ok, bind_error refused]
    have calls : csharp (.putInt this value) =
      (putInt this value >>= fun _ => pure .nothing) := rfl
    rw [calls, erase_error (bind_error thrown)]
  · have count : (Java.FlexBufferHeap.intBytes value).length = 4 := rfl
    have four : (Int32.ofNat 4).toInt = 4 := rfl
    have sum : (fields.index + .ofNat 4).toInt = fields.index.toInt + 4 := by
      rw [Java.FlexBufferHeap.toInt_add_of_lt nonneg (by decide)
        (by omega), four]
    obtain ⟨array', same, stores⟩ :=
      @Java.FlexBufferHeap.storeAll_fits _ _ _ _
        (Java.FlexBufferHeap.intBytes value) found there nonneg
        (by rw [count]; exact inside)
    have put : Java.FlexBufferHeap.putInt this value heap = .ok ()
        ⟨heap.arrays.set fields.buffer array', heap.buffers.set this
          (Java.FlexBufferHeap.moved fields (fields.index + .ofNat 4))⟩ := by
      unfold Java.FlexBufferHeap.putInt Java.FlexBufferHeap.putBytes
      rw [bind_ok (Java.FlexBufferHeap.fields_ok found),
        bind_ok (Java.FlexBufferHeap.ensureLength_of_le found there _
          (by rw [count, sum]; exact inside)), bind_ok stores]
      exact @Java.FlexBufferHeap.fixLength_eq
        ⟨heap.arrays.set fields.buffer array', heap.buffers⟩ this fields
        found _
    have calls : java (.putInt this value) =
      (Java.FlexBufferHeap.putInt this value >>= fun _ =>
        pure .nothing) := rfl
    rw [calls, erase_bind, erase_ok put]
    rfl

/-- The full buffer of the maximal size, with its index at the front. -/
def fullHeap : FlexBufferHeap :=
  ⟨[.new (.ofNat MAX_BUFFER_LEN)],
    [⟨0, 0, .ofNat MAX_BUFFER_LEN⟩]⟩

theorem length_full :
    (JavaBytes.new (.ofNat MAX_BUFFER_LEN)).bytes.length =
      MAX_BUFFER_LEN :=
  List.length_replicate

theorem run_singleton {ε : Type}
    (perform : Operation → EStateM ε FlexBufferHeap Returned)
    (operation : Operation) (heap : FlexBufferHeap) :
    (run perform [operation] heap).1 =
      [(erase (perform operation) heap).1] :=
  rfl

theorem full_disagree : ¬ Agree [.putInt 0 1] fullHeap := by
  have inside : (0 : Int32).toInt + 4 ≤
      ((JavaBytes.new (.ofNat MAX_BUFFER_LEN)).bytes.length : Int) := by
    rw [length_full]
    decide
  have full : roomFor (Int32.ofNat MAX_BUFFER_LEN + 4)
      (JavaBytes.new (.ofNat MAX_BUFFER_LEN)).bytes.length = none := by
    rw [length_full]
    decide
  have puts : (erase (csharp (.putInt 0 1)) fullHeap).1 = none ∧
      (erase (java (.putInt 0 1)) fullHeap).1 = some .nothing :=
    putInt_full 1 rfl rfl (by decide) inside full
  rintro ⟨values, -⟩
  rw [run_singleton, run_singleton, puts.1, puts.2] at values
  cases values

end Etch.CSharp.FlexBufferHeap
