import Etch.Cpp.FlexBuffer
import Etch.Java.FlexBufferValues
import Mathlib.Data.List.GetD

/-!
# Writing to a C++ `EtchFlexBuffer`

Every put makes room for its bytes, copies them to the index and moves the
index behind them.  Next to the buffer stands what it is for: an array of
bytes without a capacity, of which a part is in use.
-/

namespace Etch.Cpp.EtchFlexBuffer

open Etch.Library.Window
open Etch.Java.FlexBuffer (numberBytes length_numberBytes)

/-! ## The calls -/

/--
Room for the bytes, and their copy.  The buffer is expanded by `numBytes`,
where it is; none when the copy goes behind the array.
-/
def store (fb : EtchFlexBuffer) (numBytes : Nat) (bytes : List UInt8) :
    Option (Status × EtchFlexBuffer) :=
  if bytes.length > fb.mSize - fb.mIndex then
    match fb.expandBuffer (uint32Add fb.mIndex numBytes) with
    | none => some (.ETCH_ENO_MEMORY, fb)
    | some fb => (fb.copy bytes).map fun next => (.ETCH_OK, next)
  else
    (fb.copy bytes).map fun next => (.ETCH_OK, next)

/-- `put(buffer, numBytes)`, from an array. -/
def putBytes (fb : EtchFlexBuffer) (bytes : List UInt8) :
    Option (Status × EtchFlexBuffer) :=
  if bytes.length = 0 then some (.ETCH_ERANGE, fb)
  else fb.store bytes.length bytes

def putByte (fb : EtchFlexBuffer) (value : Int8) :
    Option (Status × EtchFlexBuffer) :=
  fb.store 1 (numberBytes 1 value.toInt)

def putShort (fb : EtchFlexBuffer) (value : Int16) :
    Option (Status × EtchFlexBuffer) :=
  fb.store 1 (numberBytes 2 value.toInt)

def putInt (fb : EtchFlexBuffer) (value : Int32) :
    Option (Status × EtchFlexBuffer) :=
  fb.store 1 (numberBytes 4 value.toInt)

def putLong (fb : EtchFlexBuffer) (value : Int64) :
    Option (Status × EtchFlexBuffer) :=
  fb.store 1 (numberBytes 8 value.toInt)

/--
`setLength(length)`, which keeps the index within it; none when the array does
not have the length.
-/
def setLength (fb : EtchFlexBuffer) (length : Nat) :
    Option (Status × EtchFlexBuffer) :=
  let expanded :=
    if length > fb.mSize then fb.expandBuffer length else some fb
  match expanded with
  | none => some (.ETCH_ENO_MEMORY, fb)
  | some next =>
      if inside : length ≤ next.mSize then
        some (.ETCH_OK, ⟨next.mBuffer, min next.mIndex length, length,
          Nat.min_le_right _ _, inside⟩)
      else
        none

/-- A call of the buffer. -/
inductive Call where
  | put (buffer : EtchFlexBuffer)
  | putFrom (buffer : EtchFlexBuffer) (numBytes : Nat)
  | putBytes (bytes : List UInt8)
  | putByte (value : Int8)
  | putShort (value : Int16)
  | putInt (value : Int32)
  | putLong (value : Int64)
  | setIndex (index : Nat)
  | setLength (length : Nat)

namespace Call

/-- What is returned, and the buffer then. -/
def run (fb : EtchFlexBuffer) : Call → Option (Status × EtchFlexBuffer)
  | put buffer => fb.putAll buffer
  | putFrom buffer numBytes => fb.put buffer numBytes
  | putBytes bytes => fb.putBytes bytes
  | putByte value => fb.putByte value
  | putShort value => fb.putShort value
  | putInt value => fb.putInt value
  | putLong value => fb.putLong value
  | setIndex index =>
      match fb.setIndex? index with
      | none => some (.ETCH_EINVAL, fb)
      | some next => some (.ETCH_OK, next)
  | setLength length => fb.setLength length

/-- The bytes that a put is for. -/
def written : Call → Option (List UInt8)
  | put buffer => some buffer.unread
  | putFrom buffer numBytes => some (buffer.unread.take numBytes)
  | putBytes bytes => some bytes
  | putByte value => some (numberBytes 1 value.toInt)
  | putShort value => some (numberBytes 2 value.toInt)
  | putInt value => some (numberBytes 4 value.toInt)
  | putLong value => some (numberBytes 8 value.toInt)
  | setIndex _ => none
  | setLength _ => none

end Call

/-! ## An array without a capacity -/

/-- Bytes, of which the first ones are in use, and a place among these. -/
structure Growable where
  memory : Nat → UInt8
  index : Nat
  length : Nat

namespace Growable

/-- The bytes in use. -/
def contents (array : Growable) : List UInt8 :=
  (List.range array.length).map array.memory

/-- Bytes written to the index. -/
def write (array : Growable) (bytes : List UInt8) : Growable where
  memory i :=
    if array.index ≤ i ∧ i < array.index + bytes.length then
      bytes.getD (i - array.index) 0
    else
      array.memory i
  index := array.index + bytes.length
  length := max array.length (array.index + bytes.length)

/-- What a call is for. -/
def after (array : Growable) : Call → Growable
  | .setIndex index =>
      if index ≤ array.length then { array with index } else array
  | .setLength length =>
      { array with index := min array.index length, length }
  | call => array.write (call.written.getD [])

/-- The call ends within the limit. -/
def Within (array : Growable) : Call → Prop
  | .setIndex _ => True
  | .setLength length => length ≤ MAX_BUFFER_LEN
  | call =>
      array.index + (call.written.getD []).length ≤ MAX_BUFFER_LEN

end Growable

instance (array : Growable) (call : Call) :
    Decidable (array.Within call) := by
  cases call <;> unfold Growable.Within <;> infer_instance

/-- The buffer has the bytes of the array. -/
structure Represents (fb : EtchFlexBuffer) (array : Growable) : Prop where
  index : fb.mIndex = array.index
  length : fb.mLength = array.length
  memory : ∀ i, fb.mBuffer.getD i 0 = array.memory i

/-- The array that a buffer is. -/
def growable (fb : EtchFlexBuffer) : Growable where
  memory i := fb.mBuffer.getD i 0
  index := fb.mIndex
  length := fb.mLength

theorem represents_growable (fb : EtchFlexBuffer) :
    fb.Represents fb.growable :=
  ⟨rfl, rfl, fun _ => rfl⟩

theorem Represents.contents {fb : EtchFlexBuffer} {array : Growable}
    (represents : fb.Represents array) : fb.data = array.contents := by
  have order := fb.length_le
  apply List.ext_getElem
  · rw [length_data, represents.length, Growable.contents,
      List.length_map, List.length_range]
  · intro i inside _
    rw [length_data] at inside
    have stored : i < fb.mBuffer.length := by omega
    have same := represents.memory i
    rw [List.getD_eq_getElem _ _ stored] at same
    simp only [data, window_zero, Growable.contents, List.getElem_take,
      List.getElem_map, List.getElem_range, same]

theorem getD_overwrite {store : List UInt8} {start : Nat}
    {values : List UInt8} (inside : start + values.length ≤ store.length)
    (i : Nat) (default : UInt8) :
    (overwrite store start values).getD i default =
      if start ≤ i ∧ i < start + values.length then
        values.getD (i - start) default
      else
        store.getD i default := by
  have front : (store.take start).length = start := by
    rw [List.length_take]
    omega
  unfold overwrite
  by_cases before : i < start
  · rw [if_neg (by omega), List.append_assoc,
      List.getD_append _ _ _ _ (by omega),
      List.getD_eq_getElem _ _ (by omega),
      List.getD_eq_getElem _ _ (by omega), List.getElem_take]
  · by_cases within : i < start + values.length
    · rw [if_pos ⟨by omega, within⟩, List.append_assoc,
        List.getD_append_right _ _ _ _ (by omega), front,
        List.getD_append _ _ _ _ (by omega)]
    · rw [if_neg (by omega), List.getD_append_right _ _ _ _ (by
        rw [List.length_append]
        omega), List.length_append, front]
      simp only [List.getD_eq_getElem?_getD, List.getElem?_drop]
      congr 2
      omega

/-! ## How far a buffer grows -/

/-- The size that doubling ends with. -/
def largest : Nat → Nat → Nat
  | 0, size => size
  | rounds + 1, size =>
      if size < MAX_BUFFER_LEN then largest rounds (size * 2) else size

theorem le_largest (rounds size : Nat) : size ≤ largest rounds size := by
  induction rounds generalizing size with
  | zero => exact Nat.le_refl _
  | succ rounds ih =>
      unfold largest
      split
      · exact (Nat.le_mul_of_pos_right _ (by decide)).trans (ih _)
      · exact Nat.le_refl _

theorem le_grown (needed rounds size : Nat) :
    size ≤ grown needed rounds size := by
  induction rounds generalizing size with
  | zero => exact Nat.le_refl _
  | succ rounds ih =>
      unfold grown
      split
      · exact (Nat.le_mul_of_pos_right _ (by decide)).trans (ih _)
      · exact Nat.le_refl _

/-- Doubling reaches what is no more than its end. -/
theorem needed_le_grown_iff (needed rounds size : Nat) :
    needed ≤ grown needed rounds size ↔ needed ≤ largest rounds size := by
  induction rounds generalizing size with
  | zero => exact Iff.rfl
  | succ rounds ih =>
      unfold grown largest
      by_cases small : size < needed
      · by_cases below : size < MAX_BUFFER_LEN
        · rw [if_pos ⟨small, below⟩, if_pos below]
          exact ih _
        · rw [if_neg fun both => below both.2, if_neg below]
      · rw [if_neg fun both => small both.1]
        have reached := le_largest (rounds + 1) size
        unfold largest at reached
        constructor
        · exact fun covers => covers.trans reached
        · exact fun _ => Nat.le_of_not_lt small

/-- The size that the buffer can grow to. -/
def capacity (fb : EtchFlexBuffer) : Nat :=
  largest 17 (max fb.mSize INIT_BUFFER_LEN)

/-- Expanding by so many bytes succeeds when these fit twice the index. -/
theorem expandBuffer_eq (fb : EtchFlexBuffer) {numBytes : Nat}
    (small : fb.mIndex + numBytes < 2 ^ 32) :
    (fb.mIndex + numBytes ≤ fb.capacity →
      ∃ next, fb.expandBuffer numBytes = some next ∧
        next.mIndex = fb.mIndex ∧ next.mLength = fb.mLength ∧
        (∀ i, next.mBuffer.getD i 0 = fb.mBuffer.getD i 0) ∧
        fb.mSize ≤ next.mSize ∧ INIT_BUFFER_LEN ≤ next.mSize ∧
        fb.mIndex + numBytes ≤ next.mSize) ∧
    (fb.capacity < fb.mIndex + numBytes →
      fb.expandBuffer numBytes = none) := by
  have needed : uint32Add fb.mIndex numBytes = fb.mIndex + numBytes :=
    Nat.mod_eq_of_lt small
  have reaches := needed_le_grown_iff (fb.mIndex + numBytes) 17
    (max fb.mSize INIT_BUFFER_LEN)
  have larger := le_grown (fb.mIndex + numBytes) 17
    (max fb.mSize INIT_BUFFER_LEN)
  unfold expandBuffer capacity
  simp only [needed]
  constructor
  · intro fits
    rw [if_neg (Nat.not_lt.mpr (reaches.mpr fits))]
    have total : (fb.mBuffer ++ List.replicate
        (grown (fb.mIndex + numBytes) 17 (max fb.mSize INIT_BUFFER_LEN) -
          fb.mSize) 0).length =
        grown (fb.mIndex + numBytes) 17 (max fb.mSize INIT_BUFFER_LEN) := by
      rw [List.length_append, List.length_replicate]
      exact Nat.add_sub_cancel' ((Nat.le_max_left _ _).trans larger)
    refine ⟨_, rfl, rfl, rfl, fun i => ?_, ?_, ?_, ?_⟩
    · rcases Nat.lt_or_ge i fb.mBuffer.length with inside | outside
      · exact List.getD_append _ _ _ _ inside
      · dsimp only
        rw [List.getD_append_right _ _ _ _ outside,
          List.getD_eq_default _ _ outside]
        rcases Nat.lt_or_ge (i - fb.mBuffer.length)
          (List.replicate (grown (fb.mIndex + numBytes) 17
            (max fb.mSize INIT_BUFFER_LEN) - fb.mSize)
              (0 : UInt8)).length with new | beyond
        · rw [List.getD_eq_getElem _ _ new, List.getElem_replicate]
        · exact List.getD_eq_default _ _ beyond
    · exact (Nat.le_max_left _ _).trans (larger.trans_eq total.symm)
    · exact (Nat.le_max_right _ _).trans (larger.trans_eq total.symm)
    · exact (reaches.mpr fits).trans_eq total.symm
  · intro large
    rw [if_pos (Nat.lt_of_not_le fun fits =>
      absurd (reaches.mp fits) (Nat.not_le.mpr large))]

/-! ## One call -/

theorem copy_represents {fb : EtchFlexBuffer} {array : Growable}
    (represents : fb.Represents array) {bytes : List UInt8}
    (inside : fb.mIndex + bytes.length ≤ fb.mSize) :
    ∃ next, fb.copy bytes = some next ∧
      next.Represents (array.write bytes) := by
  refine ⟨_, dif_pos inside, ?_, ?_, fun i => ?_⟩
  · exact congrArg (· + bytes.length) represents.index
  · dsimp only [Growable.write]
    rw [represents.index, represents.length]
  · have total := length_overwrite inside
    dsimp only [Growable.write]
    rw [← represents.index, ← represents.memory i]
    exact getD_overwrite inside i 0

/-- There is room for so many bytes, or the buffer makes some. -/
def HasRoom (fb : EtchFlexBuffer) (numBytes asked : Nat) : Prop :=
  fb.mIndex + numBytes ≤ fb.mSize ∨
    fb.mIndex + (fb.mIndex + asked) ≤ fb.capacity

/-- Bytes that are stored are written, and those that are not are refused. -/
theorem store_cases {fb : EtchFlexBuffer} {array : Growable}
    (represents : fb.Represents array) {asked : Nat} {bytes : List UInt8}
    (few : asked = bytes.length ∨ asked = 1 ∧ bytes.length ≤ 8)
    (limit : array.index + bytes.length ≤ MAX_BUFFER_LEN) :
    (fb.HasRoom bytes.length asked → ∃ next,
      fb.store asked bytes = some (.ETCH_OK, next) ∧
        next.Represents (array.write bytes)) ∧
    (¬fb.HasRoom bytes.length asked →
      fb.store asked bytes = some (.ETCH_ENO_MEMORY, fb)) := by
  have bound : MAX_BUFFER_LEN < 2 ^ 22 + 1 := by decide
  have whole : fb.mIndex ≤ fb.mSize := fb.index_le.trans fb.length_le
  have index := represents.index
  have asks : uint32Add fb.mIndex asked = fb.mIndex + asked :=
    Nat.mod_eq_of_lt (by omega)
  have asked_lt : fb.mIndex + (fb.mIndex + asked) < 2 ^ 32 := by omega
  obtain ⟨grows, full⟩ := fb.expandBuffer_eq asked_lt
  unfold store HasRoom
  rw [asks]
  constructor
  · intro room
    split
    · rename_i short
      obtain ⟨next, expanded, index', length', memory, larger, initial,
        covers⟩ := grows (room.resolve_left (by omega))
      have represents' : next.Represents array :=
        ⟨index'.trans index, length'.trans represents.length,
          fun i => (memory i).trans (represents.memory i)⟩
      -- what is asked for is less than a number takes, but the index is not
      have inside : next.mIndex + bytes.length ≤ next.mSize := by
        have least : INIT_BUFFER_LEN = 32 := rfl
        clear grows full
        omega
      obtain ⟨stored, copied, represents''⟩ :=
        copy_represents represents' inside
      rw [expanded]
      refine ⟨stored, ?_, represents''⟩
      dsimp only
      rw [copied]
      rfl
    · have inside : fb.mIndex + bytes.length ≤ fb.mSize := by omega
      obtain ⟨stored, copied, represents'⟩ :=
        copy_represents represents inside
      refine ⟨stored, ?_, represents'⟩
      rw [copied]
      rfl
  · intro none
    rw [not_or] at none
    rw [if_pos (by omega), full (by omega)]

/-- What a put from another buffer is, where that has the bytes. -/
theorem put_eq_store (fb : EtchFlexBuffer) {buffer : EtchFlexBuffer}
    {numBytes : Nat} (any : 0 < numBytes)
    (enough : numBytes ≤ buffer.getAvailableBytes) :
    fb.put buffer numBytes =
      fb.store numBytes (buffer.unread.take numBytes) := by
  have avail : buffer.getAvailableBytes =
      buffer.mLength - buffer.mIndex := rfl
  have order := buffer.index_le
  have whole := buffer.length_le
  have wrapped : uint32Add buffer.mIndex numBytes ≤
      buffer.mIndex + numBytes := Nat.mod_le _ _
  have inside : ¬(uint32Add buffer.mIndex numBytes > buffer.mSize ∨
      buffer.mIndex > buffer.mSize ∨ numBytes = 0 ∨
      numBytes > buffer.getAvailableBytes) := by
    have size : buffer.mSize = buffer.mBuffer.length := rfl
    omega
  have bytes : window buffer.mBuffer buffer.mIndex
      (buffer.mIndex + numBytes) = buffer.unread.take numBytes := by
    rw [unread, take_window, Nat.min_eq_left (by omega)]
  have count : (buffer.unread.take numBytes).length = numBytes := by
    rw [List.length_take, length_unread, Nat.min_eq_left enough]
  unfold put checkBuffer store
  rw [if_neg inside, bytes, count]
  by_cases short : numBytes > fb.mSize - fb.mIndex
  · rw [if_pos short, if_pos short]
    cases fb.expandBuffer (uint32Add fb.mIndex numBytes) with
    | none => rfl
    | some grown =>
        dsimp only
        cases grown.copy (buffer.unread.take numBytes) <;> rfl
  · rw [if_neg short, if_neg short]
    dsimp only
    cases fb.copy (buffer.unread.take numBytes) <;> rfl

namespace Call

/--
A put has bytes, which its source has, and there is room for them; a length
that the buffer does not have yet is added to the index.
-/
def Served (fb : EtchFlexBuffer) : Call → Prop
  | put buffer =>
      0 < buffer.getAvailableBytes ∧
        fb.HasRoom buffer.getAvailableBytes buffer.getAvailableBytes
  | putFrom buffer numBytes =>
      0 < numBytes ∧ numBytes ≤ buffer.getAvailableBytes ∧
        fb.HasRoom numBytes numBytes
  | putBytes bytes =>
      0 < bytes.length ∧ fb.HasRoom bytes.length bytes.length
  | putByte _ => fb.HasRoom 1 1
  | putShort _ => fb.HasRoom 2 1
  | putInt _ => fb.HasRoom 4 1
  | putLong _ => fb.HasRoom 8 1
  | setIndex _ => True
  | setLength length =>
      length ≤ fb.mSize ∨ fb.mIndex + length ≤ fb.capacity

/-- The call returns, a put with `ETCH_OK`, and the contents are as meant. -/
def Kept (fb : EtchFlexBuffer) (array : Growable) (call : Call)
    (next : EtchFlexBuffer) : Prop :=
  ∃ status, call.run fb = some (status, next) ∧
    (call.written ≠ none → status = .ETCH_OK) ∧
    next.data = (array.after call).contents

/-- What a call does when it is served, and that it fails when it is not. -/
theorem kept_cases {fb : EtchFlexBuffer} {array : Growable}
    (represents : fb.Represents array) {call : Call}
    (within : array.Within call) :
    (call.Served fb → ∃ next, call.Kept fb array next ∧
      next.Represents (array.after call)) ∧
    (¬call.Served fb → ∀ next, ¬call.Kept fb array next) := by
  -- a put is the storage of its bytes
  have stores {asked : Nat} {bytes : List UInt8}
      (is : call.written = some bytes)
      (after : array.after call = array.write bytes)
      (runs : call.run fb = fb.store asked bytes)
      (served : call.Served fb ↔ fb.HasRoom bytes.length asked)
      (few : asked = bytes.length ∨ asked = 1 ∧ bytes.length ≤ 8)
      (limit : array.index + bytes.length ≤ MAX_BUFFER_LEN) :
      (call.Served fb → ∃ next, call.Kept fb array next ∧
        next.Represents (array.after call)) ∧
      (¬call.Served fb → ∀ next, ¬call.Kept fb array next) := by
    obtain ⟨stored, full⟩ := store_cases represents few limit
    rw [served]
    constructor
    · intro room
      obtain ⟨next, done, represents'⟩ := stored room
      rw [after]
      exact ⟨next, ⟨.ETCH_OK, runs.trans done, fun _ => rfl,
        after ▸ represents'.contents⟩, represents'⟩
    · rintro none next ⟨status, done, ok, _⟩
      rw [runs, full none] at done
      obtain ⟨rfl, rfl⟩ := Prod.mk.inj (Option.some.inj done)
      exact nomatch ok (by rw [is]; exact nofun)
  have refuses (isPut : call.written ≠ none)
      (runs : ∀ status next, call.run fb = some (status, next) →
        status ≠ .ETCH_OK) (next : EtchFlexBuffer) :
      ¬call.Kept fb array next := by
    rintro ⟨status, done, ok, _⟩
    exact runs status next done (ok isPut)
  cases call with
  | put buffer =>
      by_cases any : 0 < buffer.getAvailableBytes
      · have whole : buffer.unread.take buffer.getAvailableBytes =
            buffer.unread := by
          rw [← buffer.length_unread, List.take_length]
        refine stores rfl rfl ?_ ?_ (.inl buffer.length_unread.symm) within
        · rw [← whole]
          exact fb.put_eq_store any (Nat.le_refl _)
        · rw [buffer.length_unread]
          exact and_iff_right any
      · refine ⟨fun served => absurd served.1 any, fun _ =>
          refuses nofun fun status next done => ?_⟩
        rw [run, putAll, put_none (.inl (by omega))] at done
        obtain ⟨rfl, rfl⟩ := Prod.mk.inj (Option.some.inj done)
        exact nofun
  | putFrom buffer numBytes =>
      by_cases any : 0 < numBytes ∧ numBytes ≤ buffer.getAvailableBytes
      · have count : (buffer.unread.take numBytes).length = numBytes := by
          rw [List.length_take, length_unread, Nat.min_eq_left any.2]
        refine stores rfl rfl (fb.put_eq_store any.1 any.2) ?_
          (.inl count.symm) within
        rw [count, Served, ← and_assoc]
        exact and_iff_right any
      · refine ⟨fun served => absurd ⟨served.1, served.2.1⟩ any, fun _ =>
          refuses nofun fun status next done => ?_⟩
        rw [run, put_none (by omega)] at done
        obtain ⟨rfl, rfl⟩ := Prod.mk.inj (Option.some.inj done)
        exact nofun
  | putBytes bytes =>
      by_cases any : bytes.length = 0
      · refine ⟨fun served => absurd any (Nat.ne_of_gt served.1), fun _ =>
          refuses nofun fun status next done => ?_⟩
        rw [run, EtchFlexBuffer.putBytes, if_pos any] at done
        obtain ⟨rfl, rfl⟩ := Prod.mk.inj (Option.some.inj done)
        exact nofun
      · refine stores rfl rfl (if_neg any) ?_ (.inl rfl) within
        exact and_iff_right (Nat.pos_of_ne_zero any)
  | putByte value =>
      refine stores rfl rfl rfl ?_ (.inr ⟨rfl, ?_⟩) within
      · rw [length_numberBytes, Served]
      · rw [length_numberBytes]
        decide
  | putShort value =>
      refine stores rfl rfl rfl ?_ (.inr ⟨rfl, ?_⟩) within
      · rw [length_numberBytes, Served]
      · rw [length_numberBytes]
        decide
  | putInt value =>
      refine stores rfl rfl rfl ?_ (.inr ⟨rfl, ?_⟩) within
      · rw [length_numberBytes, Served]
      · rw [length_numberBytes]
        decide
  | putLong value =>
      refine stores rfl rfl rfl ?_ (.inr ⟨rfl, ?_⟩) within
      · rw [length_numberBytes, Served]
      · rw [length_numberBytes]
  | setIndex index =>
      refine ⟨fun _ => ?_, fun unserved => absurd trivial unserved⟩
      by_cases inside : index ≤ fb.mLength
      · have after : array.after (.setIndex index) = { array with index } :=
          if_pos (represents.length ▸ inside)
        have represents' : Represents
            ⟨fb.mBuffer, index, fb.mLength, inside, fb.length_le⟩
            { array with index } :=
          ⟨rfl, represents.length, represents.memory⟩
        rw [after]
        refine ⟨_, ⟨.ETCH_OK, ?_, fun _ => rfl, ?_⟩, represents'⟩
        · rw [run, setIndex?, dif_pos inside]
        · rw [after]
          exact represents'.contents
      · have after : array.after (.setIndex index) = array :=
          if_neg (represents.length ▸ inside)
        rw [after]
        refine ⟨fb, ⟨.ETCH_EINVAL, ?_, fun isPut => absurd rfl isPut, ?_⟩,
          represents⟩
        · rw [run, setIndex?, dif_neg inside]
        · rw [after]
          exact represents.contents
  | setLength length =>
      have order : fb.mIndex ≤ fb.mSize := fb.index_le.trans fb.length_le
      have sets {next : EtchFlexBuffer} (inside : length ≤ next.mSize)
          (represents' : next.Represents array) :
          Represents ⟨next.mBuffer, min next.mIndex length, length,
            Nat.min_le_right _ _, inside⟩
            (array.after (.setLength length)) :=
        ⟨congrArg (min · length) represents'.index, rfl,
          represents'.memory⟩
      by_cases inside : length ≤ fb.mSize
      · have sets := sets inside represents
        refine ⟨fun _ => ⟨_, ⟨.ETCH_OK, ?_, fun _ => rfl, sets.contents⟩,
          sets⟩, fun unserved => absurd (.inl inside) unserved⟩
        simp only [run, EtchFlexBuffer.setLength,
          if_neg (Nat.not_lt.mpr inside), dif_pos inside]
      · have limit : MAX_BUFFER_LEN < 2 ^ 22 + 1 := by decide
        have meant : length ≤ MAX_BUFFER_LEN := within
        have length_lt : fb.mIndex + length < 2 ^ 32 := by omega
        obtain ⟨grows, full⟩ := fb.expandBuffer_eq length_lt
        constructor
        · intro served
          obtain ⟨next, expanded, index, same, memory, _, _, covers⟩ :=
            grows (served.resolve_left inside)
          have represents' : next.Represents array :=
            ⟨index.trans represents.index, same.trans represents.length,
              fun i => (memory i).trans (represents.memory i)⟩
          have inside' : length ≤ next.mSize := by
            clear grows full
            omega
          have sets := sets inside' represents'
          refine ⟨_, ⟨.ETCH_OK, ?_, fun _ => rfl, sets.contents⟩, sets⟩
          simp only [run, EtchFlexBuffer.setLength,
            if_pos (Nat.lt_of_not_le inside), expanded, dif_pos inside']
        · rintro unserved next ⟨status, done, _, contents⟩
          have large : fb.capacity < fb.mIndex + length :=
            Nat.lt_of_not_le fun fits => unserved (.inr fits)
          simp only [run, EtchFlexBuffer.setLength,
            if_pos (Nat.lt_of_not_le inside), full large,
            Option.some.injEq, Prod.mk.injEq] at done
          obtain ⟨rfl, rfl⟩ := done
          -- the length is as before, and less than the array's
          have lengths := congrArg List.length contents
          rw [length_data, Growable.contents, List.length_map,
            List.length_range] at lengths
          have held := fb.length_le
          have meant : fb.mLength = length := lengths
          exact inside (meant ▸ held)

end Call

/-! ## Any number of calls -/

/-- Every call ends within the limit. -/
def WithinLimit (array : Growable) : List Call → Prop
  | [] => True
  | call :: calls =>
      array.Within call ∧ WithinLimit (array.after call) calls

/--
Every call returns and stays within the allocated memory, every put returns
`ETCH_OK`, and the contents are those of the array after each call.
-/
def Refines (fb : EtchFlexBuffer) (array : Growable) : List Call → Prop
  | [] => True
  | call :: calls =>
      ∃ next, call.Kept fb array next ∧
        next.Refines (array.after call) calls

/-- Every call is served, in the state that the calls before it leave. -/
def Serves (fb : EtchFlexBuffer) : List Call → Prop
  | [] => True
  | call :: calls =>
      call.Served fb ∧
        ∀ status next, call.run fb = some (status, next) →
          next.Serves calls

theorem refines_iff {fb : EtchFlexBuffer} {array : Growable}
    (represents : fb.Represents array) {calls : List Call}
    (within : WithinLimit array calls) :
    fb.Refines array calls ↔ fb.Serves calls := by
  induction calls generalizing fb array with
  | nil => exact Iff.rfl
  | cons call calls ih =>
      obtain ⟨first, rest⟩ := within
      obtain ⟨serves, fails⟩ := Call.kept_cases represents first
      constructor
      · rintro ⟨next, kept, refines⟩
        have served : call.Served fb :=
          Classical.byContradiction fun unserved =>
            fails unserved next kept
        obtain ⟨next', ⟨status', done', _⟩, represents'⟩ := serves served
        refine ⟨served, fun status after done => ?_⟩
        obtain ⟨_, done'', _⟩ := kept
        obtain ⟨rfl, rfl⟩ :=
          Prod.mk.inj (Option.some.inj (done'.symm.trans done))
        obtain ⟨rfl, rfl⟩ :=
          Prod.mk.inj (Option.some.inj (done'.symm.trans done''))
        exact (ih represents' rest).mp refines
      · rintro ⟨served, more⟩
        obtain ⟨next, kept, represents'⟩ := serves served
        have ⟨status, done, _⟩ := kept
        exact ⟨next, kept, (ih represents' rest).mpr (more status next done)⟩

/--
From any state, the buffer is an array without a capacity as long as every put
has bytes, and there is room for them or twice the index and the bytes fit the
size that it grows to.
-/
theorem behaves_iff_serves (fb : EtchFlexBuffer) (calls : List Call)
    (within : WithinLimit fb.growable calls) :
    fb.Refines fb.growable calls ↔ fb.Serves calls :=
  refines_iff fb.represents_growable within

/-- A byte and a short in a new buffer. -/
theorem behaves_iff_serves_two :
    new.Refines new.growable [.putByte 1, .putShort 2] ↔
      new.Serves [.putByte 1, .putShort 2] :=
  behaves_iff_serves new [.putByte 1, .putShort 2]
    ⟨by decide, by decide, trivial⟩

/-- A byte is refused behind half of the bytes that a buffer can have. -/
theorem not_refines_of_half {bytes : List UInt8}
    (half : bytes.length = 2 ^ 21) :
    WithinLimit new.growable [.putBytes bytes, .putByte 0] ∧
      ¬new.Refines new.growable [.putBytes bytes, .putByte 0] := by
  have within : WithinLimit new.growable [.putBytes bytes, .putByte 0] := by
    refine ⟨?_, ?_, trivial⟩
    · change 0 + bytes.length ≤ MAX_BUFFER_LEN
      rw [half]
      decide
    · change 0 + bytes.length + (numberBytes 1 (0 : Int8).toInt).length ≤
        MAX_BUFFER_LEN
      rw [half, length_numberBytes]
      decide
  refine ⟨within, fun refines => ?_⟩
  have serves := (refines_iff new.represents_growable within).mp refines
  obtain ⟨next, ⟨status, done, _⟩, _⟩ := refines
  have room := (serves.2 status next done).1
  have stored : next.mSize = 2 ^ 21 ∧ next.mIndex = 2 ^ 21 := by
    have index : new.mIndex = 0 := rfl
    have size : new.mSize = 32 := rfl
    have needed : uint32Add 0 (2 ^ 21) = 2 ^ 21 := by decide
    have grows : grown (2 ^ 21) 17 (max 32 INIT_BUFFER_LEN) = 2 ^ 21 := by
      decide
    simp only [Call.run, putBytes, store, half, index, size, needed, grows,
      expandBuffer] at done
    rw [if_neg (by decide), if_pos (by decide), if_neg (by decide)] at done
    dsimp only [copy] at done
    split at done
    · rename_i inside
      obtain ⟨rfl, rfl⟩ := Prod.mk.inj (Option.some.inj done)
      have total := length_overwrite inside
      refine ⟨?_, ?_⟩
      · refine total.trans ?_
        rw [List.length_append, List.length_replicate]
        rfl
      · exact (Nat.zero_add _).trans half
    · cases done
  rw [Call.Served, HasRoom, stored.2, stored.1, capacity, stored.1] at room
  revert room
  decide

theorem refused_byte :
    ¬∀ calls, WithinLimit new.growable calls →
      new.Refines new.growable calls :=
  fun refines =>
    have half : (List.replicate (2 ^ 21) (0 : UInt8)).length = 2 ^ 21 :=
      List.length_replicate
    have refused := not_refines_of_half half
    refused.2 (refines _ refused.1)

end Etch.Cpp.EtchFlexBuffer
