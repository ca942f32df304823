import Etch.Cpp.Types
import Etch.Library.BigEndian
import Etch.Library.Window

/-!
# The C++ `EtchFlexBuffer`

A byte array that grows by doubling up to `MAX_BUFFER_LEN`, with a cursor
`mIndex` and the end `mLength` of the data.  Sizes are `uint32_t`, whose sums
wrap.  Integers are big-endian, which is the representation a buffer starts
with.  New bytes of the array are unspecified in the source and zero here.
-/

namespace Etch.Cpp

open Etch.Library.BigEndian
open Etch.Library.Window

structure EtchFlexBuffer where
  mBuffer : List UInt8
  mIndex : Nat
  mLength : Nat
  index_le : mIndex ≤ mLength
  length_le : mLength ≤ mBuffer.length

namespace EtchFlexBuffer

def INIT_BUFFER_LEN : Nat := 32

def MAX_BUFFER_LEN : Nat := 4 * 1024 * 1024

def TRIM_BUFFER_LEN : Nat := 16 * 1024

def new : EtchFlexBuffer :=
  ⟨List.replicate INIT_BUFFER_LEN 0, 0, 0, start_le_start, Nat.zero_le _⟩

/-- `EtchFlexBuffer(buf, size)`, with all of `buf` as data. -/
def ofBytes (buf : List UInt8) : EtchFlexBuffer :=
  ⟨buf, 0, buf.length, start_le_length buf, length_le_length buf⟩

def mSize (fb : EtchFlexBuffer) : Nat :=
  fb.mBuffer.length

def getAvailableBytes (fb : EtchFlexBuffer) : Nat :=
  fb.mLength - fb.mIndex

/-- The bytes of the data, read or not. -/
def data (fb : EtchFlexBuffer) : List UInt8 :=
  window fb.mBuffer 0 fb.mLength

/-- The bytes a full read returns. -/
def unread (fb : EtchFlexBuffer) : List UInt8 :=
  window fb.mBuffer fb.mIndex fb.mLength

theorem length_data (fb : EtchFlexBuffer) :
    fb.data.length = fb.mLength := by
  rw [data, length_window fb.length_le, Nat.sub_zero]

theorem length_unread (fb : EtchFlexBuffer) :
    fb.unread.length = fb.getAvailableBytes :=
  length_window fb.length_le

theorem unread_eq_drop (fb : EtchFlexBuffer) :
    fb.unread = fb.data.drop fb.mIndex := by
  rw [data, drop_window, Nat.zero_add, unread]

/-! ## The cursor -/

/-- `setIndex(index)`, none for `ETCH_EINVAL`. -/
def setIndex? (fb : EtchFlexBuffer) (index : Nat) :
    Option EtchFlexBuffer :=
  if inside : index ≤ fb.mLength then
    some ⟨fb.mBuffer, index, fb.mLength, inside, fb.length_le⟩
  else
    none

/-- `setIndex(index)` with its result ignored. -/
def setIndex (fb : EtchFlexBuffer) (index : Nat) : EtchFlexBuffer :=
  (fb.setIndex? index).getD fb

theorem setIndex_of_le {fb : EtchFlexBuffer} {index : Nat}
    (inside : index ≤ fb.mLength) :
    fb.setIndex index =
      ⟨fb.mBuffer, index, fb.mLength, inside, fb.length_le⟩ := by
  rw [setIndex, setIndex?, dif_pos inside, Option.getD_some]

theorem setIndex_of_lt {fb : EtchFlexBuffer} {index : Nat}
    (outside : fb.mLength < index) : fb.setIndex index = fb := by
  rw [setIndex, setIndex?, dif_neg (by omega), Option.getD_none]

@[simp]
theorem mBuffer_setIndex (fb : EtchFlexBuffer) (index : Nat) :
    (fb.setIndex index).mBuffer = fb.mBuffer := by
  by_cases inside : index ≤ fb.mLength
  · rw [setIndex_of_le inside]
  · rw [setIndex_of_lt (by omega)]

@[simp]
theorem mLength_setIndex (fb : EtchFlexBuffer) (index : Nat) :
    (fb.setIndex index).mLength = fb.mLength := by
  by_cases inside : index ≤ fb.mLength
  · rw [setIndex_of_le inside]
  · rw [setIndex_of_lt (by omega)]

@[simp]
theorem data_setIndex (fb : EtchFlexBuffer) (index : Nat) :
    (fb.setIndex index).data = fb.data := by
  rw [data, mBuffer_setIndex, mLength_setIndex, data]

theorem mIndex_setIndex {fb : EtchFlexBuffer} {index : Nat}
    (inside : index ≤ fb.mLength) : (fb.setIndex index).mIndex = index := by
  rw [setIndex_of_le inside]

theorem setIndex_setIndex {fb : EtchFlexBuffer} (first : Nat)
    {index : Nat} (inside : index ≤ fb.mLength) :
    (fb.setIndex first).setIndex index = fb.setIndex index := by
  by_cases within : first ≤ fb.mLength
  · rw [setIndex_of_le within, setIndex_of_le inside]
    exact @setIndex_of_le
      ⟨fb.mBuffer, first, fb.mLength, within, fb.length_le⟩ _ inside
  · have same : fb.setIndex first = fb :=
      setIndex_of_lt (Nat.not_le.mp within)
    rw [same]

theorem setIndex_self {fb : EtchFlexBuffer} {index : Nat}
    (same : fb.mIndex = index) : fb.setIndex index = fb := by
  subst same
  rw [setIndex_of_le fb.index_le]

theorem unread_setIndex {fb : EtchFlexBuffer} {index : Nat}
    (inside : index ≤ fb.mLength) :
    (fb.setIndex index).unread = fb.data.drop index := by
  rw [unread_eq_drop, data_setIndex, mIndex_setIndex inside]

theorem unread_setIndex_zero (fb : EtchFlexBuffer) :
    (fb.setIndex 0).unread = fb.data := by
  rw [unread_setIndex (Nat.zero_le _), List.drop_zero]

/-! ## Reading -/

/-- `getInteger(value)`, none for `ETCH_ERANGE`. -/
def getInteger (fb : EtchFlexBuffer) : Option (Nat × EtchFlexBuffer) :=
  if enough : fb.mIndex + 4 ≤ fb.mLength then
    some (Library.BigEndian.ofBytes
        (window fb.mBuffer fb.mIndex (fb.mIndex + 4)),
      ⟨fb.mBuffer, fb.mIndex + 4, fb.mLength, enough, fb.length_le⟩)
  else
    none

theorem getInteger_ok {fb : EtchFlexBuffer}
    (enough : fb.mIndex + 4 ≤ fb.mLength) :
    fb.getInteger = some (Library.BigEndian.ofBytes (fb.unread.take 4),
      fb.setIndex (fb.mIndex + 4)) := by
  rw [getInteger, dif_pos enough, setIndex_of_le enough, unread,
    take_window, Nat.min_eq_left enough]

theorem getInteger_short {fb : EtchFlexBuffer}
    (short : fb.mLength < fb.mIndex + 4) : fb.getInteger = none := by
  rw [getInteger, dif_neg (by omega)]

/-! ## Growing -/

/-- `while (needed > size && size < MAX_BUFFER_LEN) size = size << 1` -/
def grown (needed : Nat) : Nat → Nat → Nat
  | 0, size => size
  | rounds + 1, size =>
      if size < needed ∧ size < MAX_BUFFER_LEN then
        grown needed rounds (size * 2)
      else
        size

/-- `expandBuffer(numBytes)`, none for `ETCH_ENO_MEMORY`. -/
def expandBuffer (fb : EtchFlexBuffer) (numBytes : Nat) :
    Option EtchFlexBuffer :=
  let needed := uint32Add fb.mIndex numBytes
  -- from 32 the limit is passed after 17 rounds
  let size := grown needed 17 (max fb.mSize INIT_BUFFER_LEN)
  if needed > size then
    none
  else
    some
      { fb with
        mBuffer := fb.mBuffer ++ List.replicate (size - fb.mSize) 0
        length_le := fb.length_le.trans (by simp) }

/-- `copy(buffer, numBytes)`, none when it writes behind the array. -/
def copy (fb : EtchFlexBuffer) (bytes : List UInt8) :
    Option EtchFlexBuffer :=
  if inside : fb.mIndex + bytes.length ≤ fb.mSize then
    some
      ⟨overwrite fb.mBuffer fb.mIndex bytes, fb.mIndex + bytes.length,
        max fb.mLength (fb.mIndex + bytes.length), Nat.le_max_right _ _, by
          rw [length_overwrite inside]
          exact Nat.max_le.mpr ⟨fb.length_le, inside⟩⟩
  else
    none

/-- `checkBuffer(buffer, numBytes)`, which makes room for the bytes. -/
def checkBuffer (fb buffer : EtchFlexBuffer) (numBytes : Nat) :
    Status × EtchFlexBuffer :=
  if uint32Add buffer.mIndex numBytes > buffer.mSize ∨
      buffer.mIndex > buffer.mSize ∨ numBytes = 0 ∨
      numBytes > buffer.getAvailableBytes then
    (.ETCH_EINVAL, fb)
  else if numBytes > fb.mSize - fb.mIndex then
    match fb.expandBuffer (uint32Add fb.mIndex numBytes) with
    | none => (.ETCH_ENO_MEMORY, fb)
    | some fb => (.ETCH_OK, fb)
  else
    (.ETCH_OK, fb)

/--
`put(buffer, numBytes)`; neither the index of `buffer` nor anything else of
it changes.
-/
def put (fb buffer : EtchFlexBuffer) (numBytes : Nat) :
    Option (Status × EtchFlexBuffer) :=
  match fb.checkBuffer buffer numBytes with
  | (.ETCH_OK, fb) => do
      let fb ← fb.copy
        (window buffer.mBuffer buffer.mIndex (buffer.mIndex + numBytes))
      some (.ETCH_OK, fb)
  | failed => some failed

/-- `put(buffer)` -/
def putAll (fb buffer : EtchFlexBuffer) :
    Option (Status × EtchFlexBuffer) :=
  fb.put buffer buffer.getAvailableBytes

/-- `reset()`, which trims a large array. -/
def reset (fb : EtchFlexBuffer) : EtchFlexBuffer :=
  if fb.mSize > TRIM_BUFFER_LEN then
    ⟨List.replicate TRIM_BUFFER_LEN 0, 0, 0, Nat.le_refl _, Nat.zero_le _⟩
  else
    ⟨fb.mBuffer, 0, 0, Nat.le_refl _, Nat.zero_le _⟩

/-! ## Sizes -/

/-- The sizes that doubling reaches from the initial one. -/
def Sized (fb : EtchFlexBuffer) : Prop :=
  ∃ doublings ≤ 17, fb.mSize = INIT_BUFFER_LEN * 2 ^ doublings

theorem Sized.le_max {fb : EtchFlexBuffer} (sized : fb.Sized) :
    fb.mSize ≤ MAX_BUFFER_LEN := by
  obtain ⟨doublings, limit, size⟩ := sized
  calc fb.mSize = INIT_BUFFER_LEN * 2 ^ doublings := size
    _ ≤ INIT_BUFFER_LEN * 2 ^ 17 :=
      Nat.mul_le_mul_left _ (Nat.pow_le_pow_right (by decide) limit)
    _ = MAX_BUFFER_LEN := rfl

theorem Sized.init_le {fb : EtchFlexBuffer} (sized : fb.Sized) :
    INIT_BUFFER_LEN ≤ fb.mSize := by
  obtain ⟨doublings, -, size⟩ := sized
  rw [size]
  exact Nat.le_mul_of_pos_right _ (Nat.two_pow_pos _)

theorem Sized.length_le_max {fb : EtchFlexBuffer} (sized : fb.Sized) :
    fb.mLength ≤ MAX_BUFFER_LEN :=
  fb.length_le.trans sized.le_max

theorem sized_new : new.Sized :=
  ⟨0, Nat.zero_le _, List.length_replicate⟩

theorem Sized.setIndex {fb : EtchFlexBuffer} (sized : fb.Sized)
    (index : Nat) : (fb.setIndex index).Sized := by
  rw [Sized, mSize, mBuffer_setIndex]
  exact sized

theorem Sized.reset {fb : EtchFlexBuffer} (sized : fb.Sized) :
    fb.reset.Sized := by
  unfold EtchFlexBuffer.reset
  split
  · exact ⟨9, by decide, List.length_replicate⟩
  · exact sized

@[simp]
theorem mLength_reset (fb : EtchFlexBuffer) : fb.reset.mLength = 0 := by
  unfold reset
  split <;> rfl

/-- Doubling a size within the limit gives a size within the limit. -/
theorem grown_of_le {needed rounds doublings : Nat}
    (limit : doublings ≤ 17) (enough : 17 ≤ doublings + rounds)
    (fits : needed ≤ MAX_BUFFER_LEN) :
    ∃ final ≤ 17,
      grown needed rounds (INIT_BUFFER_LEN * 2 ^ doublings) =
        INIT_BUFFER_LEN * 2 ^ final ∧
      doublings ≤ final ∧ needed ≤ INIT_BUFFER_LEN * 2 ^ final := by
  induction rounds generalizing doublings with
  | zero =>
      obtain rfl : doublings = 17 := Nat.le_antisymm limit enough
      exact ⟨17, Nat.le_refl _, rfl, Nat.le_refl _, fits⟩
  | succ rounds ih =>
      unfold grown
      split
      · rename_i small
        have below : doublings ≠ 17 := by
          rintro rfl
          exact absurd small.2 (by decide)
        obtain ⟨final, limit', size, order, covers⟩ :=
          @ih (doublings + 1) (by omega) (by omega)
        rw [Nat.pow_succ, ← Nat.mul_assoc] at size
        exact ⟨final, limit', size, by omega, covers⟩
      · rename_i large
        exact ⟨doublings, limit, rfl, Nat.le_refl _, by omega⟩

/-- The bytes can be put at the index, as far as the growth allows it. -/
def Room (fb : EtchFlexBuffer) (numBytes : Nat) : Prop :=
  fb.mIndex + numBytes ≤ fb.mSize ∨
    fb.mIndex + (fb.mIndex + numBytes) ≤ MAX_BUFFER_LEN

theorem expandBuffer_ok {fb : EtchFlexBuffer} (sized : fb.Sized)
    {numBytes : Nat}
    (fits : fb.mIndex + (fb.mIndex + numBytes) ≤ MAX_BUFFER_LEN) :
    ∃ next, fb.expandBuffer (uint32Add fb.mIndex numBytes) = some next ∧
      next.Sized ∧ next.mIndex = fb.mIndex ∧ next.data = fb.data ∧
      next.mLength = fb.mLength ∧ fb.mIndex + numBytes ≤ next.mSize := by
  have small : MAX_BUFFER_LEN < 2 ^ 32 := by decide
  have sum : uint32Add fb.mIndex numBytes = fb.mIndex + numBytes :=
    Nat.mod_eq_of_lt (by omega)
  have needed : uint32Add fb.mIndex (fb.mIndex + numBytes) =
      fb.mIndex + (fb.mIndex + numBytes) :=
    Nat.mod_eq_of_lt (by omega)
  have initial : max fb.mSize INIT_BUFFER_LEN = fb.mSize :=
    Nat.max_eq_left sized.init_le
  obtain ⟨doublings, limit, size⟩ := sized
  have enough : ∃ final ≤ 17,
      grown (fb.mIndex + (fb.mIndex + numBytes)) 17 fb.mSize =
        INIT_BUFFER_LEN * 2 ^ final ∧
      doublings ≤ final ∧
      fb.mIndex + (fb.mIndex + numBytes) ≤
        INIT_BUFFER_LEN * 2 ^ final := by
    rw [size]
    exact grown_of_le limit (Nat.le_add_left _ _) fits
  obtain ⟨final, limit', grows, order, covers⟩ := enough
  have larger : fb.mSize ≤ INIT_BUFFER_LEN * 2 ^ final := by
    rw [size]
    exact Nat.mul_le_mul_left _ (Nat.pow_le_pow_right (by decide) order)
  have total : (fb.mBuffer ++ List.replicate
      (INIT_BUFFER_LEN * 2 ^ final - fb.mSize) 0).length =
        INIT_BUFFER_LEN * 2 ^ final := by
    rw [List.length_append, List.length_replicate]
    exact Nat.add_sub_cancel' larger
  unfold expandBuffer
  simp only [sum, needed, initial, grows]
  rw [if_neg (by omega)]
  refine ⟨_, rfl, ⟨final, limit', total⟩, rfl, ?_, rfl, ?_⟩
  · exact window_append_right _ 0 fb.length_le
  · have final_size : fb.mIndex + numBytes ≤
        INIT_BUFFER_LEN * 2 ^ final := by
      omega
    exact final_size.trans_eq total.symm

/-- Bytes put at the end of the data are appended to it. -/
theorem put_append {fb buffer : EtchFlexBuffer} (sized : fb.Sized)
    (atEnd : fb.mIndex = fb.mLength) {numBytes : Nat}
    (some_bytes : 0 < numBytes)
    (enough : numBytes ≤ buffer.getAvailableBytes)
    (room : fb.Room numBytes) :
    ∃ next, fb.put buffer numBytes = some (.ETCH_OK, next) ∧
      next.Sized ∧ next.mIndex = next.mLength ∧
      next.data = fb.data ++ buffer.unread.take numBytes := by
  have order := buffer.index_le
  have whole := buffer.length_le
  have avail : buffer.getAvailableBytes =
      buffer.mLength - buffer.mIndex := rfl
  have inside : buffer.mIndex + numBytes ≤ buffer.mSize :=
    (show _ ≤ buffer.mLength by omega).trans whole
  have bytes : window buffer.mBuffer buffer.mIndex
      (buffer.mIndex + numBytes) = buffer.unread.take numBytes := by
    rw [unread, take_window, Nat.min_eq_left (by omega)]
  have count : (buffer.unread.take numBytes).length = numBytes := by
    rw [List.length_take, length_unread, Nat.min_eq_left enough]
  have checked : ∃ grown, fb.checkBuffer buffer numBytes =
        (.ETCH_OK, grown) ∧ grown.Sized ∧ grown.mIndex = fb.mIndex ∧
      grown.data = fb.data ∧ grown.mLength = fb.mLength ∧
      fb.mIndex + numBytes ≤ grown.mSize := by
    have wrapped : uint32Add buffer.mIndex numBytes ≤
        buffer.mIndex + numBytes := Nat.mod_le _ _
    unfold checkBuffer
    rw [if_neg (by omega)]
    split
    · rename_i short
      obtain ⟨grown, done, rest⟩ :=
        expandBuffer_ok sized (room.resolve_left (by omega))
      rw [done]
      exact ⟨grown, rfl, rest⟩
    · have held : fb.mIndex ≤ fb.mSize := atEnd ▸ fb.length_le
      exact ⟨fb, rfl, sized, rfl, rfl, rfl, by omega⟩
  obtain ⟨grown, check, sized', index, same, length, covers⟩ := checked
  have inside' : grown.mIndex + (buffer.unread.take numBytes).length ≤
      grown.mSize := by
    rw [count, index]
    exact covers
  unfold put
  rw [check, bytes]
  simp only [copy, dif_pos inside', Option.bind_eq_bind,
    Option.bind_some]
  refine ⟨_, rfl, ?_, ?_, ?_⟩
  · obtain ⟨doublings, limit, size⟩ := sized'
    refine ⟨doublings, limit, ?_⟩
    rw [← size]
    exact length_overwrite inside'
  · simp only [length]
    omega
  · have last : max grown.mLength
        (grown.mIndex + (buffer.unread.take numBytes).length) =
          grown.mIndex + (buffer.unread.take numBytes).length :=
      Nat.max_eq_right (by omega)
    have room' : grown.mIndex ≤ grown.mBuffer.length :=
      (Nat.le_add_right _ _).trans inside'
    have start : grown.mIndex = grown.mLength := by
      omega
    simp only [data, last]
    rw [← window_append_window _ (Nat.zero_le grown.mIndex)
        (Nat.le_add_right _ _),
      window_overwrite_before room' 0 (Nat.le_refl _),
      window_overwrite_self room']
    congr 1
    rw [start]
    exact same

/-- Nothing is put from a buffer that has been read. -/
theorem put_none {fb buffer : EtchFlexBuffer} {numBytes : Nat}
    (nothing : numBytes = 0 ∨ buffer.getAvailableBytes < numBytes) :
    fb.put buffer numBytes = some (.ETCH_EINVAL, fb) := by
  unfold put checkBuffer
  rw [if_pos (by omega)]

end EtchFlexBuffer

end Etch.Cpp
