import Etch.Cpp.FlexBuffer

/-!
# The reads of the C++ `EtchFlexBuffer`

A number is read whole or not at all, and bytes as far as there are any.
-/

namespace Etch.Cpp.EtchFlexBuffer

open Etch.Library.BigEndian
open Etch.Library.Window

/-- The bytes of a number, most significant first, none for `ETCH_ERANGE`. -/
def getNumber (fb : EtchFlexBuffer) (size : Nat) :
    Option (Nat × EtchFlexBuffer) :=
  if enough : fb.mIndex + size ≤ fb.mLength then
    some (Library.BigEndian.ofBytes
        (window fb.mBuffer fb.mIndex (fb.mIndex + size)),
      ⟨fb.mBuffer, fb.mIndex + size, fb.mLength, enough, fb.length_le⟩)
  else
    none

/-- `getByte(value)` -/
def getByte (fb : EtchFlexBuffer) : Option (Int8 × EtchFlexBuffer) :=
  (fb.getNumber 1).map fun (value, fb) => (Int8.ofNat value, fb)

/-- `getShort(value)` -/
def getShort (fb : EtchFlexBuffer) : Option (Int16 × EtchFlexBuffer) :=
  (fb.getNumber 2).map fun (value, fb) => (Int16.ofNat value, fb)

/-- `getInteger(value)`, as the signed integer that it is made of. -/
def getInt (fb : EtchFlexBuffer) : Option (Int32 × EtchFlexBuffer) :=
  fb.getInteger.map fun (value, fb) => (Int32.ofNat value, fb)

/-- `getLong(value)` -/
def getLong (fb : EtchFlexBuffer) : Option (Int64 × EtchFlexBuffer) :=
  (fb.getNumber 8).map fun (value, fb) => (Int64.ofNat value, fb)

/-- `getFloat(value)`, as its bits. -/
def getFloat (fb : EtchFlexBuffer) : Option (UInt32 × EtchFlexBuffer) :=
  fb.getInteger.map fun (value, fb) => (UInt32.ofNat value, fb)

/-- `getDouble(value)`, as its bits. -/
def getDouble (fb : EtchFlexBuffer) : Option (UInt64 × EtchFlexBuffer) :=
  (fb.getNumber 8).map fun (value, fb) => (UInt64.ofNat value, fb)

/--
`get(buf, 0, len, numBytes)` with its result ignored, for less than 2^31
bytes in the buffer: the `numBytes` bytes that there are.
-/
def get (fb : EtchFlexBuffer) (len : Nat) : List UInt8 × EtchFlexBuffer :=
  (fb.unread.take len,
    ⟨fb.mBuffer, fb.mIndex + min len fb.getAvailableBytes, fb.mLength, by
      have := fb.index_le
      unfold getAvailableBytes
      omega, fb.length_le⟩)

/-! ## What is left -/

/-- What a read of so many bytes leaves. -/
structure Reads (fb next : EtchFlexBuffer) (size : Nat) : Prop where
  enough : size ≤ fb.getAvailableBytes
  unread : next.unread = fb.unread.drop size

theorem Reads.available {fb next : EtchFlexBuffer} {size : Nat}
    (reads : fb.Reads next size) :
    next.getAvailableBytes + size = fb.getAvailableBytes := by
  have length := congrArg List.length reads.unread
  rw [List.length_drop, length_unread, length_unread] at length
  have := reads.enough
  omega

theorem getNumber_iff {fb next : EtchFlexBuffer} {size value : Nat} :
    fb.getNumber size = some (value, next) →
      fb.Reads next size ∧
        value = Library.BigEndian.ofBytes (fb.unread.take size) := by
  intro got
  unfold getNumber at got
  split_ifs at got with enough
  obtain ⟨rfl, rfl⟩ := Prod.mk.inj (Option.some.inj got)
  have inside : size ≤ fb.getAvailableBytes := by
    unfold getAvailableBytes
    omega
  refine ⟨⟨inside, ?_⟩, ?_⟩
  · rw [unread, unread, drop_window]
  · rw [unread, take_window, Nat.min_eq_left enough]

theorem getNumber_short {fb : EtchFlexBuffer} {size : Nat}
    (short : fb.getAvailableBytes < size) : fb.getNumber size = none := by
  have := fb.index_le
  unfold getAvailableBytes at short
  exact dif_neg (by omega)

theorem reads_get (fb : EtchFlexBuffer) (len : Nat) :
    fb.Reads (fb.get len).2 (fb.get len).1.length := by
  have taken : (fb.get len).1.length = min len fb.getAvailableBytes := by
    rw [get, List.length_take, length_unread]
  rw [taken]
  refine ⟨Nat.min_le_right _ _, ?_⟩
  rw [unread, unread, drop_window]
  rfl

/-! ## Bytes in front -/

theorem getNumber_append {fb : EtchFlexBuffer} {bytes rest : List UInt8}
    (unread : fb.unread = bytes ++ rest) :
    ∃ next, fb.getNumber bytes.length =
        some (Library.BigEndian.ofBytes bytes, next) ∧
      next.unread = rest := by
  have enough : fb.mIndex + bytes.length ≤ fb.mLength := by
    have length := congrArg List.length unread
    rw [length_unread, List.length_append, getAvailableBytes] at length
    have := fb.index_le
    omega
  have got : fb.getNumber bytes.length = some _ := dif_pos enough
  obtain ⟨reads, value⟩ := getNumber_iff got
  rw [unread, List.take_left] at value
  rw [value] at got
  refine ⟨_, got, ?_⟩
  rw [reads.unread, unread, List.drop_left]

theorem getByte_nil {fb : EtchFlexBuffer} (none : fb.unread = []) :
    fb.getByte = Option.none := by
  have short : fb.getAvailableBytes < 1 := by
    rw [← fb.length_unread, none]
    decide
  rw [getByte, getNumber_short short]
  rfl

theorem getByte_cons {fb : EtchFlexBuffer} {byte : UInt8}
    {rest : List UInt8} (unread : fb.unread = byte :: rest) :
    ∃ next, fb.getByte = some (byte.toInt8, next) ∧ next.unread = rest := by
  obtain ⟨next, got, left⟩ := @getNumber_append fb [byte] rest unread
  refine ⟨next, ?_, left⟩
  have value : Int8.ofNat (Library.BigEndian.ofBytes [byte]) =
      byte.toInt8 := by
    change Int8.ofNat (byte.toNat * 256 ^ 0 + 0) = _
    rw [Nat.pow_zero, Nat.mul_one, Nat.add_zero]
    exact congrArg UInt8.toInt8 UInt8.ofNat_toNat
  rw [← value]
  exact congrArg (Option.map _) got

end Etch.Cpp.EtchFlexBuffer
