import Etch.CSharp.Value

/-!
# Reading from the C# `FlexBuffer`

A byte array with a cursor.  Every read checks that there are enough bytes
before it moves the cursor.
-/

namespace Etch.CSharp

open Etch.Library.BigEndian
open Etch.Library.Window

structure FlexBuffer where
  buffer : List UInt8
  index : Nat
  length : Nat
  index_le : index ≤ length
  length_le : length ≤ buffer.length
  size_lt : buffer.length < 2 ^ 31

namespace FlexBuffer

/-- `new FlexBuffer(buffer)` -/
def adopt (buffer : List UInt8) (size_lt : buffer.length < 2 ^ 31) :
    FlexBuffer :=
  ⟨buffer, 0, buffer.length, start_le_length buffer,
    length_le_length buffer, size_lt⟩

def avail (buf : FlexBuffer) : Nat :=
  buf.length - buf.index

/-- The bytes a full read returns. -/
def unread (buf : FlexBuffer) : List UInt8 :=
  window buf.buffer buf.index buf.length

theorem length_unread (buf : FlexBuffer) :
    buf.unread.length = buf.avail :=
  length_window buf.length_le

/-- `CheckAvail(len)`, and the bytes that are read then. -/
def getFully (buf : FlexBuffer) (len : Nat) :
    Except Thrown (List UInt8 × FlexBuffer) :=
  if inside : len > buf.avail then
    .error (.endOfStreamException " len > Avail() ")
  else
    .ok (window buf.buffer buf.index (buf.index + len),
      { buf with
        index := buf.index + len
        index_le := by
          have := buf.index_le
          unfold avail at inside
          omega })

def getByte (buf : FlexBuffer) : Except Thrown (Int8 × FlexBuffer) := do
  let (bytes, buf) ← buf.getFully 1
  return (Int8.ofNat (ofBytes bytes), buf)

def getShort (buf : FlexBuffer) : Except Thrown (Int16 × FlexBuffer) := do
  let (bytes, buf) ← buf.getFully 2
  return (Int16.ofNat (ofBytes bytes), buf)

def getInt (buf : FlexBuffer) : Except Thrown (Int32 × FlexBuffer) := do
  let (bytes, buf) ← buf.getFully 4
  return (Int32.ofNat (ofBytes bytes), buf)

def getLong (buf : FlexBuffer) : Except Thrown (Int64 × FlexBuffer) := do
  let (bytes, buf) ← buf.getFully 8
  return (Int64.ofNat (ofBytes bytes), buf)

theorem getFully_error {buf : FlexBuffer} {len : Nat}
    (short : buf.avail < len) :
    buf.getFully len = .error (.endOfStreamException " len > Avail() ") :=
  dif_pos short

theorem getFully_ok {buf : FlexBuffer} {len : Nat}
    (enough : len ≤ buf.avail) :
    ∃ next, buf.getFully len = .ok (buf.unread.take len, next) ∧
      next.unread = buf.unread.drop len := by
  have bound : buf.index + len ≤ buf.length := by
    have := buf.index_le
    unfold avail at enough
    omega
  refine ⟨{ buf with index := buf.index + len, index_le := bound }, ?_, ?_⟩
  · rw [getFully, dif_neg (by omega), unread, take_window,
      Nat.min_eq_left bound]
  · exact (drop_window _ _ _ _).symm

end FlexBuffer

end Etch.CSharp
