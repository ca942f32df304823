import Etch.CSharp.Value
import Etch.Java.FlexBufferHeap

/-!
# The C# `FlexBuffer` among other objects

The methods of the C# class, on arrays and buffers that are objects as in
Java: an array has fewer than `2^31` bytes, the index and the length are `int`
values whose sums wrap around, and a reference to no object is null.
-/

namespace Etch.CSharp.FlexBufferHeap

open Etch.Library.Window
open Etch.Java (FlexBufferFields FlexBufferHeap JavaBytes)

/-- What the methods throw. -/
inductive HeapThrown where
  | thrown (thrown : Thrown)
  | indexOutOfRangeException
  | overflowException

abbrev Run : Type → Type :=
  EStateM HeapThrown FlexBufferHeap

/-! ## Objects -/

def array (ref : Nat) : Run JavaBytes :=
  fun heap =>
    match heap.arrays[ref]? with
    | none => .error (.thrown .nullReferenceException) heap
    | some array => .ok array heap

def fields (this : Nat) : Run FlexBufferFields :=
  fun heap =>
    match heap.buffers[this]? with
    | none => .error (.thrown .nullReferenceException) heap
    | some fields => .ok fields heap

def setArray (ref : Nat) (array : JavaBytes) : Run Unit :=
  fun heap => .ok () { heap with arrays := heap.arrays.set ref array }

def setFields (this : Nat) (fields : FlexBufferFields) : Run Unit :=
  fun heap => .ok () { heap with buffers := heap.buffers.set this fields }

def newArray (array : JavaBytes) : Run Nat :=
  fun heap =>
    .ok heap.arrays.length { heap with arrays := heap.arrays ++ [array] }

/--
`Buffer.BlockCopy(src, srcOffset, dst, dstOffset, count)` of byte arrays, and
`Array.Copy` with the same arguments
-/
def blockCopy (src : Nat) (srcOffset : Int32) (dst : Nat)
    (dstOffset count : Int32) : Run Unit := do
  let source ← array src
  let target ← array dst
  let values := window source.bytes srcOffset.toNatClampNeg
    (srcOffset.toNatClampNeg + count.toNatClampNeg)
  if fits : 0 ≤ srcOffset ∧ 0 ≤ dstOffset ∧ 0 ≤ count ∧
      dstOffset.toNatClampNeg + values.length ≤ target.bytes.length ∧
      values.length = count.toNatClampNeg then
    setArray dst
      (target.store dstOffset.toNatClampNeg values fits.2.2.2.1)
  else
    throw (.thrown (.argumentException "offset, count"))

/-! ## Index and length -/

def INIT_BUFFER_LEN : Nat := 32

def TRIM_BUFFER_LEN : Nat := 16 * 1024

def MAX_BUFFER_LEN : Nat := 4 * 1024 * 1024

/-- `while ( len > k && k < MAX_BUFFER_LEN ) k = k << 1` -/
def doubled (len : Nat) : Nat → Nat → Nat
  | 0, k => k
  | rounds + 1, k =>
      if k < len ∧ k < MAX_BUFFER_LEN then doubled len rounds (2 * k) else k

/-- The size `EnsureLength` arrives at; 32 doublings pass any `int`. -/
def grown (len n : Nat) : Nat :=
  doubled len 32 (max n INIT_BUFFER_LEN)

theorem grown_eq (len n : Nat) : grown len n = Java.FlexBuffer.grown len n := by
  unfold grown Java.FlexBuffer.grown
  have same (rounds k : Nat) :
      doubled len rounds k = Java.FlexBuffer.doubled len rounds k := by
    induction rounds generalizing k with
    | zero => rfl
    | succ rounds ih =>
        rw [doubled, Java.FlexBuffer.doubled, ih]
        rfl
  exact same _ _

theorem grown_lt {len n : Nat} (small : n < 2 ^ 31) :
    grown len n < 2 ^ 31 := by
  rw [grown_eq]
  exact Java.FlexBuffer.grown_lt small

def avail (this : Nat) : Run Int32 := do
  let fields ← fields this
  return fields.length - fields.index

def ensureLength (this : Nat) (len : Int32) : Run Unit := do
  let fields ← fields this
  let array ← array fields.buffer
  if len ≤ array.length then
    return
  else
    let k := grown len.toNatClampNeg array.bytes.length
    if len.toInt > k then
      throw (.thrown (.ioException "buffer overflow"))
    else
      let buffer ← newArray (array.extended k (grown_lt array.size_lt))
      setFields this { fields with buffer }

def setLength (this : Nat) (length : Int32) : Run Unit := do
  let _ ← fields this
  if length < 0 then
    throw (.thrown (.argumentOutOfRangeException "length < 0"))
  else
    ensureLength this length
    let fields ← fields this
    setFields this { fields with
      length
      index := if fields.index > length then length else fields.index }

def setIndex (this : Nat) (index : Int32) : Run Unit := do
  let fields ← fields this
  if index < 0 ∨ index > fields.length then
    throw (.thrown
      (.argumentOutOfRangeException "index < 0 || index > length"))
  else
    setFields this { fields with index }

def reset (this : Nat) : Run Unit := do
  let fields ← fields this
  let array ← array fields.buffer
  if array.length > .ofNat TRIM_BUFFER_LEN then
    let buffer ← newArray (.new (.ofNat TRIM_BUFFER_LEN))
    setFields this ⟨buffer, 0, 0⟩
  else
    setFields this { fields with index := 0, length := 0 }

def compact (this : Nat) : Run Unit := do
  let fields ← fields this
  if fields.index = 0 then
    return
  else
    let n := fields.length - fields.index
    if n = 0 then
      reset this
    else
      blockCopy fields.buffer fields.index fields.buffer 0 n
      setFields this { fields with index := 0, length := n }

/-- `FixLength()` -/
def fixLength (this : Nat) : Run Unit := do
  let fields ← fields this
  if fields.index > fields.length then
    setFields this { fields with length := fields.index }
  else
    return

/-- `index += n` -/
def addIndex (this : Nat) (n : Int32) : Run Unit := do
  let fields ← fields this
  setFields this { fields with index := fields.index + n }

def checkBuf (buf : Nat) (off len : Int32) : Run Unit := do
  let array ← array buf
  if off < 0 ∨ off > array.length then
    throw (.thrown
      (.argumentOutOfRangeException "off < 0 || off > buf.length"))
  else if len < 0 then
    throw (.thrown (.argumentOutOfRangeException "len < 0"))
  else if off + len > array.length then
    throw (.thrown (.argumentOutOfRangeException "off+len > buf.length"))
  else
    return

def checkAvail (this : Nat) (len : Int32) : Run Unit := do
  let fields ← fields this
  if len > fields.length - fields.index then
    throw (.thrown (.endOfStreamException " len > Avail() "))
  else
    return

def skip (this : Nat) (len : Int32) (put : Bool) : Run Unit := do
  let fields ← fields this
  if len < 0 then
    throw (.thrown (.argumentException "count < 0"))
  else if len = 0 then
    return
  else if put then
    ensureLength this (fields.index + len)
    addIndex this len
    fixLength this
  else
    checkAvail this len
    addIndex this len

/-! ## Reading -/

/-- `buffer[index++]` -/
def load (this : Nat) : Run UInt8 := do
  let fields ← fields this
  setFields this { fields with index := fields.index + 1 }
  let array ← array fields.buffer
  if 0 ≤ fields.index then
    match array.bytes[fields.index.toNatClampNeg]? with
    | some value => return value
    | none => throw .indexOutOfRangeException
  else
    throw .indexOutOfRangeException

def loadAll (this : Nat) : Nat → Run (List UInt8)
  | 0 => return []
  | n + 1 => do
      let value ← load this
      let values ← loadAll this n
      return value :: values

/-- The next `n` bytes, once they have been checked to be there. -/
def getBytes (this n : Nat) : Run (List UInt8) := do
  checkAvail this (.ofNat n)
  loadAll this n

/-- `value = ( value << 8 ) + ( b & 255 )`, from an unsigned first byte on -/
def composed : List UInt8 → Int64
  | [] => 0
  | first :: values =>
      values.foldl (fun value b => (value <<< 8) + b.toUInt64.toInt64)
        first.toUInt64.toInt64

/-- `Get()` -/
def get (this : Nat) : Run Int32 := do
  let values ← getBytes this 1
  return (values.headD 0).toUInt32.toInt32

def getByte (this : Nat) : Run Int8 := do
  let values ← getBytes this 1
  return (values.headD 0).toInt8

def getShort (this : Nat) : Run Int16 := do
  let values ← getBytes this 2
  return (composed values).toInt16

def getInt (this : Nat) : Run Int32 := do
  let values ← getBytes this 4
  return (composed values).toInt32

def getLong (this : Nat) : Run Int64 := do
  let values ← getBytes this 8
  return composed values

/-- `GetFloat()`, with the bits of the result -/
def getFloat (this : Nat) : Run Int32 :=
  getInt this

/-- `GetDouble()`, with the bits of the result -/
def getDouble (this : Nat) : Run Int64 :=
  getLong this

/-- `Get( buf, off, len )` -/
def getRange (this buf : Nat) (off len : Int32) : Run Int32 := do
  let _ ← fields this
  checkBuf buf off len
  if len = 0 then
    return 0
  else
    checkAvail this 1
    let fields ← fields this
    let n := min len (fields.length - fields.index)
    blockCopy fields.buffer fields.index buf off n
    addIndex this n
    return n

/-- `Get( buf )` -/
def getArray (this buf : Nat) : Run Int32 := do
  let _ ← fields this
  let array ← array buf
  getRange this buf 0 array.length

def getFully (this b : Nat) : Run Unit := do
  let _ ← fields this
  let array ← array b
  checkAvail this array.length
  let _ ← getRange this b 0 array.length

def getAvailBytes (this : Nat) : Run Nat := do
  let n ← avail this
  if n < 0 then
    throw .overflowException
  else
    let buf ← newArray (.new n)
    let _ ← getArray this buf
    return buf

/-! ## Writing -/

/-- `buffer[index++] = value` -/
def store (this : Nat) (value : UInt8) : Run Unit := do
  let fields ← fields this
  setFields this { fields with index := fields.index + 1 }
  let array ← array fields.buffer
  if fits : fields.index.toNatClampNeg + 1 ≤ array.bytes.length ∧
      0 ≤ fields.index then
    setArray fields.buffer
      (array.store fields.index.toNatClampNeg [value] fits.1)
  else
    throw .indexOutOfRangeException

def storeAll (this : Nat) : List UInt8 → Run Unit
  | [] => return
  | value :: values => do
      store this value
      storeAll this values

/-- Some bytes one by one, once there is room for them at the index. -/
def putBytes (this : Nat) (values : List UInt8) : Run Unit := do
  let fields ← fields this
  ensureLength this (fields.index + .ofNat values.length)
  storeAll this values
  fixLength this

/-- `Put( b )` -/
def put (this : Nat) (b : Int32) : Run Unit :=
  putBytes this [b.toUInt32.toUInt8]

/-- `PutByte( value )`, of an `sbyte` -/
def putByte (this : Nat) (value : Int8) : Run Unit :=
  putBytes this [value.toUInt8]

/-- The shifts of a signed value leave the same low bytes. -/
def shortBytes (value : Int16) : List UInt8 :=
  ([8, 0] : List Int16).map fun shift => (value >>> shift).toUInt16.toUInt8

def putShort (this : Nat) (value : Int16) : Run Unit :=
  putBytes this (shortBytes value)

def intBytes (value : Int32) : List UInt8 :=
  ([24, 16, 8, 0] : List Int32).map fun shift =>
    (value >>> shift).toUInt32.toUInt8

/-- The room is made at the length, and the bytes are put at the index. -/
def putInt (this : Nat) (value : Int32) : Run Unit := do
  let fields ← fields this
  ensureLength this (fields.length + 4)
  storeAll this (intBytes value)
  fixLength this

def longBytes (value : Int64) : List UInt8 :=
  ([56, 48, 40, 32, 24, 16, 8, 0] : List Int64).map fun shift =>
    (value >>> shift).toUInt64.toUInt8

def putLong (this : Nat) (value : Int64) : Run Unit :=
  putBytes this (longBytes value)

/-- `Put( buf, off, len )` -/
def putRange (this buf : Nat) (off len : Int32) : Run Unit := do
  let start ← fields this
  checkBuf buf off len
  if len = 0 then
    return
  else
    ensureLength this (start.index + len)
    let fields ← fields this
    blockCopy buf off fields.buffer fields.index len
    addIndex this len
    fixLength this

/-- `Put( buf )`, of an array -/
def putArray (this buf : Nat) : Run Unit := do
  let _ ← fields this
  let array ← array buf
  putRange this buf 0 array.length

/-- `Put( buf )`, of a `FlexBuffer` -/
def putBuffer (this buf : Nat) : Run Unit := do
  let _ ← fields this
  let source ← fields buf
  let n := source.length - source.index
  putRange this source.buffer source.index n
  skip buf n false

/-- `Put( buf, len )`, of a `FlexBuffer` -/
def putFrom (this buf : Nat) (len : Int32) : Run Unit := do
  let _ ← fields this
  let source ← fields buf
  if len > source.length - source.index then
    throw (.thrown (.argumentOutOfRangeException "len > buf.Avail()"))
  else
    putRange this source.buffer source.index len
    skip buf len false

end Etch.CSharp.FlexBufferHeap
