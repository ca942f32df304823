import Etch.Java.IdName
import Etch.Library.Stateful

/-!
# The Java `FlexBuffer` among other objects

A `FlexBuffer` adopts the array that it is made of, which its caller and other
buffers may hold as well, and its index and length are `int` values.  Arrays
and buffers are objects of a heap; a reference to no object is null.
-/

namespace Etch.Java

open Etch.Library.Stateful Etch.Library.Window

/-- `byte[]` -/
structure JavaBytes where
  bytes : List UInt8
  size_lt : bytes.length < 2 ^ 31

namespace JavaBytes

def length (array : JavaBytes) : Int32 :=
  Int32.ofNat array.bytes.length

/-- `new byte[length]`, of a length that is not negative -/
def new (length : Int32) : JavaBytes where
  bytes := List.replicate length.toNatClampNeg 0
  size_lt := by
    rw [List.length_replicate]
    exact length.toNatClampNeg_lt

/-- The values are stored from a position on. -/
def store (array : JavaBytes) (position : Nat) (values : List UInt8)
    (fits : position + values.length ≤ array.bytes.length) : JavaBytes where
  bytes := overwrite array.bytes position values
  size_lt := by
    rw [length_overwrite fits]
    exact array.size_lt

/-- A new array of `length` bytes, with all of the old one in front. -/
def extended (array : JavaBytes) (length : Nat) (small : length < 2 ^ 31) :
    JavaBytes where
  bytes :=
    array.bytes ++ List.replicate (length - array.bytes.length) 0
  size_lt := by
    have := array.size_lt
    rw [List.length_append, List.length_replicate]
    omega

end JavaBytes

/-- The fields of a `FlexBuffer`. -/
structure FlexBufferFields where
  buffer : Nat
  index : Int32
  length : Int32

/-- Arrays and buffers, each where its reference points. -/
structure FlexBufferHeap where
  arrays : List JavaBytes
  buffers : List FlexBufferFields

namespace FlexBufferHeap

open FlexBuffer (INIT_BUFFER_LEN TRIM_BUFFER_LEN grown grown_lt)

abbrev Run : Type → Type :=
  EStateM Thrown FlexBufferHeap

/-! ## Objects -/

def array (ref : Nat) : Run JavaBytes :=
  fun heap =>
    match heap.arrays[ref]? with
    | none => .error .nullPointerException heap
    | some array => .ok array heap

def fields (this : Nat) : Run FlexBufferFields :=
  fun heap =>
    match heap.buffers[this]? with
    | none => .error .nullPointerException heap
    | some fields => .ok fields heap

def setArray (ref : Nat) (array : JavaBytes) : Run Unit :=
  fun heap => .ok () { heap with arrays := heap.arrays.set ref array }

def setFields (this : Nat) (fields : FlexBufferFields) : Run Unit :=
  fun heap => .ok () { heap with buffers := heap.buffers.set this fields }

def newArray (array : JavaBytes) : Run Nat :=
  fun heap =>
    .ok heap.arrays.length { heap with arrays := heap.arrays ++ [array] }

def newBuffer (fields : FlexBufferFields) : Run Nat :=
  fun heap =>
    .ok heap.buffers.length { heap with buffers := heap.buffers ++ [fields] }

/-- `System.arraycopy( src, srcPos, dest, destPos, length )` -/
def arraycopy (src : Nat) (srcPos : Int32) (dest : Nat)
    (destPos length : Int32) : Run Unit := do
  let source ← array src
  let target ← array dest
  let values := window source.bytes srcPos.toNatClampNeg
    (srcPos.toNatClampNeg + length.toNatClampNeg)
  if fits : 0 ≤ srcPos ∧ 0 ≤ destPos ∧ 0 ≤ length ∧
      values.length = length.toNatClampNeg ∧
      destPos.toNatClampNeg + values.length ≤ target.bytes.length then
    setArray dest (target.store destPos.toNatClampNeg values fits.2.2.2.2)
  else
    throw (.buffer .indexOutOfBoundsException)

/-! ## Constructors -/

/-- `FlexBuffer( buffer, index, length )` -/
def new (buffer : Nat) (index length : Int32) : Run Nat := do
  let array ← array buffer
  if index < 0 then
    throw (.buffer (.illegalArgumentException "index < 0"))
  else if length < 0 then
    throw (.buffer (.illegalArgumentException "length < 0"))
  else if index + length > array.length then
    throw (.buffer
      (.illegalArgumentException "index+length > buffer.length"))
  else
    newBuffer ⟨buffer, index, index + length⟩

/-- `FlexBuffer( buffer, length )` -/
def newOfLength (buffer : Nat) (length : Int32) : Run Nat :=
  new buffer 0 length

/-- `FlexBuffer( buffer )` -/
def newOf (buffer : Nat) : Run Nat := do
  let array ← array buffer
  new buffer 0 array.length

/-- `FlexBuffer()` -/
def newEmpty : Run Nat := do
  let buffer ← newArray (.new (.ofNat INIT_BUFFER_LEN))
  new buffer 0 0

/-! ## Index and length -/

def getBuf (this : Nat) : Run Nat := do
  let fields ← fields this
  return fields.buffer

def length (this : Nat) : Run Int32 := do
  let fields ← fields this
  return fields.length

def index (this : Nat) : Run Int32 := do
  let fields ← fields this
  return fields.index

def avail (this : Nat) : Run Int32 := do
  let fields ← fields this
  return fields.length - fields.index

def ensureLength (this : Nat) (len : Int32) : Run Unit := do
  let fields ← fields this
  let array ← array fields.buffer
  if len ≤ array.length then
    return
  else
    let k := grown len.toNatClampNeg array.bytes.length
    if len.toInt > k then
      throw (.buffer (.ioException "buffer overflow"))
    else
      let buffer ← newArray (array.extended k (grown_lt array.size_lt))
      setFields this { fields with buffer }

def setLength (this : Nat) (length : Int32) : Run Unit := do
  let _ ← fields this
  if length < 0 then
    throw (.buffer (.illegalArgumentException "length < 0"))
  else
    ensureLength this length
    let fields ← fields this
    setFields this { fields with
      length
      index := if fields.index > length then length else fields.index }

def setIndex (this : Nat) (index : Int32) : Run Unit := do
  let fields ← fields this
  if index < 0 ∨ index > fields.length then
    throw (.buffer
      (.illegalArgumentException "index < 0 || index > length"))
  else
    setFields this { fields with index }

def reset (this : Nat) : Run Unit := do
  let fields ← fields this
  let array ← array fields.buffer
  if array.length > .ofNat TRIM_BUFFER_LEN then
    let buffer ← newArray (.new (.ofNat TRIM_BUFFER_LEN))
    setFields this ⟨buffer, 0, 0⟩
  else
    setFields this { fields with index := 0, length := 0 }

def compact (this : Nat) : Run Unit := do
  let fields ← fields this
  if fields.index = 0 then
    return
  else
    let n := fields.length - fields.index
    if n = 0 then
      reset this
    else
      arraycopy fields.buffer fields.index fields.buffer 0 n
      setFields this { fields with index := 0, length := n }

/-- `fixLength()` -/
def fixLength (this : Nat) : Run Unit := do
  let fields ← fields this
  if fields.index > fields.length then
    setFields this { fields with length := fields.index }
  else
    return

/-- `index += n` -/
def addIndex (this : Nat) (n : Int32) : Run Unit := do
  let fields ← fields this
  setFields this { fields with index := fields.index + n }

def checkBuf (buf : Nat) (off len : Int32) : Run Unit := do
  let array ← array buf
  if off < 0 ∨ off > array.length then
    throw (.buffer
      (.illegalArgumentException "off < 0 || off > buf.length"))
  else if len < 0 then
    throw (.buffer (.illegalArgumentException "len < 0"))
  else if off + len > array.length then
    throw (.buffer (.illegalArgumentException "off+len > buf.length"))
  else
    return

def checkAvail (this : Nat) (len : Int32) : Run Unit := do
  let fields ← fields this
  if len > fields.length - fields.index then
    throw (.buffer (.eofException "len > avail()"))
  else
    return

def skip (this : Nat) (len : Int32) (put : Bool) : Run Unit := do
  let fields ← fields this
  if len < 0 then
    throw (.buffer (.illegalArgumentException "len < 0"))
  else if len = 0 then
    return
  else if put then
    ensureLength this (fields.index + len)
    addIndex this len
    fixLength this
  else
    checkAvail this len
    addIndex this len

/-! ## Reading -/

/-- `buffer[index++]` -/
def load (this : Nat) : Run UInt8 := do
  let fields ← fields this
  setFields this { fields with index := fields.index + 1 }
  let array ← array fields.buffer
  if 0 ≤ fields.index then
    match array.bytes[fields.index.toNatClampNeg]? with
    | some value => return value
    | none => throw .arrayIndexOutOfBoundsException
  else
    throw .arrayIndexOutOfBoundsException

def loadAll (this : Nat) : Nat → Run (List UInt8)
  | 0 => return []
  | n + 1 => do
      let value ← load this
      let values ← loadAll this n
      return value :: values

/-- The next `n` bytes, once they have been checked to be there. -/
def getBytes (this n : Nat) : Run (List UInt8) := do
  checkAvail this (.ofNat n)
  loadAll this n

/-- `value = (value << 8) + (b & 255)`, from a signed first byte on -/
def composed : List UInt8 → Int64
  | [] => 0
  | first :: values =>
      values.foldl (fun value b => (value <<< 8) + b.toUInt64.toInt64)
        first.toInt8.toInt64

/-- `get()` -/
def get (this : Nat) : Run Int32 := do
  let values ← getBytes this 1
  return (values.headD 0).toUInt32.toInt32

def getByte (this : Nat) : Run Int8 := do
  let values ← getBytes this 1
  return (values.headD 0).toInt8

def getShort (this : Nat) : Run Int16 := do
  let values ← getBytes this 2
  return (composed values).toInt16

def getInt (this : Nat) : Run Int32 := do
  let values ← getBytes this 4
  return (composed values).toInt32

def getLong (this : Nat) : Run Int64 := do
  let values ← getBytes this 8
  return composed values

/-- `getFloat()`, with the bits of the result -/
def getFloat (this : Nat) : Run Int32 :=
  getInt this

/-- `getDouble()`, with the bits of the result -/
def getDouble (this : Nat) : Run Int64 :=
  getLong this

/-- `get( buf, off, len )` -/
def getRange (this buf : Nat) (off len : Int32) : Run Int32 := do
  let _ ← fields this
  checkBuf buf off len
  if len = 0 then
    return 0
  else
    checkAvail this 1
    let fields ← fields this
    let n := min len (fields.length - fields.index)
    arraycopy fields.buffer fields.index buf off n
    addIndex this n
    return n

/-- `get( buf )` -/
def getArray (this buf : Nat) : Run Int32 := do
  let _ ← fields this
  let array ← array buf
  getRange this buf 0 array.length

def getFully (this b : Nat) : Run Unit := do
  let _ ← fields this
  let array ← array b
  checkAvail this array.length
  let _ ← getRange this b 0 array.length

def getAvailBytes (this : Nat) : Run Nat := do
  let n ← avail this
  if n < 0 then
    throw .negativeArraySizeException
  else
    let buf ← newArray (.new n)
    let _ ← getArray this buf
    return buf

/-! ## Writing -/

/-- `buffer[index++] = value` -/
def store (this : Nat) (value : UInt8) : Run Unit := do
  let fields ← fields this
  setFields this { fields with index := fields.index + 1 }
  let array ← array fields.buffer
  if fits : 0 ≤ fields.index ∧
      fields.index.toNatClampNeg + 1 ≤ array.bytes.length then
    setArray fields.buffer
      (array.store fields.index.toNatClampNeg [value] fits.2)
  else
    throw .arrayIndexOutOfBoundsException

def storeAll (this : Nat) : List UInt8 → Run Unit
  | [] => return
  | value :: values => do
      store this value
      storeAll this values

/-- Some bytes one by one, once there is room for them. -/
def putBytes (this : Nat) (values : List UInt8) : Run Unit := do
  let fields ← fields this
  ensureLength this (fields.index + .ofNat values.length)
  storeAll this values
  fixLength this

/-- `put( b )` -/
def put (this : Nat) (b : Int32) : Run Unit :=
  putBytes this [b.toUInt32.toUInt8]

def putByte (this : Nat) (value : Int8) : Run Unit :=
  putBytes this [value.toUInt8]

def shortBytes (value : Int16) : List UInt8 :=
  ([8, 0] : List UInt16).map fun shift => (value.toUInt16 >>> shift).toUInt8

def putShort (this : Nat) (value : Int16) : Run Unit :=
  putBytes this (shortBytes value)

def intBytes (value : Int32) : List UInt8 :=
  ([24, 16, 8, 0] : List UInt32).map fun shift => (value.toUInt32 >>> shift).toUInt8

def putInt (this : Nat) (value : Int32) : Run Unit :=
  putBytes this (intBytes value)

def longBytes (value : Int64) : List UInt8 :=
  ([56, 48, 40, 32, 24, 16, 8, 0] : List UInt64).map fun shift =>
    (value.toUInt64 >>> shift).toUInt8

def putLong (this : Nat) (value : Int64) : Run Unit :=
  putBytes this (longBytes value)

/-- `putFloat( value )`, of the bits of the value -/
def putFloat (this : Nat) (bits : Int32) : Run Unit :=
  putInt this bits

/-- `putDouble( value )`, of the bits of the value -/
def putDouble (this : Nat) (bits : Int64) : Run Unit :=
  putLong this bits

/-- `put( buf, off, len )` -/
def putRange (this buf : Nat) (off len : Int32) : Run Unit := do
  let start ← fields this
  checkBuf buf off len
  if len = 0 then
    return
  else
    ensureLength this (start.index + len)
    let fields ← fields this
    arraycopy buf off fields.buffer fields.index len
    addIndex this len
    fixLength this

/-- `put( buf )`, of an array -/
def putArray (this buf : Nat) : Run Unit := do
  let _ ← fields this
  let array ← array buf
  putRange this buf 0 array.length

/-- `put( buf )`, of a `FlexBuffer` -/
def putBuffer (this buf : Nat) : Run Unit := do
  let _ ← fields this
  let source ← fields buf
  let n := source.length - source.index
  putRange this source.buffer source.index n
  skip buf n false

/-- `put( buf, len )`, of a `FlexBuffer` -/
def putFrom (this buf : Nat) (len : Int32) : Run Unit := do
  let _ ← fields this
  let source ← fields buf
  if len > source.length - source.index then
    throw (.buffer (.illegalArgumentException "len > buf.avail()"))
  else
    putRange this source.buffer source.index len
    skip buf len false

/-! ## Sequences of calls -/

/-- A call of a constructor or a method; its caller may also make arrays, and
store bytes in the arrays that it holds. -/
inductive Call where
  | newArray (array : JavaBytes)
  | setArray (ref position : Nat) (value : UInt8)
  | newEmpty
  | newOf (buffer : Nat)
  | newOfLength (buffer : Nat) (length : Int32)
  | new (buffer : Nat) (index length : Int32)
  | getBuf (this : Nat)
  | length (this : Nat)
  | index (this : Nat)
  | avail (this : Nat)
  | setLength (this : Nat) (length : Int32)
  | setIndex (this : Nat) (index : Int32)
  | reset (this : Nat)
  | compact (this : Nat)
  | get (this : Nat)
  | getArray (this buf : Nat)
  | getRange (this buf : Nat) (off len : Int32)
  | getByte (this : Nat)
  | getShort (this : Nat)
  | getInt (this : Nat)
  | getLong (this : Nat)
  | getFloat (this : Nat)
  | getDouble (this : Nat)
  | getFully (this b : Nat)
  | getAvailBytes (this : Nat)
  | put (this : Nat) (b : Int32)
  | putArray (this buf : Nat)
  | putRange (this buf : Nat) (off len : Int32)
  | putBuffer (this buf : Nat)
  | putFrom (this buf : Nat) (len : Int32)
  | putByte (this : Nat) (value : Int8)
  | putShort (this : Nat) (value : Int16)
  | putInt (this : Nat) (value : Int32)
  | putLong (this : Nat) (value : Int64)
  | putFloat (this : Nat) (bits : Int32)
  | putDouble (this : Nat) (bits : Int64)
  | skip (this : Nat) (len : Int32) (put : Bool)

/-- A byte is stored in an array by its caller. -/
def storeByte (ref position : Nat) (value : UInt8) : Run Unit := do
  let array ← array ref
  if fits : position + 1 ≤ array.bytes.length then
    setArray ref (array.store position [value] fits)
  else
    throw .arrayIndexOutOfBoundsException

/-- What is returned is not looked at. -/
def ignoring {α : Type} (m : Run α) : Run Unit :=
  m >>= fun _ => pure ()

def perform : Call → Run Unit
  | .newArray array => ignoring (newArray array)
  | .setArray ref position value => storeByte ref position value
  | .newEmpty => ignoring newEmpty
  | .newOf buffer => ignoring (newOf buffer)
  | .newOfLength buffer length => ignoring (newOfLength buffer length)
  | .new buffer index length => ignoring (new buffer index length)
  | .getBuf this => ignoring (getBuf this)
  | .length this => ignoring (length this)
  | .index this => ignoring (index this)
  | .avail this => ignoring (avail this)
  | .setLength this length => setLength this length
  | .setIndex this index => setIndex this index
  | .reset this => reset this
  | .compact this => compact this
  | .get this => ignoring (get this)
  | .getArray this buf => ignoring (getArray this buf)
  | .getRange this buf off len => ignoring (getRange this buf off len)
  | .getByte this => ignoring (getByte this)
  | .getShort this => ignoring (getShort this)
  | .getInt this => ignoring (getInt this)
  | .getLong this => ignoring (getLong this)
  | .getFloat this => ignoring (getFloat this)
  | .getDouble this => ignoring (getDouble this)
  | .getFully this b => getFully this b
  | .getAvailBytes this => ignoring (getAvailBytes this)
  | .put this b => put this b
  | .putArray this buf => putArray this buf
  | .putRange this buf off len => putRange this buf off len
  | .putBuffer this buf => putBuffer this buf
  | .putFrom this buf len => putFrom this buf len
  | .putByte this value => putByte this value
  | .putShort this value => putShort this value
  | .putInt this value => putInt this value
  | .putLong this value => putLong this value
  | .putFloat this bits => putFloat this bits
  | .putDouble this bits => putDouble this bits
  | .skip this len put => skip this len put

/-- A call, whatever it throws. -/
def step (heap : FlexBufferHeap) (call : Call) : FlexBufferHeap :=
  final (perform call heap)

end FlexBufferHeap

end Etch.Java
