import Etch.Library.Fallible
import Etch.Library.Window
import Etch.Packet.Header

/-!
# The Java `FlexBuffer`

A growable byte array with a cursor.  `buffer` is the whole backing array,
also past `length`: a caller may shorten the buffer and lengthen it again.
Sums of `int` values wrap, as they do in the source.
-/

namespace Etch.Java

open Etch.Library.BigEndian
open Etch.Library.Fallible
open Etch.Library.Window
open Etch.Packet

/-- The exceptions the modelled classes throw. -/
inductive Exception where
  | ioException (message : String)
  | eofException (message : String)
  | illegalArgumentException (message : String)
  | indexOutOfBoundsException
deriving DecidableEq

/-- The sum of two `int` values. -/
def intAdd (left right : Int) : Int :=
  Int.bmod (left + right) (2 ^ 32)

theorem intAdd_of_lt {left right : Nat}
    (small : left + right < 2 ^ 31) :
    intAdd left right = (left + right : Nat) := by
  unfold intAdd
  rw [Int.bmod_eq_of_le] <;> push_cast <;> omega

theorem intAdd_of_le {left right : Nat}
    (large : 2 ^ 31 ≤ left + right) (small : left + right < 2 ^ 32) :
    intAdd left right = (left + right : Nat) - 2 ^ 32 := by
  simp only [intAdd, Int.bmod]
  split <;> omega

structure FlexBuffer where
  buffer : List UInt8
  index : Nat
  length : Nat
  index_le : index ≤ length
  length_le : length ≤ buffer.length
  size_lt : buffer.length < 2 ^ 31

namespace FlexBuffer

def INIT_BUFFER_LEN : Nat := 32

def TRIM_BUFFER_LEN : Nat := 16 * 1024

def MAX_BUFFER_LEN : Nat := 4 * 1024 * 1024

/-- `new FlexBuffer()` -/
def empty : FlexBuffer where
  buffer := List.replicate INIT_BUFFER_LEN 0
  index := 0
  length := 0
  index_le := start_le_start
  length_le := Nat.zero_le _
  size_lt := by simp [INIT_BUFFER_LEN]

/-- `new FlexBuffer( buffer )` -/
def adopt (buffer : List UInt8) (size_lt : buffer.length < 2 ^ 31) :
    FlexBuffer :=
  ⟨buffer, 0, buffer.length, start_le_length buffer,
    length_le_length buffer, size_lt⟩

def avail (buf : FlexBuffer) : Nat :=
  buf.length - buf.index

/-- The bytes before `length`. -/
def contents (buf : FlexBuffer) : List UInt8 :=
  buf.buffer.take buf.length

/-- The bytes the forms of `get` would return. -/
def unread (buf : FlexBuffer) : List UInt8 :=
  window buf.buffer buf.index buf.length

@[simp]
theorem length_contents (buf : FlexBuffer) :
    buf.contents.length = buf.length := by
  simp [contents, buf.length_le]

@[simp]
theorem length_unread (buf : FlexBuffer) :
    buf.unread.length = buf.avail :=
  length_window buf.length_le

theorem avail_lt (buf : FlexBuffer) : buf.avail < 2 ^ 31 := by
  have := buf.length_le
  have := buf.size_lt
  unfold avail
  omega

theorem avail_adopt (bytes : List UInt8)
    (size_lt : bytes.length < 2 ^ 31) :
    (adopt bytes size_lt).avail = bytes.length := rfl

theorem unread_adopt (bytes : List UInt8)
    (size_lt : bytes.length < 2 ^ 31) :
    (adopt bytes size_lt).unread = bytes := by
  simp [adopt, unread]

/-! ## Growing -/

/-- `while (len > k && k < MAX_BUFFER_LEN) k = k << 1` -/
def doubled (len : Nat) : Nat → Nat → Nat
  | 0, k => k
  | rounds + 1, k =>
      if k < len ∧ k < MAX_BUFFER_LEN then doubled len rounds (2 * k) else k

/-- The size `ensureLength` arrives at; 32 doublings pass any `int`. -/
def grown (len n : Nat) : Nat :=
  doubled len 32 (max n INIT_BUFFER_LEN)

theorem le_doubled (len rounds k : Nat) : k ≤ doubled len rounds k := by
  induction rounds generalizing k with
  | zero => exact Nat.le_refl k
  | succ rounds ih =>
      unfold doubled
      split
      · have := ih (2 * k)
        omega
      · exact Nat.le_refl k

theorem doubled_lt {len rounds k : Nat} (small : k < 2 ^ 31) :
    doubled len rounds k < 2 ^ 31 := by
  induction rounds generalizing k with
  | zero => exact small
  | succ rounds ih =>
      unfold doubled
      split
      · rename_i below
        apply ih
        have : MAX_BUFFER_LEN < 2 ^ 30 := by decide
        omega
      · exact small

/-- The loop ends with enough room, or at the maximal size. -/
theorem doubled_covers (len : Nat) {rounds k : Nat}
    (enough : MAX_BUFFER_LEN ≤ k * 2 ^ rounds) :
    min len MAX_BUFFER_LEN ≤ doubled len rounds k := by
  induction rounds generalizing k with
  | zero => exact (Nat.min_le_right _ _).trans (by simpa [doubled] using enough)
  | succ rounds ih =>
      unfold doubled
      split
      · apply ih
        calc MAX_BUFFER_LEN ≤ k * 2 ^ (rounds + 1) := enough
          _ = 2 * k * 2 ^ rounds := by ring
      · omega

theorem le_grown (len n : Nat) : n ≤ grown len n :=
  (Nat.le_max_left _ _).trans (le_doubled _ _ _)

theorem grown_lt {len n : Nat} (small : n < 2 ^ 31) :
    grown len n < 2 ^ 31 :=
  doubled_lt (Nat.max_lt.mpr ⟨small, by decide⟩)

theorem grown_covers (len n : Nat) (fits : len ≤ MAX_BUFFER_LEN) :
    len ≤ grown len n := by
  have bound : MAX_BUFFER_LEN ≤ max n INIT_BUFFER_LEN * 2 ^ 32 :=
    calc MAX_BUFFER_LEN ≤ INIT_BUFFER_LEN * 2 ^ 32 := by decide
      _ ≤ max n INIT_BUFFER_LEN * 2 ^ 32 :=
        Nat.mul_le_mul_right _ (Nat.le_max_right _ _)
  have := doubled_covers len bound
  rwa [Nat.min_eq_left fits] at this

def ensureLength (buf : FlexBuffer) (len : Int) :
    Except Exception { next : FlexBuffer // len ≤ next.buffer.length } :=
  if small : len ≤ buf.buffer.length then
    .ok ⟨buf, small⟩
  else
    let k := grown len.toNat buf.buffer.length
    if large : len > k then
      .error (.ioException "buffer overflow")
    else
      have larger : buf.buffer.length ≤ k := le_grown _ _
      .ok
        ⟨{ buf with
            buffer :=
              buf.buffer ++ List.replicate (k - buf.buffer.length) 0
            length_le := by
              have := buf.length_le
              rw [List.length_append]
              omega
            size_lt := by
              have : k < 2 ^ 31 := grown_lt buf.size_lt
              rw [List.length_append, List.length_replicate]
              omega },
          by
            rw [List.length_append, List.length_replicate]
            omega⟩

/-- `ensureLength` makes room and leaves the rest of the buffer alone. -/
theorem ensureLength_ok (buf : FlexBuffer) (len : Int)
    (fits : len ≤ buf.buffer.length ∨ len ≤ MAX_BUFFER_LEN) :
    ∃ next room, buf.ensureLength len = .ok ⟨next, room⟩ ∧
      next.index = buf.index ∧ next.length = buf.length ∧
      next.contents = buf.contents ∧
      (len ≤ buf.buffer.length → next = buf) := by
  unfold ensureLength
  by_cases small : len ≤ buf.buffer.length
  · rw [dif_pos small]
    exact ⟨buf, small, rfl, rfl, rfl, rfl, fun _ => rfl⟩
  · have covers := grown_covers len.toNat buf.buffer.length
      (by have := fits.resolve_left small; omega)
    rw [dif_neg small, dif_neg (by omega)]
    refine ⟨_, _, rfl, rfl, rfl, ?_, fun same => absurd same small⟩
    simp only [contents]
    rw [List.take_append_of_le_length buf.length_le]

/-! ## Index and length -/

def setLength (buf : FlexBuffer) (length : Int) :
    Except Exception FlexBuffer :=
  if length < 0 then
    .error (.illegalArgumentException "length < 0")
  else do
    let ⟨next, room⟩ ← buf.ensureLength length
    .ok
      { next with
        index := min next.index length.toNat
        length := length.toNat
        index_le := Nat.min_le_right _ _
        length_le := by omega }

def setIndex (buf : FlexBuffer) (index : Int) :
    Except Exception FlexBuffer :=
  if inside : index < 0 ∨ index > buf.length then
    .error (.illegalArgumentException "index < 0 || index > length")
  else
    .ok { buf with index := index.toNat, index_le := by omega }

def reset (buf : FlexBuffer) : FlexBuffer where
  buffer :=
    if buf.buffer.length > TRIM_BUFFER_LEN then
      List.replicate TRIM_BUFFER_LEN 0
    else
      buf.buffer
  index := 0
  length := 0
  index_le := start_le_start
  length_le := Nat.zero_le _
  size_lt := by
    split
    · rw [List.length_replicate]
      decide
    · exact buf.size_lt

def checkAvail (buf : FlexBuffer) (len : Nat) : Except Exception Unit :=
  if len > buf.avail then
    .error (.eofException "len > avail()")
  else
    .ok ()

/-- `skip( len, false )` -/
def skip (buf : FlexBuffer) (len : Int) : Except Exception FlexBuffer :=
  if len < 0 then
    .error (.illegalArgumentException "len < 0")
  else if short : len > buf.avail then
    .error (.eofException "len > avail()")
  else
    .ok
      { buf with
        index := buf.index + len.toNat
        index_le := by
          have := buf.index_le
          unfold avail at short
          omega }

@[simp]
theorem contents_reset (buf : FlexBuffer) : buf.reset.contents = [] := rfl

/-- Within the backing array only `index` and `length` change. -/
theorem setLength_ok (buf : FlexBuffer) (length : Nat)
    (inside : length ≤ buf.buffer.length) :
    ∃ next, buf.setLength length = .ok next ∧ next.buffer = buf.buffer ∧
      next.index = min buf.index length ∧ next.length = length := by
  obtain ⟨next, room, done, -, -, -, same⟩ :=
    ensureLength_ok buf length (.inl (by omega))
  obtain rfl := same (by omega)
  rw [setLength, if_neg (by omega), done]
  exact ⟨_, rfl, rfl, rfl, rfl⟩

theorem setIndex_ok (buf : FlexBuffer) (index : Nat)
    (inside : index ≤ buf.length) :
    ∃ next, buf.setIndex index = .ok next ∧ next.buffer = buf.buffer ∧
      next.index = index ∧ next.length = buf.length := by
  refine ⟨{ buf with index := index, index_le := inside }, ?_, rfl, rfl,
    rfl⟩
  rw [setIndex, dif_neg (by omega)]
  rfl

theorem skip_ok {buf : FlexBuffer} {len : Nat} (inside : len ≤ buf.avail) :
    ∃ next, buf.skip len = .ok next ∧
      next.unread = buf.unread.drop len := by
  have bound : buf.index + len ≤ buf.length := by
    have := buf.index_le
    unfold avail at inside
    omega
  refine ⟨{ buf with index := buf.index + len, index_le := bound }, ?_, ?_⟩
  · rw [skip, if_neg (by omega), dif_neg (by omega)]
    rfl
  · exact (drop_window _ _ _ _).symm

/-! ## Reading and writing -/

def getInt (buf : FlexBuffer) : Except Exception (Int × FlexBuffer) := do
  buf.checkAvail 4
  let next ← buf.skip 4
  .ok (signed32 (ofBytes (buf.unread.take 4)), next)

/-- Store `bytes` at the index as by repeated `put( int )`. -/
def putBytes (buf : FlexBuffer) (bytes : List UInt8) :
    Except Exception FlexBuffer := do
  let ⟨next, _⟩ ← buf.ensureLength (intAdd buf.index bytes.length)
  -- a wrapped sum passes `ensureLength` but not the array access
  if room : next.index + bytes.length ≤ next.buffer.length then
    .ok
      { buffer := overwrite next.buffer next.index bytes
        index := next.index + bytes.length
        length := max next.length (next.index + bytes.length)
        index_le := Nat.le_max_right _ _
        length_le := by
          rw [length_overwrite room]
          exact Nat.max_le.mpr ⟨next.length_le, room⟩
        size_lt := by
          rw [length_overwrite room]
          exact next.size_lt }
  else
    .error .indexOutOfBoundsException

def putInt (buf : FlexBuffer) (value : Nat) : Except Exception FlexBuffer :=
  buf.putBytes (toBytes 4 value)

def checkBuf (source : List UInt8) (off : Nat) (len : Int) :
    Except Exception Unit :=
  if off > source.length then
    .error (.illegalArgumentException "off < 0 || off > buf.length")
  else if len < 0 then
    .error (.illegalArgumentException "len < 0")
  else if intAdd off len > source.length then
    .error (.illegalArgumentException "off+len > buf.length")
  else
    .ok ()

/-- `put( byte[] buf, int off, int len )` -/
def putArray (buf : FlexBuffer) (source : List UInt8) (off : Nat)
    (len : Int) : Except Exception FlexBuffer := do
  checkBuf source off len
  if len = 0 then
    .ok buf
  else if off + len > source.length then
    .error .indexOutOfBoundsException
  else
    buf.putBytes (window source off (off + len.toNat))

/-- `put( FlexBuffer buf )`, with both buffers afterwards -/
def put (buf source : FlexBuffer) :
    Except Exception (FlexBuffer × FlexBuffer) := do
  let next ← buf.putArray source.buffer source.index source.avail
  let rest ← source.skip source.avail
  .ok (next, rest)

/-- `put( FlexBuffer buf, int len )`, with both buffers afterwards -/
def putFrom (buf source : FlexBuffer) (len : Int) :
    Except Exception (FlexBuffer × FlexBuffer) :=
  if len > source.avail then
    .error (.illegalArgumentException "len > buf.avail()")
  else do
    let next ← buf.putArray source.buffer source.index len
    let rest ← source.skip len
    .ok (next, rest)

theorem getInt_ok (buf : FlexBuffer) (enough : 4 ≤ buf.avail) :
    ∃ next, buf.getInt =
        .ok (signed32 (ofBytes (buf.unread.take 4)), next) ∧
      next.unread = buf.unread.drop 4 := by
  obtain ⟨next, skipped, rest⟩ := skip_ok enough
  refine ⟨next, ?_, rest⟩
  have advanced : buf.skip 4 = .ok next := skipped
  rw [getInt, checkAvail, if_neg (by omega), advanced]
  rfl

/-- Bytes put at the end of a buffer extend its contents. -/
theorem putBytes_ok {buf : FlexBuffer} {bytes : List UInt8}
    (atEnd : buf.index = buf.length)
    (fits : buf.length + bytes.length ≤ MAX_BUFFER_LEN) :
    ∃ next, buf.putBytes bytes = .ok next ∧
      next.index = next.length ∧
      next.contents = buf.contents ++ bytes := by
  have limit : MAX_BUFFER_LEN < 2 ^ 31 := by decide
  have sum : intAdd buf.index bytes.length =
      (buf.index + bytes.length : Nat) :=
    intAdd_of_lt (by omega)
  obtain ⟨grown, room, done, index, length, contents, -⟩ :=
    ensureLength_ok buf (intAdd buf.index bytes.length)
      (.inr (by rw [sum]; omega))
  have inside : grown.index + bytes.length ≤ grown.buffer.length := by
    rw [sum, ← index] at room
    exact_mod_cast room
  have whole : max grown.length (grown.index + bytes.length) =
      grown.index + bytes.length := by
    omega
  rw [putBytes, done]
  simp only [ok_bind, dif_pos inside]
  refine ⟨_, rfl, whole.symm, ?_⟩
  have front : grown.buffer.take buf.length = buf.contents := by
    rw [← length]
    exact contents
  simp only [FlexBuffer.contents, whole]
  rw [← window_zero, ← window_append_window _ (Nat.zero_le grown.index)
      (Nat.le_add_right _ _),
    window_overwrite_self (by omega),
    window_overwrite_before (by omega) 0 (Nat.le_refl _), window_zero,
    index, atEnd, front]
  rfl

/-- Bytes put over unread ones replace them. -/
theorem putBytes_over (buf : FlexBuffer) (bytes : List UInt8)
    (inside : bytes.length ≤ buf.avail) :
    ∃ next, buf.putBytes bytes = .ok next ∧
      next.buffer = overwrite buf.buffer buf.index bytes ∧
      next.index = buf.index + bytes.length ∧
      next.length = buf.length := by
  have order := buf.index_le
  have within := buf.length_le
  have limit := buf.size_lt
  unfold avail at inside
  have sum : intAdd buf.index bytes.length =
      (buf.index + bytes.length : Nat) :=
    intAdd_of_lt (by omega)
  obtain ⟨next, room, done, -, -, -, same⟩ :=
    ensureLength_ok buf (intAdd buf.index bytes.length)
      (.inl (by omega))
  obtain rfl := same (by omega)
  have fits : next.index + bytes.length ≤ next.buffer.length := by
    omega
  rw [putBytes, done]
  simp only [ok_bind, dif_pos fits]
  exact ⟨_, rfl, rfl, rfl, Nat.max_eq_left (by omega)⟩

theorem putArray_ok {buf : FlexBuffer} {source : List UInt8}
    {off len : Nat} (atEnd : buf.index = buf.length)
    (fits : buf.length + len ≤ MAX_BUFFER_LEN)
    (inside : off + len ≤ source.length)
    (size : source.length < 2 ^ 31) :
    ∃ next, buf.putArray source off len = .ok next ∧
      next.index = next.length ∧
      next.contents = buf.contents ++ window source off (off + len) := by
  have sum : intAdd off len = (off + len : Nat) :=
    intAdd_of_lt (by omega)
  have checked : checkBuf source off len = .ok () := by
    rw [checkBuf, if_neg (by omega), if_neg (by omega),
      if_neg (by omega)]
  rw [putArray, checked]
  simp only [ok_bind, Int.toNat_natCast]
  by_cases empty : len = 0
  · subst empty
    exact ⟨buf, rfl, atEnd, by simp⟩
  · rw [if_neg (by exact_mod_cast empty), if_neg (by omega)]
    apply putBytes_ok atEnd
    rw [length_window inside]
    omega

/-- Moving bytes from the front of one buffer to the end of another. -/
theorem putFrom_ok (buf source : FlexBuffer) (len : Nat)
    (atEnd : buf.index = buf.length)
    (fits : buf.length + len ≤ MAX_BUFFER_LEN)
    (enough : len ≤ source.avail) :
    ∃ next rest, buf.putFrom source len = .ok (next, rest) ∧
      next.index = next.length ∧
      next.contents = buf.contents ++ source.unread.take len ∧
      rest.unread = source.unread.drop len := by
  have order := source.index_le
  have inside := source.length_le
  have bound : source.index + len ≤ source.length := by
    unfold avail at enough
    omega
  obtain ⟨next, put, index, contents⟩ :=
    putArray_ok atEnd fits (bound.trans inside) source.size_lt
  obtain ⟨rest, skipped, remaining⟩ := skip_ok enough
  refine ⟨next, rest, ?_, index, ?_, remaining⟩
  · rw [putFrom, if_neg (by omega), put, skipped]
    rfl
  · rw [contents, unread, take_window, Nat.min_eq_left bound]

theorem put_eq_putFrom (buf source : FlexBuffer) :
    buf.put source = buf.putFrom source source.avail := by
  rw [putFrom, if_neg (by omega)]
  rfl

theorem put_ok (buf source : FlexBuffer)
    (atEnd : buf.index = buf.length)
    (fits : buf.length + source.avail ≤ MAX_BUFFER_LEN) :
    ∃ next rest, buf.put source = .ok (next, rest) ∧
      next.index = next.length ∧
      next.contents = buf.contents ++ source.unread ∧
      rest.unread = [] := by
  obtain ⟨next, rest, done, index, contents, remaining⟩ :=
    putFrom_ok buf source _ atEnd fits (Nat.le_refl _)
  rw [← source.length_unread] at contents remaining
  rw [List.take_length] at contents
  rw [List.drop_length] at remaining
  exact ⟨next, rest, by rw [put_eq_putFrom, done], index, contents,
    remaining⟩

end FlexBuffer

end Etch.Java
