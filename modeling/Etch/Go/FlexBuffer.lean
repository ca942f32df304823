import Etch.Library.Window
import Etch.Packet.Header

/-!
# The Go `FlexBuffer`

A growable byte array with a cursor, written and read through `Write` and
`Read`.  The fields `Index` and `Length` are exported and set directly, so
neither bounds the other.  `int` is taken to be wide enough for any index; the
conversion to `int32` wraps.  `none` stands for a call that panics or never
returns.
-/

namespace Etch.Go

open Etch.Library.BigEndian
open Etch.Library.Window
open Etch.Packet

/-- The conversion `int32(value)`. -/
def int32 (value : Int) : Int :=
  Int.bmod value (2 ^ 32)

theorem int32_le {value : Int} (positive : 0 ≤ value) :
    int32 value ≤ value := by
  simp only [int32, Int.bmod]
  split <;> omega

theorem int32_lt (value : Int) : int32 value < 2 ^ 31 := by
  simp only [int32, Int.bmod]
  split <;> omega

theorem int32_of_lt {value : Int} (lower : 0 ≤ value)
    (upper : value < 2 ^ 31) : int32 value = value := by
  simp only [int32, Int.bmod]
  split <;> omega

structure FlexBuffer where
  buf : List UInt8
  index : Nat
  length : Nat
  buf_pos : 0 < buf.length

namespace FlexBuffer

def newFlexBuffer : FlexBuffer :=
  ⟨List.replicate 32 0, 0, 0, by decide⟩

def avail (fb : FlexBuffer) : Int :=
  fb.length - fb.index

/-- The bytes a full read returns. -/
def unread (fb : FlexBuffer) : List UInt8 :=
  window fb.buf fb.index fb.length

/-- The cursor is within the data, and the data within the array. -/
structure Valid (fb : FlexBuffer) : Prop where
  index_le : fb.index ≤ fb.length
  length_le : fb.length ≤ fb.buf.length

theorem Valid.avail_eq {fb : FlexBuffer} (valid : fb.Valid) :
    fb.avail = fb.unread.length := by
  have order := valid.index_le
  rw [unread, length_window valid.length_le, avail]
  omega

/-! ## Writing -/

/-- `for l < desired { l = l * 2 }` -/
def enlarged (desired : Nat) : Nat → Nat → Nat
  | 0, l => l
  | rounds + 1, l =>
      if l < desired then enlarged desired rounds (l * 2) else l

theorem enlarged_spec {desired rounds l : Nat}
    (enough : desired ≤ l * 2 ^ rounds) :
    desired ≤ enlarged desired rounds l ∧
      l ≤ enlarged desired rounds l := by
  induction rounds generalizing l with
  | zero => exact ⟨by simpa [enlarged] using enough, Nat.le_refl l⟩
  | succ rounds ih =>
      unfold enlarged
      split
      · have := @ih (l * 2) (enough.trans_eq (by ring))
        omega
      · omega

/-- A positive size has doubled past `desired` after as many rounds. -/
theorem le_enlarged {desired l : Nat} (positive : 0 < l) :
    desired ≤ enlarged desired desired l ∧
      l ≤ enlarged desired desired l := by
  apply enlarged_spec
  calc desired ≤ 2 ^ desired := Nat.lt_two_pow_self.le
    _ ≤ l * 2 ^ desired := Nat.le_mul_of_pos_left _ positive

def enlargeBuffer (fb : FlexBuffer) (desired : Nat) : FlexBuffer :=
  { fb with
    buf := fb.buf ++
      List.replicate (enlarged desired desired fb.buf.length -
        fb.buf.length) 0
    buf_pos := by
      have := fb.buf_pos
      rw [List.length_append]
      omega }

def ensureLength (fb : FlexBuffer) (newLength : Nat) : FlexBuffer :=
  if newLength < fb.buf.length then fb else fb.enlargeBuffer newLength

theorem ensureLength_ok (fb : FlexBuffer) (newLength : Nat) :
    newLength ≤ (fb.ensureLength newLength).buf.length ∧
      fb.buf.length ≤ (fb.ensureLength newLength).buf.length ∧
      ∀ start stop, stop ≤ fb.buf.length →
        window (fb.ensureLength newLength).buf start stop =
          window fb.buf start stop := by
  unfold ensureLength
  split
  · exact ⟨by omega, Nat.le_refl _, fun _ _ _ => rfl⟩
  · obtain ⟨covers, larger⟩ := @le_enlarged newLength _ fb.buf_pos
    have size : (fb.enlargeBuffer newLength).buf.length =
        enlarged newLength newLength fb.buf.length := by
      rw [enlargeBuffer, List.length_append, List.length_replicate,
        Nat.add_sub_cancel' larger]
    refine ⟨by omega, by omega, fun start stop inside => ?_⟩
    exact window_append_right _ start inside

/-- `Write(p)`, after which the index stands behind the bytes. -/
def write (fb : FlexBuffer) (p : List UInt8) : FlexBuffer where
  buf := overwrite (fb.ensureLength (fb.index + p.length)).buf fb.index p
  index := fb.index + p.length
  length := max fb.length (fb.index + p.length)
  buf_pos := by
    have room := (fb.ensureLength_ok (fb.index + p.length)).1
    rw [length_overwrite room]
    exact (fb.ensureLength (fb.index + p.length)).buf_pos

/-- `PutInt(i)` -/
def putInt (fb : FlexBuffer) (i : Int) : FlexBuffer :=
  fb.write (toBytes 4 (i % 2 ^ 32).toNat)

@[simp]
theorem index_write (fb : FlexBuffer) (p : List UInt8) :
    (fb.write p).index = fb.index + p.length := rfl

@[simp]
theorem length_write (fb : FlexBuffer) (p : List UInt8) :
    (fb.write p).length = max fb.length (fb.index + p.length) := rfl

theorem valid_write {fb : FlexBuffer} (p : List UInt8)
    (length_le : fb.length ≤ fb.buf.length) : (fb.write p).Valid := by
  obtain ⟨room, larger, -⟩ := fb.ensureLength_ok (fb.index + p.length)
  constructor
  · exact Nat.le_max_right _ _
  · rw [length_write]
    simp only [write]
    rw [length_overwrite room]
    omega

/-- Writing replaces the bytes from the index on, and nothing else. -/
theorem window_write_self {fb : FlexBuffer} (p : List UInt8) :
    window (fb.write p).buf fb.index (fb.index + p.length) = p := by
  have room := (fb.ensureLength_ok (fb.index + p.length)).1
  exact window_overwrite_self (by omega)

theorem window_write_before {fb : FlexBuffer} (p : List UInt8)
    (start : Nat) {stop : Nat} (before : stop ≤ fb.index)
    (inside : stop ≤ fb.buf.length) :
    window (fb.write p).buf start stop = window fb.buf start stop := by
  obtain ⟨room, -, same⟩ := fb.ensureLength_ok (fb.index + p.length)
  simp only [write]
  rw [window_overwrite_before (by omega) start before,
    same start stop inside]

theorem window_write_after {fb : FlexBuffer} (p : List UInt8)
    {start : Nat} (after : fb.index + p.length ≤ start) {stop : Nat}
    (inside : stop ≤ fb.buf.length) :
    window (fb.write p).buf start stop = window fb.buf start stop := by
  obtain ⟨room, -, same⟩ := fb.ensureLength_ok (fb.index + p.length)
  simp only [write]
  rw [window_overwrite_after room after, same start stop inside]

/-- The buffer with the index put back after a write. -/
def writeBack (fb : FlexBuffer) (p : List UInt8) : FlexBuffer :=
  { fb.write p with index := fb.index }

theorem valid_writeBack {fb : FlexBuffer} (valid : fb.Valid)
    (p : List UInt8) : (fb.writeBack p).Valid :=
  ⟨valid.index_le.trans (Nat.le_max_left _ _),
    (valid_write p valid.length_le).length_le⟩

/-- A write at the index overwrites what is unread there. -/
theorem unread_writeBack {fb : FlexBuffer} (valid : fb.Valid)
    (p : List UInt8) :
    (fb.writeBack p).unread = p ++ fb.unread.drop p.length := by
  have order := valid.index_le
  have whole : (fb.writeBack p).unread =
      window (fb.write p).buf fb.index
        (max fb.length (fb.index + p.length)) := rfl
  rw [whole, unread, drop_window,
    ← window_append_window _ (Nat.le_add_right fb.index p.length)
      (Nat.le_max_right _ _),
    window_write_self]
  by_cases shorter : fb.index + p.length ≤ fb.length
  · rw [Nat.max_eq_left shorter,
      window_write_after p (Nat.le_refl _) valid.length_le]
  · rw [Nat.max_eq_right (by omega), window_self,
      window_of_le (by omega)]

/-- The conversion to `int32` keeps the four bytes that are written. -/
theorem putInt_int32 (fb : FlexBuffer) (value : Nat) :
    fb.putInt (int32 value) = fb.write (toBytes 4 value) := by
  have wrap : (int32 value % 2 ^ 32).toNat = value % 256 ^ 4 := by
    simp only [int32, Int.bmod]
    split <;> omega
  have split : value = value / 256 ^ 4 * 256 ^ 4 + value % 256 ^ 4 :=
    (Nat.div_add_mod' value (256 ^ 4)).symm
  rw [putInt, wrap]
  conv_rhs => rw [split, toBytes_add_mul]

/-- Two writes from the start of the unread bytes replace those. -/
theorem unread_write_write {fb : FlexBuffer} (valid : fb.Valid)
    (left right : List UInt8)
    (inside : left.length + right.length ≤ fb.unread.length) :
    ({ (fb.write left).write right with
        index := fb.index } : FlexBuffer).unread =
      left ++ right ++ fb.unread.drop (left.length + right.length) := by
  have order := valid.index_le
  have within := valid.length_le
  rw [unread, length_window within] at inside
  have valid' := valid_write left within
  have same : max fb.length (fb.index + left.length) = fb.length :=
    Nat.max_eq_left (by omega)
  have later : (fb.write left).unread = fb.unread.drop left.length := by
    rw [unread, index_write, length_write, same,
      window_write_after left (Nat.le_refl _) within, unread, drop_window]
  have after := unread_writeBack valid' right
  rw [later, List.drop_drop] at after
  have before : window ((fb.write left).write right).buf fb.index
      (fb.index + left.length) = left := by
    have kept := @window_write_before (fb.write left) right fb.index
      (fb.index + left.length) (Nat.le_refl _)
      ((Nat.le_max_right _ _).trans valid'.length_le)
    rw [kept, window_write_self]
  have whole : ({ (fb.write left).write right with
        index := fb.index } : FlexBuffer).unread =
      window ((fb.write left).write right).buf fb.index
          (fb.index + left.length) ++
        ((fb.write left).writeBack right).unread :=
    (window_append_window _ (Nat.le_add_right _ _)
      (valid'.index_le.trans (Nat.le_max_left _ _))).symm
  rw [whole, before, after, List.append_assoc]

/-! ## Reading -/

/--
`binary.Read` of `n` bytes.  With too few bytes `Read` returns no error, so
that the read is tried again for ever.
-/
def readFull (fb : FlexBuffer) (n : Nat) :
    Option (List UInt8 × FlexBuffer) :=
  if n = 0 then
    some ([], fb)
  else if fb.index + n ≤ fb.length ∧ fb.index + n ≤ fb.buf.length then
    some (window fb.buf fb.index (fb.index + n),
      { fb with index := fb.index + n })
  else
    none

def readInt (fb : FlexBuffer) : Option (Int × FlexBuffer) := do
  let (bytes, fb) ← fb.readFull 4
  some (signed32 (ofBytes bytes), fb)

/-- `ReadBytes(&bytes)` of a slice of `n` bytes -/
def readBytes (fb : FlexBuffer) (n : Nat) :
    Option (List UInt8 × FlexBuffer) :=
  fb.readFull n

/-- `PutFromOther(other, l)`, with both buffers afterwards -/
def putFromOther (fb other : FlexBuffer) (l : Int) :
    Option (FlexBuffer × FlexBuffer) :=
  let toRead := min l other.avail
  if l < 0 ∨ toRead < 0 ∨ other.index + toRead > other.buf.length then
    none
  else
    let p := window other.buf other.index (other.index + toRead.toNat)
    -- the rest of a slice that is not filled stays zero
    let p := p ++ List.replicate (l - toRead).toNat 0
    some (fb.write p,
      { other with index := other.index + toRead.toNat })

def putFromOtherFull (fb other : FlexBuffer) :
    Option (FlexBuffer × FlexBuffer) :=
  fb.putFromOther other (int32 other.avail)

theorem readFull_ok {fb : FlexBuffer} (valid : fb.Valid) {n : Nat}
    (enough : n ≤ fb.unread.length) :
    ∃ next, fb.readFull n = some (fb.unread.take n, next) ∧
      next.buf = fb.buf ∧ next.index = fb.index + n ∧
      next.length = fb.length := by
  have order := valid.index_le
  have inside := valid.length_le
  rw [unread, length_window inside] at enough
  unfold readFull
  split
  · rename_i zero
    subst zero
    exact ⟨fb, by simp, rfl, rfl, rfl⟩
  · rw [if_pos (by omega)]
    refine ⟨{ fb with index := fb.index + n }, ?_, rfl, rfl, rfl⟩
    rw [unread, take_window, Nat.min_eq_left (by omega)]

/-- What is put is the front of what is available, all of it below 2^31. -/
theorem putFromOtherFull_some {fb other next rest : FlexBuffer}
    (valid : other.Valid)
    (done : fb.putFromOtherFull other = some (next, rest)) :
    ∃ count ≤ other.unread.length, count < 2 ^ 31 ∧
      next = fb.write (other.unread.take count) := by
  have size := valid.avail_eq
  have order := valid.index_le
  have inside := valid.length_le
  have bound : int32 other.avail ≤ other.avail := int32_le (by omega)
  have limit := int32_lt other.avail
  unfold putFromOtherFull putFromOther at done
  rw [Int.min_eq_left bound] at done
  simp only [sub_self, Int.toNat_zero, List.replicate_zero,
    List.append_nil] at done
  split at done
  · exact nomatch done
  · rename_i legal
    simp only [Option.some.injEq, Prod.mk.injEq] at done
    refine ⟨(int32 other.avail).toNat, by omega, by omega, ?_⟩
    have gap : other.avail = other.length - other.index := rfl
    rw [← done.1, unread, take_window, Nat.min_eq_left (by omega)]

theorem putFromOtherFull_ok {fb other : FlexBuffer} (valid : other.Valid)
    (small : other.unread.length < 2 ^ 31) :
    ∃ rest, fb.putFromOtherFull other =
      some (fb.write other.unread, rest) := by
  have size := valid.avail_eq
  have order := valid.index_le
  have inside := valid.length_le
  have same : int32 other.avail = other.unread.length := by
    rw [size]
    exact int32_of_lt (by omega) (by omega)
  have stop : other.index + other.unread.length = other.length := by
    rw [unread, length_window inside]
    omega
  unfold putFromOtherFull putFromOther
  rw [same, size, Int.min_self]
  simp only [sub_self, Int.toNat_zero, List.replicate_zero,
    List.append_nil, Int.toNat_natCast, stop]
  rw [if_neg (by omega)]
  exact ⟨_, rfl⟩

end FlexBuffer

end Etch.Go
