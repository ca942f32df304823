import Etch.Library.Window
import Etch.Packet.Header

/-!
# The C `etch_flexbuffer`

A growable byte array with a cursor.  Nothing is thrown: a put that finds no
room returns that it has put no bytes, and a get that finds too few returns
`-1`.  `buf` is the allocated array, of which `datalen` bytes are meaningful.
-/

namespace Etch.C

open Etch.Library.BigEndian
open Etch.Library.Window
open Etch.Packet

/-- The conversion of a signed value to `size_t`. -/
def toSize (value : Int) : Nat :=
  (value % 2 ^ 64).toNat

theorem toSize_natCast {value : Nat} (small : value < 2 ^ 64) :
    toSize value = value := by
  unfold toSize
  omega

structure EtchFlexbuffer where
  buf : List UInt8
  datalen : Nat
  index : Nat
  datalen_le : datalen ≤ buf.length

namespace EtchFlexbuffer

def ETCH_INIT_FLEXBUFSIZE : Nat := 2048

def ETCH_MAX_FLEXBUFSIZE : Nat := 4 * 1024 * 1024

/-- `(size_t) -1`, all that is available -/
def ETCH_FLEXBUF_PUT_ALL : Nat := 2 ^ 64 - 1

/-- `new_flexbuffer(bufsize)` -/
def newFlexbuffer (bufsize : Nat) : EtchFlexbuffer where
  buf :=
    List.replicate
      (if bufsize = 0 ∨ bufsize > ETCH_MAX_FLEXBUFSIZE then
        ETCH_INIT_FLEXBUFSIZE
      else
        bufsize)
      0
  datalen := 0
  index := 0
  datalen_le := Nat.zero_le _

/-- `new_flexbuffer_from(buf, datalen, datalen, 0)` -/
def newFlexbufferFrom (buf : List UInt8) : EtchFlexbuffer :=
  ⟨buf, buf.length, 0, length_le_length buf⟩

/-- The difference of two `size_t` values. -/
def avail (fbuf : EtchFlexbuffer) : Nat :=
  if fbuf.index ≤ fbuf.datalen then
    fbuf.datalen - fbuf.index
  else
    2 ^ 64 - (fbuf.index - fbuf.datalen)

/-- The meaningful bytes. -/
def contents (fbuf : EtchFlexbuffer) : List UInt8 :=
  fbuf.buf.take fbuf.datalen

/-- The meaningful bytes from the index on. -/
def unread (fbuf : EtchFlexbuffer) : List UInt8 :=
  window fbuf.buf fbuf.index fbuf.datalen

@[simp]
theorem length_contents (fbuf : EtchFlexbuffer) :
    fbuf.contents.length = fbuf.datalen := by
  simp [contents, fbuf.datalen_le]

theorem avail_eq {fbuf : EtchFlexbuffer}
    (order : fbuf.index ≤ fbuf.datalen) :
    fbuf.avail = fbuf.datalen - fbuf.index :=
  if_pos order

theorem length_unread {fbuf : EtchFlexbuffer}
    (order : fbuf.index ≤ fbuf.datalen) :
    fbuf.unread.length = fbuf.avail := by
  rw [avail_eq order]
  exact length_window fbuf.datalen_le

theorem unread_newFlexbufferFrom (bytes : List UInt8) :
    (newFlexbufferFrom bytes).unread = bytes := by
  simp [newFlexbufferFrom, unread]

/-! ## Growing -/

/-- `while(reqsize > newsize) newsize += ETCH_INIT_FLEXBUFSIZE` -/
def enlarged (reqsize : Nat) : Nat → Nat → Nat
  | 0, newsize => newsize
  | rounds + 1, newsize =>
      if reqsize > newsize then
        enlarged reqsize rounds (newsize + ETCH_INIT_FLEXBUFSIZE)
      else
        newsize

theorem enlarged_spec {reqsize rounds newsize : Nat}
    (enough : reqsize ≤ newsize + rounds * ETCH_INIT_FLEXBUFSIZE) :
    reqsize ≤ enlarged reqsize rounds newsize ∧
      newsize ≤ enlarged reqsize rounds newsize ∧
      enlarged reqsize rounds newsize % ETCH_INIT_FLEXBUFSIZE =
        newsize % ETCH_INIT_FLEXBUFSIZE ∧
      (enlarged reqsize rounds newsize = newsize ∨
        enlarged reqsize rounds newsize <
          reqsize + ETCH_INIT_FLEXBUFSIZE) := by
  induction rounds generalizing newsize with
  | zero =>
      simp only [Nat.zero_mul, Nat.add_zero] at enough
      exact ⟨enough, Nat.le_refl _, rfl, .inl rfl⟩
  | succ rounds ih =>
      have unit : ETCH_INIT_FLEXBUFSIZE = 2048 := rfl
      unfold enlarged
      split
      · rw [Nat.succ_mul] at enough
        obtain ⟨covers, larger, residue, least⟩ :=
          @ih (newsize + ETCH_INIT_FLEXBUFSIZE) (by omega)
        rw [Nat.add_mod_right] at residue
        refine ⟨covers, by omega, residue, ?_⟩
        omega
      · omega

/--
The boolean result of `etch_flexbuf_ensure_size` with the buffer afterwards.
The bytes past the old size are unspecified and never read before written.
-/
def ensureSize (fbuf : EtchFlexbuffer) (reqsize : Nat) :
    Bool × EtchFlexbuffer :=
  let reqsize := max reqsize ETCH_INIT_FLEXBUFSIZE
  if reqsize ≤ fbuf.buf.length then
    (true, fbuf)
  else if reqsize > ETCH_MAX_FLEXBUFSIZE then
    (false, fbuf)
  else
    -- 2048 rounds of 2048 bytes reach the maximal size
    let newsize := enlarged reqsize 2048 fbuf.buf.length
    (true,
      { fbuf with
        buf := fbuf.buf ++ List.replicate (newsize - fbuf.buf.length) 0
        datalen_le := by
          have := fbuf.datalen_le
          rw [List.length_append]
          omega })

/-- The sizes `savebuf` takes: whole units up to the maximal size. -/
def Regular (fbuf : EtchFlexbuffer) : Prop :=
  fbuf.buf.length % ETCH_INIT_FLEXBUFSIZE = 0 ∧
    fbuf.buf.length ≤ ETCH_MAX_FLEXBUFSIZE

theorem regular_newFlexbuffer : (newFlexbuffer 0).Regular := by
  constructor
  · rw [newFlexbuffer, List.length_replicate]
    rfl
  · rw [newFlexbuffer, List.length_replicate]
    decide

/-- Making room leaves the meaningful bytes and the cursor alone. -/
theorem ensureSize_ok (fbuf : EtchFlexbuffer) {reqsize : Nat}
    (fits : reqsize ≤ fbuf.buf.length ∨ reqsize ≤ ETCH_MAX_FLEXBUFSIZE) :
    ∃ next, fbuf.ensureSize reqsize = (true, next) ∧
      reqsize ≤ next.buf.length ∧ fbuf.buf.length ≤ next.buf.length ∧
      next.datalen = fbuf.datalen ∧ next.index = fbuf.index ∧
      (∀ stop ≤ fbuf.buf.length, next.buf.take stop = fbuf.buf.take stop) ∧
      (fbuf.Regular → next.Regular) := by
  have unit : ETCH_INIT_FLEXBUFSIZE = 2048 := rfl
  have limit : ETCH_MAX_FLEXBUFSIZE = 4194304 := rfl
  unfold ensureSize
  simp only
  by_cases small : max reqsize ETCH_INIT_FLEXBUFSIZE ≤ fbuf.buf.length
  · rw [if_pos small]
    exact ⟨fbuf, rfl, by omega, Nat.le_refl _, rfl, rfl,
      fun _ _ => rfl, id⟩
  · rw [if_neg small, if_neg (by omega)]
    obtain ⟨covers, larger, residue, least⟩ :=
      @enlarged_spec (max reqsize ETCH_INIT_FLEXBUFSIZE) 2048
        fbuf.buf.length (by omega)
    refine ⟨_, rfl, ?_, ?_, rfl, rfl, ?_, ?_⟩
    · simp only [List.length_append, List.length_replicate]
      omega
    · simp only [List.length_append, List.length_replicate]
      omega
    · intro stop inside
      exact List.take_append_of_le_length inside
    · rintro ⟨whole, bounded⟩
      have residue' : enlarged (max reqsize ETCH_INIT_FLEXBUFSIZE) 2048
          fbuf.buf.length % 2048 = 0 :=
        residue.trans whole
      constructor
      · simp only [List.length_append, List.length_replicate,
          Nat.add_sub_cancel' larger]
        exact residue'
      · simp only [List.length_append, List.length_replicate,
          Nat.add_sub_cancel' larger]
        omega

/-- A request past the maximal size is refused. -/
theorem ensureSize_full {fbuf : EtchFlexbuffer} {reqsize : Nat}
    (regular : fbuf.Regular) (large : ETCH_MAX_FLEXBUFSIZE < reqsize) :
    fbuf.ensureSize reqsize = (false, fbuf) := by
  have bounded := regular.2
  unfold ensureSize
  simp only
  rw [if_neg (by omega), if_pos (by omega)]

/-! ## Index and length -/

/-- The result of `etch_flexbuf_set_length`, with the buffer afterwards. -/
def setLength (fbuf : EtchFlexbuffer) (datalen : Nat) :
    Int × EtchFlexbuffer :=
  let (enough, next) := fbuf.ensureSize datalen
  if room : enough ∧ datalen ≤ next.buf.length then
    (0,
      { next with
        datalen := datalen
        index := min next.index datalen
        datalen_le := room.2 })
  else
    (-1, next)

/-- The result of `etch_flexbuf_set_index`, with the buffer afterwards. -/
def setIndex (fbuf : EtchFlexbuffer) (index : Nat) : Int × EtchFlexbuffer :=
  if index > fbuf.datalen then
    (-1, fbuf)
  else
    (0, { fbuf with index := index })

def reset (fbuf : EtchFlexbuffer) : EtchFlexbuffer :=
  { fbuf with index := 0, datalen := 0, datalen_le := Nat.zero_le _ }

/-- `etch_flexbuf_skip(fbuf, len, FALSE)` -/
def skip (fbuf : EtchFlexbuffer) (len : Nat) : EtchFlexbuffer :=
  { fbuf with index := fbuf.index + len }

theorem contents_reset (fbuf : EtchFlexbuffer) :
    fbuf.reset.contents = [] := rfl

theorem setLength_ok (fbuf : EtchFlexbuffer) {datalen : Nat}
    (inside : datalen ≤ fbuf.buf.length) :
    ∃ next, fbuf.setLength datalen = (0, next) ∧
      fbuf.buf.length ≤ next.buf.length ∧
      (∀ stop ≤ fbuf.buf.length, next.buf.take stop = fbuf.buf.take stop) ∧
      next.datalen = datalen ∧ next.index = min fbuf.index datalen := by
  obtain ⟨next, done, room, larger, -, index, same, -⟩ :=
    fbuf.ensureSize_ok (.inl inside)
  unfold setLength
  simp only [done, room, and_self, dite_true, index]
  exact ⟨_, rfl, larger, same, rfl, rfl⟩

theorem setIndex_ok (fbuf : EtchFlexbuffer) {index : Nat}
    (inside : index ≤ fbuf.datalen) :
    fbuf.setIndex index = (0, { fbuf with index := index }) :=
  if_neg (by omega)

/-! ## Reading and writing -/

/-- The value of `etch_flexbuf_get_int`; `none` is a result of `-1`. -/
def getInt (fbuf : EtchFlexbuffer) : Option Int × EtchFlexbuffer :=
  if fbuf.avail < 4 then
    (none, fbuf)
  else
    (some (signed32
      (ofBytes (window fbuf.buf fbuf.index (fbuf.index + 4)))),
      fbuf.skip 4)

/--
The number of bytes put by `etch_flexbuf_put(fbuf, buf, off, bytecount)`,
where `bytes` are the `bytecount` bytes at `buf + off`.
-/
def put (fbuf : EtchFlexbuffer) (bytes : List UInt8) :
    Nat × EtchFlexbuffer :=
  if bytes.length = 0 then
    (0, fbuf)
  else
    let (enough, next) := fbuf.ensureSize (fbuf.index + bytes.length)
    if room : enough ∧
        next.index + bytes.length ≤ next.buf.length then
      (bytes.length,
        { buf := overwrite next.buf next.index bytes
          index := next.index + bytes.length
          datalen := max next.datalen (next.index + bytes.length)
          datalen_le := by
            rw [length_overwrite room.2]
            exact Nat.max_le.mpr ⟨next.datalen_le, room.2⟩ })
    else
      (0, next)

/-- The number of bytes put, with both buffers afterwards. -/
def putFrom (dstfb srcfb : EtchFlexbuffer) (bytecount : Nat) :
    Nat × EtchFlexbuffer × EtchFlexbuffer :=
  let bytecount :=
    if bytecount = ETCH_FLEXBUF_PUT_ALL then
      srcfb.datalen - srcfb.index
    else
      bytecount
  let (bytes_put, dstfb) :=
    dstfb.put (window srcfb.buf srcfb.index (srcfb.index + bytecount))
  (bytes_put, dstfb, srcfb.skip bytes_put)

theorem unread_skip {fbuf : EtchFlexbuffer} {len : Nat}
    (inside : fbuf.index + len ≤ fbuf.datalen) :
    (fbuf.skip len).unread = fbuf.unread.drop len ∧
      (fbuf.skip len).index ≤ (fbuf.skip len).datalen :=
  ⟨(drop_window _ _ _ _).symm, inside⟩

theorem getInt_ok (fbuf : EtchFlexbuffer)
    (inside : fbuf.index + 4 ≤ fbuf.datalen) :
    fbuf.getInt =
      (some (signed32 (ofBytes (fbuf.unread.take 4))), fbuf.skip 4) := by
  have enough : ¬ fbuf.avail < 4 := by
    rw [avail_eq (by omega)]
    omega
  rw [getInt, if_neg enough, unread, take_window, Nat.min_eq_left inside]

/-- Bytes put at the end of a buffer extend its contents. -/
theorem put_ok {fbuf : EtchFlexbuffer} {bytes : List UInt8}
    (atEnd : fbuf.index = fbuf.datalen) (some : bytes ≠ [])
    (regular : fbuf.Regular)
    (fits : fbuf.datalen + bytes.length ≤ ETCH_MAX_FLEXBUFSIZE) :
    ∃ next, fbuf.put bytes = (bytes.length, next) ∧
      next.index = next.datalen ∧
      next.contents = fbuf.contents ++ bytes ∧ next.Regular := by
  obtain ⟨grown, done, room, larger, datalen, index, same, kept⟩ :=
    @ensureSize_ok fbuf (fbuf.index + bytes.length)
      (.inr (by rw [atEnd]; exact fits))
  have positive : ¬ bytes.length = 0 := by
    simpa using some
  have inside : grown.index + bytes.length ≤ grown.buf.length := by
    rw [index]
    exact room
  have whole : max grown.datalen (grown.index + bytes.length) =
      grown.index + bytes.length := by
    omega
  have front : grown.buf.take fbuf.datalen = fbuf.contents :=
    same _ fbuf.datalen_le
  rw [put, if_neg positive, done]
  simp only [inside, and_self, dite_true]
  refine ⟨_, rfl, whole.symm, ?_, ?_⟩
  · simp only [contents, whole]
    rw [← window_zero, ← window_append_window _ (Nat.zero_le grown.index)
        (Nat.le_add_right _ _),
      window_overwrite_self (by omega),
      window_overwrite_before (by omega) 0 (Nat.le_refl _), window_zero,
      index, atEnd, front]
    rfl
  · unfold Regular
    simp only
    rw [length_overwrite inside]
    exact kept regular

/-- A put past the maximal size puts nothing. -/
theorem put_full {fbuf : EtchFlexbuffer} {bytes : List UInt8}
    (regular : fbuf.Regular)
    (large : ETCH_MAX_FLEXBUFSIZE < fbuf.index + bytes.length) :
    fbuf.put bytes = (0, fbuf) := by
  unfold put
  split
  · rfl
  · rw [ensureSize_full regular large]
    rfl

theorem putFrom_ok (dstfb srcfb : EtchFlexbuffer) {bytecount : Nat}
    (atEnd : dstfb.index = dstfb.datalen) (some : 0 < bytecount)
    (regular : dstfb.Regular)
    (fits : dstfb.datalen + bytecount ≤ ETCH_MAX_FLEXBUFSIZE)
    (inside : srcfb.index + bytecount ≤ srcfb.datalen) :
    ∃ next, dstfb.putFrom srcfb bytecount =
        (bytecount, next, srcfb.skip bytecount) ∧
      next.index = next.datalen ∧
      next.contents = dstfb.contents ++ srcfb.unread.take bytecount ∧
      next.Regular := by
  have size : (window srcfb.buf srcfb.index
      (srcfb.index + bytecount)).length = bytecount := by
    rw [length_window (inside.trans srcfb.datalen_le)]
    omega
  obtain ⟨next, done, index, contents, kept⟩ :=
    @put_ok dstfb (window srcfb.buf srcfb.index
      (srcfb.index + bytecount)) atEnd
      (List.ne_nil_of_length_pos (by omega)) regular (by omega)
  have notAll : ¬ bytecount = ETCH_FLEXBUF_PUT_ALL := by
    have : ETCH_MAX_FLEXBUFSIZE < ETCH_FLEXBUF_PUT_ALL := by decide
    omega
  refine ⟨next, ?_, index, ?_, kept⟩
  · rw [putFrom]
    simp only [if_neg notAll, done, size]
  · rw [contents, unread, take_window, Nat.min_eq_left inside]

/-- `ETCH_FLEXBUF_PUT_ALL` puts what is available. -/
theorem putFrom_all (dstfb srcfb : EtchFlexbuffer) :
    dstfb.putFrom srcfb ETCH_FLEXBUF_PUT_ALL =
      dstfb.putFrom srcfb (srcfb.datalen - srcfb.index) := by
  by_cases all : srcfb.datalen - srcfb.index = ETCH_FLEXBUF_PUT_ALL
  · rw [all]
  · simp only [putFrom, if_neg all, if_true]

/-- A put past the maximal size moves nothing. -/
theorem putFrom_full {dstfb srcfb : EtchFlexbuffer} {bytecount : Nat}
    (regular : dstfb.Regular)
    (large : ETCH_MAX_FLEXBUFSIZE < dstfb.index + bytecount)
    (inside : srcfb.index + bytecount ≤ srcfb.datalen) :
    dstfb.putFrom srcfb bytecount = (0, dstfb, srcfb) := by
  have within := srcfb.datalen_le
  have moved (count : Nat) (more : bytecount ≤ count)
      (bound : srcfb.index + count ≤ srcfb.datalen) :
      dstfb.put (window srcfb.buf srcfb.index (srcfb.index + count)) =
        (0, dstfb) := by
    apply put_full regular
    rw [length_window (by omega)]
    omega
  unfold putFrom
  by_cases all : bytecount = ETCH_FLEXBUF_PUT_ALL
  · simp only [if_pos all]
    rw [moved _ (by omega) (by omega)]
    rfl
  · simp only [if_neg all]
    rw [moved _ (Nat.le_refl _) inside]
    rfl

end EtchFlexbuffer

end Etch.C
