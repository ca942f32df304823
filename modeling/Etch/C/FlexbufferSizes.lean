import Etch.C.Flexbuffer
import Etch.Library.Contract

/-!
# The sizes of C flex buffers

They are `size_t` values, and their sums wrap.  Of what is copied from a buffer
only the place matters here, not the bytes.  Copying from one buffer to another
skips the source, which may be the destination.
-/

namespace Etch.C

open Etch.Library.Contract

/-- An `etch_flexbuffer` without its bytes. -/
structure FlexSizes where
  bufsize : UInt64
  datalen : UInt64
  index : UInt64

/-- The bytes of a buffer that are copied. -/
structure Stretch where
  start : UInt64
  count : UInt64

namespace FlexSizes

open EtchFlexbuffer (enlarged)

def ETCH_INIT_FLEXBUFSIZE : UInt64 := 2048

def ETCH_MAX_FLEXBUFSIZE : UInt64 := 4 * 1024 * 1024

/-! ## Creating -/

/-- `etch_flexbuf_create_bi( buf, bufsize, datalen, index )` -/
def createBi (bufsize datalen index : UInt64) : FlexSizes :=
  ⟨bufsize, datalen, index⟩

/-- `etch_flexbuf_create_b( buf, bufsize, datalen )` -/
def createB (bufsize datalen : UInt64) : FlexSizes :=
  createBi bufsize datalen 0

/-- The size of a buffer that is not given one, or too large a one. -/
def normalized (bufsize : UInt64) : UInt64 :=
  if bufsize ≤ 0 ∨ bufsize > ETCH_MAX_FLEXBUFSIZE then
    ETCH_INIT_FLEXBUFSIZE
  else
    bufsize

/-- `new_flexbuffer( bufsize )` -/
def newFlexbuffer (bufsize : UInt64) : FlexSizes :=
  createBi (normalized bufsize) 0 0

/-- `new_flexbuffer_from( buf, datalen, bufsize, index )`, which may return
null, as `buf` may be null. -/
def newFlexbufferFrom (isNull : Bool) (datalen bufsize index : UInt64) :
    Option FlexSizes :=
  if datalen > normalized bufsize ∨ isNull ∧ datalen ≠ 0 then
    none
  else
    some (createBi (normalized bufsize) datalen index)

/-- `new_flexwriter_from( buf, datalen, bufsize )` -/
def newFlexwriterFrom (isNull : Bool) (datalen bufsize : UInt64) :
    Option FlexSizes :=
  newFlexbufferFrom isNull datalen bufsize datalen

/-! ## Sizes -/

def avail (fbuf : FlexSizes) : UInt64 :=
  fbuf.datalen - fbuf.index

/-- `etch_flexbuf_ensure_size( fbuf, reqsize )` -/
def ensureSize (fbuf : FlexSizes) (reqsize : UInt64) : Bool × FlexSizes :=
  let reqsize :=
    if reqsize < ETCH_INIT_FLEXBUFSIZE then
      ETCH_INIT_FLEXBUFSIZE
    else
      reqsize
  if reqsize ≤ fbuf.bufsize then
    (true, fbuf)
  else if reqsize > ETCH_MAX_FLEXBUFSIZE then
    (false, fbuf)
  else
    (true, { fbuf with
      bufsize := .ofNat (enlarged reqsize.toNat 2048 fbuf.bufsize.toNat) })

/-- `etch_flexbuf_fix_length( fbuf )` -/
def fixLength (fbuf : FlexSizes) : FlexSizes :=
  if fbuf.index > fbuf.datalen then
    { fbuf with datalen := fbuf.index }
  else
    fbuf

/-- `etch_flexbuf_set_length( fbuf, new_datalen )` -/
def setLength (fbuf : FlexSizes) (datalen : UInt64) : Int × FlexSizes :=
  match fbuf.ensureSize datalen with
  | (false, fbuf) => (-1, fbuf)
  | (true, fbuf) =>
      (0, { fbuf with
        datalen
        index := if fbuf.index > datalen then datalen else fbuf.index })

/-- `etch_flexbuf_set_index( fbuf, index )` -/
def setIndex (fbuf : FlexSizes) (index : UInt64) : Int × FlexSizes :=
  if index > fbuf.datalen then
    (-1, fbuf)
  else
    (0, { fbuf with index })

/-! ## Copying -/

/-- `etch_flexbuf_get( fbuf, buf, off, len )`: the number that is returned,
the bytes that are copied to `buf`, and the buffer. -/
def get (fbuf : FlexSizes) (isNull : Bool) (off len : UInt64) :
    UInt64 × Stretch × FlexSizes :=
  if len ≤ 0 ∨ isNull then
    (0, ⟨fbuf.index, 0⟩, fbuf)
  else
    let bytecount := if len < fbuf.avail then len else fbuf.avail
    (bytecount, ⟨fbuf.index + off, bytecount⟩,
      { fbuf with index := fbuf.index + bytecount })

/-- `etch_flexbuf_put( fbuf, buf, off, bytecount )`, which copies as many bytes
as it returns. -/
def put (fbuf : FlexSizes) (bytecount : UInt64) : UInt64 × FlexSizes :=
  if bytecount ≤ 0 then
    (0, fbuf)
  else
    match fbuf.ensureSize (fbuf.index + bytecount) with
    | (false, fbuf) => (0, fbuf)
    | (true, fbuf) =>
        (bytecount,
          fixLength { fbuf with index := fbuf.index + bytecount })

/-- `etch_flexbuf_skip( fbuf, len, put )` -/
def skip (fbuf : FlexSizes) (len : UInt64) (put : Bool) : FlexSizes :=
  if len = 0 then
    fbuf
  else if put then
    let (_, fbuf) := fbuf.ensureSize (fbuf.index + len)
    fixLength { fbuf with index := fbuf.index + len }
  else
    { fbuf with index := fbuf.index + len }

/-- `(size_t) -1` -/
def PUT_ALL : UInt64 := -1

/-- The bytes that `put_from` asks for. -/
def asked (srcfb : FlexSizes) (bytecount : UInt64) : UInt64 :=
  if bytecount = PUT_ALL then srcfb.datalen - srcfb.index else bytecount

/-! ## One buffer -/

/-- `index <= datalen <= bufsize` -/
structure InBounds (sizes : FlexSizes) : Prop where
  index_le : sizes.index.toNat ≤ sizes.datalen.toNat
  datalen_le : sizes.datalen.toNat ≤ sizes.bufsize.toNat

theorem createBi_inBounds_iff (bufsize datalen index : UInt64) :
    InBounds (createBi bufsize datalen index) ↔
      index ≤ datalen ∧ datalen ≤ bufsize :=
  ⟨fun bounds => ⟨bounds.index_le, bounds.datalen_le⟩,
    fun order => ⟨order.1, order.2⟩⟩

/-- `ensure_size` does not refuse. -/
def Room (sizes : FlexSizes) (reqsize : UInt64) : Prop :=
  reqsize ≤ sizes.bufsize ∨ reqsize ≤ ETCH_MAX_FLEXBUFSIZE

theorem toNat_avail {sizes : FlexSizes} (bounds : InBounds sizes) :
    sizes.avail.toNat = sizes.datalen.toNat - sizes.index.toNat :=
  UInt64.toNat_sub_of_le _ _ bounds.index_le

theorem toNat_enlarged {reqsize bufsize : UInt64}
    (small : reqsize ≤ ETCH_MAX_FLEXBUFSIZE) (larger : bufsize ≤ reqsize) :
    reqsize ≤ .ofNat (enlarged reqsize.toNat 2048 bufsize.toNat) ∧
      bufsize ≤ .ofNat (enlarged reqsize.toNat 2048 bufsize.toNat) := by
  have unit : EtchFlexbuffer.ETCH_INIT_FLEXBUFSIZE = 2048 := rfl
  have limit : ETCH_MAX_FLEXBUFSIZE.toNat = 4194304 := rfl
  rw [UInt64.le_iff_toNat_le] at small larger
  obtain ⟨covers, above, _, least⟩ :=
    @EtchFlexbuffer.enlarged_spec reqsize.toNat 2048 bufsize.toNat (by omega)
  have size : (UInt64.ofNat
      (enlarged reqsize.toNat 2048 bufsize.toNat)).toNat =
        enlarged reqsize.toNat 2048 bufsize.toNat :=
    UInt64.toNat_ofNat_of_lt' (by
      have : UInt64.size = 2 ^ 64 := rfl
      omega)
  rw [UInt64.le_iff_toNat_le, UInt64.le_iff_toNat_le, size]
  exact ⟨covers, above⟩

/-- What `ensure_size` does, whether or not it refuses. -/
theorem ensureSize_spec (sizes : FlexSizes) (reqsize : UInt64) :
    (∃ bufsize, sizes.Room reqsize ∧ reqsize ≤ bufsize ∧
      sizes.bufsize ≤ bufsize ∧
      sizes.ensureSize reqsize = (true, { sizes with bufsize })) ∨
    ¬ sizes.Room reqsize ∧ sizes.ensureSize reqsize = (false, sizes) := by
  have initial : ETCH_INIT_FLEXBUFSIZE.toNat = 2048 := rfl
  have limit : ETCH_MAX_FLEXBUFSIZE.toNat = 4194304 := rfl
  unfold ensureSize Room
  dsimp only
  have raised : reqsize.toNat ≤ (if reqsize < ETCH_INIT_FLEXBUFSIZE then
      ETCH_INIT_FLEXBUFSIZE else reqsize).toNat ∧
      ((if reqsize < ETCH_INIT_FLEXBUFSIZE then
        ETCH_INIT_FLEXBUFSIZE else reqsize).toNat ≤ 2048 ∨
      (if reqsize < ETCH_INIT_FLEXBUFSIZE then
        ETCH_INIT_FLEXBUFSIZE else reqsize) = reqsize) := by
    split
    · rename_i below
      rw [UInt64.lt_iff_toNat_lt] at below
      omega
    · exact ⟨le_rfl, .inr rfl⟩
  generalize (if reqsize < ETCH_INIT_FLEXBUFSIZE then
    ETCH_INIT_FLEXBUFSIZE else reqsize) = wanted at raised
  obtain ⟨covers, small⟩ := raised
  by_cases there : wanted ≤ sizes.bufsize
  · rw [if_pos there]
    rw [UInt64.le_iff_toNat_le] at there
    have le : reqsize ≤ sizes.bufsize :=
      UInt64.le_iff_toNat_le.mpr (covers.trans there)
    exact .inl ⟨sizes.bufsize, .inl le, le, UInt64.le_refl _, rfl⟩
  rw [if_neg there]
  by_cases large : wanted > ETCH_MAX_FLEXBUFSIZE
  · rw [if_pos large]
    rw [gt_iff_lt, UInt64.lt_iff_toNat_lt] at large
    obtain below | rfl := small
    · omega
    · refine .inr ⟨?_, rfl⟩
      rintro (le | le)
      · exact there le
      · rw [UInt64.le_iff_toNat_le] at le
        omega
  · rw [if_neg large]
    rw [gt_iff_lt, UInt64.lt_iff_toNat_lt, Nat.not_lt] at large
    rw [UInt64.le_iff_toNat_le, Nat.not_le] at there
    obtain ⟨enough, larger⟩ := toNat_enlarged
      (UInt64.le_iff_toNat_le.mpr large)
      (UInt64.le_iff_toNat_le.mpr there.le)
    have le : reqsize ≤ ETCH_MAX_FLEXBUFSIZE :=
      UInt64.le_iff_toNat_le.mpr (covers.trans large)
    exact .inl ⟨_, .inr le,
      UInt64.le_trans (UInt64.le_iff_toNat_le.mpr covers) enough, larger, rfl⟩

theorem InBounds.fixLength {sizes : FlexSizes}
    (datalen_le : sizes.datalen ≤ sizes.bufsize)
    (index_le : sizes.index ≤ sizes.bufsize) :
    InBounds (FlexSizes.fixLength sizes) := by
  unfold FlexSizes.fixLength
  split
  · exact ⟨le_rfl, index_le⟩
  · rename_i above
    exact ⟨Nat.not_lt.mp above, datalen_le⟩

theorem index_fixLength (sizes : FlexSizes) :
    sizes.fixLength.index = sizes.index := by
  unfold fixLength
  split
  · rfl
  · rfl

theorem bufsize_fixLength (sizes : FlexSizes) :
    sizes.fixLength.bufsize = sizes.bufsize := by
  unfold fixLength
  split
  · rfl
  · rfl

theorem setLength_inBounds {sizes : FlexSizes} (bounds : InBounds sizes)
    (datalen : UInt64) : InBounds (sizes.setLength datalen).2 := by
  unfold setLength
  obtain ⟨bufsize, _, enough, _, does⟩ | ⟨_, does⟩ :=
    sizes.ensureSize_spec datalen
  · rw [does]
    refine ⟨?_, enough⟩
    dsimp only
    split
    · exact le_rfl
    · rename_i above
      exact Nat.not_lt.mp above
  · rw [does]
    exact bounds

theorem setIndex_inBounds {sizes : FlexSizes} (bounds : InBounds sizes)
    (index : UInt64) : InBounds (sizes.setIndex index).2 := by
  unfold setIndex
  split
  · exact bounds
  · rename_i above
    exact ⟨Nat.not_lt.mp above, bounds.datalen_le⟩

/-- What `put` does, which is nothing where there is no room. -/
theorem put_spec {sizes : FlexSizes} (bounds : InBounds sizes)
    (bytecount : UInt64) :
    (∃ sizes', 0 < bytecount ∧ sizes.Room (sizes.index + bytecount) ∧
      sizes.put bytecount = (bytecount, sizes') ∧ InBounds sizes' ∧
      sizes'.index = sizes.index + bytecount) ∨
    (bytecount = 0 ∨ ¬ sizes.Room (sizes.index + bytecount)) ∧
      sizes.put bytecount = (0, sizes) := by
  unfold put
  by_cases none : bytecount ≤ 0
  · rw [if_pos none]
    exact .inr ⟨.inl (UInt64.le_zero_iff.mp none), rfl⟩
  rw [if_neg none]
  obtain ⟨bufsize, room, enough, larger, does⟩ | ⟨full, does⟩ :=
    sizes.ensureSize_spec (sizes.index + bytecount)
  · rw [does]
    refine .inl ⟨_, UInt64.not_le.mp none, room, rfl, ?_,
      index_fixLength _⟩
    exact .fixLength
      (UInt64.le_trans (UInt64.le_iff_toNat_le.mpr bounds.datalen_le) larger)
      enough
  · rw [does]
    exact .inr ⟨.inr full, rfl⟩

theorem put_inBounds {sizes : FlexSizes} (bounds : InBounds sizes)
    (bytecount : UInt64) : InBounds (sizes.put bytecount).2 := by
  obtain ⟨sizes', _, _, does, bounds', _⟩ | ⟨_, does⟩ :=
    put_spec bounds bytecount
  · rw [does]
    exact bounds'
  · rw [does]
    exact bounds

/-- A `get` that is not led out of the data by its offset. -/
def GetsData (sizes : FlexSizes) (isNull : Bool) (off len : UInt64) :
    Prop :=
  len = 0 ∨ isNull = true ∨ sizes.avail = 0 ∨
    off.toNat + min len.toNat sizes.avail.toNat ≤ sizes.avail.toNat

/-- A skip to where the data or the buffer goes. -/
def Skips (sizes : FlexSizes) (len : UInt64) (forPut : Bool) : Prop :=
  if forPut then sizes.Room (sizes.index + len)
  else sizes.index + len ≤ sizes.datalen

/-- A `put_from` that puts nothing, or data of another buffer. -/
def PutsData (destination source : FlexSizes) (same : Prop)
    (bytecount : UInt64) : Prop :=
  bytecount = 0 ∨ ¬ destination.Room (destination.index + bytecount) ∨
    ¬ same ∧ bytecount ≤ source.avail ∧
      destination.index.toNat + bytecount.toNat < 2 ^ 64

theorem get_nothing (sizes : FlexSizes) {isNull : Bool} (off : UInt64)
    {len : UInt64} (nothing : len = 0 ∨ isNull = true) :
    sizes.get isNull off len = (0, ⟨sizes.index, 0⟩, sizes) :=
  if_pos (nothing.imp UInt64.le_zero_iff.mpr id)

/-- A `get` that is not asked for nothing. -/
theorem get_spec {sizes : FlexSizes} (bounds : InBounds sizes)
    {isNull : Bool} (off : UInt64) {len : UInt64}
    (something : ¬ (len = 0 ∨ isNull = true)) :
    ∃ count : UInt64, count.toNat = min len.toNat sizes.avail.toNat ∧
      (sizes.index + count).toNat = sizes.index.toNat + count.toNat ∧
      sizes.get isNull off len =
        (count, ⟨sizes.index + off, count⟩,
          { sizes with index := sizes.index + count }) := by
  have avail := toNat_avail bounds
  have limit := sizes.datalen.toNat_lt
  have order := bounds.index_le
  have asks : ¬ (len ≤ 0 ∨ isNull = true) := fun nothing =>
    something (nothing.imp UInt64.le_zero_iff.mp id)
  have least : (if len < sizes.avail then len else sizes.avail).toNat =
      min len.toNat sizes.avail.toNat := by
    split
    · rename_i less
      rw [UInt64.lt_iff_toNat_lt] at less
      omega
    · rename_i more
      rw [UInt64.lt_iff_toNat_lt] at more
      omega
  refine ⟨_, least, ?_, if_neg asks⟩
  rw [UInt64.toNat_add, least]
  omega

/-- The bytes that `get` copies are those of the buffer as long as the offset
into the target does not lead out of them. -/
theorem inside_get_iff {sizes : FlexSizes} (bounds : InBounds sizes)
    {off len count : UInt64} (asks : len ≠ 0)
    (least : count.toNat = min len.toNat sizes.avail.toNat) :
    (count = 0 ∨ sizes.index.toNat ≤ (sizes.index + off).toNat ∧
      (sizes.index + off).toNat + count.toNat ≤ sizes.datalen.toNat) ↔
    sizes.avail = 0 ∨
      off.toNat + min len.toNat sizes.avail.toNat ≤ sizes.avail.toNat := by
  have avail := toNat_avail bounds
  have order := bounds.index_le
  have first := sizes.index.toNat_lt
  have second := off.toNat_lt
  have limit := sizes.datalen.toNat_lt
  rw [ne_eq, ← UInt64.toNat_inj, UInt64.toNat_zero] at asks
  rw [← UInt64.toNat_inj, ← UInt64.toNat_inj (a := sizes.avail),
    UInt64.toNat_zero, UInt64.toNat_add, least]
  omega

theorem skip_inBounds_iff {sizes : FlexSizes} (bounds : InBounds sizes)
    (len : UInt64) (forPut : Bool) :
    InBounds (sizes.skip len forPut) ↔ sizes.Skips len forPut := by
  unfold Skips
  by_cases none : len = 0
  · subst none
    have room : sizes.index ≤ sizes.bufsize :=
      UInt64.le_iff_toNat_le.mpr (bounds.index_le.trans bounds.datalen_le)
    refine iff_of_true bounds ?_
    rw [UInt64.add_zero]
    split
    · exact .inl room
    · exact UInt64.le_iff_toNat_le.mpr bounds.index_le
  unfold skip
  rw [if_neg none]
  cases forPut with
  | false =>
      rw [if_neg Bool.false_ne_true, if_neg Bool.false_ne_true]
      exact ⟨fun bounds' => bounds'.index_le,
        fun le => ⟨le, bounds.datalen_le⟩⟩
  | true =>
      rw [if_pos rfl, if_pos rfl]
      obtain ⟨bufsize, room, enough, larger, does⟩ | ⟨full, does⟩ :=
        sizes.ensureSize_spec (sizes.index + len)
      · rw [does]
        refine iff_of_true (.fixLength ?_ enough) room
        exact UInt64.le_trans
          (UInt64.le_iff_toNat_le.mpr bounds.datalen_le) larger
      · rw [does]
        refine iff_of_false (fun bounds' => ?_) full
        have le := bounds'.index_le.trans bounds'.datalen_le
        rw [index_fixLength, bufsize_fixLength] at le
        exact full (.inl le)

end FlexSizes

/-! ## Sequences of operations -/

/-- An operation on the buffers there are. -/
inductive FlexOperation where
  | newFlexbuffer (bufsize : UInt64)
  | newFlexbufferFrom (isNull : Bool) (datalen bufsize index : UInt64)
  | newFlexwriterFrom (isNull : Bool) (datalen bufsize : UInt64)
  | createB (bufsize datalen : UInt64)
  | createBi (bufsize datalen index : UInt64)
  | setLength (fbuf : Nat) (datalen : UInt64)
  | setIndex (fbuf : Nat) (index : UInt64)
  | get (fbuf : Nat) (isNull : Bool) (off len : UInt64)
  | put (fbuf : Nat) (bytecount : UInt64)
  | putFrom (dstfb srcfb : Nat) (bytecount : UInt64)
  | skip (fbuf : Nat) (len : UInt64) (forPut : Bool)

/-- What an operation returns that copies, what it copies, and the buffers it
leaves. -/
structure FlexOutcome where
  returned : UInt64
  copied : Stretch
  buffers : List FlexSizes

namespace FlexOperation

open FlexSizes (InBounds PutsData)

/-- The outcome of an operation that copies nothing from a buffer. -/
def leaving (buffers : List FlexSizes) : FlexOutcome :=
  ⟨0, ⟨0, 0⟩, buffers⟩

/-- An operation on one buffer. -/
def changing (buffers : List FlexSizes) (fbuf : Nat)
    (change : FlexSizes → FlexSizes) : Option FlexOutcome := do
  let sizes ← buffers[fbuf]?
  return leaving (buffers.set fbuf (change sizes))

/-- `etch_flexbuf_get`, from one of the buffers. -/
def getting (buffers : List FlexSizes) (fbuf : Nat) (isNull : Bool)
    (off len : UInt64) : Option FlexOutcome := do
  let sizes ← buffers[fbuf]?
  let (returned, copied, sizes) := sizes.get isNull off len
  return ⟨returned, copied, buffers.set fbuf sizes⟩

/-- `etch_flexbuf_put_from`, from one of the buffers to one of them. -/
def puttingFrom (buffers : List FlexSizes) (dstfb srcfb : Nat)
    (bytecount : UInt64) : Option FlexOutcome := do
  let destination ← buffers[dstfb]?
  let source ← buffers[srcfb]?
  let (bytesPut, destination) := destination.put (source.asked bytecount)
  let buffers := buffers.set dstfb destination
  -- the source is skipped as it is now
  let now ← buffers[srcfb]?
  return ⟨bytesPut, ⟨source.index, bytesPut⟩,
    buffers.set srcfb (now.skip bytesPut false)⟩

/-- What comes of an operation, if the buffers exist that it is given. -/
def perform (buffers : List FlexSizes) :
    FlexOperation → Option FlexOutcome
  | .newFlexbuffer bufsize =>
      some (leaving (buffers ++ [.newFlexbuffer bufsize]))
  | .newFlexbufferFrom isNull datalen bufsize index =>
      some (leaving (buffers ++
        (FlexSizes.newFlexbufferFrom isNull datalen bufsize index).toList))
  | .newFlexwriterFrom isNull datalen bufsize =>
      some (leaving (buffers ++
        (FlexSizes.newFlexwriterFrom isNull datalen bufsize).toList))
  | .createB bufsize datalen =>
      some (leaving (buffers ++ [.createB bufsize datalen]))
  | .createBi bufsize datalen index =>
      some (leaving (buffers ++ [.createBi bufsize datalen index]))
  | .setLength fbuf datalen =>
      changing buffers fbuf fun sizes => (sizes.setLength datalen).2
  | .setIndex fbuf index =>
      changing buffers fbuf fun sizes => (sizes.setIndex index).2
  | .get fbuf isNull off len => getting buffers fbuf isNull off len
  | .put fbuf bytecount =>
      changing buffers fbuf fun sizes => (sizes.put bytecount).2
  | .putFrom dstfb srcfb bytecount =>
      puttingFrom buffers dstfb srcfb bytecount
  | .skip fbuf len forPut =>
      changing buffers fbuf fun sizes => sizes.skip len forPut

/-- The buffers after an operation. -/
def step (buffers : List FlexSizes) (operation : FlexOperation) :
    List FlexSizes :=
  match operation.perform buffers with
  | none => buffers
  | some outcome => outcome.buffers

/-! ## What an operation keeps -/

def Good (buffers : List FlexSizes) : Prop :=
  ∀ sizes ∈ buffers, InBounds sizes

/-- The bytes are between the index of the source and its data length. -/
def Inside (sizes : FlexSizes) (copied : Stretch) : Prop :=
  copied.count = 0 ∨
    sizes.index.toNat ≤ copied.start.toNat ∧
      copied.start.toNat + copied.count.toNat ≤ sizes.datalen.toNat

/-- An index has moved by what has been copied. -/
def Advances (before after : List FlexSizes) (fbuf : Nat) (count : UInt64) :
    Prop :=
  ∀ sizes sizes', before[fbuf]? = some sizes → after[fbuf]? = some sizes' →
    sizes'.index.toNat = sizes.index.toNat + count.toNat

/-- What `get` and `put_from` copy is data of the source, and as many bytes as
they return and move their indexes by. -/
def Copies (buffers : List FlexSizes) (outcome : FlexOutcome) :
    FlexOperation → Prop
  | .get fbuf _ _ _ =>
      (∀ sizes, buffers[fbuf]? = some sizes →
        Inside sizes outcome.copied) ∧
      outcome.returned = outcome.copied.count ∧
      Advances buffers outcome.buffers fbuf outcome.returned
  | .putFrom dstfb srcfb _ =>
      (∀ sizes, buffers[srcfb]? = some sizes →
        Inside sizes outcome.copied) ∧
      outcome.returned = outcome.copied.count ∧
      Advances buffers outcome.buffers dstfb outcome.returned ∧
      Advances buffers outcome.buffers srcfb outcome.returned
  | _ => True

/-- The bounds hold after an operation, and it copies what it should. -/
def Meets (buffers : List FlexSizes) (operation : FlexOperation) : Prop :=
  ∀ outcome, operation.perform buffers = some outcome →
    Good outcome.buffers ∧ Copies buffers outcome operation

/-- An operation stays within the sizes that it does not check. -/
def Safe (buffers : List FlexSizes) : FlexOperation → Prop
  | .newFlexbufferFrom isNull datalen bufsize index =>
      datalen > FlexSizes.normalized bufsize ∨ isNull ∧ datalen ≠ 0 ∨
        index ≤ datalen
  | .createB bufsize datalen => datalen ≤ bufsize
  | .createBi bufsize datalen index => index ≤ datalen ∧ datalen ≤ bufsize
  | .get fbuf isNull off len =>
      ∀ sizes, buffers[fbuf]? = some sizes → sizes.GetsData isNull off len
  | .putFrom dstfb srcfb bytecount =>
      ∀ destination, buffers[dstfb]? = some destination →
        ∀ source, buffers[srcfb]? = some source →
          PutsData destination source (dstfb = srcfb)
            (source.asked bytecount)
  | .skip fbuf len forPut =>
      ∀ sizes, buffers[fbuf]? = some sizes → sizes.Skips len forPut
  | _ => True

theorem Good.append {buffers : List FlexSizes} (good : Good buffers)
    (new : List FlexSizes) :
    Good (buffers ++ new) ↔ Good new := by
  constructor
  · exact fun all sizes member => all sizes (List.mem_append_right _ member)
  · intro right sizes member
    exact (List.mem_append.mp member).elim (good sizes) (right sizes)

theorem good_singleton (sizes : FlexSizes) :
    Good [sizes] ↔ InBounds sizes :=
  ⟨fun good => good sizes (List.mem_singleton_self _),
    fun bounds _ member => List.mem_singleton.mp member ▸ bounds⟩

theorem Good.set {buffers : List FlexSizes} (good : Good buffers)
    {fbuf : Nat} {sizes : FlexSizes} (found : buffers[fbuf]? = some sizes)
    (sizes' : FlexSizes) :
    Good (buffers.set fbuf sizes') ↔ InBounds sizes' := by
  constructor
  · intro good'
    exact good' sizes' (List.mem_of_getElem?
      (List.getElem?_set_self (List.getElem?_eq_some_iff.mp found).1))
  · intro bounds other member
    obtain old | rfl := List.mem_or_eq_of_mem_set member
    · exact good other old
    · exact bounds

theorem good_newFlexbufferFrom_iff (isNull : Bool)
    (datalen bufsize index : UInt64) :
    Good (FlexSizes.newFlexbufferFrom isNull datalen bufsize index).toList ↔
      datalen > FlexSizes.normalized bufsize ∨ isNull ∧ datalen ≠ 0 ∨
        index ≤ datalen := by
  unfold FlexSizes.newFlexbufferFrom
  by_cases refused :
      datalen > FlexSizes.normalized bufsize ∨ isNull ∧ datalen ≠ 0
  · rw [if_pos refused]
    exact iff_of_true (fun _ member => nomatch member)
      (refused.imp id .inl)
  · rw [if_neg refused, Option.toList_some, good_singleton,
      FlexSizes.createBi_inBounds_iff, ← or_assoc, or_iff_right refused]
    rw [not_or] at refused
    exact and_iff_left (UInt64.not_lt.mp refused.1)

theorem meets_iff_of_some {buffers : List FlexSizes}
    {operation : FlexOperation} {outcome : FlexOutcome}
    (performs : operation.perform buffers = some outcome) :
    Meets buffers operation ↔
      Good outcome.buffers ∧ Copies buffers outcome operation := by
  constructor
  · exact fun meets => meets outcome performs
  · intro holds other does
    obtain rfl := Option.some.inj (performs.symm.trans does)
    exact holds

theorem meets_of_none {buffers : List FlexSizes} {operation : FlexOperation}
    (performs : operation.perform buffers = none) :
    Meets buffers operation :=
  fun _ does => nomatch performs.symm.trans does

/-- An operation that makes buffers. -/
theorem meets_appending_iff {buffers new : List FlexSizes}
    (good : Good buffers) (operation : FlexOperation)
    (performs : operation.perform buffers =
      some (leaving (buffers ++ new)))
    (copies : Copies buffers (leaving (buffers ++ new)) operation) :
    Meets buffers operation ↔ Good new := by
  refine (meets_iff_of_some performs).trans ?_
  rw [and_iff_left copies]
  exact good.append new

/-- An operation that changes one buffer and copies nothing. -/
theorem meets_changing_iff {buffers : List FlexSizes}
    (good : Good buffers) (operation : FlexOperation) {fbuf : Nat}
    {change : FlexSizes → FlexSizes}
    (performs : operation.perform buffers = changing buffers fbuf change)
    (copies : ∀ outcome, Copies buffers outcome operation) :
    Meets buffers operation ↔
      ∀ sizes, buffers[fbuf]? = some sizes → InBounds (change sizes) := by
  unfold changing at performs
  cases found : buffers[fbuf]? with
  | none =>
      rw [found] at performs
      exact iff_of_true (meets_of_none performs) nofun
  | some sizes =>
      rw [found] at performs
      refine (meets_iff_of_some performs).trans ?_
      rw [and_iff_left (copies _)]
      refine (good.set found _).trans ?_
      exact ⟨fun bounds _ same => Option.some.inj same ▸ bounds,
        fun bounds => bounds sizes rfl⟩

theorem getElem?_set {buffers : List FlexSizes} {fbuf : Nat}
    {sizes : FlexSizes} (found : buffers[fbuf]? = some sizes)
    (sizes' : FlexSizes) : (buffers.set fbuf sizes')[fbuf]? = some sizes' :=
  List.getElem?_set_self (List.getElem?_eq_some_iff.mp found).1

theorem advances_iff {before after : List FlexSizes} {fbuf : Nat}
    {sizes sizes' : FlexSizes} (found : before[fbuf]? = some sizes)
    (now : after[fbuf]? = some sizes') (count : UInt64) :
    Advances before after fbuf count ↔
      sizes'.index.toNat = sizes.index.toNat + count.toNat := by
  constructor
  · exact fun advances => advances sizes sizes' found now
  · intro moves other other' found' now'
    obtain rfl := Option.some.inj (found.symm.trans found')
    obtain rfl := Option.some.inj (now.symm.trans now')
    exact moves

theorem forall_found_iff {buffers : List FlexSizes} {fbuf : Nat}
    {sizes : FlexSizes} (found : buffers[fbuf]? = some sizes)
    (holds : FlexSizes → Prop) :
    (∀ other, buffers[fbuf]? = some other → holds other) ↔ holds sizes := by
  rw [found]
  exact ⟨fun all => all sizes rfl,
    fun holds _ same => Option.some.inj same ▸ holds⟩

theorem meets_get_iff {buffers : List FlexSizes} (good : Good buffers)
    (fbuf : Nat) (isNull : Bool) (off len : UInt64) :
    Meets buffers (.get fbuf isNull off len) ↔
      ∀ sizes, buffers[fbuf]? = some sizes →
        sizes.GetsData isNull off len := by
  cases found : buffers[fbuf]? with
  | none =>
      have performs : perform buffers (.get fbuf isNull off len) = none := by
        change getting buffers fbuf isNull off len = none
        rw [getting, found]
        rfl
      exact iff_of_true (meets_of_none performs) fun _ same => nomatch same
  | some sizes =>
      have bounds := good sizes (List.mem_of_getElem? found)
      have performs : perform buffers (.get fbuf isNull off len) =
          some ⟨(sizes.get isNull off len).1, (sizes.get isNull off len).2.1,
            buffers.set fbuf (sizes.get isNull off len).2.2⟩ := by
        change getting buffers fbuf isNull off len = _
        rw [getting, found]
        rfl
      have now := getElem?_set found (sizes.get isNull off len).2.2
      refine (meets_iff_of_some performs).trans ?_
      rw [← found, forall_found_iff found]
      change Good (buffers.set fbuf (sizes.get isNull off len).2.2) ∧
        (∀ sizes', buffers[fbuf]? = some sizes' →
          Inside sizes' (sizes.get isNull off len).2.1) ∧
        (sizes.get isNull off len).1 =
          (sizes.get isNull off len).2.1.count ∧
        Advances buffers (buffers.set fbuf (sizes.get isNull off len).2.2)
          fbuf (sizes.get isNull off len).1 ↔ _
      rw [good.set found, forall_found_iff found, advances_iff found now]
      by_cases nothing : len = 0 ∨ isNull = true
      · rw [sizes.get_nothing off nothing]
        exact iff_of_true ⟨bounds, .inl rfl, rfl, rfl⟩
          (nothing.imp id .inl)
      · obtain ⟨count, least, sum, gets⟩ :=
          FlexSizes.get_spec bounds off nothing
        rw [not_or] at nothing
        have avail := FlexSizes.toNat_avail bounds
        have order := bounds.index_le
        have bounds' : InBounds { sizes with index := sizes.index + count } :=
          ⟨by dsimp only; omega, bounds.datalen_le⟩
        rw [gets, FlexSizes.GetsData, or_iff_right nothing.1,
          or_iff_right nothing.2,
          ← FlexSizes.inside_get_iff bounds nothing.1 least]
        exact ⟨fun holds => holds.2.1,
          fun inside => ⟨bounds', inside, rfl, sum⟩⟩

theorem performs_putFrom {buffers : List FlexSizes} {dstfb srcfb : Nat}
    {destination source destination' now : FlexSizes}
    {bytecount bytesPut : UInt64}
    (found : buffers[dstfb]? = some destination)
    (there : buffers[srcfb]? = some source)
    (puts : destination.put (source.asked bytecount) =
      (bytesPut, destination'))
    (stands : (buffers.set dstfb destination')[srcfb]? = some now) :
    perform buffers (.putFrom dstfb srcfb bytecount) =
      some ⟨bytesPut, ⟨source.index, bytesPut⟩,
        (buffers.set dstfb destination').set srcfb
          (now.skip bytesPut false)⟩ := by
  change puttingFrom buffers dstfb srcfb bytecount = _
  simp only [puttingFrom, found, there, puts, stands, Option.bind_eq_bind,
    Option.bind_some]
  rfl

theorem set_self {buffers : List FlexSizes} {fbuf : Nat} {sizes : FlexSizes}
    (found : buffers[fbuf]? = some sizes) : buffers.set fbuf sizes = buffers
    := by
  obtain ⟨inside, rfl⟩ := List.getElem?_eq_some_iff.mp found
  exact List.set_getElem_self inside

theorem meets_putFrom_nothing {buffers : List FlexSizes}
    (good : Good buffers) {dstfb srcfb : Nat}
    {destination source : FlexSizes} {bytecount : UInt64}
    (found : buffers[dstfb]? = some destination)
    (there : buffers[srcfb]? = some source)
    (puts : destination.put (source.asked bytecount) = (0, destination)) :
    Meets buffers (.putFrom dstfb srcfb bytecount) := by
  have same := set_self found
  have performs := performs_putFrom found there puts (by rw [same]; exact there)
  have skips : source.skip 0 false = source := if_pos rfl
  rw [same, skips, set_self there] at performs
  refine (meets_iff_of_some performs).mpr
    ⟨good, fun _ _ => .inl rfl, rfl, ?_, ?_⟩
  · exact (advances_iff found found 0).mpr rfl
  · exact (advances_iff there there 0).mpr rfl

/-- The index of a buffer that is put into itself moves twice. -/
theorem not_meets_putFrom_self {buffers : List FlexSizes} {fbuf : Nat}
    {sizes sizes' : FlexSizes} {bytecount : UInt64}
    (found : buffers[fbuf]? = some sizes)
    (positive : 0 < sizes.asked bytecount)
    (puts : sizes.put (sizes.asked bytecount) =
      (sizes.asked bytecount, sizes'))
    (moves : sizes'.index = sizes.index + sizes.asked bytecount) :
    ¬ Meets buffers (.putFrom fbuf fbuf bytecount) := by
  have now := getElem?_set found sizes'
  have last := getElem?_set now (sizes'.skip (sizes.asked bytecount) false)
  have some' : ¬ sizes.asked bytecount = 0 := by
    intro none
    rw [none] at positive
    exact UInt64.lt_irrefl 0 positive
  have skips : (sizes'.skip (sizes.asked bytecount) false).index =
      sizes'.index + sizes.asked bytecount := by
    rw [FlexSizes.skip, if_neg some', if_neg Bool.false_ne_true]
  rw [meets_iff_of_some (performs_putFrom found found puts now)]
  rintro ⟨_, _, _, advances, _⟩
  have moved := (advances_iff found last _).mp advances
  have first := (sizes.asked bytecount).toNat_lt
  have second := sizes.index.toNat_lt
  rw [UInt64.lt_iff_toNat_lt, UInt64.toNat_zero] at positive
  rw [skips, moves, UInt64.toNat_add, UInt64.toNat_add] at moved
  dsimp only at moved
  omega

/-- What is put of another buffer is its data if it has as much. -/
theorem meets_putFrom_other {buffers : List FlexSizes}
    (good : Good buffers) {dstfb srcfb : Nat}
    {destination source destination' : FlexSizes} {bytecount : UInt64}
    (found : buffers[dstfb]? = some destination)
    (there : buffers[srcfb]? = some source) (different : ¬ dstfb = srcfb)
    (positive : 0 < source.asked bytecount)
    (room : destination.Room (destination.index + source.asked bytecount))
    (puts : destination.put (source.asked bytecount) =
      (source.asked bytecount, destination'))
    (bounds' : InBounds destination')
    (moves : destination'.index =
      destination.index + source.asked bytecount) :
    Meets buffers (.putFrom dstfb srcfb bytecount) ↔
      PutsData destination source (dstfb = srcfb)
        (source.asked bytecount) := by
  have bounds := good source (List.mem_of_getElem? there)
  have some' : ¬ source.asked bytecount = 0 := by
    intro none
    rw [none] at positive
    exact UInt64.lt_irrefl 0 positive
  have now : (buffers.set dstfb destination')[srcfb]? = some source := by
    rwa [List.getElem?_set_ne different]
  have skips : source.skip (source.asked bytecount) false =
      { source with index := source.index + source.asked bytecount } := by
    rw [FlexSizes.skip, if_neg some', if_neg Bool.false_ne_true]
  have last := getElem?_set now (source.skip (source.asked bytecount) false)
  have first : ((buffers.set dstfb destination').set srcfb
      (source.skip (source.asked bytecount) false))[dstfb]? =
        some destination' := by
    rw [List.getElem?_set_ne (Ne.symm different)]
    exact getElem?_set found _
  have avail := FlexSizes.toNat_avail bounds
  have order := bounds.index_le
  refine (meets_iff_of_some
    (performs_putFrom found there puts now)).trans ?_
  change Good ((buffers.set dstfb destination').set srcfb
      (source.skip (source.asked bytecount) false)) ∧
    (∀ sizes, buffers[srcfb]? = some sizes →
      Inside sizes ⟨source.index, source.asked bytecount⟩) ∧
    source.asked bytecount = source.asked bytecount ∧
    Advances buffers _ dstfb (source.asked bytecount) ∧
    Advances buffers _ srcfb (source.asked bytecount) ↔ _
  rw [forall_found_iff there, advances_iff found first,
    advances_iff there last, PutsData, or_iff_right some',
    or_iff_right (not_not_intro room), and_iff_right different,
    (((good.set found destination').mpr bounds').set now _), skips, Inside,
    or_iff_right some', moves, UInt64.le_iff_toNat_le, avail]
  dsimp only
  generalize source.asked bytecount = count
  have limit := source.datalen.toNat_lt
  have small := count.toNat_lt
  rw [UInt64.toNat_add, UInt64.toNat_add]
  constructor
  · rintro ⟨_, ⟨_, enough⟩, _, advances, _⟩
    omega
  · rintro ⟨enough, fits⟩
    have sum : (source.index + count).toNat =
        source.index.toNat + count.toNat := by
      rw [UInt64.toNat_add]
      omega
    have bounds'' : InBounds { source with index := source.index + count } :=
      ⟨by dsimp only; omega, bounds.datalen_le⟩
    exact ⟨bounds'', ⟨le_rfl, by omega⟩, rfl, by omega, by omega⟩

theorem meets_putFrom_iff {buffers : List FlexSizes} (good : Good buffers)
    (dstfb srcfb : Nat) (bytecount : UInt64) :
    Meets buffers (.putFrom dstfb srcfb bytecount) ↔
      ∀ destination, buffers[dstfb]? = some destination →
        ∀ source, buffers[srcfb]? = some source →
          PutsData destination source (dstfb = srcfb)
            (source.asked bytecount) := by
  cases found : buffers[dstfb]? with
  | none =>
      have performs :
          perform buffers (.putFrom dstfb srcfb bytecount) = none := by
        change puttingFrom buffers dstfb srcfb bytecount = none
        rw [puttingFrom, found]
        rfl
      exact iff_of_true (meets_of_none performs) fun _ same => nomatch same
  | some destination =>
      cases there : buffers[srcfb]? with
      | none =>
          have performs :
              perform buffers (.putFrom dstfb srcfb bytecount) = none := by
            change puttingFrom buffers dstfb srcfb bytecount = none
            rw [puttingFrom, found, there]
            rfl
          exact iff_of_true (meets_of_none performs)
            fun _ _ _ same => nomatch same
      | some source =>
          have bounds := good destination (List.mem_of_getElem? found)
          rw [← found, ← there, forall_found_iff found,
            forall_found_iff there]
          obtain ⟨destination', positive, room, puts, bounds', moves⟩ |
              ⟨nothing, puts⟩ :=
            FlexSizes.put_spec bounds (source.asked bytecount)
          · by_cases same : dstfb = srcfb
            · subst same
              obtain rfl := Option.some.inj (found.symm.trans there)
              refine iff_of_false
                (not_meets_putFrom_self found positive puts moves) ?_
              rintro (none | full | ⟨different, _⟩)
              · rw [none] at positive
                exact UInt64.lt_irrefl 0 positive
              · exact full room
              · exact different rfl
            · exact meets_putFrom_other good found there same positive room
                puts bounds' moves
          · refine iff_of_true
              (meets_putFrom_nothing good found there puts) ?_
            exact nothing.imp id .inl

theorem meets_iff {buffers : List FlexSizes} (good : Good buffers)
    (operation : FlexOperation) :
    Meets buffers operation ↔ Safe buffers operation := by
  cases operation with
  | newFlexbuffer bufsize =>
      exact (meets_appending_iff good (.newFlexbuffer bufsize) rfl
        trivial).trans (iff_of_true ((good_singleton _).mpr
          ⟨le_rfl, Nat.zero_le _⟩) trivial)
  | newFlexbufferFrom isNull datalen bufsize index =>
      exact (meets_appending_iff good
        (.newFlexbufferFrom isNull datalen bufsize index) rfl trivial).trans
          (good_newFlexbufferFrom_iff isNull datalen bufsize index)
  | newFlexwriterFrom isNull datalen bufsize =>
      exact (meets_appending_iff good
        (.newFlexwriterFrom isNull datalen bufsize) rfl trivial).trans
          ((good_newFlexbufferFrom_iff isNull datalen bufsize datalen).trans
            (iff_of_true (.inr (.inr (UInt64.le_refl _))) trivial))
  | createB bufsize datalen =>
      exact (meets_appending_iff good (.createB bufsize datalen) rfl
        trivial).trans ((good_singleton _).trans
          ((FlexSizes.createBi_inBounds_iff bufsize datalen 0).trans
            (and_iff_right (Nat.zero_le _))))
  | createBi bufsize datalen index =>
      exact (meets_appending_iff good (.createBi bufsize datalen index) rfl
        trivial).trans ((good_singleton _).trans
          (FlexSizes.createBi_inBounds_iff bufsize datalen index))
  | setLength fbuf datalen =>
      exact (meets_changing_iff good (.setLength fbuf datalen) rfl
        fun _ => trivial).trans
        (iff_of_true (fun sizes found => FlexSizes.setLength_inBounds
          (good sizes (List.mem_of_getElem? found)) datalen) trivial)
  | setIndex fbuf index =>
      exact (meets_changing_iff good (.setIndex fbuf index) rfl
        fun _ => trivial).trans
        (iff_of_true (fun sizes found => FlexSizes.setIndex_inBounds
          (good sizes (List.mem_of_getElem? found)) index) trivial)
  | get fbuf isNull off len => exact meets_get_iff good fbuf isNull off len
  | put fbuf bytecount =>
      exact (meets_changing_iff good (.put fbuf bytecount) rfl
        fun _ => trivial).trans
        (iff_of_true (fun sizes found => FlexSizes.put_inBounds
          (good sizes (List.mem_of_getElem? found)) bytecount) trivial)
  | putFrom dstfb srcfb bytecount =>
      exact meets_putFrom_iff good dstfb srcfb bytecount
  | skip fbuf len forPut =>
      refine (meets_changing_iff good (.skip fbuf len forPut) rfl
        fun _ => trivial).trans
        (forall₂_congr fun sizes found => ?_)
      exact FlexSizes.skip_inBounds_iff
        (good sizes (List.mem_of_getElem? found)) len forPut

/-- In a sequence of operations, the bounds hold and what is copied is data
after each of them if and only if each of them is safe. -/
theorem operations_meet_iff (operations : List FlexOperation) :
    Each step [] Meets operations ↔ Each step [] Safe operations := by
  have starts : Good [] := fun _ member => nomatch member
  refine each_iff starts (fun buffers operation good meets => ?_)
    fun buffers operation good => meets_iff good operation
  unfold step
  cases performs : operation.perform buffers with
  | none => exact good
  | some outcome => exact (meets outcome performs).1

/-- A byte is asked for at offset one, of a buffer of two bytes. -/
theorem get_overreads :
    ¬ Each step [] Meets [.createB 2 2, .get 0 false 1 2] := by
  intro each
  have meets := each [.createB 2 2] (.get 0 false 1 2) (List.prefix_refl _)
  obtain ⟨_, inside, _⟩ := meets _ rfl
  obtain none | ⟨_, le⟩ := inside _ rfl
  · exact absurd none (by decide)
  · exact absurd le (by decide)

end FlexOperation

end Etch.C
