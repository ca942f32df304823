import Etch.Cpp.Packetizer

/-!
# Which packets the C++ `EtchPacketizer` delivers

After an oversize frame has been dropped, the loop extracts a packet without
asking whether one is there.  So the frame behind must have come whole, and be
small enough, by the time the oversize one has.
-/

namespace Etch.Cpp.EtchPacketizer

open Etch.Library
open Etch.Library.BigEndian
open Etch.Packet

/-! ## Between two rounds -/

/-- `mReadBuf` is to be read from its front, and `mTempBuf` is empty. -/
structure Idle (p : EtchPacketizer) (content : List UInt8) : Prop where
  index : p.mReadBuf.mIndex = 0
  data : p.mReadBuf.data = content
  sized : p.mReadBuf.Sized
  temp_sized : p.mTempBuf.Sized
  temp_empty : p.mTempBuf.mLength = 0

theorem idle_new (value : Option Int) : (new value).Idle [] :=
  ⟨rfl, rfl, EtchFlexBuffer.sized_new, EtchFlexBuffer.sized_new, rfl⟩

theorem Idle.length {p : EtchPacketizer} {content : List UInt8}
    (idle : p.Idle content) : p.mReadBuf.mLength = content.length := by
  rw [← EtchFlexBuffer.length_data, idle.data]

theorem Idle.avail {p : EtchPacketizer} {content : List UInt8}
    (idle : p.Idle content) :
    p.mReadBuf.getAvailableBytes = content.length := by
  rw [EtchFlexBuffer.getAvailableBytes, idle.index, idle.length,
    Nat.sub_zero]

theorem Idle.unread {p : EtchPacketizer} {content : List UInt8}
    (idle : p.Idle content) : p.mReadBuf.unread = content := by
  rw [EtchFlexBuffer.unread_eq_drop, idle.index, idle.data,
    List.drop_zero]

theorem Idle.length_le {p : EtchPacketizer} {content : List UInt8}
    (idle : p.Idle content) :
    content.length ≤ EtchFlexBuffer.MAX_BUFFER_LEN :=
  idle.length.ge.trans idle.sized.length_le_max

/-- An empty buffer comes to hold the bytes put into it. -/
theorem refill {fb buffer : EtchFlexBuffer} (sized : fb.Sized)
    (empty : fb.mLength = 0) {count : Nat}
    (enough : count ≤ buffer.unread.length)
    (short : count ≤ EtchFlexBuffer.MAX_BUFFER_LEN) :
    ∃ status next, fb.put buffer count = some (status, next) ∧
      next.Sized ∧ next.data = buffer.unread.take count := by
  have start : fb.mIndex = 0 := Nat.le_zero.mp (empty ▸ fb.index_le)
  have nothing : fb.data = [] :=
    List.eq_nil_of_length_eq_zero (by
      rw [EtchFlexBuffer.length_data, empty])
  rw [EtchFlexBuffer.length_unread] at enough
  rcases Nat.eq_zero_or_pos count with rfl | positive
  · refine ⟨_, fb, EtchFlexBuffer.put_none (.inl rfl), sized, ?_⟩
    rw [nothing, List.take_zero]
  · obtain ⟨next, done, sized', -, data⟩ :=
      @EtchFlexBuffer.put_append fb buffer sized (start.trans empty.symm)
        _ positive enough (.inr (by omega))
    refine ⟨_, next, done, sized', ?_⟩
    rw [data, nothing, List.nil_append]

theorem refill_all {fb buffer : EtchFlexBuffer} (sized : fb.Sized)
    (empty : fb.mLength = 0)
    (short : buffer.unread.length ≤ EtchFlexBuffer.MAX_BUFFER_LEN) :
    ∃ status next, fb.putAll buffer = some (status, next) ∧
      next.Sized ∧ next.data = buffer.unread := by
  have refilled := refill sized empty (Nat.le_refl _) short
  rw [List.take_length, EtchFlexBuffer.length_unread] at refilled
  exact refilled

/-- Both buffers, once the bytes have been moved back from one to the other. -/
theorem idle_refilled {mReadBuf mTempBuf : EtchFlexBuffer}
    (sized : mReadBuf.Sized) (temp_sized : mTempBuf.Sized)
    (mMaxPktSize : Nat) :
    Idle ⟨mMaxPktSize, mReadBuf.setIndex 0, mTempBuf.reset⟩
      mReadBuf.data where
  index := EtchFlexBuffer.mIndex_setIndex (Nat.zero_le _)
  data := EtchFlexBuffer.data_setIndex _ _
  sized := sized.setIndex 0
  temp_sized := temp_sized.reset
  temp_empty := EtchFlexBuffer.mLength_reset _

theorem bufferClean_ok {p : EtchPacketizer} (sized : p.mReadBuf.Sized)
    (temp_sized : p.mTempBuf.Sized)
    (temp_empty : p.mTempBuf.mLength = 0) :
    ∃ next, p.bufferClean = some next ∧ next.Idle p.mReadBuf.unread ∧
      next.mMaxPktSize = p.mMaxPktSize := by
  have short : p.mReadBuf.unread.length ≤
      EtchFlexBuffer.MAX_BUFFER_LEN := by
    rw [EtchFlexBuffer.length_unread]
    exact (Nat.sub_le _ _).trans sized.length_le_max
  obtain ⟨_, temp, put, sized', held⟩ :=
    refill_all temp_sized temp_empty short
  have moved : (temp.setIndex 0).unread = p.mReadBuf.unread := by
    rw [EtchFlexBuffer.unread_setIndex_zero, held]
  obtain ⟨_, read, put', sized'', held'⟩ :=
    @refill_all p.mReadBuf.reset (temp.setIndex 0) sized.reset
      (EtchFlexBuffer.mLength_reset _) (by rw [moved]; exact short)
  have idle := idle_refilled sized'' (sized'.setIndex 0) p.mMaxPktSize
  rw [held', moved] at idle
  refine ⟨_, ?_, idle, rfl⟩
  simp only [bufferClean, put, put', Option.bind_eq_bind,
    Option.bind_some]

/-! ## One packet -/

/-- Without a whole header there is no packet. -/
theorem bufferContainsPacket_few {p : EtchPacketizer}
    {content : List UInt8} (idle : p.Idle content)
    (few : content.length < HEADER_SIZE) :
    p.bufferContainsPacket = some (false, p) := by
  have avail := idle.avail
  unfold bufferContainsPacket bufferContainsHeader
  rw [if_pos (by omega)]
  rfl

/-- The header at the front of `mReadBuf` is read. -/
theorem read_header {p : EtchPacketizer} {rest : List UInt8} {size : Nat}
    (idle : p.Idle (header size ++ rest)) (small : size < 2 ^ 32) :
    p.bufferContainsHeader =
        some (true, { p with mReadBuf := p.mReadBuf.setIndex 4 }) ∧
      (p.mReadBuf.setIndex 4).getInteger =
        some (size, p.mReadBuf.setIndex HEADER_SIZE) ∧
      HEADER_SIZE + rest.length = p.mReadBuf.mLength := by
  have index := idle.index
  have avail := idle.avail
  have length := idle.length
  have eight : HEADER_SIZE = 8 := rfl
  rw [List.length_append, length_header] at avail length
  have signature : p.mReadBuf.getInteger =
      some (SIG, p.mReadBuf.setIndex 4) := by
    rw [EtchFlexBuffer.getInteger_ok (by omega), idle.unread, header,
      List.append_assoc, List.take_left' (length_toBytes 4 SIG),
      ofBytes_toBytes_of_lt (by decide), index]
  have size_read : (p.mReadBuf.setIndex 4).getInteger =
      some (size, p.mReadBuf.setIndex HEADER_SIZE) := by
    have inside : 4 ≤ p.mReadBuf.mLength := by omega
    have place := EtchFlexBuffer.mIndex_setIndex inside
    rw [EtchFlexBuffer.getInteger_ok
        (by rw [place, EtchFlexBuffer.mLength_setIndex]; omega),
      EtchFlexBuffer.unread_setIndex inside, idle.data, header,
      List.append_assoc, List.drop_left' (length_toBytes 4 SIG),
      List.take_left' (length_toBytes 4 size),
      ofBytes_toBytes_of_lt (by omega), place,
      EtchFlexBuffer.setIndex_setIndex 4 (by omega)]
    rfl
  refine ⟨?_, size_read, length.symm⟩
  unfold bufferContainsHeader
  rw [if_neg (by omega)]
  simp only [signature, Option.getD_some, if_true]

/-- A packet that has not come whole is waited for. -/
theorem bufferContainsPacket_part {p : EtchPacketizer}
    {rest : List UInt8} {size : Nat}
    (idle : p.Idle (header size ++ rest)) (small : size < 2 ^ 32)
    (part : rest.length < size) :
    p.bufferContainsPacket = some (false, p) := by
  obtain ⟨found, read, total⟩ := read_header idle small
  have avail : (p.mReadBuf.setIndex HEADER_SIZE).getAvailableBytes =
      rest.length := by
    rw [EtchFlexBuffer.getAvailableBytes, EtchFlexBuffer.mLength_setIndex,
      EtchFlexBuffer.mIndex_setIndex (by omega)]
    omega
  have back : (p.mReadBuf.setIndex HEADER_SIZE).setIndex 0 =
      p.mReadBuf := by
    rw [EtchFlexBuffer.setIndex_setIndex _ (Nat.zero_le _),
      EtchFlexBuffer.setIndex_self idle.index]
  simp only [bufferContainsPacket, found, read, avail, part, back,
    Option.bind_eq_bind, Option.bind_some, if_true]

/-- A packet within the limit stays at the front. -/
theorem bufferContainsPacket_whole {p : EtchPacketizer}
    {rest : List UInt8} {size : Nat}
    (idle : p.Idle (header size ++ rest)) (small : size < 2 ^ 32)
    (whole : size ≤ rest.length) (within : size ≤ p.mMaxPktSize) :
    p.bufferContainsPacket = some (true, p) := by
  obtain ⟨found, read, total⟩ := read_header idle small
  have avail : (p.mReadBuf.setIndex HEADER_SIZE).getAvailableBytes =
      rest.length := by
    rw [EtchFlexBuffer.getAvailableBytes, EtchFlexBuffer.mLength_setIndex,
      EtchFlexBuffer.mIndex_setIndex (by omega)]
    omega
  have back : (p.mReadBuf.setIndex HEADER_SIZE).setIndex 0 =
      p.mReadBuf := by
    rw [EtchFlexBuffer.setIndex_setIndex _ (Nat.zero_le _),
      EtchFlexBuffer.setIndex_self idle.index]
  simp only [bufferContainsPacket, found, read, avail, back,
    Nat.not_lt.mpr whole, Nat.not_lt.mpr within, Option.bind_eq_bind,
    Option.bind_some, if_true, if_false]

/-- A packet beyond the limit is dropped, and a packet announced. -/
theorem bufferContainsPacket_oversize {p : EtchPacketizer}
    {rest : List UInt8} {size : Nat}
    (idle : p.Idle (header size ++ rest)) (small : size < 2 ^ 32)
    (whole : size ≤ rest.length) (excess : p.mMaxPktSize < size) :
    ∃ next, p.bufferContainsPacket = some (true, next) ∧
      next.Idle (rest.drop size) ∧ next.mMaxPktSize = p.mMaxPktSize := by
  obtain ⟨found, read, total⟩ := read_header idle small
  have place : (p.mReadBuf.setIndex HEADER_SIZE).mIndex = HEADER_SIZE :=
    EtchFlexBuffer.mIndex_setIndex (by omega)
  have avail : (p.mReadBuf.setIndex HEADER_SIZE).getAvailableBytes =
      rest.length := by
    rw [EtchFlexBuffer.getAvailableBytes, EtchFlexBuffer.mLength_setIndex,
      place]
    omega
  have limit := idle.length_le
  rw [List.length_append, length_header] at limit
  have sum : uint32Add HEADER_SIZE size = HEADER_SIZE + size := by
    have below : EtchFlexBuffer.MAX_BUFFER_LEN < 2 ^ 32 := by decide
    exact Nat.mod_eq_of_lt (by omega)
  have skip : (p.mReadBuf.setIndex HEADER_SIZE).setIndex
      (HEADER_SIZE + size) = p.mReadBuf.setIndex (HEADER_SIZE + size) :=
    EtchFlexBuffer.setIndex_setIndex _ (by omega)
  obtain ⟨next, cleaned, idle', same⟩ :=
    @bufferClean_ok
      { p with mReadBuf := p.mReadBuf.setIndex (HEADER_SIZE + size) }
      (idle.sized.setIndex _) idle.temp_sized idle.temp_empty
  have left : (p.mReadBuf.setIndex (HEADER_SIZE + size)).unread =
      rest.drop size := by
    rw [EtchFlexBuffer.unread_setIndex (by omega), idle.data,
      ← List.drop_drop, List.drop_left' (length_header size)]
  have front : next.mReadBuf.setIndex 0 = next.mReadBuf :=
    EtchFlexBuffer.setIndex_self idle'.index
  rw [left] at idle'
  refine ⟨next, ?_, idle', same⟩
  simp only [bufferContainsPacket, found, read, avail, place, sum, skip,
    cleaned, front, Nat.not_lt.mpr whole, excess, gt_iff_lt,
    Option.bind_eq_bind, Option.bind_some, if_true, if_false]

theorem saveRest_ok {mTempBuf mReadBuf : EtchFlexBuffer}
    (sized : mTempBuf.Sized) (empty : mTempBuf.mLength = 0)
    (short : mReadBuf.unread.length ≤ EtchFlexBuffer.MAX_BUFFER_LEN) :
    ∃ temp, saveRest mTempBuf mReadBuf = some temp ∧ temp.Sized ∧
      temp.unread = mReadBuf.unread := by
  unfold saveRest
  split
  · obtain ⟨_, temp, put, sized', held⟩ := refill_all sized empty short
    refine ⟨temp.setIndex 0, ?_, sized'.setIndex 0, ?_⟩
    · simp only [put, Option.bind_eq_bind, Option.bind_some]
    · rw [EtchFlexBuffer.unread_setIndex_zero, held]
  · rename_i none
    have nothing : mReadBuf.unread.length = 0 := by
      rw [EtchFlexBuffer.length_unread]
      omega
    have nothing' : mTempBuf.unread.length = 0 := by
      rw [EtchFlexBuffer.length_unread,
        EtchFlexBuffer.getAvailableBytes, empty, Nat.zero_sub]
    refine ⟨mTempBuf, rfl, sized, ?_⟩
    rw [List.eq_nil_of_length_eq_zero nothing,
      List.eq_nil_of_length_eq_zero nothing']

/-- The packet at the front is extracted. -/
theorem extractPacket_ok {p : EtchPacketizer} {rest : List UInt8}
    {size : Nat} (idle : p.Idle (header size ++ rest))
    (small : size < 2 ^ 32) (whole : size ≤ rest.length) :
    ∃ packetData next, p.extractPacket = some (packetData, next) ∧
      packetData.unread = rest.take size ∧
      next.Idle (rest.drop size) ∧ next.mMaxPktSize = p.mMaxPktSize := by
  obtain ⟨-, read, total⟩ := read_header idle small
  have place : (p.mReadBuf.setIndex HEADER_SIZE).mIndex = HEADER_SIZE :=
    EtchFlexBuffer.mIndex_setIndex (by omega)
  have limit := idle.length_le
  rw [List.length_append, length_header] at limit
  have start : uint32Add p.mReadBuf.mIndex 4 = 4 := by
    rw [idle.index]
    rfl
  have sum : uint32Add HEADER_SIZE size = HEADER_SIZE + size := by
    have below : EtchFlexBuffer.MAX_BUFFER_LEN < 2 ^ 32 := by decide
    exact Nat.mod_eq_of_lt (by omega)
  have behind : (p.mReadBuf.setIndex HEADER_SIZE).unread = rest := by
    rw [EtchFlexBuffer.unread_setIndex (by omega), idle.data,
      List.drop_left' (length_header size)]
  have left : (p.mReadBuf.setIndex (HEADER_SIZE + size)).unread =
      rest.drop size := by
    rw [EtchFlexBuffer.unread_setIndex (by omega), idle.data,
      ← List.drop_drop, List.drop_left' (length_header size)]
  have skip : (p.mReadBuf.setIndex HEADER_SIZE).setIndex
      (HEADER_SIZE + size) = p.mReadBuf.setIndex (HEADER_SIZE + size) :=
    EtchFlexBuffer.setIndex_setIndex _ (by omega)
  obtain ⟨_, packetData, put, -, body⟩ :=
    @refill .new (p.mReadBuf.setIndex HEADER_SIZE)
      EtchFlexBuffer.sized_new rfl size (by rw [behind]; exact whole)
      (by omega)
  have short : (rest.drop size).length ≤
      EtchFlexBuffer.MAX_BUFFER_LEN := by
    rw [List.length_drop]
    omega
  obtain ⟨temp, saved, temp_sized, held⟩ :=
    @saveRest_ok p.mTempBuf (p.mReadBuf.setIndex (HEADER_SIZE + size))
      idle.temp_sized idle.temp_empty (by rw [left]; exact short)
  rw [left] at held
  obtain ⟨_, mReadBuf, put', sized', data⟩ :=
    @refill_all (p.mReadBuf.setIndex (HEADER_SIZE + size)).reset temp
      (idle.sized.setIndex _).reset (EtchFlexBuffer.mLength_reset _)
      (by rw [held]; exact short)
  have idle' := idle_refilled sized' temp_sized p.mMaxPktSize
  rw [data, held] at idle'
  refine ⟨packetData.setIndex 0, _, ?_, ?_, idle', rfl⟩
  · simp only [extractPacket, start, read, Option.getD_some, put, place,
      sum, skip, saved, put', Option.bind_eq_bind, Option.bind_some]
  · rw [EtchFlexBuffer.unread_setIndex_zero, body, behind]

/-- No packet is at the front: too few bytes, or a part of one. -/
def Part (content : List UInt8) : Prop :=
  content.length < HEADER_SIZE ∨
    ∃ size rest, content = header size ++ rest ∧ size < 2 ^ 32 ∧
      rest.length < size

/-- Where no packet has come whole none is announced. -/
theorem bufferContainsPacket_of_part {p : EtchPacketizer}
    {content : List UInt8} (idle : p.Idle content)
    (part : Part content) :
    p.bufferContainsPacket = some (false, p) := by
  rcases part with few | ⟨size, rest, rfl, small, short⟩
  · exact bufferContainsPacket_few idle few
  · exact bufferContainsPacket_part idle small short

/-- Where no packet has come whole an empty one is extracted. -/
theorem extractPacket_invents {p next : EtchPacketizer}
    {packetData : EtchFlexBuffer} {content : List UInt8}
    (idle : p.Idle content) (part : Part content)
    (done : p.extractPacket = some (packetData, next)) :
    packetData.unread = [] := by
  have start : uint32Add p.mReadBuf.mIndex 4 = 4 := by
    rw [idle.index]
    rfl
  have length := idle.length
  have refused : ∃ size mReadBuf,
      (p.mReadBuf.setIndex 4).getInteger.getD
          (0, p.mReadBuf.setIndex 4) = (size, mReadBuf) ∧
        EtchFlexBuffer.new.put mReadBuf size =
          some (.ETCH_EINVAL, .new) := by
    rcases part with few | ⟨size, rest, rfl, small, short⟩
    · have eight : HEADER_SIZE = 8 := rfl
      have unreadable : (p.mReadBuf.setIndex 4).getInteger = none := by
        apply EtchFlexBuffer.getInteger_short
        by_cases inside : 4 ≤ p.mReadBuf.mLength
        · rw [EtchFlexBuffer.mIndex_setIndex inside,
            EtchFlexBuffer.mLength_setIndex]
          omega
        · have same : p.mReadBuf.setIndex 4 = p.mReadBuf :=
            EtchFlexBuffer.setIndex_of_lt (by omega)
          rw [same, idle.index]
          omega
      rw [unreadable, Option.getD_none]
      exact ⟨_, _, rfl, EtchFlexBuffer.put_none (.inl rfl)⟩
    · obtain ⟨-, read, total⟩ := read_header idle small
      rw [read, Option.getD_some]
      refine ⟨_, _, rfl, EtchFlexBuffer.put_none (.inr ?_)⟩
      rw [EtchFlexBuffer.getAvailableBytes,
        EtchFlexBuffer.mLength_setIndex,
        EtchFlexBuffer.mIndex_setIndex (by omega)]
      omega
  obtain ⟨size, mReadBuf, read, put⟩ := refused
  simp only [extractPacket, start, read, put, Option.bind_eq_bind,
    Option.bind_some] at done
  obtain ⟨mTempBuf, -, done⟩ := Option.bind_eq_some_iff.mp done
  obtain ⟨⟨status, mReadBuf⟩, -, done⟩ :=
    Option.bind_eq_some_iff.mp done
  obtain ⟨rfl, -⟩ := Prod.mk.inj (Option.some.inj done)
  rfl

/-! ## One call -/

/-- Every element that is delivered could have been sent within the limit. -/
def Legal (mMaxPktSize : Nat) (packets : List (List UInt8)) : Prop :=
  ∀ packet ∈ packets, packet ≠ [] ∧ packet.length ≤ mMaxPktSize

/--
Whenever an oversize packet has come whole and only `future` is to come, the
packet behind it has come whole too and is within the limit.
-/
def Escorted (mMaxPktSize : Nat) (packets : List (List UInt8))
    (future : List UInt8) : Prop :=
  ∀ packet after, packet :: after <:+ packets →
    mMaxPktSize < packet.length →
    future.length ≤ (stream after).length →
    ∃ next rest, after = next :: rest ∧ next.length ≤ mMaxPktSize ∧
      future.length ≤ (stream rest).length

/-- The packets of a stream that the header can carry. -/
def Sizes (packets : List (List UInt8)) : Prop :=
  ∀ packet ∈ packets, packet ≠ [] ∧ packet.length < 2 ^ 32

/-- The front of a stream holds a whole packet or a part of one. -/
theorem part_or_whole {content future : List UInt8}
    {packets : List (List UInt8)} (sizes : Sizes packets)
    (split : content ++ future = stream packets) :
    (Part content ∧ ∀ packet after, packets = packet :: after →
      (stream after).length < future.length) ∨
    ∃ packet after rest, packets = packet :: after ∧
      content = header packet.length ++ (packet ++ rest) ∧
      rest ++ future = stream after := by
  cases packets with
  | nil =>
      have empty : content = [] := (List.append_eq_nil_iff.mp split).1
      exact .inl ⟨.inl (by rw [empty]; decide), fun _ _ absent =>
        nomatch absent⟩
  | cons packet after =>
      obtain ⟨-, small⟩ := sizes packet List.mem_cons_self
      have total := congrArg List.length split
      rw [stream_cons, List.length_append, List.length_append,
        List.length_append, length_header] at total
      by_cases few : content.length < HEADER_SIZE + packet.length
      · refine .inl ⟨?_, ?_⟩
        · by_cases bare : content.length < HEADER_SIZE
          · exact .inl bare
          · refine .inr ⟨packet.length, content.drop HEADER_SIZE, ?_,
              small, by rw [List.length_drop]; omega⟩
            have front : content.take HEADER_SIZE =
                header packet.length := by
              have same := congrArg (List.take HEADER_SIZE) split
              rw [List.take_append_of_le_length (by omega), stream_cons,
                List.append_assoc,
                List.take_left' (length_header _)] at same
              exact same
            rw [← front, List.take_append_drop]
        · intro packet' after' same
          obtain ⟨rfl, rfl⟩ := List.cons.inj same
          omega
      · have front : header packet.length ++ packet <+: content := by
          refine List.prefix_of_prefix_length_le ⟨stream after, ?_⟩
            ⟨future, split⟩ ?_
          · rw [stream_cons]
          · rw [List.length_append, length_header]
            omega
        obtain ⟨rest, rfl⟩ := front
        rw [stream_cons, List.append_assoc] at split
        exact .inr ⟨packet, after, rest, rfl, by rw [List.append_assoc],
          List.append_cancel_left split⟩

theorem length_stream_le {left right : List (List UInt8)}
    (suffix : left <:+ right) :
    (stream left).length ≤ (stream right).length := by
  obtain ⟨front, rfl⟩ := suffix
  rw [stream, stream, List.flatMap_append, List.length_append]
  exact Nat.le_add_left _ _

theorem Escorted.suffix {mMaxPktSize : Nat}
    {left right : List (List UInt8)} {future : List UInt8}
    (escorted : Escorted mMaxPktSize right future)
    (suffix : left <:+ right) : Escorted mMaxPktSize left future :=
  fun packet after place =>
    escorted packet after (place.trans suffix)

/-- A packet within the limit needs no escort. -/
theorem escorted_cons {mMaxPktSize : Nat} {packet : List UInt8}
    {after : List (List UInt8)} {future : List UInt8}
    (within : packet.length ≤ mMaxPktSize)
    (escorted : Escorted mMaxPktSize after future) :
    Escorted mMaxPktSize (packet :: after) future := by
  intro packet' after' place excess whole
  rcases List.suffix_cons_iff.mp place with same | place
  · obtain ⟨rfl, rfl⟩ := List.cons.inj same
    omega
  · exact escorted packet' after' place excess whole

/-- While the first packet is to come nothing has come whole. -/
theorem escorted_of_part {mMaxPktSize : Nat}
    {packets : List (List UInt8)} {future : List UInt8}
    (part : ∀ packet after, packets = packet :: after →
      (stream after).length < future.length) :
    Escorted mMaxPktSize packets future := by
  intro packet after place _ whole
  cases packets with
  | nil => exact nomatch List.suffix_nil.mp place
  | cons first rest =>
      have later := part first rest rfl
      have order : (stream after).length ≤ (stream rest).length := by
        rcases List.suffix_cons_iff.mp place with same | place
        · rw [(List.cons.inj same).2]
        · exact length_stream_le ((List.suffix_cons _ _).trans place)
      omega

/--
A call has been through the packets that have come whole: those within the
limit have been delivered, and the rest begins with a part of a packet.
-/
structure Caught (mMaxPktSize : Nat) (undone : List (List UInt8))
    (future : List UInt8) (delivered : List (List UInt8))
    (p : EtchPacketizer) (rest : List (List UInt8)) : Prop where
  suffix : rest <:+ undone
  limit : p.mMaxPktSize = mMaxPktSize
  total : (undone.filter fun packet => packet.length ≤ mMaxPktSize) =
    delivered ++ rest.filter fun packet => packet.length ≤ mMaxPktSize
  idle : ∃ content, p.Idle content ∧ content ++ future = stream rest
  part : ∀ packet after, rest = packet :: after →
    (stream after).length < future.length

variable {session : Session}

theorem sessionDataPass_part {state : Receiving} {content : List UInt8}
    (idle : state.packetizer.Idle content) (part : Part content) :
    sessionDataPass session state = .leave (some state) := by
  unfold sessionDataPass
  rw [bufferContainsPacket_of_part idle part]

theorem sessionDataPass_whole {state : Receiving}
    {packet rest : List UInt8}
    (idle : state.packetizer.Idle
      (header packet.length ++ (packet ++ rest)))
    (small : packet.length < 2 ^ 32)
    (within : packet.length ≤ state.packetizer.mMaxPktSize) :
    ∃ next result, sessionDataPass session state =
        .again ⟨next, state.delivered ++ [packet], result⟩ ∧
      next.Idle rest ∧
      next.mMaxPktSize = state.packetizer.mMaxPktSize := by
  have whole : packet.length ≤ (packet ++ rest).length := by
    rw [List.length_append]
    exact Nat.le_add_right _ _
  obtain ⟨packetData, next, extracted, bytes, idle', same⟩ :=
    extractPacket_ok idle small whole
  rw [List.take_left] at bytes
  rw [List.drop_left] at idle'
  refine ⟨next, session packet, ?_, idle', same⟩
  unfold sessionDataPass
  rw [bufferContainsPacket_whole idle small whole within]
  simp only [extracted, bytes]

/-- Behind an oversize packet one of any size is extracted. -/
theorem sessionDataPass_oversize {state : Receiving}
    {packet next rest : List UInt8}
    (idle : state.packetizer.Idle (header packet.length ++
      (packet ++ (header next.length ++ (next ++ rest)))))
    (small : packet.length < 2 ^ 32) (small' : next.length < 2 ^ 32)
    (excess : state.packetizer.mMaxPktSize < packet.length) :
    ∃ p result, sessionDataPass session state =
        .again ⟨p, state.delivered ++ [next], result⟩ ∧
      p.Idle rest ∧ p.mMaxPktSize = state.packetizer.mMaxPktSize := by
  have whole (body more : List UInt8) :
      body.length ≤ (body ++ more).length := by
    rw [List.length_append]
    exact Nat.le_add_right _ _
  obtain ⟨middle, announced, idle', same⟩ :=
    bufferContainsPacket_oversize idle small (whole _ _) excess
  rw [List.drop_left] at idle'
  obtain ⟨packetData, p, extracted, bytes, idle'', same'⟩ :=
    extractPacket_ok idle' small' (whole _ _)
  rw [List.take_left] at bytes
  rw [List.drop_left] at idle''
  refine ⟨p, session next, ?_, idle'', same'.trans same⟩
  unfold sessionDataPass
  simp only [announced, extracted, bytes]

/-- Behind an oversize packet with a part of the next one, one is made up. -/
theorem sessionDataPass_invents {state : Receiving}
    {packet rest : List UInt8}
    (idle : state.packetizer.Idle
      (header packet.length ++ (packet ++ rest)))
    (small : packet.length < 2 ^ 32)
    (excess : state.packetizer.mMaxPktSize < packet.length)
    (part : Part rest) :
    sessionDataPass session state = .leave none ∨
      ∃ next, sessionDataPass session state = .again next ∧
        next.delivered = state.delivered ++ [[]] := by
  have whole : packet.length ≤ (packet ++ rest).length := by
    rw [List.length_append]
    exact Nat.le_add_right _ _
  obtain ⟨middle, announced, idle', same⟩ :=
    bufferContainsPacket_oversize idle small whole excess
  rw [List.drop_left] at idle'
  unfold sessionDataPass
  simp only [announced]
  cases extracted : middle.extractPacket with
  | none => exact .inl rfl
  | some result =>
      obtain ⟨packetData, p⟩ := result
      have empty := extractPacket_invents idle' part extracted
      exact .inr ⟨_, rfl, by rw [empty]⟩

theorem Sizes.suffix {left right : List (List UInt8)}
    (sizes : Sizes right) (suffix : left <:+ right) : Sizes left :=
  fun packet member => sizes packet (suffix.subset member)

/-- With every oversize packet escorted a call delivers the others. -/
theorem run_escorted {mMaxPktSize : Nat} {future : List UInt8}
    {fuel : Nat} {state : Receiving} {content : List UInt8}
    {undone : List (List UInt8)}
    (idle : state.packetizer.Idle content)
    (limit : state.packetizer.mMaxPktSize = mMaxPktSize)
    (sizes : Sizes undone) (split : content ++ future = stream undone)
    (escorted : Escorted mMaxPktSize undone future)
    (enough : content.length < fuel) :
    ∃ final delivered rest,
      Loop.run (sessionDataPass session) fuel state =
        some (some final) ∧
      final.delivered = state.delivered ++ delivered ∧
      Caught mMaxPktSize undone future delivered final.packetizer
        rest := by
  induction fuel generalizing state content undone with
  | zero => omega
  | succ fuel ih =>
      rcases part_or_whole sizes split with ⟨part, later⟩ |
        ⟨packet, after, more, rfl, rfl, split'⟩
      · refine ⟨state, [], undone,
          Loop.run_leave (sessionDataPass_part idle part) fuel,
          (List.append_nil _).symm, ?_⟩
        exact
          { suffix := List.suffix_refl _
            limit := limit
            total := rfl
            idle := ⟨content, idle, split⟩
            part := later }
      · obtain ⟨-, small⟩ := sizes packet List.mem_cons_self
        have sizes' := sizes.suffix (List.suffix_cons packet after)
        have escorted' := escorted.suffix (List.suffix_cons packet after)
        simp only [List.length_append, length_header] at enough
        have eight : HEADER_SIZE = 8 := rfl
        by_cases within : packet.length ≤ mMaxPktSize
        · obtain ⟨p, result, round, idle', same⟩ :=
            @sessionDataPass_whole session _ _ _ idle small
              (limit ▸ within)
          obtain ⟨final, delivered, rest, done, out, caught⟩ :=
            @ih ⟨p, state.delivered ++ [packet], result⟩ _ _ idle'
              (same.trans limit) sizes' split' escorted' (by omega)
          refine ⟨final, packet :: delivered, rest, ?_, ?_, ?_⟩
          · rw [Loop.run_again round, done]
          · rw [out, List.append_assoc]
            rfl
          · exact
              { caught with
                suffix := caught.suffix.trans (List.suffix_cons _ _)
                total := by
                  rw [List.filter_cons_of_pos (by simpa using within),
                    caught.total]
                  rfl }
        · obtain ⟨next, after', rfl, within', come⟩ :=
            escorted packet after (List.suffix_refl _) (by omega) (by
              rw [← split', List.length_append]
              exact Nat.le_add_left _ _)
          rcases part_or_whole sizes' split' with ⟨-, later⟩ |
            ⟨next', after'', more', same, rfl, split''⟩
          · have := later next after' rfl
            omega
          · obtain ⟨rfl, rfl⟩ := List.cons.inj same
            obtain ⟨-, small'⟩ := sizes' next List.mem_cons_self
            obtain ⟨p, result, round, idle', same⟩ :=
              @sessionDataPass_oversize session _ _ _ _ idle small small'
                (by omega)
            simp only [List.length_append, length_header] at enough
            obtain ⟨final, delivered, rest, done, out, caught⟩ :=
              @ih ⟨p, state.delivered ++ [next], result⟩ _ _ idle'
                (same.trans limit)
                (sizes'.suffix (List.suffix_cons next after')) split''
                (escorted'.suffix (List.suffix_cons next after'))
                (by omega)
            refine ⟨final, next :: delivered, rest, ?_, ?_, ?_⟩
            · rw [Loop.run_again round, done]
            · rw [out, List.append_assoc]
              rfl
            · exact
                { caught with
                  suffix := (caught.suffix.trans
                    (List.suffix_cons _ _)).trans (List.suffix_cons _ _)
                  total := by
                    rw [List.filter_cons_of_neg (by simpa using within),
                      List.filter_cons_of_pos (by simpa using within'),
                      caught.total]
                    rfl }

/-- Nothing that has been delivered is taken back. -/
theorem delivered_grows {fuel : Nat} {state final : Receiving}
    (done : Loop.run (sessionDataPass session) fuel state =
      some (some final)) :
    state.delivered <+: final.delivered := by
  apply @Loop.Returns.of_invariant _ _ (sessionDataPass session)
    (fun other => state.delivered <+: other.delivered)
    (fun result => ∀ final, result = some final →
      state.delivered <+: final.delivered)
    ?_ ?_ _ _ ⟨fuel, done⟩ (List.prefix_refl _) _ rfl
  · intro other next held round
    unfold sessionDataPass at round
    split at round
    · exact nomatch round
    · exact nomatch round
    · split at round
      · exact nomatch round
      · obtain rfl := Loop.Pass.again.inj round
        exact held.trans (List.prefix_append _ _)
  · rintro other result held pass final rfl
    unfold sessionDataPass at pass
    split at pass
    · exact nomatch Loop.Pass.leave.inj pass
    · obtain rfl := Option.some.inj (Loop.Pass.leave.inj pass)
      exact held
    · split at pass
      · exact nomatch Loop.Pass.leave.inj pass
      · exact nomatch pass

/-- A call that delivers nothing illegal found every packet escorted. -/
theorem escorted_of_legal {mMaxPktSize : Nat} {future : List UInt8}
    {fuel : Nat} {state final : Receiving} {content : List UInt8}
    {undone : List (List UInt8)}
    (idle : state.packetizer.Idle content)
    (limit : state.packetizer.mMaxPktSize = mMaxPktSize)
    (sizes : Sizes undone) (split : content ++ future = stream undone)
    (done : Loop.run (sessionDataPass session) fuel state =
      some (some final))
    (legal : Legal mMaxPktSize final.delivered) :
    Escorted mMaxPktSize undone future := by
  induction fuel generalizing state content undone with
  | zero => exact nomatch done
  | succ fuel ih =>
      rcases part_or_whole sizes split with ⟨-, later⟩ |
        ⟨packet, after, more, rfl, rfl, split'⟩
      · exact escorted_of_part later
      · obtain ⟨-, small⟩ := sizes packet List.mem_cons_self
        have sizes' := sizes.suffix (List.suffix_cons packet after)
        by_cases within : packet.length ≤ mMaxPktSize
        · obtain ⟨p, result, round, idle', same⟩ :=
            @sessionDataPass_whole session _ _ _ idle small
              (limit ▸ within)
          rw [Loop.run_again round] at done
          exact escorted_cons within
            (ih idle' (same.trans limit) sizes' split' done)
        · have excess : state.packetizer.mMaxPktSize < packet.length := by
            omega
          rcases part_or_whole sizes' split' with ⟨part, -⟩ |
            ⟨next, after', more', rfl, rfl, split''⟩
          · exfalso
            rcases @sessionDataPass_invents session _ _ _ idle small excess
              part with left | ⟨middle, round, made⟩
            · rw [Loop.run_leave left] at done
              exact nomatch done
            · rw [Loop.run_again round] at done
              have member : [] ∈ final.delivered := by
                refine (delivered_grows done).subset ?_
                rw [made]
                exact List.mem_append_right _ List.mem_cons_self
              exact (legal [] member).1 rfl
          · obtain ⟨-, small'⟩ := sizes' next List.mem_cons_self
            obtain ⟨p, result, round, idle', same⟩ :=
              @sessionDataPass_oversize session _ _ _ _ idle small small'
                excess
            rw [Loop.run_again round] at done
            have member : next ∈ final.delivered :=
              (delivered_grows done).subset
                (List.mem_append_right _ List.mem_cons_self)
            have within' := (legal next member).2
            have rest := ih idle' (same.trans limit)
              (sizes'.suffix (List.suffix_cons next after')) split'' done
            have come : future.length ≤ (stream after').length := by
              rw [← split'', List.length_append]
              exact Nat.le_add_left _ _
            intro packet' after'' place excess' whole
            rcases List.suffix_cons_iff.mp place with same | place
            · obtain ⟨rfl, rfl⟩ := List.cons.inj same
              exact ⟨next, after', rfl, within', come⟩
            · exact escorted_cons within' rest packet' after'' place
                excess' whole

/-! ## Streams -/

/-- The bytes of `buf` can be put behind those that `mReadBuf` holds. -/
def Room (p : EtchPacketizer) (buf : EtchFlexBuffer) : Prop :=
  p.mReadBuf.mLength + buf.getAvailableBytes ≤ p.mReadBuf.mSize ∨
    2 * p.mReadBuf.mLength + buf.getAvailableBytes ≤
      EtchFlexBuffer.MAX_BUFFER_LEN

instance (p : EtchPacketizer) (buf : EtchFlexBuffer) :
    Decidable (p.Room buf) :=
  inferInstanceAs (Decidable (_ ∨ _))

theorem amend_ok {p : EtchPacketizer} {content : List UInt8}
    {buf : EtchFlexBuffer} (idle : p.Idle content) (room : p.Room buf) :
    ∃ next, p.amend buf = some next ∧
      next.Idle (content ++ buf.unread) ∧
      next.mMaxPktSize = p.mMaxPktSize := by
  have atEnd : ∃ mReadBuf : EtchFlexBuffer,
      (if p.mReadBuf.getAvailableBytes > 0 then
        p.mReadBuf.setIndex p.mReadBuf.mLength
      else
        p.mReadBuf) = mReadBuf ∧
      mReadBuf.Sized ∧ mReadBuf.mIndex = p.mReadBuf.mLength ∧
      mReadBuf.mLength = p.mReadBuf.mLength ∧
      mReadBuf.mSize = p.mReadBuf.mSize ∧ mReadBuf.data = content := by
    split
    · refine ⟨_, rfl, idle.sized.setIndex _,
        EtchFlexBuffer.mIndex_setIndex (Nat.le_refl _),
        EtchFlexBuffer.mLength_setIndex _ _, ?_, ?_⟩
      · rw [EtchFlexBuffer.mSize, EtchFlexBuffer.mBuffer_setIndex,
          EtchFlexBuffer.mSize]
      · rw [EtchFlexBuffer.data_setIndex, idle.data]
    · have avail := idle.avail
      have length := idle.length
      have index := idle.index
      exact ⟨_, rfl, idle.sized, by omega, rfl, rfl, idle.data⟩
  obtain ⟨mReadBuf, start, sized, index, length, size, data⟩ := atEnd
  have put : ∃ status next, mReadBuf.putAll buf = some (status, next) ∧
      next.Sized ∧ next.data = content ++ buf.unread := by
    rcases Nat.eq_zero_or_pos buf.getAvailableBytes with none | some
    · refine ⟨_, mReadBuf, EtchFlexBuffer.put_none (.inl none), sized, ?_⟩
      have nothing : buf.unread = [] :=
        List.eq_nil_of_length_eq_zero (by
          rw [EtchFlexBuffer.length_unread, none])
      rw [data, nothing, List.append_nil]
    · obtain ⟨next, done, sized', -, data'⟩ :=
        @EtchFlexBuffer.put_append mReadBuf buf sized
          (index.trans length.symm) _ some (Nat.le_refl _) (by
            unfold Room at room
            unfold EtchFlexBuffer.Room
            omega)
      refine ⟨_, next, done, sized', ?_⟩
      rw [data', data, ← EtchFlexBuffer.length_unread, List.take_length]
  obtain ⟨_, next, done, sized', data'⟩ := put
  refine ⟨{ p with mReadBuf := next.setIndex 0 }, ?_, ?_, rfl⟩
  · simp only [amend, start, done, Option.bind_eq_bind,
      Option.bind_some]
  · exact
      { index := EtchFlexBuffer.mIndex_setIndex (Nat.zero_le _)
        data := by rw [EtchFlexBuffer.data_setIndex, data']
        sized := sized'.setIndex 0
        temp_sized := idle.temp_sized
        temp_empty := idle.temp_empty }

/-- A call with room delivers what has come whole, if all is escorted. -/
theorem sessionData_escorted {mMaxPktSize : Nat} {future : List UInt8}
    {p : EtchPacketizer} {buf : EtchFlexBuffer} {content : List UInt8}
    {undone : List (List UInt8)} (idle : p.Idle content)
    (limit : p.mMaxPktSize = mMaxPktSize) (sizes : Sizes undone)
    (room : p.Room buf)
    (split : content ++ (buf.unread ++ future) = stream undone)
    (escorted : Escorted mMaxPktSize undone future) :
    ∃ final rest, p.sessionData session buf = some final ∧
      Caught mMaxPktSize undone future final.delivered final.packetizer
        rest := by
  obtain ⟨next, amended, idle', same⟩ := amend_ok idle room
  rw [← List.append_assoc] at split
  obtain ⟨final, delivered, rest, done, out, caught⟩ :=
    @run_escorted session _ future (next.mReadBuf.mLength + 1)
      ⟨next, [], .ETCH_OK⟩ _ _ idle' (same.trans limit) sizes split
      escorted (by rw [idle'.length]; exact Nat.lt_succ_self _)
  obtain rfl : final.delivered = delivered := out
  refine ⟨final, rest, ?_, caught⟩
  simp only [sessionData, amended, done, Option.bind_eq_bind,
    Option.bind_some]

theorem escorted_of_sessionData {mMaxPktSize : Nat}
    {future : List UInt8} {p : EtchPacketizer} {buf : EtchFlexBuffer}
    {content : List UInt8} {undone : List (List UInt8)}
    {final : Receiving} (idle : p.Idle content)
    (limit : p.mMaxPktSize = mMaxPktSize) (sizes : Sizes undone)
    (room : p.Room buf)
    (split : content ++ (buf.unread ++ future) = stream undone)
    (done : p.sessionData session buf = some final)
    (legal : Legal mMaxPktSize final.delivered) :
    Escorted mMaxPktSize undone future := by
  obtain ⟨next, amended, idle', same⟩ := amend_ok idle room
  rw [← List.append_assoc] at split
  simp only [sessionData, amended, Option.bind_eq_bind,
    Option.bind_some] at done
  obtain ⟨result, done, rfl⟩ := Option.bind_eq_some_iff.mp done
  exact escorted_of_legal idle' (same.trans limit) sizes split done legal

/-- Every call finds room for the bytes it is handed. -/
def RoomEach (session : Session) :
    EtchPacketizer → List EtchFlexBuffer → Prop
  | _, [] => True
  | p, buf :: bufs =>
      p.Room buf ∧ (p.sessionData session buf).elim True fun final =>
        RoomEach session final.packetizer bufs

instance decidableRoomEach (session : Session) :
    ∀ (p : EtchPacketizer) (bufs : List EtchFlexBuffer),
      Decidable (RoomEach session p bufs)
  | _, [] => inferInstanceAs (Decidable True)
  | p, buf :: bufs =>
      have : Decidable ((p.sessionData session buf).elim True
          fun final => RoomEach session final.packetizer bufs) :=
        match p.sessionData session buf with
        | none => inferInstanceAs (Decidable True)
        | some final => decidableRoomEach session final.packetizer bufs
      inferInstanceAs (Decidable (_ ∧ _))

theorem RoomEach.next {p : EtchPacketizer} {buf : EtchFlexBuffer}
    {bufs : List EtchFlexBuffer} {final : Receiving}
    (room : RoomEach session p (buf :: bufs))
    (done : p.sessionData session buf = some final) :
    RoomEach session final.packetizer bufs := by
  have rest := room.2
  rw [done] at rest
  exact rest

/--
At the end of every call the oversize packets that have come whole are each
followed by a packet that has come whole and is not oversize.
-/
def Sheltered (mMaxPktSize : Nat) (packets chunks : List (List UInt8)) :
    Prop :=
  ∀ later, later <:+ chunks →
    Escorted mMaxPktSize packets later.flatten

theorem Sheltered.suffix {mMaxPktSize : Nat}
    {left right chunks : List (List UInt8)} {chunk : List UInt8}
    (sheltered : Sheltered mMaxPktSize right (chunk :: chunks))
    (suffix : left <:+ right) : Sheltered mMaxPktSize left chunks :=
  fun later place =>
    (sheltered later (place.trans (List.suffix_cons _ _))).suffix suffix

/-- What is sheltered after a call, and escorted at its end, is sheltered. -/
theorem sheltered_cons {mMaxPktSize : Nat}
    {undone rest chunks : List (List UInt8)} {chunk content : List UInt8}
    (part : ∀ packet after, undone = packet :: after →
      (stream after).length < (chunk :: chunks).flatten.length)
    (escorted : Escorted mMaxPktSize undone chunks.flatten)
    (suffix : rest <:+ undone)
    (split : content ++ chunks.flatten = stream rest)
    (sheltered : Sheltered mMaxPktSize rest chunks) :
    Sheltered mMaxPktSize undone (chunk :: chunks) := by
  intro later place
  rcases List.suffix_cons_iff.mp place with rfl | place
  · exact escorted_of_part part
  · have fewer : later.flatten.length ≤ chunks.flatten.length := by
      obtain ⟨front, rfl⟩ := place
      rw [List.flatten_append, List.length_append]
      exact Nat.le_add_left _ _
    intro packet after behind excess whole
    by_cases come : chunks.flatten.length ≤ (stream after).length
    · obtain ⟨next, after', same, within, come'⟩ :=
        escorted packet after behind excess come
      exact ⟨next, after', same, within, fewer.trans come'⟩
    · have inside : packet :: after <:+ rest := by
        rcases List.suffix_or_suffix_of_suffix behind suffix with
          inside | around
        · exact inside
        · rcases List.suffix_cons_iff.mp around with same | around
          · exact same ▸ List.suffix_refl _
          · have held := congrArg List.length split
            have order := length_stream_le around
            rw [List.length_append] at held
            omega
      exact sheltered later place packet after inside excess whole

theorem sessionDataAll_sheltered {mMaxPktSize : Nat}
    {p : EtchPacketizer} {content : List UInt8}
    {undone : List (List UInt8)} {bufs : List EtchFlexBuffer}
    (idle : p.Idle content) (limit : p.mMaxPktSize = mMaxPktSize)
    (sizes : Sizes undone) (room : RoomEach session p bufs)
    (split : content ++ (bufs.map EtchFlexBuffer.unread).flatten =
      stream undone)
    (part : ∀ packet after, undone = packet :: after →
      (stream after).length <
        (bufs.map EtchFlexBuffer.unread).flatten.length)
    (sheltered : Sheltered mMaxPktSize undone
      (bufs.map EtchFlexBuffer.unread)) :
    ∃ next, p.sessionDataAll session bufs = some (next,
      undone.filter fun packet => packet.length ≤ mMaxPktSize) := by
  induction bufs generalizing p content undone with
  | nil =>
      cases undone with
      | nil => exact ⟨p, rfl⟩
      | cons packet after =>
          exact absurd (part packet after rfl) (Nat.not_lt_zero _)
  | cons buf bufs ih =>
      obtain ⟨final, rest, done, caught⟩ :=
        sessionData_escorted idle limit sizes room.1 split
          (sheltered _ (List.suffix_cons _ _))
      obtain ⟨content', idle', split'⟩ := caught.idle
      obtain ⟨next, done'⟩ :=
        ih idle' caught.limit (sizes.suffix caught.suffix)
          (room.next done) split' caught.part
          (sheltered.suffix caught.suffix)
      refine ⟨next, ?_⟩
      simp only [sessionDataAll, done, done', Option.bind_eq_bind,
        Option.bind_some, caught.total]

theorem sheltered_of_sessionDataAll {mMaxPktSize : Nat}
    {p next : EtchPacketizer} {content : List UInt8}
    {undone out : List (List UInt8)} {bufs : List EtchFlexBuffer}
    (idle : p.Idle content) (limit : p.mMaxPktSize = mMaxPktSize)
    (sizes : Sizes undone) (room : RoomEach session p bufs)
    (split : content ++ (bufs.map EtchFlexBuffer.unread).flatten =
      stream undone)
    (part : ∀ packet after, undone = packet :: after →
      (stream after).length <
        (bufs.map EtchFlexBuffer.unread).flatten.length)
    (done : p.sessionDataAll session bufs = some (next, out))
    (legal : Legal mMaxPktSize out) :
    Sheltered mMaxPktSize undone (bufs.map EtchFlexBuffer.unread) := by
  induction bufs generalizing p content undone out with
  | nil =>
      intro later place
      obtain rfl := List.suffix_nil.mp place
      exact escorted_of_part part
  | cons buf bufs ih =>
      obtain ⟨final, first, others⟩ := Option.bind_eq_some_iff.mp done
      obtain ⟨⟨last, later⟩, tail, same⟩ :=
        Option.bind_eq_some_iff.mp others
      obtain ⟨rfl, rfl⟩ := Prod.mk.inj (Option.some.inj same)
      have escorted := escorted_of_sessionData idle limit sizes room.1
        split first fun packet member =>
          legal packet (List.mem_append_left _ member)
      obtain ⟨final', rest, first', caught⟩ :=
        sessionData_escorted idle limit sizes room.1 split escorted
      obtain rfl := Option.some.inj (first.symm.trans first')
      obtain ⟨content', idle', split'⟩ := caught.idle
      have sheltered := ih idle' caught.limit
        (sizes.suffix caught.suffix) (room.next first) split'
        caught.part tail fun packet member =>
          legal packet (List.mem_append_right _ member)
      exact sheltered_cons part escorted caught.suffix split' sheltered

/-- Small packets in small chunks always find room. -/
theorem roomEach_of_small {mMaxPktSize : Nat} {p : EtchPacketizer}
    {content : List UInt8} {undone : List (List UInt8)}
    {bufs : List EtchFlexBuffer} (idle : p.Idle content)
    (limit : p.mMaxPktSize = mMaxPktSize) (sizes : Sizes undone)
    (split : content ++ (bufs.map EtchFlexBuffer.unread).flatten =
      stream undone)
    (part : ∀ packet after, undone = packet :: after →
      (stream after).length <
        (bufs.map EtchFlexBuffer.unread).flatten.length)
    (sheltered : Sheltered mMaxPktSize undone
      (bufs.map EtchFlexBuffer.unread))
    (small : ∀ packet ∈ undone, ∀ buf ∈ bufs,
      2 * (HEADER_SIZE + packet.length) + buf.getAvailableBytes ≤
        EtchFlexBuffer.MAX_BUFFER_LEN) :
    RoomEach session p bufs := by
  induction bufs generalizing p content undone with
  | nil => trivial
  | cons buf bufs ih =>
      have held := congrArg List.length split
      have room : p.Room buf := by
        unfold Room
        rw [idle.length]
        cases undone with
        | nil =>
            obtain ⟨rfl, rest⟩ := List.append_eq_nil_iff.mp split
            have nothing : buf.unread = [] := by
              simp only [List.map_cons, List.flatten_cons,
                List.append_eq_nil_iff] at rest
              exact rest.1
            rw [← EtchFlexBuffer.length_unread, nothing]
            exact .inr (Nat.zero_le _)
        | cons packet after =>
            have later := part packet after rfl
            have few := small packet List.mem_cons_self buf
              List.mem_cons_self
            rw [stream_cons, List.length_append, List.length_append,
              List.length_append, length_header] at held
            omega
      obtain ⟨final, rest, done, caught⟩ :=
        @sessionData_escorted session _ _ _ _ _ _ idle limit sizes room
          split (sheltered _ (List.suffix_cons _ _))
      obtain ⟨content', idle', split'⟩ := caught.idle
      refine ⟨room, ?_⟩
      rw [done]
      exact ih idle' caught.limit (sizes.suffix caught.suffix) split'
        caught.part (sheltered.suffix caught.suffix)
        fun packet member buf member' =>
          small packet (caught.suffix.subset member) buf
            (List.mem_cons_of_mem _ member')

/-- The session receives the packets within the limit, and nothing else. -/
def Receives (session : Session) (p : EtchPacketizer)
    (bufs : List EtchFlexBuffer) (packets : List (List UInt8)) : Prop :=
  ∃ next, p.sessionDataAll session bufs = some (next,
    packets.filter fun packet => packet.length ≤ p.mMaxPktSize)

/-- A session that accepts every packet. -/
def idleSession : Session :=
  fun _ => .ETCH_OK

end Etch.Cpp.EtchPacketizer
