import Etch.Go.Packetizer

/-!
# When the Go `Packetizer` reassembles packets

A call delivers at most one packet, and a chunk that finds unread bytes is
written over them.  Counting bytes shows that the packets of a stream all
arrive only when every call is handed one whole frame.
-/

namespace Etch.Go.Packetizer

open Etch.Library.Window
open Etch.Library.BigEndian
open Etch.Packet

/-! ## What one call can do -/

/--
The outcomes of `processSaved` with `held` bytes available, by the values of
`nextPacketLen` before and after, the bytes left and the packets delivered.
-/
inductive Outcome (held : Nat) (before : Int) :
    Int → Nat → List (List UInt8) → Prop where
  /-- Too little for what is awaited. -/
  | kept (waits : before ≠ 0 ∨ held < HEADER_SIZE) :
      Outcome held before before held []
  /-- The awaited packet, with more bytes behind it. -/
  | body (packet : List UInt8) (awaited : before ≠ 0)
      (more : packet.length < held) :
      Outcome held before 0 (held - packet.length) [packet]
  /-- A header without its packet. -/
  | header (after : Int) (idle : before = 0) (enough : HEADER_SIZE ≤ held)
      (awaited : after ≠ 0) :
      Outcome held before after (held - HEADER_SIZE) []
  /-- A header with its packet. -/
  | packet (packet : List UInt8) (idle : before = 0)
      (enough : HEADER_SIZE + packet.length ≤ held) :
      Outcome held before 0 (held - (HEADER_SIZE + packet.length))
        [packet]

/-- The bytes a buffer has unread once it has been read further. -/
theorem advance {fb next : FlexBuffer} (valid : fb.Valid) {count : Nat}
    (enough : count ≤ fb.unread.length) (buf : next.buf = fb.buf)
    (index : next.index = fb.index + count)
    (length : next.length = fb.length) :
    next.Valid ∧ next.unread = fb.unread.drop count := by
  have order := valid.index_le
  have inside := valid.length_le
  rw [FlexBuffer.unread, length_window inside] at enough
  refine ⟨⟨by omega, by rw [buf, length]; exact inside⟩, ?_⟩
  rw [FlexBuffer.unread, FlexBuffer.unread, drop_window, buf, index,
    length]

theorem processHeader_ok {p : Packetizer} (valid : p.saveBuf.Valid)
    (enough : HEADER_SIZE ≤ p.saveBuf.unread.length) :
    ∃ saveBuf, p.processHeader =
        some (signed32 (ofBytes ((p.saveBuf.unread.drop 4).take 4)),
          { p with saveBuf := saveBuf }) ∧
      saveBuf.Valid ∧
      saveBuf.unread = p.saveBuf.unread.drop HEADER_SIZE := by
  unfold HEADER_SIZE at enough ⊢
  obtain ⟨middle, first, buf, index, length⟩ :=
    @FlexBuffer.readFull_ok p.saveBuf valid 4 (by omega)
  obtain ⟨valid', rest⟩ := advance valid (by omega) buf index length
  have size : 4 ≤ middle.unread.length := by
    rw [rest, List.length_drop]
    omega
  obtain ⟨saveBuf, second, buf', index', length'⟩ :=
    FlexBuffer.readFull_ok valid' size
  obtain ⟨valid'', rest'⟩ := advance valid' size buf' index' length'
  refine ⟨saveBuf, ?_, valid'', by rw [rest', rest, List.drop_drop]⟩
  rw [rest] at second
  simp only [processHeader, FlexBuffer.readInt, first, second,
    Option.bind_eq_bind, Option.bind_some]

theorem processPacket_ok {p : Packetizer} (valid : p.saveBuf.Valid)
    {n : Nat} (awaited : p.nextPacketLen = n)
    (enough : n ≤ p.saveBuf.unread.length) :
    ∃ saveBuf, p.processPacket =
        some ({ p with saveBuf := saveBuf, nextPacketLen := 0 },
          p.saveBuf.unread.take n) ∧
      saveBuf.Valid ∧ saveBuf.unread = p.saveBuf.unread.drop n := by
  have order := valid.index_le
  have inside := valid.length_le
  have enough' := enough
  rw [FlexBuffer.unread, length_window inside] at enough'
  have valid' : ({ p.saveBuf with
      length := p.saveBuf.index + n } : FlexBuffer).Valid :=
    ⟨Nat.le_add_right _ _, by simp only; omega⟩
  have whole : ({ p.saveBuf with
        length := p.saveBuf.index + n } : FlexBuffer).unread =
      p.saveBuf.unread.take n := by
    rw [FlexBuffer.unread, FlexBuffer.unread, take_window,
      Nat.min_eq_left (by omega)]
  have size : n ≤ ({ p.saveBuf with
      length := p.saveBuf.index + n } : FlexBuffer).unread.length := by
    rw [whole, List.length_take]
    omega
  obtain ⟨read, done, buf, index, length⟩ :=
    FlexBuffer.readFull_ok valid' size
  rw [whole, List.take_take, Nat.min_self] at done
  obtain ⟨valid'', rest⟩ := @advance p.saveBuf
    { read with
      length := p.saveBuf.length
      index := p.saveBuf.index + n }
    valid n enough buf rfl rfl
  have exposed (packet : List UInt8) :
      ({ FlexBuffer.newFlexBuffer.write packet with
        index := 0 } : FlexBuffer).unread = packet := by
    have wrote := @FlexBuffer.window_write_self
      FlexBuffer.newFlexBuffer packet
    have length : (FlexBuffer.newFlexBuffer.write packet).length =
        0 + packet.length := by
      simp [FlexBuffer.newFlexBuffer]
    rw [FlexBuffer.unread]
    simp only [length]
    exact wrote
  refine ⟨_, ?_, valid'', rest⟩
  unfold processPacket
  rw [if_neg (by omega)]
  simp only [awaited, Int.toNat_natCast, FlexBuffer.readBytes, done,
    Option.bind_eq_bind, Option.bind_some, exposed]

/-- A negative length makes `processPacket` panic. -/
theorem nextPacketLen_nonneg {p : Packetizer}
    {result : Packetizer × List UInt8}
    (done : p.processPacket = some result) : 0 ≤ p.nextPacketLen := by
  by_contra negative
  rw [processPacket, if_pos (by omega)] at done
  exact nomatch done

/-- Every call of `processSaved` that returns has one of the outcomes. -/
theorem processSaved_outcome {p next : Packetizer}
    {out : List (List UInt8)} (valid : p.saveBuf.Valid)
    (done : p.processSaved = some (next, out)) :
    next.saveBuf.Valid ∧
      Outcome p.saveBuf.unread.length p.nextPacketLen next.nextPacketLen
        next.saveBuf.unread.length out := by
  have avail := valid.avail_eq
  have eight : HEADER_SIZE = 8 := rfl
  unfold processSaved at done
  split at done
  · rename_i awaited
    split at done
    · rename_i more
      obtain ⟨⟨after, packet⟩, taken, same⟩ :=
        Option.bind_eq_some_iff.mp done
      obtain ⟨rfl, rfl⟩ := Prod.mk.inj (Option.some.inj same)
      have positive := nextPacketLen_nonneg taken
      obtain ⟨saveBuf, taken', valid', rest⟩ :=
        @processPacket_ok p valid p.nextPacketLen.toNat (by omega)
          (by omega)
      obtain ⟨rfl, rfl⟩ :=
        Prod.mk.inj (Option.some.inj (taken'.symm.trans taken))
      have size : (p.saveBuf.unread.take
          p.nextPacketLen.toNat).length = p.nextPacketLen.toNat := by
        rw [List.length_take]
        omega
      refine ⟨valid', ?_⟩
      have outcome := @Outcome.body p.saveBuf.unread.length
        p.nextPacketLen (p.saveBuf.unread.take p.nextPacketLen.toNat)
        awaited (by omega)
      rw [size] at outcome
      simpa only [rest, List.length_drop] using outcome
    · obtain ⟨rfl, rfl⟩ := Prod.mk.inj (Option.some.inj done)
      exact ⟨valid, .kept (.inl awaited)⟩
  · rename_i idle
    have idle' : p.nextPacketLen = 0 := by
      simpa using idle
    split at done
    · rename_i enough
      obtain ⟨saveBuf, header, valid', rest⟩ :=
        processHeader_ok valid (by omega)
      simp only [header, Option.bind_eq_bind, Option.bind_some] at done
      generalize signed32 (ofBytes ((p.saveBuf.unread.drop 4).take 4)) =
        l at done
      have avail' := valid'.avail_eq
      have left : saveBuf.unread.length =
          p.saveBuf.unread.length - HEADER_SIZE := by
        rw [rest, List.length_drop]
      split at done
      · rename_i long
        obtain ⟨⟨after, packet⟩, taken, same⟩ :=
          Option.bind_eq_some_iff.mp done
        obtain ⟨rfl, rfl⟩ := Prod.mk.inj (Option.some.inj same)
        have positive := nextPacketLen_nonneg taken
        simp only at positive long
        obtain ⟨saveBuf', taken', valid'', rest'⟩ :=
          @processPacket_ok
            { p with saveBuf := saveBuf, nextPacketLen := l } valid'
            l.toNat (by simp only; omega) (by simp only; omega)
        obtain ⟨rfl, rfl⟩ :=
          Prod.mk.inj (Option.some.inj (taken'.symm.trans taken))
        have size : (saveBuf.unread.take l.toNat).length =
            l.toNat := by
          rw [List.length_take]
          omega
        refine ⟨valid'', ?_⟩
        have outcome := @Outcome.packet p.saveBuf.unread.length
          p.nextPacketLen (saveBuf.unread.take l.toNat) idle' (by omega)
        rw [size, ← Nat.sub_sub, ← left] at outcome
        simpa only [rest', List.length_drop] using outcome
      · rename_i short
        obtain ⟨rfl, rfl⟩ := Prod.mk.inj (Option.some.inj done)
        refine ⟨valid', ?_⟩
        simp only at short ⊢
        rw [left]
        exact .header l idle' (by omega) (by omega)
    · rename_i short
      obtain ⟨rfl, rfl⟩ := Prod.mk.inj (Option.some.inj done)
      exact ⟨valid, .kept (.inr (by omega))⟩

/-! ## Counting bytes -/

/-- The bytes of the frames of the packets delivered. -/
def weight (packets : List (List UInt8)) : Nat :=
  (packets.map fun packet => HEADER_SIZE + packet.length).sum

theorem weight_append (left right : List (List UInt8)) :
    weight (left ++ right) = weight left + weight right := by
  simp [weight]

/-- The bytes a packetizer holds: those unread and a pending header. -/
def holding (p : Packetizer) : Nat :=
  p.saveBuf.unread.length +
    if p.nextPacketLen = 0 then 0 else HEADER_SIZE

/-- Nothing unread, and no packet awaited. -/
structure Clean (p : Packetizer) : Prop where
  unread : p.saveBuf.unread = []
  idle : p.nextPacketLen = 0

/-- No outcome loses or invents a byte of those held. -/
theorem Outcome.balance {held left : Nat} {before after : Int}
    {out : List (List UInt8)} (outcome : Outcome held before after left out) :
    weight out + (left + if after = 0 then 0 else HEADER_SIZE) =
      held + if before = 0 then 0 else HEADER_SIZE := by
  cases outcome with
  | kept => simp [weight]
  | body packet awaited more =>
      simp only [weight, List.map_cons, List.map_nil, List.sum_cons,
        List.sum_nil, if_true, if_neg awaited]
      omega
  | header _ idle enough awaited =>
      simp only [weight, List.map_nil, List.sum_nil, if_neg awaited,
        if_pos idle]
      omega
  | packet packet idle enough =>
      simp only [weight, List.map_cons, List.map_nil, List.sum_cons,
        List.sum_nil, if_true, if_pos idle]
      omega

/-- A call keeps of the bytes held and handed over the longer part only. -/
theorem sessionData_balance {p next : Packetizer} {buf : FlexBuffer}
    {out : List (List UInt8)} (valid : p.saveBuf.Valid)
    (valid' : buf.Valid)
    (done : p.sessionData buf = some (next, out)) :
    next.saveBuf.Valid ∧
      ∃ count ≤ buf.unread.length, count < 2 ^ 31 ∧
        Outcome (max p.saveBuf.unread.length count) p.nextPacketLen
          next.nextPacketLen next.saveBuf.unread.length out := by
  obtain ⟨⟨saveBuf, rest⟩, put, processed⟩ :=
    Option.bind_eq_some_iff.mp done
  obtain ⟨count, inside, small, rfl⟩ :=
    FlexBuffer.putFromOtherFull_some valid' put
  have saved := @processSaved_outcome
    { p with saveBuf := p.saveBuf.writeBack (buf.unread.take count) }
    next out (FlexBuffer.valid_writeBack valid _) processed
  refine ⟨saved.1, count, inside, small, ?_⟩
  have held : (p.saveBuf.writeBack (buf.unread.take count)).unread.length =
      max p.saveBuf.unread.length count := by
    rw [FlexBuffer.unread_writeBack valid, List.length_append,
      List.length_drop, List.length_take, Nat.min_eq_left inside]
    omega
  rw [← held]
  exact saved.2

theorem holding_pos {p : Packetizer} (dirty : ¬ p.Clean) :
    0 < p.holding := by
  unfold holding
  by_contra nothing
  refine dirty ⟨List.eq_nil_of_length_eq_zero (by omega), ?_⟩
  by_contra awaited
  rw [if_neg awaited] at nothing
  exact nothing (by unfold HEADER_SIZE; omega)

theorem holding_eq_zero {p : Packetizer} (clean : p.Clean) :
    p.holding = 0 := by
  rw [holding, clean.unread, clean.idle]
  rfl

/-- A buffer that hands over at least one byte. -/
structure Chunk (buf : FlexBuffer) : Prop where
  valid : buf.Valid
  filled : buf.unread ≠ []

/-- The number of bytes handed over. -/
def received (bufs : List FlexBuffer) : Nat :=
  (bufs.map fun buf => buf.unread.length).sum

theorem length_flatten_unread (bufs : List FlexBuffer) :
    (bufs.map FlexBuffer.unread).flatten.length = received bufs := by
  simp [received, List.length_flatten, Function.comp_def]

theorem sessionDataAll_cons {p next : Packetizer} {buf : FlexBuffer}
    {bufs : List FlexBuffer} {out : List (List UInt8)}
    (done : p.sessionDataAll (buf :: bufs) = some (next, out)) :
    ∃ middle first later, p.sessionData buf = some (middle, first) ∧
      middle.sessionDataAll bufs = some (next, later) ∧
      out = first ++ later := by
  obtain ⟨⟨middle, first⟩, head, rest⟩ := Option.bind_eq_some_iff.mp done
  obtain ⟨⟨final, later⟩, tail, same⟩ := Option.bind_eq_some_iff.mp rest
  obtain ⟨rfl, rfl⟩ := Prod.mk.inj (Option.some.inj same)
  exact ⟨middle, first, later, head, tail, rfl⟩

/--
A call never makes bytes, and one that starts or ends unclean loses some or
still holds some.
-/
theorem sessionData_weight {p next : Packetizer} {buf : FlexBuffer}
    {out : List (List UInt8)} (valid : p.saveBuf.Valid)
    (chunk : Chunk buf) (done : p.sessionData buf = some (next, out)) :
    weight out + next.holding ≤ p.holding + buf.unread.length ∧
      (¬ p.Clean → next.Clean →
        weight out + next.holding < p.holding + buf.unread.length) := by
  obtain ⟨-, count, inside, -, outcome⟩ :=
    sessionData_balance valid chunk.valid done
  have balance := outcome.balance
  have positive := List.length_pos_of_ne_nil chunk.filled
  unfold holding
  refine ⟨by omega, fun dirty clean => ?_⟩
  by_cases empty : p.saveBuf.unread = []
  · have awaited : p.nextPacketLen ≠ 0 :=
      fun idle => dirty ⟨empty, idle⟩
    have left : next.saveBuf.unread.length = 0 := by
      rw [clean.unread]
      rfl
    rw [left, clean.idle] at outcome
    generalize zero : (0 : Nat) = remaining at outcome
    generalize idle : (0 : Int) = after at outcome
    cases outcome with
    | kept => exact absurd idle.symm awaited
    | body packet _ more => omega
    | header _ idle' => exact absurd idle' awaited
    | packet _ idle' => exact absurd idle' awaited
  · have filled := List.length_pos_of_ne_nil empty
    omega

theorem sessionDataAll_weight {p next : Packetizer}
    {bufs : List FlexBuffer} {out : List (List UInt8)}
    (valid : p.saveBuf.Valid) (chunks : ∀ buf ∈ bufs, Chunk buf)
    (done : p.sessionDataAll bufs = some (next, out)) :
    weight out ≤ p.holding + received bufs ∧
      (¬ p.Clean → weight out < p.holding + received bufs) := by
  induction bufs generalizing p out with
  | nil =>
      obtain ⟨rfl, rfl⟩ := Prod.mk.inj (Option.some.inj done)
      exact ⟨Nat.zero_le _, fun dirty => Nat.add_pos_left
        (holding_pos dirty) _⟩
  | cons buf bufs ih =>
      obtain ⟨middle, first, later, head, tail, rfl⟩ :=
        sessionDataAll_cons done
      have chunk := chunks buf List.mem_cons_self
      have valid' := (sessionData_balance valid chunk.valid head).1
      obtain ⟨step, strict⟩ := sessionData_weight valid chunk head
      obtain ⟨rest, strict'⟩ := ih valid'
        (fun buf member => chunks buf (List.mem_cons_of_mem _ member))
        tail
      have total : received (buf :: bufs) =
          buf.unread.length + received bufs := rfl
      rw [weight_append, total]
      refine ⟨by omega, fun dirty => ?_⟩
      by_cases clean : middle.Clean
      · have := strict dirty clean
        omega
      · have := strict' clean
        omega

/-- A clean packetizer that loses nothing handles one frame a call. -/
theorem sessionDataAll_tight {p next : Packetizer}
    {bufs : List FlexBuffer} {out : List (List UInt8)}
    (valid : p.saveBuf.Valid) (clean : p.Clean)
    (chunks : ∀ buf ∈ bufs, Chunk buf)
    (done : p.sessionDataAll bufs = some (next, out))
    (tight : received bufs ≤ weight out) :
    bufs.map (fun buf => buf.unread.length) =
        out.map (fun packet => HEADER_SIZE + packet.length) ∧
      ∀ buf ∈ bufs, buf.unread.length < 2 ^ 31 := by
  induction bufs generalizing p out with
  | nil =>
      obtain ⟨rfl, rfl⟩ := Prod.mk.inj (Option.some.inj done)
      exact ⟨rfl, fun _ absent => nomatch absent⟩
  | cons buf bufs ih =>
      obtain ⟨middle, first, later, head, tail, rfl⟩ :=
        sessionDataAll_cons done
      have chunk := chunks buf List.mem_cons_self
      have chunks' : ∀ buf ∈ bufs, Chunk buf :=
        fun buf member => chunks buf (List.mem_cons_of_mem _ member)
      obtain ⟨valid', count, inside, small, outcome⟩ :=
        sessionData_balance valid chunk.valid head
      have step := (sessionData_weight valid chunk head).1
      have rest := sessionDataAll_weight valid' chunks' tail
      have nothing := holding_eq_zero clean
      have total : received (buf :: bufs) =
          buf.unread.length + received bufs := rfl
      rw [weight_append, total] at tight
      have clean' : middle.Clean := by
        by_contra dirty
        have := rest.2 dirty
        omega
      have nothing' := holding_eq_zero clean'
      have positive := List.length_pos_of_ne_nil chunk.filled
      have empty : p.saveBuf.unread.length = 0 := by
        rw [clean.unread]
        rfl
      have empty' : middle.saveBuf.unread.length = 0 := by
        rw [clean'.unread]
        rfl
      have balance := outcome.balance
      rw [clean.idle, clean'.idle, empty, empty'] at outcome balance
      have heavy : buf.unread.length ≤ weight first := by omega
      have single : ∃ packet, first = [packet] := by
        generalize max 0 count = held at outcome
        generalize zero : (0 : Int) = after at outcome
        generalize (0 : Nat) = left at outcome
        cases outcome with
        | kept =>
            simp only [weight, List.map_nil, List.sum_nil] at heavy
            omega
        | body packet awaited => exact absurd zero.symm awaited
        | header _ _ _ awaited => exact absurd zero.symm awaited
        | packet packet => exact ⟨packet, rfl⟩
      obtain ⟨packet, rfl⟩ := single
      have exact' : buf.unread.length = HEADER_SIZE + packet.length := by
        simp only [weight, List.map_cons, List.map_nil, List.sum_cons,
          List.sum_nil] at heavy balance step
        simp only [if_true] at balance
        omega
      obtain ⟨frames, limits⟩ := ih valid' clean' chunks' tail (by omega)
      constructor
      · simp only [List.map_cons, List.cons_append, List.nil_append,
          exact', frames]
      · intro other member
        rcases List.mem_cons.mp member with rfl | member
        · omega
        · exact limits other member

/-! ## Whole frames -/

/-- A packet behind room for its header, as the session above sends it. -/
def packetBuf (packet : List UInt8) : FlexBuffer :=
  { ({ FlexBuffer.newFlexBuffer with index := HEADER_SIZE } :
      FlexBuffer).write packet with index := 0 }

/-- The bytes the transport is handed for a packet. -/
def transported (maxPktSize : Int) (packet : List UInt8) : List UInt8 :=
  match (newPacketizer maxPktSize).transportPacket (packetBuf packet) with
  | some buf => buf.unread
  | none => []

theorem unread_packetBuf (packet : List UInt8) :
    (packetBuf packet).Valid ∧
      (packetBuf packet).unread.length = HEADER_SIZE + packet.length ∧
      (packetBuf packet).unread.drop HEADER_SIZE = packet := by
  have valid := @FlexBuffer.valid_write
    { FlexBuffer.newFlexBuffer with index := HEADER_SIZE } packet
    (Nat.zero_le _)
  have length : (packetBuf packet).length =
      HEADER_SIZE + packet.length :=
    Nat.max_eq_right (Nat.zero_le _)
  have inside : (packetBuf packet).length ≤
      (packetBuf packet).buf.length :=
    valid.length_le
  refine ⟨⟨Nat.zero_le _, inside⟩, ?_, ?_⟩
  · rw [FlexBuffer.unread, length_window inside, length]
    rfl
  · have wrote := @FlexBuffer.window_write_self
      { FlexBuffer.newFlexBuffer with index := HEADER_SIZE } packet
    rw [FlexBuffer.unread, drop_window, length]
    exact wrote

/-- A packet too long for the limit is not sent. -/
theorem transported_eq (maxPktSize : Int) (packet : List UInt8) :
    transported maxPktSize packet =
      if HEADER_SIZE + packet.length ≤ maxPktSize then
        header packet.length ++ packet
      else
        [] := by
  obtain ⟨valid, size, rest⟩ := unread_packetBuf packet
  unfold transported
  split_ifs with fits
  · obtain ⟨sent, done, -, -, -, bytes⟩ :=
      @transportPacket_ok (newPacketizer maxPktSize) _ valid rfl _ size
        fits
    rw [done]
    exact bytes.trans (by rw [rest])
  · have excess : (newPacketizer maxPktSize).transportPacket
        (packetBuf packet) = none :=
      transportPacket_over valid (by
        rw [size]
        simp only [newPacketizer]
        omega)
    rw [excess]

theorem length_transported_le (maxPktSize : Int) (packet : List UInt8) :
    (transported maxPktSize packet).length ≤
      HEADER_SIZE + packet.length := by
  rw [transported_eq]
  split
  · rw [List.length_append, length_header]
  · exact Nat.zero_le _

/--
A clean packetizer that is handed one whole frame delivers its packet,
whatever the four bytes of the signature are.
-/
theorem sessionData_frame {p : Packetizer} {buf : FlexBuffer}
    {sig packet : List UInt8} (valid : p.saveBuf.Valid) (clean : p.Clean)
    (valid' : buf.Valid) (four : sig.length = 4)
    (frame : buf.unread = sig ++ toBytes 4 packet.length ++ packet)
    (small : HEADER_SIZE + packet.length < 2 ^ 31) :
    ∃ next, p.sessionData buf = some (next, [packet]) ∧
      next.saveBuf.Valid ∧ next.Clean := by
  have eight : HEADER_SIZE = 4 + 4 := rfl
  have size : buf.unread.length = HEADER_SIZE + packet.length := by
    rw [frame, List.length_append, List.length_append, four,
      length_toBytes, eight]
  obtain ⟨rest, put⟩ :=
    @FlexBuffer.putFromOtherFull_ok p.saveBuf buf valid'
      (by rw [size]; exact small)
  have held : (p.saveBuf.writeBack buf.unread).unread = buf.unread := by
    rw [FlexBuffer.unread_writeBack valid, clean.unread, List.drop_nil,
      List.append_nil]
  have heldValid := FlexBuffer.valid_writeBack valid buf.unread
  obtain ⟨saveBuf, header, valid'', body⟩ :=
    @processHeader_ok
      { p with saveBuf := p.saveBuf.writeBack buf.unread } heldValid
      (by rw [held, size]; exact Nat.le_add_right _ _)
  have word : signed32 (ofBytes ((buf.unread.drop 4).take 4)) =
      (packet.length : Int) := by
    have middle : (buf.unread.drop 4).take 4 = toBytes 4 packet.length := by
      rw [frame, List.append_assoc, List.drop_left' four,
        List.take_left' (length_toBytes 4 packet.length)]
    rw [middle, ofBytes_toBytes_of_lt (by omega),
      signed32_of_lt (by omega)]
  have left : saveBuf.unread = packet := by
    rw [body]
    simp only [held]
    rw [frame, eight, List.drop_left'
      (by rw [List.length_append, four, length_toBytes])]
  simp only [held, word] at header
  obtain ⟨saveBuf', taken, valid''', nothing⟩ :=
    @processPacket_ok
      { p with saveBuf := saveBuf, nextPacketLen := packet.length }
      valid'' packet.length rfl
      (Nat.le_of_eq (congrArg List.length left).symm)
  simp only [left, List.take_length] at taken
  simp only [left, List.drop_length] at nothing
  refine ⟨{ p with saveBuf := saveBuf', nextPacketLen := 0 }, ?_,
    valid''', ⟨nothing, rfl⟩⟩
  have avail := heldValid.avail_eq
  have avail' := valid''.avail_eq
  rw [held, size] at avail
  rw [left] at avail'
  unfold sessionData
  simp only [put, Option.bind_eq_bind, Option.bind_some]
  change processSaved
    { p with saveBuf := p.saveBuf.writeBack buf.unread } = _
  unfold processSaved
  rw [if_neg (by simp only [clean.idle, ne_eq, not_true_eq_false,
    not_false_eq_true]), if_pos (by simp only [avail]; omega)]
  simp only [header, Option.bind_eq_bind, Option.bind_some]
  rw [if_pos (by simp only [avail']; omega)]
  simp only [taken, Option.bind_some]

/-- A call without bytes leaves a clean packetizer clean. -/
theorem sessionData_empty {p : Packetizer} {buf : FlexBuffer}
    (valid : p.saveBuf.Valid) (clean : p.Clean) (valid' : buf.Valid)
    (empty : buf.unread = []) :
    ∃ next, p.sessionData buf = some (next, []) ∧
      next.saveBuf.Valid ∧ next.Clean := by
  obtain ⟨rest, put⟩ :=
    @FlexBuffer.putFromOtherFull_ok p.saveBuf buf valid'
      (by rw [empty]; decide)
  rw [empty] at put
  have heldValid := FlexBuffer.valid_writeBack valid []
  have held : (p.saveBuf.writeBack []).unread = [] := by
    rw [FlexBuffer.unread_writeBack valid, clean.unread]
    rfl
  have avail := heldValid.avail_eq
  rw [held] at avail
  refine ⟨{ p with saveBuf := p.saveBuf.writeBack [] }, ?_, heldValid,
    ⟨held, clean.idle⟩⟩
  unfold sessionData
  simp only [put, Option.bind_eq_bind, Option.bind_some]
  change processSaved
    { p with saveBuf := p.saveBuf.writeBack [] } = _
  unfold processSaved
  rw [if_neg (by simp only [clean.idle, ne_eq, not_true_eq_false,
    not_false_eq_true]), if_neg (by
      simp only [avail, List.length_nil]
      unfold HEADER_SIZE
      omega)]

/-! ## Streams -/

/-- No packet is too long for its frame to be sent and put. -/
def Fits (maxPktSize : Int) (packets : List (List UInt8)) : Prop :=
  ∀ packet ∈ packets, HEADER_SIZE + packet.length ≤ maxPktSize ∧
    HEADER_SIZE + packet.length < 2 ^ 31

instance (maxPktSize : Int) (packets : List (List UInt8)) :
    Decidable (Fits maxPktSize packets) :=
  inferInstanceAs (Decidable (∀ packet ∈ packets, _ ∧ _))

/-- Every call that is handed bytes is handed one whole frame. -/
def FrameEach (maxPktSize : Int) (packets : List (List UInt8))
    (bufs : List FlexBuffer) : Prop :=
  (bufs.map FlexBuffer.unread).filter (fun bytes => !bytes.isEmpty) =
    packets.map (transported maxPktSize)

instance (maxPktSize : Int) (packets : List (List UInt8))
    (bufs : List FlexBuffer) :
    Decidable (FrameEach maxPktSize packets bufs) :=
  inferInstanceAs (Decidable (_ = _))

theorem sessionDataAll_frames {maxPktSize : Int} {p : Packetizer}
    {packets : List (List UInt8)} {bufs : List FlexBuffer}
    (valid : p.saveBuf.Valid) (clean : p.Clean)
    (valid' : ∀ buf ∈ bufs, buf.Valid) (fits : Fits maxPktSize packets)
    (each : FrameEach maxPktSize packets bufs) :
    ∃ next, p.sessionDataAll bufs = some (next, packets) := by
  induction bufs generalizing p packets with
  | nil =>
      have none_left : packets = [] := List.map_eq_nil_iff.mp each.symm
      exact ⟨p, by rw [none_left]; rfl⟩
  | cons buf bufs ih =>
      have validBuf := valid' buf List.mem_cons_self
      have validBufs : ∀ buf ∈ bufs, buf.Valid :=
        fun buf member => valid' buf (List.mem_cons_of_mem _ member)
      unfold FrameEach at each
      rw [List.map_cons, List.filter_cons] at each
      by_cases empty : buf.unread = []
      · rw [if_neg (by simp [empty])] at each
        obtain ⟨middle, head, valid'', clean'⟩ :=
          sessionData_empty valid clean validBuf empty
        obtain ⟨next, tail⟩ := ih valid'' clean' validBufs fits each
        refine ⟨next, ?_⟩
        simp only [sessionDataAll, head, tail, Option.bind_eq_bind,
          Option.bind_some, List.nil_append]
      · rw [if_pos (by simp [empty])] at each
        cases packets with
        | nil => exact nomatch each
        | cons packet packets =>
            obtain ⟨frame, each'⟩ := List.cons.inj each
            obtain ⟨sendable, small⟩ := fits packet List.mem_cons_self
            rw [transported_eq, if_pos sendable] at frame
            obtain ⟨middle, head, valid'', clean'⟩ :=
              sessionData_frame valid clean validBuf
                (length_toBytes 4 SIG) frame small
            obtain ⟨next, tail⟩ := ih valid'' clean' validBufs
              (fun packet member =>
                fits packet (List.mem_cons_of_mem _ member)) each'
            refine ⟨next, ?_⟩
            simp only [sessionDataAll, head, tail, Option.bind_eq_bind,
              Option.bind_some, List.cons_append, List.nil_append]

theorem length_sent_le (maxPktSize : Int) (packets : List (List UInt8)) :
    (packets.flatMap (transported maxPktSize)).length ≤
      weight packets := by
  induction packets with
  | nil => exact Nat.le_refl 0
  | cons packet packets ih =>
      have head := length_transported_le maxPktSize packet
      simp only [List.flatMap_cons, List.length_append, weight,
        List.map_cons, List.sum_cons] at ih ⊢
      omega

/-- What is sent has as many bytes as the frames only if all are sent. -/
theorem sendable_of_weight {maxPktSize : Int}
    {packets : List (List UInt8)}
    (full : weight packets ≤
      (packets.flatMap (transported maxPktSize)).length) :
    ∀ packet ∈ packets, HEADER_SIZE + packet.length ≤ maxPktSize := by
  induction packets with
  | nil => exact fun _ absent => nomatch absent
  | cons packet packets ih =>
      have head := length_transported_le maxPktSize packet
      have rest := length_sent_le maxPktSize packets
      have total : weight (packet :: packets) =
          HEADER_SIZE + packet.length + weight packets := rfl
      rw [List.flatMap_cons, List.length_append, total] at full
      intro other member
      rcases List.mem_cons.mp member with rfl | member
      · by_contra excess
        rw [transported_eq, if_neg excess, List.length_nil] at full
        unfold HEADER_SIZE at full
        omega
      · exact ih (by omega) other member

/-- Calls that lose nothing of a stream are handed a frame each. -/
theorem frameEach_of_sessionDataAll {maxPktSize : Int}
    {packets : List (List UInt8)} {bufs : List FlexBuffer}
    {next : Packetizer} (chunks : ∀ buf ∈ bufs, Chunk buf)
    (split : (bufs.map FlexBuffer.unread).flatten =
      packets.flatMap (transported maxPktSize))
    (done : (newPacketizer maxPktSize).sessionDataAll bufs =
      some (next, packets)) :
    Fits maxPktSize packets ∧ FrameEach maxPktSize packets bufs := by
  have valid : (newPacketizer maxPktSize).saveBuf.Valid :=
    ⟨Nat.le_refl 0, Nat.zero_le _⟩
  have clean : (newPacketizer maxPktSize).Clean := ⟨rfl, rfl⟩
  have bytes := length_flatten_unread bufs
  have sent : received bufs ≤ weight packets := by
    rw [← bytes, split]
    exact length_sent_le maxPktSize packets
  obtain ⟨frames, limits⟩ :=
    sessionDataAll_tight valid clean chunks done sent
  have full : received bufs = weight packets := by
    rw [received, frames, weight]
  rw [split] at bytes
  have sendable := sendable_of_weight (bytes.trans full).ge
  have lengths : (bufs.map FlexBuffer.unread).map List.length =
      (packets.map (transported maxPktSize)).map List.length := by
    rw [List.map_map, List.map_map]
    refine frames.trans (List.map_congr_left fun packet member => ?_)
    rw [Function.comp_apply, transported_eq,
      if_pos (sendable packet member), List.length_append, length_header]
  constructor
  · intro packet member
    refine ⟨sendable packet member, ?_⟩
    have sizes : HEADER_SIZE + packet.length ∈
        bufs.map fun buf => buf.unread.length := by
      rw [frames]
      exact List.mem_map.mpr ⟨packet, member, rfl⟩
    obtain ⟨buf, place, size⟩ := List.mem_map.mp sizes
    rw [← size]
    exact limits buf place
  · rw [FrameEach, List.filter_eq_self.mpr]
    · exact List.eq_iff_flatten_eq.mpr
        ⟨by rw [split, List.flatMap_def], lengths⟩
    · intro bytes member
      obtain ⟨buf, place, rfl⟩ := List.mem_map.mp member
      simpa using (chunks buf place).filled

/-- The packets are received as sent, and nothing else is. -/
def Receives (maxPktSize : Int) (bufs : List FlexBuffer)
    (packets : List (List UInt8)) : Prop :=
  ∃ next, (newPacketizer maxPktSize).sessionDataAll bufs =
    some (next, packets)

theorem Receives.delivered {maxPktSize : Int} {bufs : List FlexBuffer}
    {packets : List (List UInt8)}
    (receives : Receives maxPktSize bufs packets) :
    ((newPacketizer maxPktSize).sessionDataAll bufs).map Prod.snd =
      some packets := by
  obtain ⟨next, done⟩ := receives
  rw [done, Option.map_some]

/--
The packets of a stream are received exactly when every call is handed one
whole frame, each below 2^31 bytes and sent at all; and a frame with any
other signature is received as well.
-/
theorem receives_iff (maxPktSize : Int) (packets : List (List UInt8))
    (bufs : List FlexBuffer) (valid : ∀ buf ∈ bufs, buf.Valid)
    (split : (bufs.map FlexBuffer.unread).flatten =
      packets.flatMap (transported maxPktSize)) :
    (Fits maxPktSize packets ∧ FrameEach maxPktSize packets bufs →
      Receives maxPktSize bufs packets) ∧
    ((∀ buf ∈ bufs, buf.unread ≠ []) →
      (Receives maxPktSize bufs packets ↔
        Fits maxPktSize packets ∧ FrameEach maxPktSize packets bufs)) ∧
    ∀ (buf : FlexBuffer) (sig packet : List UInt8), buf.Valid →
      sig.length = 4 → ofBytes sig ≠ SIG →
      HEADER_SIZE + packet.length < 2 ^ 31 →
      buf.unread = sig ++ toBytes 4 packet.length ++ packet →
      Receives maxPktSize [buf] [packet] := by
  have fresh : (newPacketizer maxPktSize).saveBuf.Valid :=
    ⟨Nat.le_refl 0, Nat.zero_le _⟩
  have clean : (newPacketizer maxPktSize).Clean := ⟨rfl, rfl⟩
  have enough : Fits maxPktSize packets ∧
      FrameEach maxPktSize packets bufs →
        Receives maxPktSize bufs packets := by
    rintro ⟨fits, each⟩
    exact sessionDataAll_frames fresh clean valid fits each
  refine ⟨enough, fun filled => ⟨?_, enough⟩, ?_⟩
  · rintro ⟨next, done⟩
    exact frameEach_of_sessionDataAll
      (fun buf member => ⟨valid buf member, filled buf member⟩) split done
  · intro buf sig packet valid' four _ small frame
    obtain ⟨next, done, -⟩ :=
      sessionData_frame fresh clean valid' four frame small
    exact ⟨next, by simp only [sessionDataAll, done, Option.bind_eq_bind,
      Option.bind_some, List.append_nil]⟩

/-- Bytes read from the socket, as the connection puts them. -/
def socketBuf (bytes : List UInt8) : FlexBuffer :=
  { FlexBuffer.newFlexBuffer.write bytes with index := 0 }

/-- Two frames in two calls. -/
theorem receives_iff_two :
    Receives 10 [socketBuf [0xde, 0xad, 0xbe, 0xef, 0, 0, 0, 1, 7],
      socketBuf [0xde, 0xad, 0xbe, 0xef, 0, 0, 0, 2, 8, 9]]
      [[7], [8, 9]] := by
  have iff := receives_iff 10 [[7], [8, 9]]
    [socketBuf [0xde, 0xad, 0xbe, 0xef, 0, 0, 0, 1, 7],
      socketBuf [0xde, 0xad, 0xbe, 0xef, 0, 0, 0, 2, 8, 9]]
    (by
      intro buf member
      simp only [List.mem_cons, List.not_mem_nil, or_false] at member
      rcases member with rfl | rfl <;> exact ⟨by decide, by decide⟩)
    (by decide)
  exact iff.1 ⟨by decide, by decide⟩

/-- The same frames in one call, cut in a header, or with a bad signature. -/
theorem not_receives_joined :
    ([socketBuf [0xde, 0xad, 0xbe, 0xef, 0, 0, 0, 1, 7, 0xde, 0xad, 0xbe,
      0xef, 0, 0, 0, 2, 8, 9]].map FlexBuffer.unread).flatten =
        [[7], [8, 9]].flatMap (transported 10) ∧
    ¬ Receives 10
      [socketBuf [0xde, 0xad, 0xbe, 0xef, 0, 0, 0, 1, 7, 0xde, 0xad, 0xbe,
        0xef, 0, 0, 0, 2, 8, 9]]
      [[7], [8, 9]] ∧
    ([socketBuf [0xde, 0xad], socketBuf [0xbe, 0xef, 0, 0, 0, 1, 7]].map
      FlexBuffer.unread).flatten = [[7]].flatMap (transported 10) ∧
    ¬ Receives 10
      [socketBuf [0xde, 0xad], socketBuf [0xbe, 0xef, 0, 0, 0, 1, 7]]
      [[7]] ∧
    Receives 10 [socketBuf [0, 0, 0, 0, 0, 0, 0, 1, 7]] [[7]] := by
  refine ⟨by decide, ?_, by decide, ?_, ?_⟩
  · intro received
    exact absurd received.delivered (by decide)
  · intro received
    exact absurd received.delivered (by decide)
  · exact ⟨_, rfl⟩

end Etch.Go.Packetizer
