import Etch.Java.Packetizer

/-!
# The Java `Packetizer` reassembles packets

Each round of `sessionData` is one step of the abstract receiver as long as
`savedBuf` need not grow past its maximal size; the receiver's invariant then
carries over all rounds and all calls.
-/

namespace Etch.Java.Packetizer

open Etch.Library
open Etch.Library.Framing
open Etch.Library.Window
open Etch.Library.BigEndian
open Etch.Library.Fallible
open Etch.Packet

/-- The header format of a packetizer with the given limit. -/
abbrev format (maxPktSize : Nat) : HeaderFormat UInt8 :=
  headerFormat (accepts maxPktSize)

/-- The packetizer's fields hold the state of an abstract receiver. -/
structure Holds (packetizer : Packetizer) (receiver : Receiver UInt8) :
    Prop where
  wantHeader : packetizer.wantHeader = receiver.announced.isNone
  bodyLen : ∀ count ∈ receiver.announced, packetizer.bodyLen = count
  contents : packetizer.savedBuf.contents = receiver.saved
  atEnd : packetizer.savedBuf.index = packetizer.savedBuf.length

theorem Holds.length_saved {packetizer : Packetizer}
    {receiver : Receiver UInt8} (holds : packetizer.Holds receiver) :
    packetizer.savedBuf.length = receiver.saved.length := by
  rw [← holds.contents, FlexBuffer.length_contents]

/-- `processHeader` reads the header the format describes. -/
theorem processHeader_ok (packetizer : Packetizer) (buf : FlexBuffer)
    {pktSize : Nat} (reset : Bool) (enough : HEADER_SIZE ≤ buf.avail)
    (decoded : (format packetizer.maxPktSize).decode
      (buf.unread.take HEADER_SIZE) = some pktSize) :
    ∃ next, packetizer.processHeader buf reset =
        .ok (pktSize, if reset then next.reset else next) ∧
      next.unread = buf.unread.drop HEADER_SIZE := by
  unfold HEADER_SIZE at enough decoded ⊢
  obtain ⟨middle, first, rest⟩ :=
    FlexBuffer.getInt_ok buf (by omega)
  have left : middle.avail = buf.avail - 4 := by
    rw [← middle.length_unread, rest, List.length_drop,
      FlexBuffer.length_unread]
  obtain ⟨next, second, rest'⟩ :=
    FlexBuffer.getInt_ok middle (by omega)
  rw [decode_eq_some_iff, List.take_take, List.drop_take] at decoded
  obtain ⟨sig, size, accepted⟩ := decoded
  have good : ¬ (packetizer.maxPktSize > 0 ∧
      (pktSize : Int) > packetizer.maxPktSize) := by
    simp only [accepts, Bool.or_eq_true, beq_iff_eq,
      decide_eq_true_eq] at accepted
    omega
  refine ⟨next, ?_, by rw [rest', rest, List.drop_drop]⟩
  have word : signed32 (ofBytes (middle.unread.take 4)) = pktSize := by
    rw [rest]
    exact size
  rw [word] at second
  have word' : ofBytes (buf.unread.take 4) = SIG := sig
  rw [word'] at first
  rw [processHeader, first]
  simp only [ok_bind, ne_eq, not_true, if_false, second]
  rw [if_neg (by omega)]
  rfl

/-! ## The four branches of the loop -/

/-- A good header is consumed, whether or not a part of it was saved. -/
private theorem headerBytes_ok {packetizer : Packetizer}
    {buf : FlexBuffer} {saved : List UInt8} {count : Nat}
    (holds : packetizer.Holds ⟨none, saved⟩)
    (short : saved.length < HEADER_SIZE)
    (enough : HEADER_SIZE ≤ saved.length + buf.avail)
    (decoded : (format packetizer.maxPktSize).decode
      (saved ++ buf.unread.take (HEADER_SIZE - saved.length)) =
        some count) :
    ∃ next rest, packetizer.headerBytes buf = .ok (count, next, rest) ∧
      next.contents = [] ∧ next.index = next.length ∧
      rest.unread = buf.unread.drop (HEADER_SIZE - saved.length) := by
  have length := holds.length_saved
  have contents := holds.contents
  simp only at length contents
  unfold headerBytes
  by_cases empty : packetizer.savedBuf.length = 0
  · obtain rfl : saved = [] :=
      List.eq_nil_of_length_eq_zero (by omega)
    rw [List.nil_append, List.length_nil, Nat.sub_zero] at decoded
    simp only [List.length_nil, Nat.zero_add] at enough
    obtain ⟨rest, done, remaining⟩ :=
      processHeader_ok _ buf false enough decoded
    simp only [if_pos empty, done, ok_bind]
    exact ⟨_, _, rfl, contents, holds.atEnd, remaining⟩
  · rw [if_neg empty]
    have needed : ((HEADER_SIZE : Int) - packetizer.savedBuf.length) =
        ((HEADER_SIZE - saved.length : Nat) : Int) := by
      omega
    have small : HEADER_SIZE ≤ FlexBuffer.MAX_BUFFER_LEN := by decide
    obtain ⟨full, rest, put, -, whole, remaining⟩ :=
      FlexBuffer.putFrom_ok _ buf (HEADER_SIZE - saved.length)
        holds.atEnd (by omega) (by omega)
    obtain ⟨start, rewound, buffer, index, same⟩ :=
      FlexBuffer.setIndex_ok full 0 (Nat.zero_le _)
    have item : start.unread =
        saved ++ buf.unread.take (HEADER_SIZE - saved.length) := by
      rw [FlexBuffer.unread, index, buffer, same, window_zero]
      exact whole.trans (congrArg (· ++ _) contents)
    have size : start.unread.length = HEADER_SIZE := by
      rw [item, List.length_append, List.length_take,
        FlexBuffer.length_unread]
      omega
    rw [FlexBuffer.length_unread] at size
    obtain ⟨final, done, -⟩ :=
      processHeader_ok packetizer start true (by omega)
      (by rw [item, List.take_of_length_le
            (by rw [← item, FlexBuffer.length_unread]; omega)]
          exact decoded)
    have rewound' : full.setIndex 0 = .ok start := rewound
    simp only [needed, put, rewound', done, ok_bind]
    exact ⟨_, _, rfl, rfl, rfl, remaining⟩

theorem takeHeader_ok {packetizer : Packetizer} {buf : FlexBuffer}
    {saved : List UInt8} {count : Nat}
    (holds : packetizer.Holds ⟨none, saved⟩)
    (short : saved.length < HEADER_SIZE)
    (enough : HEADER_SIZE ≤ saved.length + buf.avail)
    (decoded : (format packetizer.maxPktSize).decode
      (saved ++ buf.unread.take (HEADER_SIZE - saved.length)) =
        some count) :
    ∃ next rest, packetizer.takeHeader buf = .ok (next, rest) ∧
      next.Holds ⟨if count = 0 then none else some count, []⟩ ∧
      rest.unread = buf.unread.drop (HEADER_SIZE - saved.length) ∧
      next.maxPktSize = packetizer.maxPktSize := by
  obtain ⟨savedBuf, rest, done, contents, atEnd, remaining⟩ :=
    headerBytes_ok holds short enough decoded
  simp only [takeHeader, done, ok_bind]
  by_cases zero : count = 0
  · simp only [if_pos zero]
    exact ⟨_, rest, rfl,
      ⟨holds.wantHeader, fun _ absent => (nomatch absent), contents, atEnd⟩,
      remaining, rfl⟩
  · simp only [if_neg zero]
    exact ⟨_, rest, rfl,
      ⟨rfl, fun _ same => Option.some.inj same, contents, atEnd⟩,
      remaining, rfl⟩

theorem saveHeader_ok {packetizer : Packetizer} {buf : FlexBuffer}
    {saved : List UInt8} (holds : packetizer.Holds ⟨none, saved⟩)
    (room : saved.length + buf.avail ≤ FlexBuffer.MAX_BUFFER_LEN) :
    ∃ next rest, packetizer.saveHeader buf = .ok (next, rest) ∧
      next.Holds ⟨none, saved ++ buf.unread⟩ ∧ rest.unread = [] ∧
      next.maxPktSize = packetizer.maxPktSize := by
  obtain ⟨ready, moved, buffer, index, length⟩ :=
    FlexBuffer.setIndex_ok packetizer.savedBuf _ (Nat.le_refl _)
  have front : ready.contents = saved := by
    rw [FlexBuffer.contents, buffer, length]
    exact holds.contents
  have size := holds.length_saved
  obtain ⟨next, rest, put, atEnd, contents, remaining⟩ :=
    FlexBuffer.put_ok ready buf (by omega)
      (by simp only at size; omega)
  simp only [saveHeader, moved, put, ok_bind]
  exact ⟨_, rest, rfl,
    ⟨holds.wantHeader, fun _ absent => (by cases absent),
      contents.trans (congrArg (· ++ _) front), atEnd⟩,
    remaining, rfl⟩

theorem saveBody_ok {packetizer : Packetizer} {buf : FlexBuffer}
    {count : Nat} {saved : List UInt8}
    (holds : packetizer.Holds ⟨some count, saved⟩)
    (room : saved.length + buf.avail ≤ FlexBuffer.MAX_BUFFER_LEN) :
    ∃ next rest, packetizer.saveBody buf = .ok (next, rest) ∧
      next.Holds ⟨some count, saved ++ buf.unread⟩ ∧ rest.unread = [] ∧
      next.maxPktSize = packetizer.maxPktSize := by
  have size := holds.length_saved
  obtain ⟨next, rest, put, atEnd, contents, remaining⟩ :=
    FlexBuffer.put_ok _ buf holds.atEnd
      (by simp only at size; omega)
  simp only [saveBody, put, ok_bind]
  exact ⟨_, rest, rfl,
    ⟨holds.wantHeader, holds.bodyLen,
      contents.trans (congrArg (· ++ _) holds.contents), atEnd⟩,
    remaining, rfl⟩

/-- A body within `buf` is handed over in place. -/
private theorem takeBody_inPlace (session : Session)
    {packetizer : Packetizer} {buf : FlexBuffer} {count : Nat}
    (holds : packetizer.Holds ⟨some count, []⟩)
    (enough : count ≤ buf.avail) :
    ∃ next rest, packetizer.takeBody session buf =
        .ok (next, rest, buf.unread.take count) ∧
      next.Holds .start ∧ rest.unread = buf.unread.drop count ∧
      next.maxPktSize = packetizer.maxPktSize := by
  obtain rfl : packetizer.bodyLen = count := holds.bodyLen count rfl
  have empty : packetizer.savedBuf.length = 0 := holds.length_saved
  have order := buf.index_le
  have inside : buf.index + packetizer.bodyLen ≤ buf.length := by
    unfold FlexBuffer.avail at enough
    omega
  have size := buf.length_le
  have limit := buf.size_lt
  have sum : intAdd buf.index packetizer.bodyLen =
      (buf.index + packetizer.bodyLen : Nat) :=
    intAdd_of_lt (by omega)
  obtain ⟨exposed, cut, buffer, index, length⟩ :=
    FlexBuffer.setLength_ok buf _ (inside.trans size)
  have sameBuffer : (session.sessionPacket exposed).buffer = buf.buffer :=
    buffer
  obtain ⟨restored, uncut, buffer', -, length'⟩ :=
    FlexBuffer.setLength_ok (session.sessionPacket exposed) buf.length
      (by rw [sameBuffer]; exact size)
  obtain ⟨rest, moved, buffer'', index'', length''⟩ :=
    FlexBuffer.setIndex_ok restored (buf.index + packetizer.bodyLen)
      (by rw [length']; exact inside)
  have packet : exposed.unread = buf.unread.take packetizer.bodyLen := by
    rw [FlexBuffer.unread, FlexBuffer.unread, take_window, buffer, index,
      length, Nat.min_eq_left (Nat.le_add_right _ _),
      Nat.min_eq_left inside]
  simp only [takeBody, if_pos empty, sum, cut, uncut, moved, ok_bind, packet]
  refine ⟨_, rest, rfl, ⟨rfl, fun _ absent => (by cases absent),
    holds.contents, holds.atEnd⟩, ?_, rfl⟩
  rw [FlexBuffer.unread, FlexBuffer.unread, drop_window, buffer'',
    index'', length'', buffer', length', sameBuffer]

/-- A split body is completed in `savedBuf` and handed over there. -/
private theorem takeBody_split (session : Session)
    {packetizer : Packetizer} {buf : FlexBuffer} {count : Nat}
    {saved : List UInt8}
    (holds : packetizer.Holds ⟨some count, saved⟩) (filled : saved ≠ [])
    (short : saved.length < count)
    (enough : count ≤ saved.length + buf.avail)
    (room : count ≤ FlexBuffer.MAX_BUFFER_LEN) :
    ∃ next rest, packetizer.takeBody session buf =
        .ok (next, rest,
          saved ++ buf.unread.take (count - saved.length)) ∧
      next.Holds .start ∧
      rest.unread = buf.unread.drop (count - saved.length) ∧
      next.maxPktSize = packetizer.maxPktSize := by
  obtain rfl : packetizer.bodyLen = count := holds.bodyLen count rfl
  have length : packetizer.savedBuf.length = saved.length :=
    holds.length_saved
  have positive := List.length_pos_of_ne_nil filled
  have needed :
      (packetizer.bodyLen : Int) - packetizer.savedBuf.length =
        ((packetizer.bodyLen - saved.length : Nat) : Int) := by
    omega
  obtain ⟨full, rest, put, -, whole, remaining⟩ :=
    FlexBuffer.putFrom_ok _ buf (packetizer.bodyLen - saved.length)
      holds.atEnd (by omega) (by omega)
  obtain ⟨start, rewound, buffer, index, same⟩ :=
    FlexBuffer.setIndex_ok full 0 (Nat.zero_le _)
  have rewound' : full.setIndex 0 = .ok start := rewound
  have packet : start.unread = saved ++
      buf.unread.take (packetizer.bodyLen - saved.length) := by
    rw [FlexBuffer.unread, index, buffer, same, window_zero]
    exact whole.trans (congrArg (· ++ _) holds.contents)
  have nonempty : packetizer.savedBuf.length ≠ 0 := by omega
  simp only [takeBody, if_neg nonempty, needed, put, rewound', ok_bind, packet]
  exact ⟨_, rest, rfl,
    ⟨rfl, fun _ absent => (by cases absent), FlexBuffer.contents_reset _,
      rfl⟩,
    remaining, rfl⟩

theorem takeBody_ok (session : Session) {packetizer : Packetizer}
    {buf : FlexBuffer} {count : Nat} {saved : List UInt8}
    (holds : packetizer.Holds ⟨some count, saved⟩)
    (short : saved.length < count)
    (enough : count ≤ saved.length + buf.avail)
    (room : saved = [] ∨ count ≤ FlexBuffer.MAX_BUFFER_LEN) :
    ∃ next rest, packetizer.takeBody session buf =
        .ok (next, rest,
          saved ++ buf.unread.take (count - saved.length)) ∧
      next.Holds .start ∧
      rest.unread = buf.unread.drop (count - saved.length) ∧
      next.maxPktSize = packetizer.maxPktSize := by
  by_cases empty : saved = []
  · subst empty
    simp only [List.length_nil, Nat.zero_add] at enough
    exact takeBody_inPlace session holds enough
  · exact takeBody_split session holds empty short enough
      (room.resolve_left empty)

/-- The sending half puts the header in front of the packet. -/
theorem transportPacket_ok {packetizer : Packetizer} {buf : FlexBuffer}
    {room packet : List UInt8} (size : room.length = HEADER_SIZE)
    (unread : buf.unread = room ++ packet)
    (fits : accepts packetizer.maxPktSize packet.length = true) :
    ∃ next, packetizer.transportPacket buf = .ok next ∧
      next.unread = header packet.length ++ packet := by
  have avail : buf.avail = HEADER_SIZE + packet.length := by
    rw [← buf.length_unread, unread, List.length_append, size]
  have order := buf.index_le
  have within := buf.length_le
  have eight : HEADER_SIZE = 8 := rfl
  have avail' := avail
  unfold FlexBuffer.avail at avail'
  obtain ⟨first, put, buffer, index, length⟩ :=
    FlexBuffer.putBytes_over buf (toBytes 4 SIG) (by
      rw [length_toBytes]
      omega)
  have index4 : first.index = buf.index + 4 := by
    rw [index, length_toBytes]
  obtain ⟨second, put', buffer', index', length'⟩ :=
    FlexBuffer.putBytes_over first (toBytes 4 packet.length) (by
      rw [length_toBytes]
      unfold FlexBuffer.avail
      omega)
  obtain ⟨next, moved, buffer'', index'', length''⟩ :=
    FlexBuffer.setIndex_ok second buf.index (by omega)
  have good : ¬ (packetizer.maxPktSize > 0 ∧
      packet.length > packetizer.maxPktSize) := by
    simp only [accepts, Bool.or_eq_true, beq_iff_eq,
      decide_eq_true_eq] at fits
    omega
  have pktSize : buf.avail - HEADER_SIZE = packet.length := by omega
  refine ⟨next, ?_, ?_⟩
  · rw [transportPacket]
    simp only [pktSize]
    rw [if_neg (by omega), if_neg good, FlexBuffer.putInt, put, ok_bind,
      FlexBuffer.putInt, put', ok_bind, moved]
  · have both : next.buffer =
        overwrite buf.buffer buf.index (header packet.length) := by
      rw [buffer'', buffer', index, buffer, overwrite_overwrite]
      · rfl
      · rw [length_toBytes]
        omega
    have rest : (buf.unread).drop HEADER_SIZE = packet := by
      rw [unread, List.drop_left' size]
    rw [FlexBuffer.unread, both, index'', length'', length', length,
      window_overwrite_front, length_header, ← rest]
    · rfl
    · rw [length_header]
      omega
    · rw [length_header]
      omega

/-! ## Rounds, calls and runs -/

/-- A round of the loop is a step of the abstract receiver. -/
theorem sessionDataRound_accept (session : Session)
    {packetizer : Packetizer} {buf : FlexBuffer}
    {receiver : Receiver UInt8} {reply : Reply UInt8}
    (delivered : List (List UInt8)) (holds : packetizer.Holds receiver)
    (short : receiver.saved.length <
      (format packetizer.maxPktSize).need receiver)
    (small : receiver.saved.length + buf.avail < 2 ^ 31)
    (room : receiver.saved = [] ∧
        (format packetizer.maxPktSize).need receiver ≤ buf.avail ∨
      min ((format packetizer.maxPktSize).need receiver)
        (receiver.saved.length + buf.avail) ≤ FlexBuffer.MAX_BUFFER_LEN)
    (done : (format packetizer.maxPktSize).accept receiver buf.unread =
      some reply) :
    ∃ next rest,
      sessionDataRound session ⟨packetizer, buf, delivered⟩ =
        .ok ⟨next, rest, delivered ++ reply.delivered⟩ ∧
      next.Holds reply.receiver ∧ rest.unread = reply.pending ∧
      next.maxPktSize = packetizer.maxPktSize := by
  obtain ⟨announced, saved⟩ := receiver
  have sum : intAdd packetizer.savedBuf.length buf.avail =
      (saved.length + buf.avail : Nat) := by
    rw [holds.length_saved]
    exact intAdd_of_lt small
  have wantHeader := holds.wantHeader
  unfold sessionDataRound
  simp only [sum]
  cases announced with
  | none =>
      have size : (format packetizer.maxPktSize).need
          (⟨none, saved⟩ : Receiver UInt8) = HEADER_SIZE := rfl
      rw [size] at short room
      rw [if_pos (show packetizer.wantHeader = true from wantHeader)]
      by_cases enough : HEADER_SIZE ≤ saved.length + buf.avail
      · rw [HeaderFormat.accept_of_enough _
          (by rw [size, FlexBuffer.length_unread]; exact enough)] at done
        obtain ⟨count, decoded, rfl⟩ :=
          HeaderFormat.complete_none_eq_some _ done
        obtain ⟨next, rest, taken, holds', remaining, same⟩ :=
          takeHeader_ok holds short enough decoded
        rw [if_pos (by exact_mod_cast enough), taken]
        exact ⟨next, rest, by simp, holds', remaining, same⟩
      · rw [HeaderFormat.accept_of_short _
          (by rw [size, FlexBuffer.length_unread]; simp only; omega)]
          at done
        obtain rfl := Option.some.inj done
        have fits :
            saved.length + buf.avail ≤ FlexBuffer.MAX_BUFFER_LEN := by
          simp only at room
          omega
        obtain ⟨next, rest, kept, holds', remaining, same⟩ :=
          saveHeader_ok holds fits
        rw [if_neg (by exact_mod_cast enough), kept]
        exact ⟨next, rest, by simp, holds', remaining, same⟩
  | some count =>
      have size : (format packetizer.maxPktSize).need
          (⟨some count, saved⟩ : Receiver UInt8) = count := rfl
      rw [size] at short room
      obtain rfl : packetizer.bodyLen = count := holds.bodyLen count rfl
      have wantBody : ¬ packetizer.wantHeader = true := by
        rw [wantHeader]
        exact Bool.false_ne_true
      rw [if_neg wantBody]
      by_cases enough : packetizer.bodyLen ≤ saved.length + buf.avail
      · rw [HeaderFormat.accept_of_enough _
          (by rw [size, FlexBuffer.length_unread]; exact enough)] at done
        obtain rfl := Option.some.inj done
        have fits : saved = [] ∨
            packetizer.bodyLen ≤ FlexBuffer.MAX_BUFFER_LEN :=
          room.imp And.left fun bounded => by
            rwa [Nat.min_eq_left enough] at bounded
        obtain ⟨next, rest, taken, holds', remaining, same⟩ :=
          takeBody_ok session holds short enough fits
        rw [if_pos (by exact_mod_cast enough), taken]
        exact ⟨next, rest, by simp [size], holds', remaining, same⟩
      · rw [HeaderFormat.accept_of_short _
          (by rw [size, FlexBuffer.length_unread]; simp only; omega)]
          at done
        obtain rfl := Option.some.inj done
        have fits :
            saved.length + buf.avail ≤ FlexBuffer.MAX_BUFFER_LEN := by
          simp only at room
          omega
        obtain ⟨next, rest, kept, holds', remaining, same⟩ :=
          saveBody_ok holds fits
        rw [if_neg (by exact_mod_cast enough), kept]
        exact ⟨next, rest, by simp, holds', remaining, same⟩

/--
The loop invariant of `sessionData`: the packetizer is in step with the
stream, of which `future` is still to be handed over, and what the session
has been handed and what is awaited make up the packets.
-/
def InStep (maxPktSize : Nat) (packets : List (List UInt8))
    (future : List UInt8) (state : Receiving) : Prop :=
  ∃ receiver rest, state.packetizer.Holds receiver ∧
    state.packetizer.maxPktSize = maxPktSize ∧
    (format maxPktSize).Tracks receiver (state.buf.unread ++ future) rest ∧
    rest <:+ packets ∧
    ¬ HeaderFormat.Overfull FlexBuffer.MAX_BUFFER_LEN receiver ∧
    state.delivered ++ occupied rest = occupied packets

/-- The chunks for which sums of `int` values do not wrap. -/
def Moderate (buf : FlexBuffer) : Prop :=
  buf.avail + FlexBuffer.MAX_BUFFER_LEN < 2 ^ 31

instance (buf : FlexBuffer) : Decidable (Moderate buf) :=
  inferInstanceAs (Decidable (_ < _))

theorem sessionDataRound_inStep (session : Session) {maxPktSize : Nat}
    {packets : List (List UInt8)} {future : List UInt8}
    {state : Receiving}
    (inStep : InStep maxPktSize packets future state)
    (moderate : Moderate state.buf) (filled : 0 < state.buf.avail)
    (outside : ¬ (format maxPktSize).Inside FlexBuffer.MAX_BUFFER_LEN
      packets future.length) :
    ∃ next, sessionDataRound session state = .ok next ∧
      InStep maxPktSize packets future next ∧
      next.buf.avail < state.buf.avail := by
  obtain ⟨receiver, rest, holds, rfl, tracks, suffix, spare, total⟩ :=
    inStep
  have nonempty : state.buf.unread ≠ [] := by
    rw [← List.length_pos_iff, FlexBuffer.length_unread]
    exact filled
  have small : HEADER_SIZE ≤ FlexBuffer.MAX_BUFFER_LEN := by decide
  have saved := tracks.saved_le small spare
  have room := tracks.room suffix nonempty small spare outside
  rw [FlexBuffer.length_unread] at room
  obtain ⟨reply, later, done, fewer, tail, split, kept⟩ :=
    tracks.accept nonempty
  have spare' :=
    tracks.accept_not_overfull suffix nonempty outside done
  unfold Moderate at moderate
  obtain ⟨next, buf, round, holds', remaining, same⟩ :=
    sessionDataRound_accept session state.delivered holds
      tracks.saved_lt (by omega) room done
  refine ⟨_, round, ⟨reply.receiver, later, holds', same, ?_,
    tail.trans suffix, spare', ?_⟩, ?_⟩
  · simpa only [remaining] using kept
  · rw [List.append_assoc, ← split, total]
  · rw [← remaining, FlexBuffer.length_unread,
      FlexBuffer.length_unread] at fewer
    exact fewer

/-- One call of `sessionData` uses up its chunk and stays in step. -/
theorem sessionData_inStep (session : Session) {maxPktSize rounds : Nat}
    {packets delivered : List (List UInt8)} {future : List UInt8}
    {packetizer : Packetizer} {buf : FlexBuffer}
    (inStep : InStep maxPktSize packets future
      ⟨packetizer, buf, delivered⟩)
    (moderate : Moderate buf) (enough : buf.avail < rounds)
    (outside : ¬ (format maxPktSize).Inside FlexBuffer.MAX_BUFFER_LEN
      packets future.length) :
    ∃ state, packetizer.sessionData session rounds delivered buf =
        some (.ok state) ∧
      InStep maxPktSize packets future state ∧ state.buf.unread = [] := by
  obtain ⟨state, done, ⟨kept, -⟩, used⟩ :=
    @Loop.run_while _ _ (fun state => state.buf.avail > 0)
      (sessionDataRound session)
      (fun state =>
        InStep maxPktSize packets future state ∧ Moderate state.buf)
      (fun state => state.buf.avail)
      (fun state holds filled => by
        obtain ⟨next, round, kept, fewer⟩ :=
          sessionDataRound_inStep session holds.1 holds.2
            (by simpa using filled) outside
        have moderate := holds.2
        unfold Moderate at *
        exact ⟨next, round, ⟨kept, by omega⟩, fewer⟩)
      _ _ ⟨inStep, moderate⟩ enough
  refine ⟨state, done, kept, List.eq_nil_of_length_eq_zero ?_⟩
  rw [FlexBuffer.length_unread]
  simpa using used

/-- Consecutive calls use up their chunks and stay in step. -/
theorem sessionDataAll_inStep (session : Session)
    {maxPktSize rounds : Nat} {packets delivered : List (List UInt8)}
    {packetizer : Packetizer} {buf : FlexBuffer} {bufs : List FlexBuffer}
    (inStep : InStep maxPktSize packets
      (bufs.map FlexBuffer.unread).flatten ⟨packetizer, buf, delivered⟩)
    (used : buf.unread = [])
    (moderate : ∀ buf ∈ bufs, Moderate buf)
    (enough : ∀ buf ∈ bufs, buf.avail < rounds)
    (whole : (format maxPktSize).Whole FlexBuffer.MAX_BUFFER_LEN packets
      (bufs.map FlexBuffer.unread)) :
    ∃ final delivered' buf', sessionDataAll session rounds packetizer
        delivered bufs = some (.ok (final, delivered')) ∧
      buf'.unread = [] ∧
      InStep maxPktSize packets [] ⟨final, buf', delivered'⟩ := by
  induction bufs generalizing packetizer buf delivered with
  | nil => exact ⟨packetizer, delivered, buf, rfl, used, inStep⟩
  | cons next bufs ih =>
      have start : InStep maxPktSize packets
          (bufs.map FlexBuffer.unread).flatten
          ⟨packetizer, next, delivered⟩ := by
        obtain ⟨receiver, rest, holds, same, tracks, others⟩ := inStep
        refine ⟨receiver, rest, holds, same, ?_, others⟩
        simpa only [used, List.nil_append, List.map_cons,
          List.flatten_cons] using tracks
      obtain ⟨state, done, kept, used'⟩ :=
        sessionData_inStep session start
          (moderate next List.mem_cons_self)
          (enough next List.mem_cons_self)
          (whole _ (List.suffix_cons _ _))
      simp only [sessionDataAll, done]
      exact ih kept used'
        (fun buf member => moderate buf (List.mem_cons_of_mem _ member))
        (fun buf member => enough buf (List.mem_cons_of_mem _ member))
        whole.tail

theorem create_inStep {maxPktSize : Int} {packetizer : Packetizer}
    (created : create maxPktSize = .ok packetizer)
    {packets : List (List UInt8)}
    (sizes : ∀ packet ∈ packets, packet.length < 2 ^ 31 ∧
      (maxPktSize = 0 ∨ packet.length ≤ maxPktSize)) :
    InStep maxPktSize.toNat packets (stream packets)
      ⟨packetizer, .empty, []⟩ := by
  unfold create at created
  split at created
  · exact nomatch created
  · obtain rfl := Except.ok.inj created
    refine ⟨.start, packets, ⟨rfl, fun _ absent => (nomatch absent), rfl,
      rfl⟩, rfl, ?_, List.suffix_rfl,
      HeaderFormat.not_overfull_start _, rfl⟩
    apply HeaderFormat.Tracks.start
    intro packet member
    obtain ⟨small, bounded⟩ := sizes packet member
    refine ⟨small, ?_⟩
    simp only [accepts, Bool.or_eq_true, beq_iff_eq, decide_eq_true_eq]
    omega

/--
The session is handed every packet once, in order and exactly, however the
stream is cut into calls of `sessionData`, as long as packets too long for
`savedBuf` arrive whole; the packetizer then waits for a header with nothing
saved.
-/
theorem sessionDataAll_stream (session : Session) (maxPktSize : Int)
    {packetizer : Packetizer}
    (created : create maxPktSize = .ok packetizer)
    {packets : List (List UInt8)} {bufs : List FlexBuffer}
    (nonempty : ∀ packet ∈ packets, packet ≠ [])
    (sizes : ∀ packet ∈ packets, packet.length < 2 ^ 31 ∧
      (maxPktSize = 0 ∨ packet.length ≤ maxPktSize))
    (cut : (bufs.map FlexBuffer.unread).flatten = stream packets)
    (whole : ArrivesWhole FlexBuffer.MAX_BUFFER_LEN packets
      (bufs.map FlexBuffer.unread))
    (moderate : ∀ buf ∈ bufs, Moderate buf)
    {rounds : Nat} (enough : ∀ buf ∈ bufs, buf.avail < rounds) :
    ∃ final, sessionDataAll session rounds packetizer [] bufs =
        some (.ok (final, packets)) ∧
      final.wantHeader = true ∧ final.savedBuf.index = 0 ∧
      final.savedBuf.length = 0 := by
  have start := create_inStep created sizes
  rw [← cut] at start
  obtain ⟨final, delivered, buf, done, used, receiver, rest, holds, -,
      tracks, -, -, total⟩ :=
    sessionDataAll_inStep session start rfl moderate enough
      (whole_headerFormat_iff.mpr whole)
  rw [used] at tracks
  obtain ⟨rfl, rfl⟩ := tracks.finished
  have all : delivered = packets := by
    rw [occupied_nil, List.append_nil,
      occupied_eq_self.mpr nonempty] at total
    exact total
  have empty : final.savedBuf.length = 0 := holds.length_saved
  exact ⟨final, by rw [done, all], holds.wantHeader,
    holds.atEnd.trans empty, empty⟩

/-- A session that reads nothing. -/
def idleSession : Session := ⟨fun _ => 0, fun _ => Nat.zero_le _⟩

/-- Two packets in three chunks, cut within a header and within a body. -/
theorem sessionDataAll_stream_split :
    let chunks : List FlexBuffer :=
      [.adopt [0xde, 0xad, 0xbe] (by decide),
        .adopt [0xef, 0, 0, 0, 3, 1, 2] (by decide),
        .adopt [3, 0xde, 0xad, 0xbe, 0xef, 0, 0, 0, 1, 4] (by decide)]
    ∃ final, sessionDataAll idleSession 16 ⟨16376, true, 0, .empty⟩ []
        chunks = some (.ok (final, [[1, 2, 3], [4]])) ∧
      final.wantHeader = true ∧ final.savedBuf.index = 0 ∧
      final.savedBuf.length = 0 :=
  sessionDataAll_stream idleSession 16376 rfl
    (by decide) (by decide) (by decide)
    (arrivesWhole_of_le _ (by decide)) (by decide) (by decide)

/-! ## Where the limits are needed -/

/-- A buffer that cannot be made large enough refuses the bytes. -/
theorem putBytes_overflow {buf : FlexBuffer} {bytes : List UInt8}
    (small : buf.index + bytes.length < 2 ^ 31)
    (outside : buf.buffer.length < buf.index + bytes.length)
    (full : FlexBuffer.grown (buf.index + bytes.length)
      buf.buffer.length < buf.index + bytes.length) :
    buf.putBytes bytes = .error (.ioException "buffer overflow") := by
  have refused :
      buf.ensureLength (intAdd buf.index bytes.length) =
        .error (.ioException "buffer overflow") := by
    rw [intAdd_of_lt small]
    unfold FlexBuffer.ensureLength
    rw [dif_neg (by omega)]
    simp only [Int.toNat_natCast]
    rw [dif_pos (by omega)]
  rw [FlexBuffer.putBytes, refused]
  rfl

/-- `putFrom` is `putBytes` of the front of the source, if that fails. -/
theorem putFrom_error {buf source : FlexBuffer} {len : Nat}
    {exception : Exception} (positive : 0 < len)
    (enough : len ≤ source.avail)
    (failed : buf.putBytes (source.unread.take len) = .error exception) :
    buf.putFrom source len = .error exception := by
  have order := source.index_le
  have inside := source.length_le
  have limit := source.size_lt
  have available : ¬ (len : Int) > source.avail := by omega
  have within : source.index + len ≤ source.length := by
    unfold FlexBuffer.avail at enough
    omega
  have sum : intAdd source.index len = (source.index + len : Nat) :=
    intAdd_of_lt (by omega)
  have checked :
      FlexBuffer.checkBuf source.buffer source.index len = .ok () := by
    rw [FlexBuffer.checkBuf, if_neg (by omega), if_neg (by omega),
      if_neg (by omega)]
  have slice : window source.buffer source.index (source.index + len) =
      source.unread.take len := by
    rw [FlexBuffer.unread, take_window, Nat.min_eq_left within]
  rw [FlexBuffer.putFrom, if_neg available, FlexBuffer.putArray, checked,
    ok_bind, if_neg (by omega), if_neg (by omega), Int.toNat_natCast,
    slice, failed]
  rfl

/-- A body too long for `savedBuf` cannot be completed there. -/
theorem takeBody_overflow (session : Session) {packetizer : Packetizer}
    {buf : FlexBuffer} {count : Nat} {saved : List UInt8}
    (holds : packetizer.Holds ⟨some count, saved⟩) (filled : saved ≠ [])
    (short : saved.length < count) (small : count < 2 ^ 31)
    (enough : count ≤ saved.length + buf.avail)
    (outside : packetizer.savedBuf.buffer.length < count)
    (full : FlexBuffer.grown count packetizer.savedBuf.buffer.length <
      count) :
    packetizer.takeBody session buf =
      .error (.ioException "buffer overflow") := by
  obtain rfl : packetizer.bodyLen = count := holds.bodyLen count rfl
  have length : packetizer.savedBuf.length = saved.length :=
    holds.length_saved
  have atEnd := holds.atEnd
  have positive := List.length_pos_of_ne_nil filled
  have needed :
      (packetizer.bodyLen : Int) - packetizer.savedBuf.length =
        ((packetizer.bodyLen - saved.length : Nat) : Int) := by
    omega
  have total : packetizer.savedBuf.index +
      (buf.unread.take (packetizer.bodyLen - saved.length)).length =
        packetizer.bodyLen := by
    rw [List.length_take, FlexBuffer.length_unread]
    omega
  have refused := @putFrom_error packetizer.savedBuf buf
    (packetizer.bodyLen - saved.length) _ (by omega) (by omega)
    (putBytes_overflow (by omega) (by omega) (by rwa [total]))
  unfold takeBody
  simp only [needed]
  rw [if_neg (by omega), refused]
  rfl

theorem doubled_of_le {len : Nat} (large : FlexBuffer.MAX_BUFFER_LEN ≤ len)
    (rounds k : Nat) :
    FlexBuffer.doubled len rounds k =
      FlexBuffer.doubled FlexBuffer.MAX_BUFFER_LEN rounds k := by
  induction rounds generalizing k with
  | zero => rfl
  | succ rounds ih =>
      unfold FlexBuffer.doubled
      by_cases below : k < FlexBuffer.MAX_BUFFER_LEN
      · rw [if_pos ⟨by omega, below⟩, if_pos ⟨below, below⟩, ih]
      · rw [if_neg (fun both => below both.2),
          if_neg (fun both => below both.2)]

/-- A fresh buffer grows to the maximal size at most. -/
theorem grown_of_le {len : Nat} (large : FlexBuffer.MAX_BUFFER_LEN ≤ len) :
    FlexBuffer.grown len FlexBuffer.INIT_BUFFER_LEN =
      FlexBuffer.MAX_BUFFER_LEN := by
  unfold FlexBuffer.grown
  rw [doubled_of_le large]
  decide

/-- A sum that wraps passes `ensureLength` and fails at the copy. -/
theorem putBytes_wraps {buf : FlexBuffer} {bytes : List UInt8}
    (large : 2 ^ 31 ≤ buf.index + bytes.length)
    (small : buf.index + bytes.length < 2 ^ 32) :
    buf.putBytes bytes = .error .indexOutOfBoundsException := by
  have limit := buf.size_lt
  have sum := intAdd_of_le large small
  obtain ⟨next, room, done, -, -, -, same⟩ :=
    FlexBuffer.ensureLength_ok buf (intAdd buf.index bytes.length)
      (.inl (by omega))
  obtain rfl := same (by omega)
  rw [FlexBuffer.putBytes, done, ok_bind]
  exact dif_neg (by omega)

/-- Bytes for which the wrapped sum is small are saved as a header. -/
theorem sessionDataRound_wraps (session : Session)
    {packetizer : Packetizer} {buf : FlexBuffer} {saved : List UInt8}
    {delivered : List (List UInt8)}
    (holds : packetizer.Holds ⟨none, saved⟩)
    (large : 2 ^ 31 ≤ saved.length + buf.avail)
    (small : saved.length + buf.avail < 2 ^ 32) :
    sessionDataRound session ⟨packetizer, buf, delivered⟩ =
      .error .indexOutOfBoundsException := by
  have length : packetizer.savedBuf.length = saved.length :=
    holds.length_saved
  have limit := packetizer.savedBuf.length_le
  have limit' := packetizer.savedBuf.size_lt
  have sum := intAdd_of_le large small
  obtain ⟨ready, moved, buffer, index, -⟩ :=
    FlexBuffer.setIndex_ok packetizer.savedBuf _ (Nat.le_refl _)
  have failed : ready.put buf = .error .indexOutOfBoundsException := by
    rw [FlexBuffer.put_eq_putFrom]
    have all : (buf.unread.take buf.avail).length = buf.avail := by
      rw [List.length_take, FlexBuffer.length_unread, Nat.min_self]
    exact putFrom_error (by omega) (Nat.le_refl _)
      (putBytes_wraps (by omega) (by omega))
  have short : ¬ intAdd packetizer.savedBuf.length buf.avail ≥
      HEADER_SIZE := by
    rw [length, sum]
    omega
  unfold sessionDataRound
  simp only
  rw [if_pos (show packetizer.wantHeader = true from holds.wantHeader),
    if_neg short, saveHeader, moved, ok_bind, failed]
  rfl

/-- A packet that does not fit into `savedBuf`. -/
def longPacket : List UInt8 :=
  List.replicate (FlexBuffer.MAX_BUFFER_LEN + 1) 0

theorem longPacket_ne_nil : longPacket ≠ [] := by
  rw [longPacket, List.replicate_succ]
  exact List.cons_ne_nil _ _

/-- The header of `longPacket` with the first byte of its body. -/
def longPacketFront : FlexBuffer :=
  .adopt [0xde, 0xad, 0xbe, 0xef, 0, 64, 0, 1, 0] (by decide)

/-- The packetizer after the first chunk of `longPacket`. -/
def longPacketSaved : Packetizer where
  maxPktSize := 8388608
  wantHeader := false
  bodyLen := FlexBuffer.MAX_BUFFER_LEN + 1
  savedBuf :=
    ⟨List.replicate 32 0, 1, 1, by decide, by decide, by decide⟩

theorem sessionData_longPacketFront (rounds : Nat) :
    sessionData idleSession (rounds + 3) ⟨8388608, true, 0, .empty⟩ []
        longPacketFront =
      some (.ok ⟨longPacketSaved,
        ⟨longPacketFront.buffer, 9, 9, by decide, by decide, by decide⟩,
        []⟩) := by
  rfl

theorem takeBody_longPacketSaved {buf : FlexBuffer}
    (avail : buf.avail = FlexBuffer.MAX_BUFFER_LEN) :
    takeBody idleSession longPacketSaved buf =
      .error (.ioException "buffer overflow") := by
  have holds : longPacketSaved.Holds
      ⟨some (FlexBuffer.MAX_BUFFER_LEN + 1), [0]⟩ :=
    ⟨rfl, fun _ same => Option.some.inj same, rfl, rfl⟩
  have size : longPacketSaved.savedBuf.buffer.length =
      FlexBuffer.INIT_BUFFER_LEN := rfl
  apply takeBody_overflow idleSession holds (List.cons_ne_nil _ _)
  · decide
  · decide
  · rw [avail]
    decide
  · rw [size]
    decide
  · rw [size, grown_of_le (Nat.le_succ _)]
    exact Nat.lt_succ_self _

theorem sessionDataAll_longPacket (rounds : Nat) {buf : FlexBuffer}
    (avail : buf.avail = FlexBuffer.MAX_BUFFER_LEN) :
    sessionDataAll idleSession (rounds + 3) ⟨8388608, true, 0, .empty⟩ []
        [longPacketFront, buf] =
      some (.error (.ioException "buffer overflow")) := by
  have total : intAdd longPacketSaved.savedBuf.length buf.avail ≥
      longPacketSaved.bodyLen := by
    rw [avail]
    decide
  have round : sessionDataRound idleSession ⟨longPacketSaved, buf, []⟩ =
      .error (.ioException "buffer overflow") := by
    unfold sessionDataRound
    simp only
    rw [if_neg (show ¬ longPacketSaved.wantHeader = true by decide),
      if_pos total, takeBody_longPacketSaved avail]
    rfl
  have filled : buf.avail > 0 := by
    rw [avail]
    decide
  have failed :
      longPacketSaved.sessionData idleSession (rounds + 3) [] buf =
        some (.error (.ioException "buffer overflow")) := by
    unfold sessionData
    apply Loop.run_while_error
    · exact decide_eq_true filled
    · exact round
  simp only [sessionDataAll, sessionData_longPacketFront, failed]

/-- A first chunk of one byte. -/
def firstByte : FlexBuffer :=
  .adopt [0xde] (by decide)

/-- The packetizer after `firstByte`. -/
def firstByteSaved : Packetizer where
  maxPktSize := 8388608
  wantHeader := true
  bodyLen := 0
  savedBuf :=
    ⟨0xde :: List.replicate 31 0, 1, 1, by decide, by decide, by decide⟩

theorem sessionData_firstByte (rounds : Nat) :
    sessionData idleSession (rounds + 2) ⟨8388608, true, 0, .empty⟩ []
        firstByte =
      some (.ok ⟨firstByteSaved,
        ⟨[0xde], 1, 1, by decide, by decide, by decide⟩, []⟩) := by
  rfl

theorem sessionDataAll_firstByte (rounds : Nat) {buf : FlexBuffer}
    (avail : buf.avail + 1 = 2 ^ 31) :
    sessionDataAll idleSession (rounds + 2) ⟨8388608, true, 0, .empty⟩ []
        [firstByte, buf] =
      some (.error .indexOutOfBoundsException) := by
  have holds : firstByteSaved.Holds ⟨none, [0xde]⟩ :=
    ⟨rfl, fun _ absent => (nomatch absent), rfl, rfl⟩
  have round : sessionDataRound idleSession ⟨firstByteSaved, buf, []⟩ =
      .error .indexOutOfBoundsException := by
    apply sessionDataRound_wraps idleSession holds
    · simp only [List.length_cons, List.length_nil]
      omega
    · simp only [List.length_cons, List.length_nil]
      omega
  have filled : buf.avail > 0 := by omega
  have failed :
      firstByteSaved.sessionData idleSession (rounds + 2) [] buf =
        some (.error .indexOutOfBoundsException) := by
    unfold sessionData
    apply Loop.run_while_error
    · exact decide_eq_true filled
    · exact round
  simp only [sessionDataAll, sessionData_firstByte, failed]

/-- Packets that fill two gigabytes. -/
def manyPackets : List (List UInt8) :=
  List.replicate (2 ^ 27) (List.replicate 8 0)

theorem take_manyPackets : (stream manyPackets).take 1 = [0xde] := by
  have first : manyPackets = List.replicate 8 0 ::
      List.replicate (2 ^ 27 - 1) (List.replicate 8 0) :=
    List.replicate_succ
  rw [first, stream_cons, List.append_assoc,
    List.take_append_of_le_length (by decide)]
  rfl

theorem length_manyPackets : (stream manyPackets).length = 2 ^ 31 := by
  rw [manyPackets, length_stream_replicate, List.length_replicate]
  rfl

/--
Without its two limits the statement fails: a packet longer than `savedBuf`
can grow is lost when it is cut, and so is a chunk whose size overflows.
-/
theorem sessionDataAll_stream_limits :
    create 8388608 = .ok ⟨8388608, true, 0, .empty⟩ ∧
    (longPacket ≠ [] ∧ longPacket.length ≤ 8388608) ∧
    (∃ back : FlexBuffer,
      [longPacketFront, back].flatMap FlexBuffer.unread =
        stream [longPacket] ∧
      ∀ rounds, sessionDataAll idleSession (rounds + 3)
        ⟨8388608, true, 0, .empty⟩ [] [longPacketFront, back] =
          some (.error (.ioException "buffer overflow"))) ∧
    (∀ packet ∈ manyPackets, packet = List.replicate 8 0) ∧
    ∃ back : FlexBuffer,
      [firstByte, back].flatMap FlexBuffer.unread = stream manyPackets ∧
      ∀ rounds, sessionDataAll idleSession (rounds + 2)
        ⟨8388608, true, 0, .empty⟩ [] [firstByte, back] =
          some (.error .indexOutOfBoundsException) := by
  have size : longPacket.length ≤ 8388608 := by
    rw [longPacket, List.length_replicate]
    decide
  refine ⟨rfl, ⟨longPacket_ne_nil, size⟩, ?_, ?_, ?_⟩
  · have small :
        (List.replicate FlexBuffer.MAX_BUFFER_LEN (0 : UInt8)).length <
          2 ^ 31 := by
      rw [List.length_replicate]
      decide
    have front : header (FlexBuffer.MAX_BUFFER_LEN + 1) =
        [0xde, 0xad, 0xbe, 0xef, 0, 64, 0, 1] := by
      decide
    refine ⟨.adopt _ small, ?_, fun rounds =>
      sessionDataAll_longPacket rounds ?_⟩
    · rw [List.flatMap_cons, List.flatMap_cons, List.flatMap_nil,
        longPacketFront, FlexBuffer.unread_adopt, FlexBuffer.unread_adopt,
        stream_cons, longPacket, List.length_replicate,
        List.replicate_succ, front]
      simp only [List.cons_append, List.nil_append, List.append_nil,
        stream, List.flatMap_nil]
    · rw [FlexBuffer.avail_adopt, List.length_replicate]
  · intro packet member
    exact List.eq_of_mem_replicate member
  · have size : ((stream manyPackets).drop 1).length + 1 = 2 ^ 31 := by
      rw [List.length_drop, length_manyPackets]
      rfl
    refine ⟨.adopt ((stream manyPackets).drop 1) (by omega), ?_,
      fun rounds => sessionDataAll_firstByte rounds ?_⟩
    · rw [List.flatMap_cons, List.flatMap_cons, List.flatMap_nil,
        firstByte, FlexBuffer.unread_adopt, FlexBuffer.unread_adopt,
        List.append_nil, ← take_manyPackets, List.take_append_drop]
    · rw [FlexBuffer.avail_adopt]
      exact size

end Etch.Java.Packetizer
