import Etch.C.Packetizer

/-!
# The C `etch_packetizer` reassembles packets, or loops

Each pass over the loop of `session_data` is a step of the abstract receiver
as long as `savebuf` has room.  Once part of a body longer than `savebuf` can
grow has been saved, no pass delivers anything any more; before that, a pass
that cannot save such a part goes round without consuming anything.
-/

namespace Etch.C.EtchPacketizer

open Etch.Library
open Etch.Library.Framing
open Etch.Library.Window
open Etch.Library.BigEndian
open Etch.Packet
open EtchFlexbuffer (ETCH_MAX_FLEXBUFSIZE)

/-- The header format of a packetizer with the given limit. -/
abbrev format (maxpacketsize : Nat) : HeaderFormat UInt8 :=
  headerFormat fun pktSize => pktSize ≤ maxpacketsize

/-- The packetizer's fields hold the state of an abstract receiver. -/
structure Holds (pzr : EtchPacketizer) (receiver : Receiver UInt8) :
    Prop where
  wantheader : pzr.is_wantheader = receiver.announced.isNone
  bodylength : ∀ count ∈ receiver.announced, pzr.bodylength = count
  contents : pzr.savebuf.contents = receiver.saved
  atEnd : pzr.savebuf.index = pzr.savebuf.datalen
  regular : pzr.savebuf.Regular

theorem Holds.datalen {pzr : EtchPacketizer} {receiver : Receiver UInt8}
    (holds : pzr.Holds receiver) :
    pzr.savebuf.datalen = receiver.saved.length := by
  rw [← holds.contents, EtchFlexbuffer.length_contents]

/-! ## The four branches of the loop -/

/-- `process_header` reads the header the format describes. -/
theorem processHeader_ok (pzr : EtchPacketizer) (fbuf : EtchFlexbuffer)
    {pktSize : Nat} (is_reset : Bool)
    (inside : fbuf.index + HEADER_SIZE ≤ fbuf.datalen)
    (decoded : (format pzr.maxpacketsize).decode
      (fbuf.unread.take HEADER_SIZE) = some pktSize) :
    pzr.processHeader fbuf is_reset =
      (some pktSize,
        if is_reset then (fbuf.skip HEADER_SIZE).reset
        else fbuf.skip HEADER_SIZE) := by
  unfold HEADER_SIZE at inside decoded ⊢
  have first := fbuf.getInt_ok (by omega)
  have second := (fbuf.skip 4).getInt_ok (by
    change fbuf.index + 4 + 4 ≤ fbuf.datalen
    omega)
  have both : (fbuf.skip 4).skip 4 = fbuf.skip 8 := rfl
  rw [decode_eq_some_iff, List.take_take, List.drop_take] at decoded
  obtain ⟨sig, size, accepted⟩ := decoded
  have sig' : ofBytes (fbuf.unread.take 4) = SIG := sig
  have size' : signed32 (ofBytes ((fbuf.skip 4).unread.take 4)) =
      pktSize := by
    rw [(EtchFlexbuffer.unread_skip (by omega)).1]
    exact size
  rw [sig'] at first
  rw [size', both] at second
  have good : ¬ ((pktSize : Int) < 0 ∨
      (pktSize : Int) > pzr.maxpacketsize) := by
    have := of_decide_eq_true accepted
    omega
  simp only [processHeader, first, second, ne_eq, not_true, if_false,
    if_neg good]
  cases is_reset <;> rfl

theorem useHeader_ok {pzr : EtchPacketizer} (fbuf : EtchFlexbuffer)
    (delivered : List (List UInt8)) (count : Nat)
    (holds : pzr.Holds .start) :
    ∃ next, pzr.useHeader fbuf delivered (some count) =
        .again ⟨next, fbuf, delivered⟩ ∧
      next.Holds ⟨if count = 0 then none else some count, []⟩ ∧
      next.maxpacketsize = pzr.maxpacketsize := by
  cases count with
  | zero => exact ⟨pzr, rfl, holds, rfl⟩
  | succ count =>
      exact ⟨_, rfl, ⟨rfl, fun _ same => Option.some.inj same,
        holds.contents, holds.atEnd, holds.regular⟩, rfl⟩

/-- A good header is consumed, whether or not a part of it was saved. -/
theorem takeHeader_ok {pzr : EtchPacketizer} {fbuf : EtchFlexbuffer}
    (delivered : List (List UInt8)) {saved : List UInt8} {count : Nat}
    (holds : pzr.Holds ⟨none, saved⟩) (order : fbuf.index ≤ fbuf.datalen)
    (short : saved.length < HEADER_SIZE)
    (enough : HEADER_SIZE ≤ saved.length + fbuf.avail)
    (decoded : (format pzr.maxpacketsize).decode
      (saved ++ fbuf.unread.take (HEADER_SIZE - saved.length)) =
        some count) :
    ∃ next, takeHeader ⟨pzr, fbuf, delivered⟩ =
        .again ⟨next, fbuf.skip (HEADER_SIZE - saved.length),
          delivered⟩ ∧
      next.Holds ⟨if count = 0 then none else some count, []⟩ ∧
      next.maxpacketsize = pzr.maxpacketsize := by
  have datalen : pzr.savebuf.datalen = saved.length := holds.datalen
  rw [EtchFlexbuffer.avail_eq order] at enough
  unfold takeHeader
  by_cases empty : pzr.savebuf.datalen = 0
  · obtain rfl : saved = [] :=
      List.eq_nil_of_length_eq_zero (by omega)
    simp only [List.length_nil, Nat.zero_add, Nat.sub_zero,
      List.nil_append] at enough decoded ⊢
    have done :=
      processHeader_ok pzr fbuf false (by omega) decoded
    simp only [if_pos empty, done]
    exact useHeader_ok _ _ _ holds
  · have needed : toSize ((HEADER_SIZE : Int) - pzr.savebuf.datalen) =
        HEADER_SIZE - saved.length := by
      have eight : HEADER_SIZE = 8 := rfl
      rw [datalen, ← Nat.cast_sub (by omega), toSize_natCast (by omega)]
    have small : HEADER_SIZE ≤ ETCH_MAX_FLEXBUFSIZE := by decide
    have positive : 0 < HEADER_SIZE - saved.length := by omega
    obtain ⟨full, put, -, whole, regular⟩ :=
      EtchFlexbuffer.putFrom_ok pzr.savebuf fbuf holds.atEnd positive
        holds.regular (by omega) (by omega)
    have rewound := full.setIndex_ok (Nat.zero_le _)
    have item : full.contents =
        saved ++ fbuf.unread.take (HEADER_SIZE - saved.length) :=
      whole.trans (congrArg (· ++ _) holds.contents)
    have size : full.datalen = HEADER_SIZE := by
      rw [← full.length_contents, item, List.length_append,
        List.length_take, EtchFlexbuffer.length_unread order,
        EtchFlexbuffer.avail_eq order]
      omega
    have done :=
      processHeader_ok pzr { full with index := 0 } true
        (by simp only [size]; omega)
        (by
          have all : ({ full with index := 0 } : EtchFlexbuffer).unread =
              full.contents :=
            window_zero _ _
          rw [all, item, List.take_of_length_le
            (by rw [← item, full.length_contents, size])]
          exact decoded)
    simp only [if_neg empty, needed, put, if_neg positive.ne', rewound,
      done]
    exact useHeader_ok _ _ _
      ⟨holds.wantheader, holds.bodylength, rfl, rfl, regular⟩

theorem saveHeader_ok {pzr : EtchPacketizer} {fbuf : EtchFlexbuffer}
    (delivered : List (List UInt8)) {saved : List UInt8}
    (holds : pzr.Holds ⟨none, saved⟩) (order : fbuf.index ≤ fbuf.datalen)
    (some : 0 < fbuf.avail)
    (room : saved.length + fbuf.avail ≤ ETCH_MAX_FLEXBUFSIZE) :
    ∃ next, saveHeader ⟨pzr, fbuf, delivered⟩ =
        .again ⟨next, fbuf.skip fbuf.avail, delivered⟩ ∧
      next.Holds ⟨none, saved ++ fbuf.unread⟩ ∧
      next.maxpacketsize = pzr.maxpacketsize := by
  have datalen : pzr.savebuf.datalen = saved.length := holds.datalen
  have moved := pzr.savebuf.setIndex_ok (Nat.le_refl _)
  obtain ⟨next, put, atEnd, contents, regular⟩ :=
    EtchFlexbuffer.putFrom_ok
      { pzr.savebuf with index := pzr.savebuf.datalen } fbuf rfl some
      holds.regular (by simp only; omega)
      (by rw [EtchFlexbuffer.avail_eq order]; omega)
  rw [← EtchFlexbuffer.length_unread order, List.take_length] at contents
  unfold saveHeader
  simp only [moved, EtchFlexbuffer.putFrom_all]
  rw [← EtchFlexbuffer.avail_eq order, put]
  exact ⟨_, rfl, ⟨holds.wantheader, holds.bodylength,
    contents.trans (congrArg (· ++ _) holds.contents), atEnd, regular⟩,
    rfl⟩

theorem saveBody_ok {pzr : EtchPacketizer} {fbuf : EtchFlexbuffer}
    (delivered : List (List UInt8)) {count : Nat} {saved : List UInt8}
    (holds : pzr.Holds ⟨some count, saved⟩)
    (order : fbuf.index ≤ fbuf.datalen) (some : 0 < fbuf.avail)
    (room : saved.length + fbuf.avail ≤ ETCH_MAX_FLEXBUFSIZE) :
    ∃ next, saveBody ⟨pzr, fbuf, delivered⟩ =
        .again ⟨next, fbuf.skip fbuf.avail, delivered⟩ ∧
      next.Holds ⟨.some count, saved ++ fbuf.unread⟩ ∧
      next.maxpacketsize = pzr.maxpacketsize := by
  have datalen : pzr.savebuf.datalen = saved.length := holds.datalen
  obtain ⟨next, put, atEnd, contents, regular⟩ :=
    EtchFlexbuffer.putFrom_ok pzr.savebuf fbuf holds.atEnd some
      holds.regular (by omega)
      (by rw [EtchFlexbuffer.avail_eq order]; omega)
  rw [← EtchFlexbuffer.length_unread order, List.take_length] at contents
  unfold saveBody
  simp only [EtchFlexbuffer.putFrom_all]
  rw [← EtchFlexbuffer.avail_eq order, put]
  exact ⟨_, rfl, ⟨holds.wantheader, holds.bodylength,
    contents.trans (congrArg (· ++ _) holds.contents), atEnd, regular⟩,
    rfl⟩

/-- Without room for them the bytes stay where they are. -/
theorem saveBody_full {pzr : EtchPacketizer} {fbuf : EtchFlexbuffer}
    (delivered : List (List UInt8)) {receiver : Receiver UInt8}
    (holds : pzr.Holds receiver) (order : fbuf.index ≤ fbuf.datalen)
    (large :
      ETCH_MAX_FLEXBUFSIZE < receiver.saved.length + fbuf.avail) :
    saveBody ⟨pzr, fbuf, delivered⟩ = .again ⟨pzr, fbuf, delivered⟩ := by
  have datalen := holds.datalen
  have atEnd := holds.atEnd
  unfold saveBody
  simp only [EtchFlexbuffer.putFrom_all]
  rw [← EtchFlexbuffer.avail_eq order,
    EtchFlexbuffer.putFrom_full holds.regular (by omega)
      (by rw [EtchFlexbuffer.avail_eq order]; omega)]

/-- A body within `fbuf` is handed over in place. -/
private theorem takeBody_inPlace (session : Session)
    {pzr : EtchPacketizer} {fbuf : EtchFlexbuffer}
    (delivered : List (List UInt8)) {count : Nat}
    (holds : pzr.Holds ⟨some count, []⟩)
    (order : fbuf.index ≤ fbuf.datalen) (enough : count ≤ fbuf.avail) :
    ∃ next rest, takeBody session ⟨pzr, fbuf, delivered⟩ =
        .again ⟨next, rest, delivered ++ [fbuf.unread.take count]⟩ ∧
      next.Holds .start ∧ rest.unread = fbuf.unread.drop count ∧
      rest.index ≤ rest.datalen ∧
      next.maxpacketsize = pzr.maxpacketsize := by
  obtain rfl : pzr.bodylength = count := holds.bodylength count rfl
  have empty : pzr.savebuf.datalen = 0 := holds.datalen
  have within := fbuf.datalen_le
  rw [EtchFlexbuffer.avail_eq order] at enough
  have inside : fbuf.index + pzr.bodylength ≤ fbuf.datalen := by omega
  obtain ⟨exposed, cut, larger, same, datalen, index⟩ :=
    fbuf.setLength_ok (inside.trans within)
  have larger' : fbuf.buf.length ≤
      (session.sessionPacket exposed).buf.length :=
    larger
  obtain ⟨restored, uncut, -, same', datalen', -⟩ :=
    (session.sessionPacket exposed).setLength_ok (within.trans larger')
  have moved := @EtchFlexbuffer.setIndex_ok restored
    (fbuf.index + pzr.bodylength) (by rw [datalen']; exact inside)
  have packet : exposed.unread = fbuf.unread.take pzr.bodylength := by
    rw [EtchFlexbuffer.unread, EtchFlexbuffer.unread, take_window,
      Nat.min_eq_left inside, datalen, index,
      Nat.min_eq_left (Nat.le_add_right _ _), window, window,
      same _ (inside.trans within)]
  have rest : restored.contents = fbuf.contents := by
    rw [EtchFlexbuffer.contents, datalen']
    exact (same' _ (within.trans larger')).trans (same _ within)
  simp only [takeBody, if_pos empty, cut, uncut, moved, packet]
  refine ⟨_, _, rfl, ⟨rfl, fun _ absent => (by cases absent),
    holds.contents, holds.atEnd, holds.regular⟩, ?_, ?_, rfl⟩
  · change restored.contents.drop (fbuf.index + pzr.bodylength) =
      (fbuf.contents.drop fbuf.index).drop pzr.bodylength
    rw [rest, List.drop_drop]
  · simp only [datalen']
    exact inside

/-- A split body is completed in `savebuf` and handed over there. -/
private theorem takeBody_split (session : Session)
    {pzr : EtchPacketizer} {fbuf : EtchFlexbuffer}
    (delivered : List (List UInt8)) {count : Nat} {saved : List UInt8}
    (holds : pzr.Holds ⟨some count, saved⟩)
    (order : fbuf.index ≤ fbuf.datalen) (filled : saved ≠ [])
    (short : saved.length < count)
    (enough : count ≤ saved.length + fbuf.avail)
    (room : count ≤ ETCH_MAX_FLEXBUFSIZE) :
    ∃ next rest, takeBody session ⟨pzr, fbuf, delivered⟩ =
        .again ⟨next, rest, delivered ++
          [saved ++ fbuf.unread.take (count - saved.length)]⟩ ∧
      next.Holds .start ∧
      rest.unread = fbuf.unread.drop (count - saved.length) ∧
      rest.index ≤ rest.datalen ∧
      next.maxpacketsize = pzr.maxpacketsize := by
  obtain rfl : pzr.bodylength = count := holds.bodylength count rfl
  have datalen : pzr.savebuf.datalen = saved.length := holds.datalen
  have positive := List.length_pos_of_ne_nil filled
  rw [EtchFlexbuffer.avail_eq order] at enough
  have limit : ETCH_MAX_FLEXBUFSIZE = 4194304 := rfl
  have needed : toSize ((pzr.bodylength : Int) - pzr.savebuf.datalen) =
      pzr.bodylength - saved.length := by
    rw [datalen, ← Nat.cast_sub (by omega), toSize_natCast (by omega)]
  have missing : 0 < pzr.bodylength - saved.length := by omega
  obtain ⟨full, put, -, whole, regular⟩ :=
    EtchFlexbuffer.putFrom_ok pzr.savebuf fbuf holds.atEnd missing
      holds.regular (by omega) (by omega)
  have rewound := full.setIndex_ok (Nat.zero_le _)
  have packet : ({ full with index := 0 } : EtchFlexbuffer).unread =
      saved ++ fbuf.unread.take (pzr.bodylength - saved.length) :=
    (window_zero _ _).trans
      (whole.trans (congrArg (· ++ _) holds.contents))
  have rest := @EtchFlexbuffer.unread_skip fbuf
    (pzr.bodylength - saved.length) (by omega)
  have nonempty : pzr.savebuf.datalen ≠ 0 := by omega
  simp only [takeBody, if_neg nonempty, needed, put, if_neg missing.ne',
    rewound, packet]
  exact ⟨_, _, rfl, ⟨rfl, fun _ absent => (by cases absent),
    EtchFlexbuffer.contents_reset _, rfl, regular⟩, rest.1, rest.2, rfl⟩

theorem takeBody_ok (session : Session) {pzr : EtchPacketizer}
    {fbuf : EtchFlexbuffer} (delivered : List (List UInt8))
    {count : Nat} {saved : List UInt8}
    (holds : pzr.Holds ⟨some count, saved⟩)
    (order : fbuf.index ≤ fbuf.datalen) (short : saved.length < count)
    (enough : count ≤ saved.length + fbuf.avail)
    (room : saved = [] ∨ count ≤ ETCH_MAX_FLEXBUFSIZE) :
    ∃ next rest, takeBody session ⟨pzr, fbuf, delivered⟩ =
        .again ⟨next, rest, delivered ++
          [saved ++ fbuf.unread.take (count - saved.length)]⟩ ∧
      next.Holds .start ∧
      rest.unread = fbuf.unread.drop (count - saved.length) ∧
      rest.index ≤ rest.datalen ∧
      next.maxpacketsize = pzr.maxpacketsize := by
  by_cases empty : saved = []
  · subst empty
    simp only [List.length_nil, Nat.zero_add] at enough
    exact takeBody_inPlace session delivered holds order enough
  · exact takeBody_split session delivered holds order empty short enough
      (room.resolve_left empty)

/-- A split body that does not fit is refused, and nothing changes. -/
theorem takeBody_full (session : Session) {pzr : EtchPacketizer}
    {fbuf : EtchFlexbuffer} (delivered : List (List UInt8))
    {count : Nat} {saved : List UInt8}
    (holds : pzr.Holds ⟨some count, saved⟩)
    (order : fbuf.index ≤ fbuf.datalen) (filled : saved ≠ [])
    (short : saved.length < count) (small : count < 2 ^ 64)
    (enough : count ≤ saved.length + fbuf.avail)
    (large : ETCH_MAX_FLEXBUFSIZE < count) :
    takeBody session ⟨pzr, fbuf, delivered⟩ =
      .leave (-1, ⟨pzr, fbuf, delivered⟩) := by
  obtain rfl : pzr.bodylength = count := holds.bodylength count rfl
  have datalen : pzr.savebuf.datalen = saved.length := holds.datalen
  have atEnd := holds.atEnd
  have positive := List.length_pos_of_ne_nil filled
  rw [EtchFlexbuffer.avail_eq order] at enough
  have needed : toSize ((pzr.bodylength : Int) - pzr.savebuf.datalen) =
      pzr.bodylength - saved.length := by
    rw [datalen, ← Nat.cast_sub (by omega), toSize_natCast (by omega)]
  have refused := @EtchFlexbuffer.putFrom_full pzr.savebuf fbuf
    (pzr.bodylength - saved.length) holds.regular (by omega) (by omega)
  have nonempty : pzr.savebuf.datalen ≠ 0 := by omega
  simp only [takeBody, if_neg nonempty, needed, refused, if_true]

/-! ## Passes -/

/-- A pass over the loop is a step of the abstract receiver. -/
theorem sessionDataPass_accept (session : Session)
    {pzr : EtchPacketizer} {fbuf : EtchFlexbuffer}
    {receiver : Receiver UInt8} {reply : Reply UInt8}
    (delivered : List (List UInt8)) (holds : pzr.Holds receiver)
    (order : fbuf.index ≤ fbuf.datalen) (filled : 0 < fbuf.avail)
    (short : receiver.saved.length <
      (format pzr.maxpacketsize).need receiver)
    (room : receiver.saved = [] ∧
        (format pzr.maxpacketsize).need receiver ≤ fbuf.avail ∨
      min ((format pzr.maxpacketsize).need receiver)
        (receiver.saved.length + fbuf.avail) ≤ ETCH_MAX_FLEXBUFSIZE)
    (done : (format pzr.maxpacketsize).accept receiver fbuf.unread =
      some reply) :
    ∃ next rest,
      sessionDataPass session ⟨pzr, fbuf, delivered⟩ =
        .again ⟨next, rest, delivered ++ reply.delivered⟩ ∧
      next.Holds reply.receiver ∧ rest.unread = reply.pending ∧
      rest.index ≤ rest.datalen ∧
      next.maxpacketsize = pzr.maxpacketsize := by
  obtain ⟨announced, saved⟩ := receiver
  have datalen : pzr.savebuf.datalen = saved.length := holds.datalen
  have avail := EtchFlexbuffer.length_unread order
  have avail' := EtchFlexbuffer.avail_eq order
  have rest := @EtchFlexbuffer.unread_skip fbuf fbuf.avail (by omega)
  rw [← avail, List.drop_length] at rest
  unfold sessionDataPass
  simp only [datalen]
  rw [if_neg (by omega)]
  cases announced with
  | none =>
      have size : (format pzr.maxpacketsize).need
          (⟨none, saved⟩ : Receiver UInt8) = HEADER_SIZE := rfl
      rw [size] at short room
      simp only at short room
      rw [if_pos (show pzr.is_wantheader = true from holds.wantheader)]
      by_cases enough : HEADER_SIZE ≤ saved.length + fbuf.avail
      · rw [HeaderFormat.accept_of_enough _
          (by rw [size, avail]; exact enough)] at done
        obtain ⟨count, decoded, rfl⟩ :=
          HeaderFormat.complete_none_eq_some _ done
        obtain ⟨next, taken, holds', same⟩ :=
          takeHeader_ok delivered holds order short enough decoded
        have rest' := @EtchFlexbuffer.unread_skip fbuf
          (HEADER_SIZE - saved.length) (by omega)
        rw [if_pos enough, taken]
        exact ⟨next, _, by simp, holds', rest'.1, rest'.2, same⟩
      · rw [HeaderFormat.accept_of_short _
          (by rw [size, avail]; simp only; omega)] at done
        obtain rfl := Option.some.inj done
        obtain ⟨next, kept, holds', same⟩ :=
          saveHeader_ok delivered holds order filled (by omega)
        rw [if_neg enough, kept, ← avail]
        exact ⟨next, _, by simp, holds', rest.1, rest.2, same⟩
  | some count =>
      have size : (format pzr.maxpacketsize).need
          (⟨some count, saved⟩ : Receiver UInt8) = count := rfl
      rw [size] at short room
      simp only at short room
      obtain rfl : pzr.bodylength = count := holds.bodylength count rfl
      have wantBody : ¬ pzr.is_wantheader = true := by
        rw [holds.wantheader]
        exact Bool.false_ne_true
      rw [if_neg wantBody]
      by_cases enough : pzr.bodylength ≤ saved.length + fbuf.avail
      · rw [HeaderFormat.accept_of_enough _
          (by rw [size, avail]; exact enough)] at done
        obtain rfl := Option.some.inj done
        have fits : saved = [] ∨ pzr.bodylength ≤ ETCH_MAX_FLEXBUFSIZE :=
          room.imp And.left fun bounded => by
            rwa [Nat.min_eq_left enough] at bounded
        obtain ⟨next, rest', taken, holds', remaining, order', same⟩ :=
          takeBody_ok session delivered holds order short enough fits
        rw [if_pos enough, taken]
        exact ⟨next, rest', by simp [size], holds', remaining, order',
          same⟩
      · rw [HeaderFormat.accept_of_short _
          (by rw [size, avail]; simp only; omega)] at done
        obtain rfl := Option.some.inj done
        obtain ⟨next, kept, holds', same⟩ :=
          saveBody_ok delivered holds order filled (by omega)
        rw [if_neg enough, kept, ← avail]
        exact ⟨next, _, by simp, holds', rest.1, rest.2, same⟩

/--
The loop invariant of `session_data`: the packetizer is in step with the
stream, of which `future` is still to be handed over, and what the session
has been handed and what is awaited make up the packets.
-/
def InStep (maxpacketsize : Nat) (packets : List (List UInt8))
    (future : List UInt8) (state : Receiving) : Prop :=
  ∃ receiver rest, state.pzr.Holds receiver ∧
    state.pzr.maxpacketsize = maxpacketsize ∧
    state.fbuf.index ≤ state.fbuf.datalen ∧
    (format maxpacketsize).Tracks receiver
      (state.fbuf.unread ++ future) rest ∧
    rest <:+ packets ∧
    ¬ HeaderFormat.Overfull ETCH_MAX_FLEXBUFSIZE receiver ∧
    state.delivered ++ occupied rest = occupied packets

/--
Part of a body that does not fit into `savebuf` has been saved; that body is
missing from what has been delivered.
-/
def Doomed (packets : List (List UInt8)) (state : Receiving) : Prop :=
  ∃ count saved, state.pzr.Holds ⟨some count, saved⟩ ∧ saved ≠ [] ∧
    saved.length < count ∧ count < 2 ^ 64 ∧
    ETCH_MAX_FLEXBUFSIZE < count ∧
    state.fbuf.index ≤ state.fbuf.datalen ∧
    state.delivered.length < (occupied packets).length

theorem sessionDataPass_done (session : Session) {state : Receiving}
    (empty : state.fbuf.avail = 0) :
    sessionDataPass session state = .leave (0, state) :=
  if_pos empty

/-- Outside long bodies a pass stays in step and consumes bytes. -/
theorem sessionDataPass_inStep (session : Session) {maxpacketsize : Nat}
    {packets : List (List UInt8)} {future : List UInt8}
    {state : Receiving} (inStep : InStep maxpacketsize packets future state)
    (filled : 0 < state.fbuf.avail)
    (outside : ¬ (format maxpacketsize).Inside ETCH_MAX_FLEXBUFSIZE
      packets future.length) :
    ∃ next, sessionDataPass session state = .again next ∧
      InStep maxpacketsize packets future next ∧
      next.fbuf.avail < state.fbuf.avail := by
  obtain ⟨receiver, rest, holds, rfl, order, tracks, suffix, spare,
    total⟩ := inStep
  have avail := EtchFlexbuffer.length_unread order
  have nonempty : state.fbuf.unread ≠ [] := by
    rw [← List.length_pos_iff, avail]
    exact filled
  have small : HEADER_SIZE ≤ ETCH_MAX_FLEXBUFSIZE := by decide
  have room := tracks.room suffix nonempty small spare outside
  rw [avail] at room
  obtain ⟨reply, later, done, fewer, tail, split, kept⟩ :=
    tracks.accept nonempty
  have spare' :=
    tracks.accept_not_overfull suffix nonempty outside done
  obtain ⟨next, fbuf, pass, holds', remaining, order', same⟩ :=
    sessionDataPass_accept session state.delivered holds order filled
      tracks.saved_lt room done
  refine ⟨_, pass, ⟨reply.receiver, later, holds', same, order', ?_,
    tail.trans suffix, spare', ?_⟩, ?_⟩
  · simpa only [remaining] using kept
  · rw [List.append_assoc, ← split, total]
  · rw [← remaining, EtchFlexbuffer.length_unread order', avail] at fewer
    exact fewer

/-- An overfull packetizer has gone wrong for good. -/
private theorem doomed_of_overfull {maxpacketsize : Nat}
    {packets : List (List UInt8)} {ahead : List UInt8}
    {state : Receiving} {receiver : Receiver UInt8}
    {rest : List (List UInt8)} (holds : state.pzr.Holds receiver)
    (order : state.fbuf.index ≤ state.fbuf.datalen)
    (tracks : (format maxpacketsize).Tracks receiver ahead rest)
    (overfull : HeaderFormat.Overfull ETCH_MAX_FLEXBUFSIZE receiver)
    (total : state.delivered ++ occupied rest = occupied packets) :
    Doomed packets state := by
  obtain ⟨announced, saved⟩ := receiver
  obtain ⟨filled, count, same, long⟩ := overfull
  obtain rfl : announced = some count := same
  obtain ⟨body, later, rfl, rfl, -⟩ := tracks.awaits
  have short : saved.length < body.length := tracks.saved_lt
  have small := (tracks.fits body List.mem_cons_self).1
  have nonempty : body ≠ [] := by
    apply List.ne_nil_of_length_pos
    omega
  refine ⟨body.length, saved, holds, filled, short, by omega, long, order,
    ?_⟩
  rw [← total, occupied_cons nonempty, List.length_append,
    List.length_cons]
  omega

/-- A pass with no room to save a part of a body changes nothing. -/
private theorem sessionDataPass_full (session : Session)
    {state : Receiving} {count : Nat} {saved : List UInt8}
    (holds : state.pzr.Holds ⟨some count, saved⟩)
    (order : state.fbuf.index ≤ state.fbuf.datalen)
    (filled : 0 < state.fbuf.avail)
    (short : saved.length + state.fbuf.avail < count)
    (large : ETCH_MAX_FLEXBUFSIZE < saved.length + state.fbuf.avail) :
    sessionDataPass session state = .again state := by
  have datalen : state.pzr.savebuf.datalen = saved.length := holds.datalen
  have bodylength : state.pzr.bodylength = count :=
    holds.bodylength count rfl
  have wantBody : ¬ state.pzr.is_wantheader = true := by
    rw [holds.wantheader]
    exact Bool.false_ne_true
  unfold sessionDataPass
  simp only [datalen, bodylength]
  rw [if_neg (by omega), if_neg wantBody, if_neg (by omega)]
  exact saveBody_full state.delivered holds order large

/-- Anywhere a pass stays in step, or goes wrong for good. -/
theorem sessionDataPass_inStep_or_doomed (session : Session)
    {maxpacketsize : Nat} {packets : List (List UInt8)}
    {future : List UInt8} {state : Receiving}
    (inStep : InStep maxpacketsize packets future state)
    (filled : 0 < state.fbuf.avail) :
    ∃ next, sessionDataPass session state = .again next ∧
      (InStep maxpacketsize packets future next ∨
        Doomed packets next) := by
  have inStep' := inStep
  obtain ⟨receiver, rest, holds, rfl, order, tracks, suffix, spare,
    total⟩ := inStep
  have avail := EtchFlexbuffer.length_unread order
  have nonempty : state.fbuf.unread ≠ [] := by
    rw [← List.length_pos_iff, avail]
    exact filled
  by_cases room : receiver.saved = [] ∧
      (format state.pzr.maxpacketsize).need receiver ≤ state.fbuf.avail ∨
    min ((format state.pzr.maxpacketsize).need receiver)
      (receiver.saved.length + state.fbuf.avail) ≤ ETCH_MAX_FLEXBUFSIZE
  · obtain ⟨reply, later, done, -, tail, split, kept⟩ :=
      tracks.accept nonempty
    obtain ⟨next, fbuf, pass, holds', remaining, order', same⟩ :=
      sessionDataPass_accept session state.delivered holds order filled
        tracks.saved_lt room done
    have total' : state.delivered ++ reply.delivered ++ occupied later =
        occupied packets := by
      rw [List.append_assoc, ← split, total]
    refine ⟨_, pass, ?_⟩
    by_cases overfull :
        HeaderFormat.Overfull ETCH_MAX_FLEXBUFSIZE reply.receiver
    · exact .inr (doomed_of_overfull holds' order' kept overfull total')
    · refine .inl ⟨reply.receiver, later, holds', same, order', ?_,
        tail.trans suffix, overfull, total'⟩
      simpa only [remaining] using kept
  · refine ⟨state, ?_, .inl inStep'⟩
    obtain ⟨announced, saved⟩ := receiver
    have small : HEADER_SIZE ≤ ETCH_MAX_FLEXBUFSIZE := by decide
    cases announced with
    | none =>
        have size : (format state.pzr.maxpacketsize).need
            (⟨none, saved⟩ : Receiver UInt8) = HEADER_SIZE := rfl
        rw [size] at room
        exact absurd (Or.inr (by omega)) room
    | some count =>
        have size : (format state.pzr.maxpacketsize).need
            (⟨some count, saved⟩ : Receiver UInt8) = count := rfl
        rw [size] at room
        have long : ETCH_MAX_FLEXBUFSIZE < count := by
          by_contra fits
          exact room (.inr (by omega))
        have empty : saved = [] := by
          by_contra some
          exact spare ⟨some, count, rfl, long⟩
        subst empty
        simp only [List.length_nil, Nat.zero_add, true_and] at room
        apply sessionDataPass_full session holds order filled
        · simp only [List.length_nil]
          omega
        · simp only [List.length_nil]
          omega

/-- Nothing is delivered any more once part of such a body is saved. -/
theorem sessionDataPass_doomed (session : Session)
    {packets : List (List UInt8)} {state : Receiving}
    (doomed : Doomed packets state) :
    (∃ next, sessionDataPass session state = .again next ∧
      Doomed packets next) ∨
    ∃ status, sessionDataPass session state = .leave (status, state) := by
  have doomed' := doomed
  obtain ⟨count, saved, holds, some, short, small, long, order, missing⟩ :=
    doomed
  have datalen : state.pzr.savebuf.datalen = saved.length := holds.datalen
  have bodylength : state.pzr.bodylength = count :=
    holds.bodylength count rfl
  have wantBody : ¬ state.pzr.is_wantheader = true := by
    rw [holds.wantheader]
    exact Bool.false_ne_true
  by_cases empty : state.fbuf.avail = 0
  · exact .inr ⟨0, sessionDataPass_done session empty⟩
  have filled : 0 < state.fbuf.avail := by omega
  by_cases enough : count ≤ saved.length + state.fbuf.avail
  · refine .inr ⟨-1, ?_⟩
    unfold sessionDataPass
    simp only [datalen, bodylength]
    rw [if_neg empty, if_neg wantBody, if_pos enough]
    exact takeBody_full session state.delivered holds order some short
      small enough long
  · left
    by_cases large :
        ETCH_MAX_FLEXBUFSIZE < saved.length + state.fbuf.avail
    · exact ⟨state, sessionDataPass_full session holds order filled
        (by omega) large, doomed'⟩
    · obtain ⟨next, kept, holds', -⟩ :=
        saveBody_ok state.delivered holds order filled (by omega)
      have avail := EtchFlexbuffer.length_unread order
      have avail' := EtchFlexbuffer.avail_eq order
      have rest := @EtchFlexbuffer.unread_skip state.fbuf
        state.fbuf.avail (by omega)
      refine ⟨⟨next, state.fbuf.skip state.fbuf.avail, state.delivered⟩,
        ?_, count, saved ++ state.fbuf.unread, holds', ?_, ?_, small,
        long, rest.2, missing⟩
      · unfold sessionDataPass
        simp only [datalen, bodylength]
        rw [if_neg empty, if_neg wantBody, if_neg enough]
        exact kept
      · exact List.append_ne_nil_of_left_ne_nil some _
      · rw [List.length_append, avail]
        omega

private theorem Doomed.again (session : Session)
    {packets : List (List UInt8)} {state next : Receiving}
    (doomed : Doomed packets state)
    (pass : sessionDataPass session state = .again next) :
    Doomed packets next := by
  rcases sessionDataPass_doomed session doomed with
    ⟨next', pass', kept⟩ | ⟨status, pass'⟩
  · obtain rfl := Loop.Pass.again.inj (pass'.symm.trans pass)
    exact kept
  · exact nomatch pass'.symm.trans pass

private theorem Doomed.leave (session : Session)
    {packets : List (List UInt8)} {state : Receiving}
    {result : Int × Receiving} (doomed : Doomed packets state)
    (pass : sessionDataPass session state = .leave result) :
    Doomed packets result.2 := by
  rcases sessionDataPass_doomed session doomed with
    ⟨next', pass', -⟩ | ⟨status, pass'⟩
  · exact nomatch pass'.symm.trans pass
  · obtain rfl := Loop.Pass.leave.inj (pass'.symm.trans pass)
    exact doomed

/-! ## Calls and runs -/

/-- A call with a chunk that ends outside long bodies ends and stays in step. -/
theorem sessionData_returns (session : Session) {maxpacketsize : Nat}
    {packets : List (List UInt8)} {future : List UInt8}
    {state : Receiving} (inStep : InStep maxpacketsize packets future state)
    (outside : ¬ (format maxpacketsize).Inside ETCH_MAX_FLEXBUFSIZE
      packets future.length) :
    Loop.Descends (sessionDataPass session) (fun state => state.fbuf.avail)
        state ∧
      ∃ final, Loop.Returns (sessionDataPass session) state (0, final) ∧
        InStep maxpacketsize packets future final ∧
        final.fbuf.avail = 0 := by
  have consumes : ∀ state next,
      InStep maxpacketsize packets future state →
      sessionDataPass session state = .again next →
      InStep maxpacketsize packets future next ∧
        next.fbuf.avail < state.fbuf.avail := by
    intro state next inStep pass
    by_cases empty : state.fbuf.avail = 0
    · rw [sessionDataPass_done session empty] at pass
      exact nomatch pass
    · obtain ⟨next', pass', kept⟩ :=
        sessionDataPass_inStep session inStep (by omega) outside
      obtain rfl := Loop.Pass.again.inj (pass'.symm.trans pass)
      exact kept
  have leaves : ∀ state result,
      InStep maxpacketsize packets future state →
      sessionDataPass session state = .leave result →
      result.1 = 0 ∧ InStep maxpacketsize packets future result.2 ∧
        result.2.fbuf.avail = 0 := by
    intro state result inStep pass
    by_cases empty : state.fbuf.avail = 0
    · rw [sessionDataPass_done session empty] at pass
      obtain rfl := Loop.Pass.leave.inj pass
      exact ⟨rfl, inStep, empty⟩
    · obtain ⟨next', pass', -⟩ :=
        sessionDataPass_inStep session inStep (by omega) outside
      exact nomatch pass'.symm.trans pass
  constructor
  · intro reached next reaches pass
    have kept := reaches.invariant (InStep maxpacketsize packets future)
      (fun state next holds pass => (consumes state next holds pass).1)
      inStep
    exact (consumes reached next kept pass).2
  · obtain ⟨⟨status, final⟩, returns, rfl, kept, used⟩ :=
      Loop.returns_of_measure (InStep maxpacketsize packets future) _
        (fun state => state.fbuf.avail) consumes leaves inStep
    exact ⟨final, returns, kept, used⟩

/-- A call that ends leaves the packetizer in step, or wrong for good. -/
theorem sessionData_inStep_or_doomed (session : Session)
    {maxpacketsize : Nat} {packets : List (List UInt8)}
    {future : List UInt8} {state : Receiving} {result : Int × Receiving}
    (returns : Loop.Returns (sessionDataPass session) state result)
    (start : InStep maxpacketsize packets future state ∨
      Doomed packets state) :
    InStep maxpacketsize packets future result.2 ∧
        result.2.fbuf.avail = 0 ∨
      Doomed packets result.2 := by
  refine Loop.Returns.of_invariant
    (fun state => InStep maxpacketsize packets future state ∨
      Doomed packets state)
    (fun result => InStep maxpacketsize packets future result.2 ∧
      result.2.fbuf.avail = 0 ∨ Doomed packets result.2)
    ?_ ?_ returns start
  · rintro state next (inStep | doomed) pass
    · by_cases empty : state.fbuf.avail = 0
      · rw [sessionDataPass_done session empty] at pass
        exact nomatch pass
      · obtain ⟨next', pass', kept⟩ :=
          sessionDataPass_inStep_or_doomed session inStep (by omega)
        obtain rfl := Loop.Pass.again.inj (pass'.symm.trans pass)
        exact kept
    · exact .inr (doomed.again session pass)
  · rintro state result (inStep | doomed) pass
    · by_cases empty : state.fbuf.avail = 0
      · rw [sessionDataPass_done session empty] at pass
        obtain rfl := Loop.Pass.leave.inj pass
        exact .inl ⟨inStep, empty⟩
      · obtain ⟨next', pass', -⟩ :=
          sessionDataPass_inStep_or_doomed session inStep (by omega)
        exact nomatch pass'.symm.trans pass
    · exact .inr (doomed.leave session pass)

/--
Consecutive calls of `session_data` return after finitely many passes, every
pass but the last of a call consumes input, and the session has been handed
`out` at the end.
-/
def Handles (session : Session) :
    EtchPacketizer → List (List UInt8) → List EtchFlexbuffer →
      List (List UInt8) → Prop
  | _, delivered, [], out => delivered = out
  | pzr, delivered, fbuf :: fbufs, out =>
      Loop.Descends (sessionDataPass session)
          (fun state => state.fbuf.avail) ⟨pzr, fbuf, delivered⟩ ∧
        ∃ status final,
          Loop.Returns (sessionDataPass session) ⟨pzr, fbuf, delivered⟩
            (status, final) ∧
          Handles session final.pzr final.delivered fbufs out

/-- The next chunk takes the place of one that is used up. -/
private theorem InStep.nextChunk {maxpacketsize : Nat}
    {packets : List (List UInt8)} {fbuf : EtchFlexbuffer}
    {future : List UInt8} {state : Receiving}
    (inStep : InStep maxpacketsize packets (fbuf.unread ++ future) state)
    (used : state.fbuf.avail = 0) (order : fbuf.index ≤ fbuf.datalen) :
    InStep maxpacketsize packets future
      ⟨state.pzr, fbuf, state.delivered⟩ := by
  obtain ⟨receiver, rest, holds, same, order', tracks, others⟩ := inStep
  have empty : state.fbuf.unread = [] := by
    apply List.eq_nil_of_length_eq_zero
    rw [EtchFlexbuffer.length_unread order', used]
  rw [empty, List.nil_append] at tracks
  exact ⟨receiver, rest, holds, same, order, tracks, others⟩

/-- Between calls a packetizer in step is outside long bodies. -/
private theorem InStep.outside {maxpacketsize : Nat}
    {packets : List (List UInt8)} {future : List UInt8}
    {state : Receiving} (inStep : InStep maxpacketsize packets future state)
    (used : state.fbuf.avail = 0) :
    ¬ (format maxpacketsize).Inside ETCH_MAX_FLEXBUFSIZE packets
      future.length := by
  obtain ⟨receiver, rest, -, -, order, tracks, suffix, spare, -⟩ := inStep
  have empty : state.fbuf.unread = [] := by
    apply List.eq_nil_of_length_eq_zero
    rw [EtchFlexbuffer.length_unread order, used]
  rw [empty, List.nil_append] at tracks
  rwa [← tracks.overfull_iff suffix]

/-- At the end of the stream every nonempty packet has been delivered. -/
private theorem InStep.delivered {maxpacketsize : Nat}
    {packets : List (List UInt8)} {state : Receiving}
    (inStep : InStep maxpacketsize packets [] state)
    (used : state.fbuf.avail = 0) :
    state.delivered = occupied packets := by
  obtain ⟨receiver, rest, -, -, order, tracks, -, -, total⟩ := inStep
  have empty : state.fbuf.unread = [] := by
    apply List.eq_nil_of_length_eq_zero
    rw [EtchFlexbuffer.length_unread order, used]
  rw [empty, List.nil_append] at tracks
  obtain ⟨-, rfl⟩ := tracks.finished
  rwa [occupied_nil, List.append_nil] at total

theorem handles_of_whole (session : Session) {maxpacketsize : Nat}
    {packets : List (List UInt8)} {fbufs : List EtchFlexbuffer}
    {state : Receiving}
    (inStep : InStep maxpacketsize packets
      (fbufs.map EtchFlexbuffer.unread).flatten state)
    (used : state.fbuf.avail = 0)
    (order : ∀ fbuf ∈ fbufs, fbuf.index ≤ fbuf.datalen)
    (whole : (format maxpacketsize).Whole ETCH_MAX_FLEXBUFSIZE packets
      (fbufs.map EtchFlexbuffer.unread)) :
    Handles session state.pzr state.delivered fbufs (occupied packets) := by
  induction fbufs generalizing state with
  | nil => exact inStep.delivered used
  | cons fbuf fbufs ih =>
      have start := inStep.nextChunk used (order fbuf List.mem_cons_self)
      obtain ⟨descends, final, returns, kept, used'⟩ :=
        sessionData_returns session start
          (whole _ (List.suffix_cons _ _))
      exact ⟨descends, 0, final, returns, ih kept used'
        (fun fbuf member => order fbuf (List.mem_cons_of_mem _ member))
        whole.tail⟩

/-- A doomed packetizer never delivers all packets. -/
theorem Doomed.length_lt (session : Session)
    {packets out : List (List UInt8)} {fbufs : List EtchFlexbuffer}
    {state : Receiving} (doomed : Doomed packets state)
    (order : ∀ fbuf ∈ fbufs, fbuf.index ≤ fbuf.datalen)
    (handles : Handles session state.pzr state.delivered fbufs out) :
    out.length < (occupied packets).length := by
  induction fbufs generalizing state with
  | nil =>
      obtain rfl := handles
      obtain ⟨_, _, -, -, -, -, -, -, missing⟩ := doomed
      exact missing
  | cons fbuf fbufs ih =>
      obtain ⟨-, status, final, returns, handles⟩ := handles
      have start :
          Doomed packets ⟨state.pzr, fbuf, state.delivered⟩ := by
        obtain ⟨count, saved, holds, some, short, small, long, -,
          missing⟩ := doomed
        exact ⟨count, saved, holds, some, short, small, long,
          order fbuf List.mem_cons_self, missing⟩
      have doomed' : Doomed packets final :=
        Loop.Returns.of_invariant (Doomed packets)
          (fun result => Doomed packets result.2)
          (fun _ _ doomed pass => doomed.again session pass)
          (fun _ _ doomed pass => doomed.leave session pass)
          returns start
      exact ih doomed'
        (fun fbuf member => order fbuf (List.mem_cons_of_mem _ member))
        handles

/-- What is delivered decides whether every long body arrived whole. -/
theorem whole_of_handles (session : Session) {maxpacketsize : Nat}
    {packets out : List (List UInt8)} {fbufs : List EtchFlexbuffer}
    {state : Receiving}
    (inStep : InStep maxpacketsize packets
      (fbufs.map EtchFlexbuffer.unread).flatten state)
    (used : state.fbuf.avail = 0)
    (order : ∀ fbuf ∈ fbufs, fbuf.index ≤ fbuf.datalen)
    (handles : Handles session state.pzr state.delivered fbufs out)
    (enough : (occupied packets).length ≤ out.length) :
    (format maxpacketsize).Whole ETCH_MAX_FLEXBUFSIZE packets
        (fbufs.map EtchFlexbuffer.unread) ∧
      out = occupied packets := by
  induction fbufs generalizing state with
  | nil =>
      obtain rfl := handles
      exact ⟨HeaderFormat.whole_nil _ _ _, inStep.delivered used⟩
  | cons fbuf fbufs ih =>
      obtain ⟨-, status, final, returns, handles⟩ := handles
      have start := inStep.nextChunk used (order fbuf List.mem_cons_self)
      have order' : ∀ fbuf ∈ fbufs, fbuf.index ≤ fbuf.datalen :=
        fun fbuf member => order fbuf (List.mem_cons_of_mem _ member)
      rcases sessionData_inStep_or_doomed session returns (.inl start)
        with ⟨kept, used'⟩ | doomed
      · obtain ⟨whole, same⟩ := ih kept used' order' handles
        exact ⟨whole.cons (inStep.outside used), same⟩
      · have missing := doomed.length_lt session order' handles
        omega

theorem newPacketizer_inStep {maxpktsize : Int} (positive : 0 < maxpktsize)
    {packets : List (List UInt8)}
    (sizes : ∀ packet ∈ packets, packet.length < 2 ^ 31 ∧
      packet.length ≤ maxpktsize) :
    InStep maxpktsize.toNat packets (stream packets)
      ⟨newPacketizer maxpktsize, .newFlexbuffer 0, []⟩ := by
  refine ⟨.start, packets, ⟨rfl, fun _ absent => (nomatch absent), rfl,
    rfl, EtchFlexbuffer.regular_newFlexbuffer⟩, if_pos positive, Nat.le_refl 0, ?_, List.suffix_rfl,
    HeaderFormat.not_overfull_start _, rfl⟩
  apply HeaderFormat.Tracks.start
  intro packet member
  obtain ⟨small, bounded⟩ := sizes packet member
  exact ⟨small, decide_eq_true (by omega)⟩

/--
Exactly when every packet longer than 4 MiB arrives whole, every call returns,
every pass consumes input, and the session is handed every nonempty packet; it
is handed all packets exactly when moreover none is empty.
-/
theorem handles_iff_arrivesWhole (session : Session) {maxpktsize : Int}
    (positive : 0 < maxpktsize) {packets : List (List UInt8)}
    {fbufs : List EtchFlexbuffer}
    (sizes : ∀ packet ∈ packets, packet.length < 2 ^ 31 ∧
      packet.length ≤ maxpktsize)
    (order : ∀ fbuf ∈ fbufs, fbuf.index ≤ fbuf.datalen)
    (cut : (fbufs.map EtchFlexbuffer.unread).flatten = stream packets) :
    (Handles session (newPacketizer maxpktsize) [] fbufs
        (occupied packets) ↔
      ArrivesWhole ETCH_MAX_FLEXBUFSIZE packets
        (fbufs.map EtchFlexbuffer.unread)) ∧
    (Handles session (newPacketizer maxpktsize) [] fbufs packets ↔
      ArrivesWhole ETCH_MAX_FLEXBUFSIZE packets
          (fbufs.map EtchFlexbuffer.unread) ∧
        ∀ packet ∈ packets, packet ≠ []) := by
  have start := newPacketizer_inStep positive sizes
  rw [← cut] at start
  have used : (EtchFlexbuffer.newFlexbuffer 0).avail = 0 := rfl
  have whole_iff := @whole_headerFormat_iff
    (fun pktSize => pktSize ≤ maxpktsize.toNat) ETCH_MAX_FLEXBUFSIZE
    packets (fbufs.map EtchFlexbuffer.unread)
  have forward (whole : ArrivesWhole ETCH_MAX_FLEXBUFSIZE packets
      (fbufs.map EtchFlexbuffer.unread)) :
      Handles session (newPacketizer maxpktsize) [] fbufs
        (occupied packets) :=
    handles_of_whole session start used order (whole_iff.mpr whole)
  have backward (out : List (List UInt8))
      (enough : (occupied packets).length ≤ out.length)
      (handles :
        Handles session (newPacketizer maxpktsize) [] fbufs out) :
      ArrivesWhole ETCH_MAX_FLEXBUFSIZE packets
          (fbufs.map EtchFlexbuffer.unread) ∧
        out = occupied packets :=
    whole_of_handles session start used order handles enough
  refine ⟨⟨fun handles => (backward _ (Nat.le_refl _) handles).1,
    forward⟩, ?_, ?_⟩
  · intro handles
    obtain ⟨whole, same⟩ :=
      backward packets (List.length_filter_le _ _) handles
    exact ⟨whole, occupied_eq_self.mp same.symm⟩
  · rintro ⟨whole, nonempty⟩
    have handles := forward whole
    rwa [occupied_eq_self.mpr nonempty] at handles

/-- A session that reads nothing. -/
def idleSession : Session := ⟨fun _ => 0, fun _ => Nat.zero_le _⟩

/-- Two packets in three chunks, cut within a header and within a body. -/
theorem handles_iff_arrivesWhole_split :
    let packets : List (List UInt8) := [[1, 2, 3], [4]]
    let chunks : List EtchFlexbuffer :=
      [.newFlexbufferFrom [0xde, 0xad, 0xbe],
        .newFlexbufferFrom [0xef, 0, 0, 0, 3, 1, 2],
        .newFlexbufferFrom [3, 0xde, 0xad, 0xbe, 0xef, 0, 0, 0, 1, 4]]
    (Handles idleSession (newPacketizer 10240) [] chunks
        (occupied packets) ↔
      ArrivesWhole ETCH_MAX_FLEXBUFSIZE packets
        (chunks.map EtchFlexbuffer.unread)) ∧
    (Handles idleSession (newPacketizer 10240) [] chunks packets ↔
      ArrivesWhole ETCH_MAX_FLEXBUFSIZE packets
          (chunks.map EtchFlexbuffer.unread) ∧
        ∀ packet ∈ packets, packet ≠ []) :=
  handles_iff_arrivesWhole idleSession (by decide) (by decide)
    (by decide) (by decide)

/-- With no room to save a part of a body the loop goes round for ever. -/
theorem diverges_of_full (session : Session) {state : Receiving}
    {count : Nat} {saved : List UInt8}
    (holds : state.pzr.Holds ⟨some count, saved⟩)
    (order : state.fbuf.index ≤ state.fbuf.datalen)
    (filled : 0 < state.fbuf.avail)
    (short : saved.length + state.fbuf.avail < count)
    (large : ETCH_MAX_FLEXBUFSIZE < saved.length + state.fbuf.avail) :
    Loop.Diverges (sessionDataPass session) state := by
  apply Loop.diverges_of_invariant (fun other => other = state)
  · rintro _ rfl
    exact ⟨_, sessionDataPass_full session holds order filled short large,
      rfl⟩
  · rfl

/-- A packet that does not fit into `savebuf`. -/
def longPacket : List UInt8 :=
  List.replicate (ETCH_MAX_FLEXBUFSIZE + 2) 0

/-- The header of `longPacket` with the first byte of its body. -/
def longPacketFront : EtchFlexbuffer :=
  .newFlexbufferFrom [0xde, 0xad, 0xbe, 0xef, 0, 64, 0, 2, 0]

/-- The bytes of `longPacket` but the first and the last. -/
def longPacketMiddle : EtchFlexbuffer :=
  .newFlexbufferFrom (List.replicate ETCH_MAX_FLEXBUFSIZE 0)

/-- The last byte of `longPacket`. -/
def longPacketBack : EtchFlexbuffer :=
  .newFlexbufferFrom [0]

/-- The first chunk leaves one byte of the body in `savebuf`. -/
theorem returns_longPacketFront (session : Session) :
    ∃ final, Loop.Returns (sessionDataPass session)
        ⟨newPacketizer 8388608, longPacketFront, []⟩ (0, final) ∧
      final.pzr.Holds ⟨some (ETCH_MAX_FLEXBUFSIZE + 2), [0]⟩ ∧
      final.delivered = [] := by
  have holds : (newPacketizer 8388608).Holds .start :=
    ⟨rfl, fun _ absent => (nomatch absent), rfl, rfl,
      EtchFlexbuffer.regular_newFlexbuffer⟩
  obtain ⟨first, rest, pass, holds', unread, order, same⟩ :=
    @sessionDataPass_accept session _ longPacketFront _
      ⟨⟨some (ETCH_MAX_FLEXBUFSIZE + 2), []⟩, [0], []⟩ [] holds
      (Nat.zero_le _) (by decide) (by decide) (.inr (by decide)) rfl
  have avail : rest.avail = 1 := by
    rw [← EtchFlexbuffer.length_unread order, unread]
    rfl
  obtain ⟨second, rest', pass', holds'', unread', order', -⟩ :=
    @sessionDataPass_accept session _ rest _
      ⟨⟨some (ETCH_MAX_FLEXBUFSIZE + 2), [0]⟩, [], []⟩ [] holds' order
      (by omega) (Nat.succ_pos _)
      (.inr (by rw [avail]; exact (Nat.min_le_right _ _).trans (by decide)))
      (by rw [unread]; rfl)
  have done : rest'.avail = 0 := by
    rw [← EtchFlexbuffer.length_unread order', unread']
    rfl
  exact ⟨_, .again pass (.again pass' (.leave
    (sessionDataPass_done session done))), holds'', rfl⟩

theorem avail_longPacketMiddle :
    longPacketMiddle.avail = ETCH_MAX_FLEXBUFSIZE := by
  rw [← EtchFlexbuffer.length_unread (Nat.zero_le _), longPacketMiddle,
    EtchFlexbuffer.unread_newFlexbufferFrom, List.length_replicate]

theorem stream_longPacket :
    ([longPacketFront, longPacketMiddle, longPacketBack].map
      EtchFlexbuffer.unread).flatten = stream [longPacket] := by
  have front : header (ETCH_MAX_FLEXBUFSIZE + 2) =
      [0xde, 0xad, 0xbe, 0xef, 0, 64, 0, 2] := by
    decide
  have body : longPacket =
      0 :: (List.replicate ETCH_MAX_FLEXBUFSIZE 0 ++ [0]) := by
    rw [longPacket, List.replicate_succ, List.replicate_succ']
  have size : longPacket.length = ETCH_MAX_FLEXBUFSIZE + 2 :=
    List.length_replicate
  rw [stream_cons, size, front, body]
  simp only [List.map_cons, List.map_nil, longPacketFront,
    longPacketMiddle, longPacketBack,
    EtchFlexbuffer.unread_newFlexbufferFrom, List.flatten_cons,
    List.flatten_nil, stream, List.flatMap_nil, List.cons_append,
    List.nil_append, List.append_nil]

/--
A packet of 4 MiB and two bytes within the limit, cut in its body: the second
call never returns.
-/
theorem sessionData_longPacket_diverges :
    longPacket.length ≤ 8388608 ∧
    ([longPacketFront, longPacketMiddle, longPacketBack].map
      EtchFlexbuffer.unread).flatten = stream [longPacket] ∧
    (∃ final, Loop.Returns (sessionDataPass idleSession)
        ⟨newPacketizer 8388608, longPacketFront, []⟩ (0, final) ∧
      Loop.Diverges (sessionDataPass idleSession)
        ⟨final.pzr, longPacketMiddle, final.delivered⟩) ∧
    ¬ Handles idleSession (newPacketizer 8388608) []
      [longPacketFront, longPacketMiddle, longPacketBack]
      [longPacket] := by
  obtain ⟨final, returns, holds, delivered⟩ :=
    returns_longPacketFront idleSession
  have avail := avail_longPacketMiddle
  have forever : Loop.Diverges (sessionDataPass idleSession)
      ⟨final.pzr, longPacketMiddle, final.delivered⟩ := by
    apply @diverges_of_full idleSession
      ⟨final.pzr, longPacketMiddle, final.delivered⟩ _ _ holds
      (Nat.zero_le _)
    · rw [avail]
      decide
    · rw [avail]
      decide
    · rw [avail]
      decide
  refine ⟨?_, stream_longPacket, ⟨final, returns, forever⟩, ?_⟩
  · rw [longPacket, List.length_replicate]
    decide
  · rintro ⟨-, status, final', returns', -, status', final'', again, -⟩
    obtain rfl : final = final' :=
      congrArg Prod.snd (returns.unique returns')
    exact forever.not_returns again

end Etch.C.EtchPacketizer
