import Etch.Java.ItemReading
import Etch.Java.LengthBudget
import Etch.Java.PacketizerReassembly

/-!
# The Java `Messagizer` and its peer

A `Messagizer` writes each message behind room for the header of its packet,
which the packetizer below it fills in.  The peer is handed the stream in
chunks of any size, and reads a message from each packet that they make up.
-/

namespace Etch.Java

open Etch.Library Etch.Library.Stateful Etch.Library.Window Etch.Packet
open BinaryTaggedDataOutput (put writeMessage WrittenFields nameOf)
open BinaryTaggedDataInput (readMessage)

namespace FlexBuffer

/-- `skip( len, true )`, where `index + len` is an `int` -/
def skipPut (buf : FlexBuffer) (len : Nat) : Except Exception FlexBuffer := do
  let ⟨next, _⟩ ← buf.ensureLength (buf.index + len : Nat)
  if room : next.index + len ≤ next.buffer.length then
    .ok
      { next with
        index := next.index + len
        length := max next.length (next.index + len)
        index_le := Nat.le_max_right _ _
        length_le := Nat.max_le.mpr ⟨next.length_le, room⟩ }
  else
    .error .indexOutOfBoundsException

theorem skipPut_length {buf next : FlexBuffer} {len : Nat}
    (empty : buf.length = 0) (done : buf.skipPut len = .ok next) :
    next.index = len ∧ next.length = len := by
  have start := buf.index_le
  obtain ⟨⟨grown, _⟩, ensured, skipped⟩ := Fallible.bind_eq_ok_iff.mp done
  have same : grown.index = buf.index ∧ grown.length = buf.length := by
    unfold ensureLength at ensured
    split at ensured
    · cases ensured
      exact ⟨rfl, rfl⟩
    · dsimp only at ensured
      split at ensured <;> cases ensured
      exact ⟨rfl, rfl⟩
  dsimp only at skipped
  split at skipped <;> cases skipped
  dsimp only
  omega

end FlexBuffer

namespace Messagizer

variable {W R : Type}

section Sending

variable (vf : ValueFactory W) (stringTypeAndField : Bool) (depth : Nat)
  (transport : Packetizer)

/-- `transportMessage( recipient, msg )`, up to `finally`, with the bytes that
are sent -/
def transportMessage (msg : StructValue) : Writer W (List UInt8) := do
  put fun msgBuf => msgBuf.skipPut HEADER_SIZE
  writeMessage vf stringTypeAndField depth msg
  put fun msgBuf => msgBuf.setIndex 0
  put transport.transportPacket
  return (← get).buf.unread

/-- `msgBuf.reset()`, which is done whether or not the call throws -/
def reset (out : Output W) : Output W :=
  { out with buf := out.buf.reset }

/-- One call after the other: the messages that are sent, with their bytes. -/
def transportMessages :
    List StructValue → Output W → List (StructValue × List UInt8)
  | [], _ => []
  | msg :: msgs, out =>
      match transportMessage vf stringTypeAndField depth transport msg
        out with
      | .ok bytes after => (msg, bytes) :: transportMessages msgs (reset after)
      | .error _ after => transportMessages msgs (reset after)

end Sending

/-- The type of a message and its fields, as they are written. -/
abbrev Items := Scalar × List (Scalar × Item)

def Items.encode (items : Items) : List UInt8 :=
  encodeMessage items.1 items.2

/-- The items are written for the message. -/
structure Conveys (vf : ValueFactory W) (named : Bool) (msg : StructValue)
    (items : Items) : Prop where
  type : items.1 = nameOf vf named msg.type
  fields : WrittenFields vf named msg.type msg.fields items.2

variable {vf : ValueFactory W} {named : Bool} {depth : Nat}
  {transport : Packetizer} {msg : StructValue} {out after : Output W}

theorem put_eq_ok {op : FlexBuffer → Except Exception FlexBuffer}
    {value : Unit} (done : put op out = .ok value after) :
    op out.buf = .ok after.buf := by
  unfold put at done
  split at done <;> cases done
  assumption

theorem accepts_of_transportPacket {buf next : FlexBuffer} {count : Nat}
    (avail : buf.avail = HEADER_SIZE + count)
    (sent : transport.transportPacket buf = .ok next) :
    Packetizer.accepts transport.maxPktSize count = true := by
  unfold Packetizer.transportPacket at sent
  simp only [avail, Nat.add_sub_cancel_left] at sent
  split_ifs at sent with short large
  simp only [Packetizer.accepts, Bool.or_eq_true, beq_iff_eq,
    decide_eq_true_eq]
  omega

/-- A message is sent in a packet of its own, whatever was sent before. -/
theorem transportMessage_conveys {bytes : List UInt8}
    (empty : out.buf.length = 0)
    (done : transportMessage vf named depth transport msg out =
      .ok bytes after) :
    ∃ items, Conveys vf named msg items ∧
      Packetizer.accepts transport.maxPktSize items.encode.length = true ∧
      bytes = header items.encode.length ++ items.encode := by
  obtain ⟨_, first, skipped, done⟩ := bind_eq_ok_iff.mp done
  obtain ⟨_, second, wrote, done⟩ := bind_eq_ok_iff.mp done
  obtain ⟨_, third, moved, done⟩ := bind_eq_ok_iff.mp done
  obtain ⟨_, fourth, sent, done⟩ := bind_eq_ok_iff.mp done
  obtain ⟨rfl, rfl⟩ := EStateM.Result.ok.inj done
  have skipped : out.buf.skipPut HEADER_SIZE = _ := put_eq_ok skipped
  obtain ⟨index, length⟩ := FlexBuffer.skipPut_length empty skipped
  obtain ⟨_, ⟨fields, written, rfl⟩, contents, _⟩ :=
    BinaryTaggedDataOutput.writeMessage_emits _ _ _ _ _ _ _
      (index.trans length.symm) wrote
  obtain ⟨start, moved', buffer, index', length'⟩ :=
    FlexBuffer.setIndex_ok second.buf 0 (Nat.zero_le _)
  obtain rfl := Except.ok.inj (moved'.symm.trans (put_eq_ok moved))
  have room := first.buf.length_contents.trans length
  have unread : third.buf.unread = first.buf.contents ++
      encodeMessage (nameOf vf named msg.type) fields := by
    rw [FlexBuffer.unread, buffer, index', length', window_zero]
    exact contents
  have avail := congrArg List.length unread
  rw [FlexBuffer.length_unread, List.length_append, room] at avail
  have sent := put_eq_ok sent
  have accepts := accepts_of_transportPacket avail sent
  obtain ⟨next, handed, whole⟩ :=
    Packetizer.transportPacket_ok room unread accepts
  obtain rfl := Except.ok.inj (handed.symm.trans sent)
  exact ⟨(_, fields), ⟨rfl, written⟩, accepts, whole⟩

variable (vf named depth transport) in
/-- The stream is made up of one packet for each message that is sent. -/
theorem transportMessages_conveys (msgs : List StructValue)
    (empty : out.buf.length = 0) :
    let sent := transportMessages vf named depth transport msgs out
    ∃ items : List Items,
      List.Forall₂ (Conveys vf named) (sent.map Prod.fst) items ∧
      (∀ item ∈ items, Packetizer.accepts transport.maxPktSize
        item.encode.length = true) ∧
      (sent.map Prod.snd).flatten = stream (items.map Items.encode) := by
  induction msgs generalizing out with
  | nil => exact ⟨[], .nil, by simp, rfl⟩
  | cons msg msgs ih =>
      unfold transportMessages
      split
      · rename_i bytes after done
        obtain ⟨first, conveys, accepts, rfl⟩ :=
          transportMessage_conveys empty done
        obtain ⟨items, rest, accepted, later⟩ := @ih (reset after) rfl
        refine ⟨first :: items, .cons conveys rest,
          List.forall_mem_cons.mpr ⟨accepts, accepted⟩, ?_⟩
        rw [List.map_cons, List.flatten_cons, later, List.map_cons,
          stream_cons]
      · exact ih rfl

/-! ## Receiving -/

/-- `sessionPacket( sender, buf )`, with the message for the session -/
def sessionPacket (vf : ValueFactory R) (buf : FlexBuffer) :
    EStateM Thrown R StructValue :=
  fun factory =>
    match readMessage vf buf factory with
    | .ok msg after => .ok msg after.factory
    | .error thrown after => .error thrown after.factory

theorem sessionPacket_eq {vf : ValueFactory R} (noEnd : ImportsNoEnd vf)
    {items : Items} (clean : CleanFields items.2) {buf : FlexBuffer}
    (unread : buf.unread = items.encode) :
    sessionPacket vf buf = readItems vf items.1 items.2 := by
  funext factory
  have read := BinaryTaggedDataInput.readMessage_encodeMessage noEnd factory
    clean unread
  unfold sessionPacket
  cases done : readItems vf items.1 items.2 factory <;> rw [done] at read
  case ok msg next =>
      obtain ⟨after, got, _, rfl⟩ := read
      rw [got]
  case error thrown next =>
      obtain ⟨after, got, rfl⟩ := read
      rw [got]

section Arriving

variable (session : Session) {maxPktSize : Int} {packetizer : Packetizer}
  (created : Packetizer.create maxPktSize = .ok packetizer)
  {bufs : List FlexBuffer}
  (moderate : ∀ buf ∈ bufs, Packetizer.Moderate buf)
  {rounds : Nat} (enough : ∀ buf ∈ bufs, buf.avail < rounds)

include created moderate enough

/-- Packets that `savedBuf` has room for arrive however the stream is cut. -/
theorem sessionDataAll_packets {packets : List (List UInt8)}
    (sizes : ∀ packet ∈ packets,
      packet ≠ [] ∧ packet.length ≤ FlexBuffer.MAX_BUFFER_LEN ∧
        (maxPktSize = 0 ∨ packet.length ≤ maxPktSize))
    (cut : (bufs.map FlexBuffer.unread).flatten = stream packets) :
    ∃ last, Packetizer.sessionDataAll session rounds packetizer [] bufs =
      some (.ok (last, packets)) := by
  have limit : FlexBuffer.MAX_BUFFER_LEN < 2 ^ 31 := by decide
  have start := Packetizer.create_inStep created fun packet inside =>
    ⟨(sizes packet inside).2.1.trans_lt limit, (sizes packet inside).2.2⟩
  rw [← cut] at start
  obtain ⟨last, delivered, buf, done, used, receiver, rest, -, -, tracks, -,
      -, total⟩ :=
    Packetizer.sessionDataAll_inStep session start rfl moderate enough
      (whole_headerFormat_iff.mpr
        (arrivesWhole_of_le _ fun packet inside => (sizes packet inside).2.1))
  rw [used] at tracks
  obtain ⟨rfl, rfl⟩ := tracks.finished
  rw [Framing.occupied_nil, List.append_nil,
    Framing.occupied_eq_self.mpr fun packet inside =>
      (sizes packet inside).1] at total
  exact ⟨last, total ▸ done⟩

/--
The messages that are sent arrive in order and whole, however their stream is
cut, and the peer makes of each what it makes of the items that were written
for it; calls that throw do not show.
-/
theorem messages_arrive (writer : ValueFactory W) (named : Bool)
    (depth : Nat) (limited : 0 < transport.maxPktSize)
    (limit : transport.maxPktSize ≤ FlexBuffer.MAX_BUFFER_LEN)
    (accepted : maxPktSize = 0 ∨ transport.maxPktSize ≤ maxPktSize)
    (msgs : List StructValue) (empty : out.buf.length = 0)
    {sent : List (StructValue × List UInt8)}
    (sends : transportMessages writer named depth transport msgs out = sent)
    (cut : (bufs.map FlexBuffer.unread).flatten =
      (sent.map Prod.snd).flatten) :
    ∃ (items : List Items) (last : Packetizer),
      List.Forall₂ (Conveys writer named) (sent.map Prod.fst) items ∧
      Packetizer.sessionDataAll session rounds packetizer [] bufs =
        some (.ok (last, items.map Items.encode)) ∧
      ∀ (reader : ValueFactory R), ImportsNoEnd reader →
        ∀ item ∈ items, CleanFields item.2 → ∀ buf : FlexBuffer,
          buf.unread = item.encode →
            sessionPacket reader buf = readItems reader item.1 item.2 := by
  subst sends
  obtain ⟨items, conveys, accepts, whole⟩ :=
    transportMessages_conveys writer named depth transport msgs empty
  have sizes : ∀ packet ∈ items.map Items.encode,
      packet ≠ [] ∧ packet.length ≤ FlexBuffer.MAX_BUFFER_LEN ∧
        (maxPktSize = 0 ∨ packet.length ≤ maxPktSize) := by
    intro packet member
    obtain ⟨item, inside, rfl⟩ := List.mem_map.mp member
    have fits := accepts item inside
    simp only [Packetizer.accepts, Bool.or_eq_true, beq_iff_eq,
      decide_eq_true_eq] at fits
    refine ⟨List.cons_ne_nil _ _, ?_⟩
    omega
  obtain ⟨last, done⟩ := sessionDataAll_packets session created moderate
    enough sizes (cut.trans whole)
  exact ⟨items, last, conveys, done, fun reader noEnd item _ clean buf
    unread => sessionPacket_eq noEnd clean unread⟩

end Arriving

/-- The packet of a message, cut within its header. -/
def chunks : List FlexBuffer :=
  [.adopt [222, 173, 190] (by decide),
    .adopt [239, 0, 0, 0, 12, 3, 1, 1, 2, 145, 150, 1, 2, 5, 6, 129, 129]
      (by decide)]

open BinaryTaggedDataInput (untyped pair) in
theorem messages_arrive_pair :
    ∃ (items : List Items) (last : Packetizer),
      Packetizer.sessionDataAll Packetizer.idleSession 32
        ⟨16376, true, 0, .empty⟩ [] chunks =
          some (.ok (last, items.map Items.encode)) := by
  obtain ⟨items, last, -, done, -⟩ := @messages_arrive Unit Unit
    ⟨16376, true, 0, .empty⟩ ⟨.empty, ()⟩ Packetizer.idleSession 16376 _ rfl
    chunks (by decide) 32 (by decide) untyped false 3 (by decide) (by decide)
    (.inr le_rfl) [pair] rfl _ rfl (by decide +kernel)
  exact ⟨items, last, done⟩

end Messagizer

end Etch.Java
