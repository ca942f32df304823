import Etch.Go.Packetizer

/-!
# The Go `Messagizer`

`TransportMessage` encodes every message into the one buffer `buf`, behind
room for the header, and hands that buffer to the packetizer.  The index is
set back for each message, the length never is.
-/

namespace Etch.Go

open Etch.Library.Window
open Etch.Library.BigEndian
open Etch.Packet

namespace FlexBuffer

/-- The assignment `fb.Index = index`. -/
def setIndex (fb : FlexBuffer) (index : Nat) : FlexBuffer :=
  ⟨fb.buf, index, fb.length, fb.buf_pos⟩

@[simp]
theorem index_setIndex (fb : FlexBuffer) (index : Nat) :
    (fb.setIndex index).index = index := rfl

@[simp]
theorem length_setIndex (fb : FlexBuffer) (index : Nat) :
    (fb.setIndex index).length = fb.length := rfl

/-- `after` is `before` with `bytes` written at the index. -/
structure Wrote (before after : FlexBuffer) (bytes : List UInt8) :
    Prop where
  index : after.index = before.index + bytes.length
  length : after.length = max before.length after.index
  larger : before.buf.length ≤ after.buf.length
  inside : after.length ≤ after.buf.length
  written : window after.buf before.index after.index = bytes
  kept : ∀ start stop, stop ≤ before.index → stop ≤ before.buf.length →
    window after.buf start stop = window before.buf start stop

theorem wrote_write {fb : FlexBuffer} (bytes : List UInt8)
    (inside : fb.length ≤ fb.buf.length) :
    Wrote fb (fb.write bytes) bytes where
  index := rfl
  length := rfl
  larger := by
    obtain ⟨room, larger, -⟩ := fb.ensureLength_ok (fb.index + bytes.length)
    simp only [write]
    rw [length_overwrite room]
    exact larger
  inside := (valid_write bytes inside).length_le
  written := window_write_self bytes
  kept start _ before inside := window_write_before bytes start before inside

/-- Writing `left` and then `right` writes both one after the other. -/
theorem Wrote.trans {first second third : FlexBuffer}
    {left right : List UInt8} (head : Wrote first second left)
    (tail : Wrote second third right) :
    Wrote first third (left ++ right) where
  index := by
    rw [tail.index, head.index, List.length_append, Nat.add_assoc]
  length := by
    have later := tail.index
    rw [tail.length, head.length, Nat.max_assoc,
      Nat.max_eq_right (show second.index ≤ third.index by omega)]
  larger := head.larger.trans tail.larger
  inside := tail.inside
  written := by
    have bounds := head.index
    have bounds' := tail.index
    have whole : second.index ≤ second.buf.length :=
      ((Nat.le_max_right _ _).trans head.length.ge).trans head.inside
    rw [← window_append_window _
        (show first.index ≤ second.index by omega)
        (show second.index ≤ third.index by omega),
      tail.kept _ _ (Nat.le_refl _) whole, head.written, tail.written]
  kept start stop before within := by
    have bounds := head.index
    rw [tail.kept start stop (by omega) (within.trans head.larger),
      head.kept start stop before within]

end FlexBuffer

/--
A tagged data output, given by the bytes of each `Put` that `startStruct`,
`writeKeysAndValues` and `endStruct` make for a message.
-/
structure TaggedDataOutput (Message : Type) where
  puts : Message → List (List UInt8)

namespace TaggedDataOutput

variable {Message : Type}

def VERSION : UInt8 := 3

def writeMessage (tdo : TaggedDataOutput Message) (msg : Message)
    (buf : FlexBuffer) : FlexBuffer :=
  (tdo.puts msg).foldl FlexBuffer.write (buf.write [VERSION])

/-- The encoding of a message. -/
def encoding (tdo : TaggedDataOutput Message) (msg : Message) :
    List UInt8 :=
  VERSION :: (tdo.puts msg).flatten

theorem wrote_writeMessage (tdo : TaggedDataOutput Message)
    (msg : Message) {buf : FlexBuffer}
    (inside : buf.length ≤ buf.buf.length) :
    FlexBuffer.Wrote buf (tdo.writeMessage msg buf)
      (tdo.encoding msg) := by
  have puts (pieces : List (List UInt8)) :
      ∀ {middle : FlexBuffer} {done : List UInt8},
        FlexBuffer.Wrote buf middle done →
        FlexBuffer.Wrote buf (pieces.foldl FlexBuffer.write middle)
          (done ++ pieces.flatten) := by
    induction pieces with
    | nil =>
        intro middle done wrote
        rw [List.flatten_nil, List.append_nil]
        exact wrote
    | cons piece pieces ih =>
        intro middle done wrote
        rw [List.foldl_cons, List.flatten_cons, ← List.append_assoc]
        exact ih (wrote.trans
          (FlexBuffer.wrote_write piece wrote.inside))
  exact puts (tdo.puts msg) (FlexBuffer.wrote_write [VERSION] inside)

end TaggedDataOutput

/-- The session and the input side of the messagizer are left out. -/
structure Messagizer where
  buf : FlexBuffer
  transport : Packetizer

namespace Messagizer

variable {Message : Type}

def newMessagizer (transport : Packetizer) : Messagizer :=
  ⟨.newFlexBuffer, transport⟩

/--
`TransportMessage`, with the bytes that the connection below the packetizer
reads out of the buffer it is handed, if it is handed one.
-/
def transportMessage (tdo : TaggedDataOutput Message) (m : Messagizer)
    (msg : Message) : Option (Messagizer × Option (List UInt8)) :=
  -- leave space for header
  let buf := m.buf.setIndex 8
  let buf := tdo.writeMessage msg buf
  let buf := buf.setIndex 0
  match m.transport.transportPacket buf with
  | none => some ({ m with buf := buf }, none)
  | some buf => do
      let (bytes, buf) ← buf.readBytes buf.avail.toNat
      some ({ m with buf := buf }, some bytes)

/-- Consecutive calls of `TransportMessage`, with what each one sent. -/
def transportMessages (tdo : TaggedDataOutput Message) (m : Messagizer) :
    List Message → Option (Messagizer × List (Option (List UInt8)))
  | [] => some (m, [])
  | msg :: msgs => do
      let (m, sent) ← m.transportMessage tdo msg
      let (m, later) ← transportMessages tdo m msgs
      some (m, sent :: later)

/-! ## One message -/

/--
What a call sends: as many bytes as the buffer has come to hold, of which
those behind the encoding are left from the messages before.
-/
theorem transportMessage_ok (tdo : TaggedDataOutput Message)
    {m : Messagizer} (inside : m.buf.length ≤ m.buf.buf.length)
    (msg : Message) {held : Nat}
    (total : held = max m.buf.length
      (HEADER_SIZE + (tdo.encoding msg).length)) :
    ∃ next sent, m.transportMessage tdo msg = some (next, sent) ∧
      next.transport = m.transport ∧ next.buf.length = held ∧
      held ≤ next.buf.buf.length ∧
      (held ≤ m.transport.maxPktSize → ∃ body,
        sent = some (header (held - HEADER_SIZE) ++ body) ∧
        body.length = held - HEADER_SIZE ∧
        body.take (tdo.encoding msg).length = tdo.encoding msg) ∧
      (m.transport.maxPktSize < held → sent = none) := by
  have wrote := @TaggedDataOutput.wrote_writeMessage Message tdo msg
    (m.buf.setIndex 8) inside
  generalize encoded : tdo.writeMessage msg (m.buf.setIndex 8) = fb
    at wrote
  have index : fb.index = HEADER_SIZE + (tdo.encoding msg).length :=
    wrote.index
  have length : fb.length = held := by
    rw [wrote.length, index, total, FlexBuffer.length_setIndex]
  have enough : HEADER_SIZE + (tdo.encoding msg).length ≤ held :=
    total ▸ Nat.le_max_right _ _
  have valid : (fb.setIndex 0).Valid := ⟨Nat.zero_le _, wrote.inside⟩
  have size : (fb.setIndex 0).unread.length =
      HEADER_SIZE + (held - HEADER_SIZE) := by
    have whole := @length_window _ fb.buf 0 _ wrote.inside
    have same : (fb.setIndex 0).unread = window fb.buf 0 fb.length := rfl
    rw [same, whole, length]
    omega
  have body : ((fb.setIndex 0).unread.drop HEADER_SIZE).take
      (tdo.encoding msg).length = tdo.encoding msg := by
    have written := wrote.written
    rw [index] at written
    rw [FlexBuffer.unread, drop_window, take_window,
      FlexBuffer.index_setIndex, FlexBuffer.length_setIndex,
      Nat.zero_add, Nat.min_eq_left (by omega)]
    exact written
  by_cases excess : m.transport.maxPktSize < held
  · have dropped : m.transport.transportPacket (fb.setIndex 0) = none :=
      Packetizer.transportPacket_over valid (by rw [size]; omega)
    refine ⟨{ m with buf := fb.setIndex 0 }, none, ?_, rfl, length,
      length ▸ wrote.inside, fun fits => absurd fits (by omega),
      fun _ => rfl⟩
    simp only [transportMessage, encoded, dropped]
  · obtain ⟨sent, handed, valid', start, length', bytes⟩ :=
      Packetizer.transportPacket_ok valid rfl size
        (show (HEADER_SIZE : Int) + (held - HEADER_SIZE : Nat) ≤
          m.transport.maxPktSize by omega)
    have avail := valid'.avail_eq
    obtain ⟨rest, read, buf, -, length''⟩ :=
      FlexBuffer.readFull_ok valid' (Nat.le_refl sent.unread.length)
    rw [List.take_length] at read
    have kept : rest.length = held := by
      rw [length'', length']
      exact length
    refine ⟨{ m with buf := rest }, some sent.unread, ?_, rfl, kept, ?_,
      fun _ => ⟨_, congrArg some bytes, ?_, body⟩,
      fun excess' => absurd excess' excess⟩
    · simp only [transportMessage, encoded, handed, avail,
        Int.toNat_natCast, FlexBuffer.readBytes, read,
        Option.bind_eq_bind, Option.bind_some]
    · rw [buf, ← kept, length'']
      exact valid'.length_le
    · rw [List.length_drop, size]
      exact Nat.add_sub_cancel_left _ _

/-- An eight byte header with the length of `body`, and `body`. -/
def Framed (bytes body : List UInt8) : Prop :=
  pktSizeOf (bytes.take HEADER_SIZE) = some (body.length : Int) ∧
    bytes.drop HEADER_SIZE = body

theorem framed_iff {size : Nat} {body rest : List UInt8}
    (length : rest.length = size)
    (front : rest.take body.length = body) :
    Framed (header size ++ rest) body ↔
      size = body.length ∧ body.length < 2 ^ 31 := by
  unfold Framed
  rw [List.take_left' (length_header size),
    List.drop_left' (length_header size)]
  constructor
  · rintro ⟨header, rfl⟩
    subst length
    exact ⟨rfl, pktSizeOf_header_iff.mp header⟩
  · rintro ⟨same, small⟩
    have whole : rest = body := by
      rw [← front, ← same, ← length, List.take_length]
    rw [same]
    exact ⟨pktSizeOf_header_iff.mpr small, whole⟩

/-- The message within the limit of the packetizer. -/
def Sendable (tdo : TaggedDataOutput Message) (maxPktSize : Int)
    (msg : Message) : Prop :=
  HEADER_SIZE + (tdo.encoding msg).length ≤ maxPktSize

/-- What is sent for `msg` is the frame of its encoding and nothing else. -/
def SendsOnly (tdo : TaggedDataOutput Message) (maxPktSize : Int)
    (msg : Message) (sent : Option (List UInt8)) : Prop :=
  (Sendable tdo maxPktSize msg →
    ∃ bytes, sent = some bytes ∧ Framed bytes (tdo.encoding msg)) ∧
  (¬ Sendable tdo maxPktSize msg → sent = none)

/-- A call sends the message alone if the buffer has held no longer one. -/
theorem transportMessage_sendsOnly (tdo : TaggedDataOutput Message)
    {m : Messagizer} (inside : m.buf.length ≤ m.buf.buf.length)
    (msg : Message) {held : Nat}
    (total : held = max m.buf.length
      (HEADER_SIZE + (tdo.encoding msg).length)) :
    ∃ next sent, m.transportMessage tdo msg = some (next, sent) ∧
      next.transport = m.transport ∧ next.buf.length = held ∧
      held ≤ next.buf.buf.length ∧
      (sent ≠ none → Sendable tdo m.transport.maxPktSize msg) ∧
      (SendsOnly tdo m.transport.maxPktSize msg sent ↔
        (Sendable tdo m.transport.maxPktSize msg →
          m.buf.length ≤ HEADER_SIZE + (tdo.encoding msg).length ∧
            (tdo.encoding msg).length < 2 ^ 31)) := by
  obtain ⟨next, sent, done, same, length, inside', fits, excess⟩ :=
    transportMessage_ok tdo inside msg total
  refine ⟨next, sent, done, same, length, inside', ?_, ?_⟩
  · intro present
    by_contra large
    unfold Sendable at large
    exact present (excess (by clear fits; omega))
  unfold SendsOnly Sendable
  by_cases long : m.transport.maxPktSize < held
  · obtain rfl := excess long
    constructor
    · rintro ⟨framed, -⟩ sendable
      obtain ⟨bytes, absent, -⟩ := framed sendable
      exact nomatch absent
    · intro short
      refine ⟨fun sendable => ?_, fun _ => rfl⟩
      have := short sendable
      omega
  · obtain ⟨body, rfl, size, front⟩ := fits (Int.not_lt.mp long)
    clear fits excess
    have framed := framed_iff size front
    constructor
    · rintro ⟨sends, -⟩ sendable
      obtain ⟨bytes, same, exact'⟩ := sends sendable
      obtain rfl := Option.some.inj same
      obtain ⟨alone, small⟩ := framed.mp exact'
      exact ⟨by omega, small⟩
    · intro short
      refine ⟨fun sendable => ?_, fun large => ?_⟩
      · obtain ⟨alone, small⟩ := short sendable
        exact ⟨_, rfl, framed.mpr ⟨by omega, small⟩⟩
      · omega

/-! ## Sequences of messages -/

/-- No message that can be sent follows a longer one. -/
def Growing (tdo : TaggedDataOutput Message) (maxPktSize : Int)
    (msgs : List Message) : Prop :=
  msgs.Pairwise fun earlier later => Sendable tdo maxPktSize later →
    (tdo.encoding earlier).length ≤ (tdo.encoding later).length

/-- The lengths of messages that can be sent fit into the header. -/
def Measured (tdo : TaggedDataOutput Message) (maxPktSize : Int)
    (msgs : List Message) : Prop :=
  ∀ msg ∈ msgs, Sendable tdo maxPktSize msg →
    (tdo.encoding msg).length < 2 ^ 31

theorem transportMessages_from (tdo : TaggedDataOutput Message)
    {m : Messagizer} (inside : m.buf.length ≤ m.buf.buf.length)
    (msgs : List Message) :
    ∃ next sent, m.transportMessages tdo msgs = some (next, sent) ∧
      List.Forall₂ (fun msg sent => sent ≠ none →
        Sendable tdo m.transport.maxPktSize msg) msgs sent ∧
      (List.Forall₂ (SendsOnly tdo m.transport.maxPktSize) msgs sent ↔
        (∀ msg ∈ msgs, Sendable tdo m.transport.maxPktSize msg →
          m.buf.length ≤ HEADER_SIZE + (tdo.encoding msg).length) ∧
        Growing tdo m.transport.maxPktSize msgs ∧
        Measured tdo m.transport.maxPktSize msgs) := by
  induction msgs generalizing m with
  | nil =>
      refine ⟨m, [], rfl, .nil, ?_⟩
      simp [Growing, Measured]
  | cons msg msgs ih =>
      obtain ⟨middle, first, done, same, length, inside', present,
        head⟩ := transportMessage_sendsOnly tdo inside msg rfl
      obtain ⟨next, sent, done', present', tail⟩ :=
        @ih middle (length ▸ inside')
      rw [same] at present'
      refine ⟨next, first :: sent, ?_, .cons present present', ?_⟩
      · simp only [transportMessages, done, done', Option.bind_eq_bind,
          Option.bind_some]
      · rw [same, length] at tail
        rw [List.forall₂_cons, head, tail]
        unfold Growing Measured
        rw [List.pairwise_cons, List.forall_mem_cons,
          List.forall_mem_cons]
        constructor
        · rintro ⟨short, room, growing, measured⟩
          refine ⟨⟨fun sendable => (short sendable).1, ?_⟩,
            ⟨?_, growing⟩, fun sendable => (short sendable).2, measured⟩
          · intro later member sendable
            exact (Nat.le_max_left _ _).trans
              (room later member sendable)
          · intro later member sendable
            have := room later member sendable
            omega
        · rintro ⟨⟨short, room⟩, ⟨longer, growing⟩, small, measured⟩
          refine ⟨fun sendable => ⟨short sendable, small sendable⟩, ?_,
            growing, measured⟩
          intro later member sendable
          have := room later member sendable
          have := longer later member sendable
          omega

/-- What is sent for `msg` is the frame of its encoding. -/
def SendsFrame (tdo : TaggedDataOutput Message) (msg : Message)
    (sent : Option (List UInt8)) : Prop :=
  ∃ bytes, sent = some bytes ∧ Framed bytes (tdo.encoding msg)

/-- A message is sent as its frame when it is sent and sent alone. -/
theorem forall₂_sendsFrame {tdo : TaggedDataOutput Message}
    {maxPktSize : Int} {msgs : List Message}
    {sent : List (Option (List UInt8))}
    (present : List.Forall₂ (fun msg sent => sent ≠ none →
      Sendable tdo maxPktSize msg) msgs sent) :
    List.Forall₂ (SendsFrame tdo) msgs sent ↔
      (∀ msg ∈ msgs, Sendable tdo maxPktSize msg) ∧
      List.Forall₂ (SendsOnly tdo maxPktSize) msgs sent := by
  induction present with
  | nil => simp
  | @cons msg first _ _ sendable _ ih =>
      have step : SendsFrame tdo msg first ↔
          Sendable tdo maxPktSize msg ∧
            SendsOnly tdo maxPktSize msg first := by
        constructor
        · intro frame
          obtain ⟨bytes, rfl, _⟩ := id frame
          have sendable' := sendable (nomatch ·)
          exact ⟨sendable', fun _ => frame,
            fun large => absurd sendable' large⟩
        · rintro ⟨sendable', sends, -⟩
          exact sends sendable'
      rw [List.forall₂_cons, List.forall₂_cons, step, ih,
        List.forall_mem_cons]
      tauto

/--
Every message is sent alone, and those too long not at all, exactly when no
message that can be sent follows a longer one and all lengths fit into the
header; all are sent as frames exactly when moreover each can be sent.
-/
theorem transportMessages_iff (tdo : TaggedDataOutput Message)
    (maxPktSize : Int) (msgs : List Message) :
    ∃ next sent,
      (newMessagizer (.newPacketizer maxPktSize)).transportMessages tdo
        msgs = some (next, sent) ∧
      (List.Forall₂ (SendsOnly tdo maxPktSize) msgs sent ↔
        Growing tdo maxPktSize msgs ∧ Measured tdo maxPktSize msgs) ∧
      (List.Forall₂ (SendsFrame tdo) msgs sent ↔
        (∀ msg ∈ msgs, Sendable tdo maxPktSize msg) ∧
        Growing tdo maxPktSize msgs ∧ Measured tdo maxPktSize msgs) := by
  obtain ⟨next, sent, done, present, alone⟩ :=
    @transportMessages_from Message tdo
      (newMessagizer (.newPacketizer maxPktSize)) (Nat.zero_le _) msgs
  have only : List.Forall₂ (SendsOnly tdo maxPktSize) msgs sent ↔
      Growing tdo maxPktSize msgs ∧ Measured tdo maxPktSize msgs := by
    refine alone.trans ⟨And.right, fun condition => ⟨?_, condition⟩⟩
    intro msg _ _
    exact Nat.zero_le _
  refine ⟨next, sent, done, only, ?_⟩
  rw [← only]
  exact forall₂_sendsFrame present

/-- An output whose messages are the bytes of one `Put`. -/
def rawOutput : TaggedDataOutput (List UInt8) :=
  ⟨fun bytes => [bytes]⟩

/-- Behind a message of two bytes one of one byte takes the second along. -/
theorem transportMessages_short :
    ((newMessagizer (.newPacketizer 100)).transportMessages rawOutput
        [[1, 2], [4]]).map Prod.snd =
      some [some [0xde, 0xad, 0xbe, 0xef, 0, 0, 0, 3, 3, 1, 2],
        some [0xde, 0xad, 0xbe, 0xef, 0, 0, 0, 3, 3, 4, 2]] ∧
    ¬ ∃ next sent,
      (newMessagizer (.newPacketizer 100)).transportMessages rawOutput
        [[1, 2], [4]] = some (next, sent) ∧
      List.Forall₂ (SendsFrame rawOutput) [[1, 2], [4]] sent := by
  have sends : ((newMessagizer (.newPacketizer 100)).transportMessages
        rawOutput [[1, 2], [4]]).map Prod.snd =
      some [some [0xde, 0xad, 0xbe, 0xef, 0, 0, 0, 3, 3, 1, 2],
        some [0xde, 0xad, 0xbe, 0xef, 0, 0, 0, 3, 3, 4, 2]] := by
    decide
  refine ⟨sends, ?_⟩
  rintro ⟨next, sent, done, frames⟩
  rw [done, Option.map_some] at sends
  obtain rfl := Option.some.inj sends
  cases frames with
  | cons _ frames =>
      cases frames with
      | cons second _ =>
          obtain ⟨bytes, same, -, body⟩ := second
          obtain rfl := Option.some.inj same
          exact absurd body (by decide)

end Messagizer

end Etch.Go
