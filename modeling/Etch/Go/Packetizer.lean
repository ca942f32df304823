import Etch.Go.FlexBuffer

/-!
# The Go `Packetizer`

One call of `SessionData` puts the chunk into `saveBuf` at the read index and
handles at most one packet.  The calls to `Log` are left out.
-/

namespace Etch.Go

open Etch.Library.BigEndian
open Etch.Packet

structure Packetizer where
  maxPktSize : Int
  saveBuf : FlexBuffer
  nextPacketLen : Int

namespace Packetizer

def newPacketizer (maxPktSize : Int) : Packetizer :=
  ⟨maxPktSize, .newFlexBuffer, 0⟩

def processHeader (p : Packetizer) : Option (Int × Packetizer) := do
  -- the signature is read and not checked
  let (_, saveBuf) ← p.saveBuf.readInt
  let (l, saveBuf) ← saveBuf.readInt
  some (l, { p with saveBuf := saveBuf })

/-- The packet handed to the session, with the packetizer afterwards. -/
def processPacket (p : Packetizer) :
    Option (Packetizer × List UInt8) :=
  if p.nextPacketLen < 0 then
    -- `make` panics
    none
  else do
    let n := p.nextPacketLen.toNat
    let fullLength := p.saveBuf.length
    let currentPacketLength := p.saveBuf.index + n
    let (packet, saveBuf) ←
      { p.saveBuf with length := currentPacketLength }.readBytes n
    let saveBuf :=
      { saveBuf with length := fullLength, index := currentPacketLength }
    let packetBuf := FlexBuffer.newFlexBuffer.write packet
    let packetBuf := { packetBuf with index := 0 }
    some ({ p with saveBuf := saveBuf, nextPacketLen := 0 },
      packetBuf.unread)

/-- `SessionData` once the chunk is in `saveBuf`. -/
def processSaved (p : Packetizer) :
    Option (Packetizer × List (List UInt8)) :=
  if p.nextPacketLen ≠ 0 then
    if p.saveBuf.avail > p.nextPacketLen then do
      let (p, packet) ← p.processPacket
      some (p, [packet])
    else
      some (p, [])
  else if p.saveBuf.avail ≥ HEADER_SIZE then do
    let (nextPacketLen, p) ← p.processHeader
    let p := { p with nextPacketLen := nextPacketLen }
    if p.saveBuf.avail ≥ p.nextPacketLen then do
      let (p, packet) ← p.processPacket
      some (p, [packet])
    else
      some (p, [])
  else
    some (p, [])

/-- `SessionData`, with the packets handed to the session. -/
def sessionData (p : Packetizer) (buf : FlexBuffer) :
    Option (Packetizer × List (List UInt8)) := do
  let i := p.saveBuf.index
  let (saveBuf, _) ← p.saveBuf.putFromOtherFull buf
  let saveBuf := { saveBuf with index := i }
  processSaved { p with saveBuf := saveBuf }

/-- Consecutive calls of `SessionData`. -/
def sessionDataAll (p : Packetizer) :
    List FlexBuffer → Option (Packetizer × List (List UInt8))
  | [] => some (p, [])
  | buf :: bufs => do
      let (p, first) ← p.sessionData buf
      let (p, later) ← sessionDataAll p bufs
      some (p, first ++ later)

/-- `TransportPacket`: the buffer handed to the transport, if any. -/
def transportPacket (p : Packetizer) (buf : FlexBuffer) :
    Option FlexBuffer :=
  let dataSize := buf.avail
  let pktSize := dataSize
  if pktSize > p.maxPktSize then
    none
  else
    let buf := buf.putInt (int32 SIG)
    let buf := buf.putInt (int32 (dataSize - HEADER_SIZE))
    some { buf with index := 0 }

/-- Of a buffer at its start the first eight bytes become the header. -/
theorem transportPacket_ok {p : Packetizer} {buf : FlexBuffer}
    (valid : buf.Valid) (start : buf.index = 0) {size : Nat}
    (room : buf.unread.length = HEADER_SIZE + size)
    (fits : HEADER_SIZE + size ≤ p.maxPktSize) :
    ∃ sent, p.transportPacket buf = some sent ∧ sent.Valid ∧
      sent.index = 0 ∧ sent.length = buf.length ∧
      sent.unread = header size ++ buf.unread.drop HEADER_SIZE := by
  have avail := valid.avail_eq
  rw [room] at avail
  have gap : buf.avail - HEADER_SIZE = (size : Int) := by
    omega
  have total : buf.avail = buf.length - buf.index := rfl
  have written := FlexBuffer.unread_write_write valid (toBytes 4 SIG)
    (toBytes 4 size) (by
      rw [length_toBytes, length_toBytes, room]
      exact Nat.le_add_right _ _)
  have valid' := FlexBuffer.valid_write (toBytes 4 size)
    (FlexBuffer.valid_write (toBytes 4 SIG) valid.length_le).length_le
  have kept : ((buf.write (toBytes 4 SIG)).write
      (toBytes 4 size)).length = buf.length := by
    simp only [FlexBuffer.length_write, FlexBuffer.index_write,
      length_toBytes]
    unfold HEADER_SIZE at avail
    omega
  rw [length_toBytes, length_toBytes, start] at written
  refine ⟨{ (buf.write (toBytes 4 SIG)).write (toBytes 4 size) with
    index := 0 }, ?_, ⟨Nat.zero_le _, valid'.length_le⟩, rfl, kept,
    written⟩
  unfold transportPacket
  rw [if_neg (by omega), gap]
  simp only [FlexBuffer.putInt_int32]

/-- The header counts against the limit. -/
theorem transportPacket_over {p : Packetizer} {buf : FlexBuffer}
    (valid : buf.Valid) (excess : p.maxPktSize < buf.unread.length) :
    p.transportPacket buf = none := by
  have avail := valid.avail_eq
  unfold transportPacket
  rw [if_pos (by omega)]

end Packetizer

end Etch.Go
