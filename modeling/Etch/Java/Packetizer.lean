import Etch.Java.FlexBuffer
import Etch.Library.Loop

/-!
# The Java `Packetizer`

The receiving half turns chunks of the byte stream into packets; the sending
half puts a header in front of a packet.  The session is whatever reads from
the buffers it is handed; what it is handed is recorded in `delivered`.
-/

namespace Etch.Java

open Etch.Library
open Etch.Packet

/-- A session, known by how much of a packet it reads. -/
structure Session where
  reads : FlexBuffer → Nat
  reads_le : ∀ buf, reads buf ≤ buf.avail

/-- The buffer after `sessionPacket( sender, buf )`. -/
def Session.sessionPacket (session : Session) (buf : FlexBuffer) :
    FlexBuffer :=
  { buf with
    index := buf.index + session.reads buf
    index_le := by
      have := session.reads_le buf
      have := buf.index_le
      unfold FlexBuffer.avail at *
      omega }

structure Packetizer where
  maxPktSize : Nat
  wantHeader : Bool
  bodyLen : Nat
  savedBuf : FlexBuffer

namespace Packetizer

def DEFAULT_MAX_PKT_SIZE : Nat := 16384 - HEADER_SIZE

/-- `new Packetizer( transport, maxPktSize )` -/
def create (maxPktSize : Int) : Except Exception Packetizer :=
  if maxPktSize < 0 then
    .error (.illegalArgumentException "maxPktSize < 0")
  else
    .ok ⟨maxPktSize.toNat, true, 0, .empty⟩

/-- The packet sizes below the limit; no limit is written `0`. -/
def accepts (maxPktSize pktSize : Nat) : Bool :=
  maxPktSize == 0 || pktSize ≤ maxPktSize

def processHeader (packetizer : Packetizer) (buf : FlexBuffer)
    (reset : Bool) : Except Exception (Nat × FlexBuffer) := do
  let (sig, buf) ← buf.getInt
  if sig ≠ signed32 SIG then
    .error (.ioException "bad SIG")
  else do
    let (pktSize, buf) ← buf.getInt
    let buf := if reset then buf.reset else buf
    if pktSize < 0 ∨
        packetizer.maxPktSize > 0 ∧ pktSize > packetizer.maxPktSize then
      .error (.ioException
        "pktSize < 0 || (maxPktSize > 0 && pktSize > maxPktSize)")
    else
      .ok (pktSize.toNat, buf)

/-- The variables of the loop of `sessionData`. -/
structure Receiving where
  packetizer : Packetizer
  buf : FlexBuffer
  delivered : List (List UInt8)

/-- Process a header for which there are enough bytes. -/
def headerBytes (packetizer : Packetizer) (buf : FlexBuffer) :
    Except Exception (Nat × FlexBuffer × FlexBuffer) := do
  let savedBuf := packetizer.savedBuf
  if savedBuf.length = 0 then do
    -- savedBuf is empty, entire header in buf
    let (pktSize, buf) ← packetizer.processHeader buf false
    .ok (pktSize, savedBuf, buf)
  else do
    -- header split across savedBuf and buf
    let needFromBuf : Int := HEADER_SIZE - savedBuf.length
    let (savedBuf, buf) ← savedBuf.putFrom buf needFromBuf
    let savedBuf ← savedBuf.setIndex 0
    let (pktSize, savedBuf) ← packetizer.processHeader savedBuf true
    .ok (pktSize, savedBuf, buf)

/-- Want a header, and there is enough to make it. -/
def takeHeader (packetizer : Packetizer) (buf : FlexBuffer) :
    Except Exception (Packetizer × FlexBuffer) := do
  let (pktSize, savedBuf, buf) ← packetizer.headerBytes buf
  if pktSize = 0 then
    .ok ({ packetizer with savedBuf := savedBuf }, buf)
  else
    .ok ({ packetizer with
            savedBuf := savedBuf
            bodyLen := pktSize
            wantHeader := false },
      buf)

/-- Want a header, but there is not enough to make it. -/
def saveHeader (packetizer : Packetizer) (buf : FlexBuffer) :
    Except Exception (Packetizer × FlexBuffer) := do
  let savedBuf := packetizer.savedBuf
  let savedBuf ← savedBuf.setIndex savedBuf.length
  let (savedBuf, buf) ← savedBuf.put buf
  .ok ({ packetizer with savedBuf := savedBuf }, buf)

/-- Want a body, and there is enough to make it. -/
def takeBody (session : Session) (packetizer : Packetizer)
    (buf : FlexBuffer) :
    Except Exception (Packetizer × FlexBuffer × List UInt8) := do
  let savedBuf := packetizer.savedBuf
  let bodyLen := packetizer.bodyLen
  if savedBuf.length = 0 then do
    -- savedBuf is empty, entire body in buf
    let length := buf.length
    let index := buf.index
    let exposed ← buf.setLength (intAdd index bodyLen)
    let buf := session.sessionPacket exposed
    let buf ← buf.setLength length
    let buf ← buf.setIndex (intAdd index bodyLen)
    .ok ({ packetizer with wantHeader := true }, buf, exposed.unread)
  else do
    -- body split across savedBuf and buf
    let needFromBuf : Int := bodyLen - savedBuf.length
    let (savedBuf, buf) ← savedBuf.putFrom buf needFromBuf
    let exposed ← savedBuf.setIndex 0
    let savedBuf := (session.sessionPacket exposed).reset
    .ok ({ packetizer with savedBuf := savedBuf, wantHeader := true },
      buf, exposed.unread)

/-- Want a body, but there is not enough to make it. -/
def saveBody (packetizer : Packetizer) (buf : FlexBuffer) :
    Except Exception (Packetizer × FlexBuffer) := do
  let (savedBuf, buf) ← packetizer.savedBuf.put buf
  .ok ({ packetizer with savedBuf := savedBuf }, buf)

/-- One round of the loop of `sessionData`. -/
def sessionDataRound (session : Session) (state : Receiving) :
    Except Exception Receiving := do
  let ⟨packetizer, buf, delivered⟩ := state
  let total := intAdd packetizer.savedBuf.length buf.avail
  if packetizer.wantHeader then
    if total ≥ HEADER_SIZE then do
      let (packetizer, buf) ← packetizer.takeHeader buf
      .ok ⟨packetizer, buf, delivered⟩
    else do
      let (packetizer, buf) ← packetizer.saveHeader buf
      .ok ⟨packetizer, buf, delivered⟩
  else if total ≥ packetizer.bodyLen then do
    let (packetizer, buf, packet) ← packetizer.takeBody session buf
    .ok ⟨packetizer, buf, delivered ++ [packet]⟩
  else do
    let (packetizer, buf) ← packetizer.saveBody buf
    .ok ⟨packetizer, buf, delivered⟩

/--
One call of `sessionData`, with a bound on the rounds of its loop
`while (buf.avail() > 0)`.
-/
def sessionData (session : Session) (rounds : Nat)
    (packetizer : Packetizer) (delivered : List (List UInt8))
    (buf : FlexBuffer) : Option (Except Exception Receiving) :=
  Loop.run
    (Loop.whilePass (fun state => state.buf.avail > 0)
      (sessionDataRound session))
    rounds ⟨packetizer, buf, delivered⟩

/-- Consecutive calls of `sessionData`, up to the first that throws. -/
def sessionDataAll (session : Session) (rounds : Nat) :
    Packetizer → List (List UInt8) → List FlexBuffer →
      Option (Except Exception (Packetizer × List (List UInt8)))
  | packetizer, delivered, [] => some (.ok (packetizer, delivered))
  | packetizer, delivered, buf :: bufs =>
      match packetizer.sessionData session rounds delivered buf with
      | none => none
      | some (.error exception) => some (.error exception)
      | some (.ok state) =>
          sessionDataAll session rounds state.packetizer state.delivered
            bufs

/-- `transportPacket`: the buffer handed to the transport. -/
def transportPacket (packetizer : Packetizer) (buf : FlexBuffer) :
    Except Exception FlexBuffer := do
  let dataSize := buf.avail
  if dataSize < HEADER_SIZE then
    .error (.illegalArgumentException "dataSize < HEADER_SIZE")
  else
    let pktSize := dataSize - HEADER_SIZE
    if packetizer.maxPktSize > 0 ∧ pktSize > packetizer.maxPktSize then
      .error (.ioException "maxPktSize > 0 && pktSize > maxPktSize")
    else do
      let index := buf.index
      let buf ← buf.putInt SIG
      let buf ← buf.putInt pktSize
      buf.setIndex index

end Packetizer

end Etch.Java
