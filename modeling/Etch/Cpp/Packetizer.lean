import Etch.Cpp.FlexBuffer
import Etch.Library.Loop
import Etch.Packet.Header

/-!
# The C++ `EtchPacketizer`

All received bytes are collected in `mReadBuf`; every whole packet in it is
extracted and handed to the session, and the rest is moved to the front by way
of `mTempBuf`.  The results of the buffer's operations are ignored where the
source ignores them.  `none` stands for a write behind an array.
-/

namespace Etch.Cpp

open Etch.Library
open Etch.Packet

structure EtchPacketizer where
  mMaxPktSize : Nat
  mReadBuf : EtchFlexBuffer
  mTempBuf : EtchFlexBuffer

namespace EtchPacketizer

def SIG_SIZE : Nat := 4

def DEFAULT_MAX_PKT_SIZE : Nat := 16384 - HEADER_SIZE

/-- The constructor, with the value of the term for the packet size. -/
def new (value : Option Int) : EtchPacketizer where
  mMaxPktSize :=
    match value with
    | none => DEFAULT_MAX_PKT_SIZE
    | some value =>
        if value ≤ 0 then DEFAULT_MAX_PKT_SIZE else value.toNat
  mReadBuf := .new
  mTempBuf := .new

/-- Move the unread bytes of `mReadBuf` to its front. -/
def bufferClean (p : EtchPacketizer) : Option EtchPacketizer := do
  let (_, mTempBuf) ← p.mTempBuf.putAll p.mReadBuf
  let mTempBuf := mTempBuf.setIndex 0
  let (_, mReadBuf) ← p.mReadBuf.reset.putAll mTempBuf
  some { p with
    mReadBuf := mReadBuf.setIndex 0
    mTempBuf := mTempBuf.reset }

/-- The first index from `i` on at which `SIG` is read. -/
def findSig (fb : EtchFlexBuffer) : Nat → Nat → Option Nat
  | 0, _ => none
  | rounds + 1, i =>
      let (sig, fb) := fb.getInteger.getD (0, fb)
      if sig = SIG then
        some i
      else
        findSig (fb.setIndex (i + 1)) rounds (i + 1)

def bufferContainsHeader (p : EtchPacketizer) :
    Option (Bool × EtchPacketizer) :=
  if p.mReadBuf.getAvailableBytes < HEADER_SIZE then
    some (false, p)
  else
    let (sig, mReadBuf) := p.mReadBuf.getInteger.getD (0, p.mReadBuf)
    if sig = SIG then
      some (true, { p with mReadBuf := mReadBuf })
    else
      -- search for the next signature
      let length := mReadBuf.mLength - 4
      let index := mReadBuf.mIndex
      match findSig mReadBuf (length - index) index with
      | some i => do
          let p ← bufferClean { p with mReadBuf := mReadBuf.setIndex i }
          some (true,
            { p with mReadBuf := p.mReadBuf.setIndex SIG_SIZE })
      | none => do
          -- save the last 8 bytes
          let p ← bufferClean
            { p with
              mReadBuf :=
                mReadBuf.setIndex (mReadBuf.mLength - HEADER_SIZE) }
          some (false, p)

def bufferContainsPacket (p : EtchPacketizer) :
    Option (Bool × EtchPacketizer) := do
  let (found, p) ← p.bufferContainsHeader
  if found then
    match p.mReadBuf.getInteger with
    | none =>
        some (false, { p with mReadBuf := p.mReadBuf.setIndex 0 })
    | some (packetSize, mReadBuf) =>
        if mReadBuf.getAvailableBytes < packetSize then
          some (false, { p with mReadBuf := mReadBuf.setIndex 0 })
        else if packetSize > p.mMaxPktSize then do
          let p ← bufferClean
            { p with
              mReadBuf :=
                mReadBuf.setIndex
                  (uint32Add mReadBuf.mIndex packetSize) }
          some (true, { p with mReadBuf := p.mReadBuf.setIndex 0 })
        else
          some (true, { p with mReadBuf := mReadBuf.setIndex 0 })
  else
    some (false, p)

/-- What `extractPacket` puts into `mTempBuf` of the rest of `mReadBuf`. -/
def saveRest (mTempBuf mReadBuf : EtchFlexBuffer) :
    Option EtchFlexBuffer :=
  if mReadBuf.getAvailableBytes > 0 then do
    let (_, mTempBuf) ← mTempBuf.putAll mReadBuf
    some (mTempBuf.setIndex 0)
  else
    some mTempBuf

def extractPacket (p : EtchPacketizer) :
    Option (EtchFlexBuffer × EtchPacketizer) := do
  let mReadBuf :=
    p.mReadBuf.setIndex (uint32Add p.mReadBuf.mIndex 4)
  let (packetSize, mReadBuf) := mReadBuf.getInteger.getD (0, mReadBuf)
  let (_, packetData) ← EtchFlexBuffer.new.put mReadBuf packetSize
  let mReadBuf :=
    mReadBuf.setIndex (uint32Add mReadBuf.mIndex packetSize)
  let mTempBuf ← saveRest p.mTempBuf mReadBuf
  let (_, mReadBuf) ← mReadBuf.reset.putAll mTempBuf
  some (packetData.setIndex 0,
    { p with
      mReadBuf := mReadBuf.setIndex 0
      mTempBuf := mTempBuf.reset })

/-- The variables of the loop of `sessionData`. -/
structure Receiving where
  packetizer : EtchPacketizer
  delivered : List (List UInt8)
  result : Status

/-- The result of `sessionPacket` for the bytes of a packet. -/
abbrev Session : Type :=
  List UInt8 → Status

/-- A pass over the loop `while (bufferContainsPacket())`. -/
def sessionDataPass (session : Session) (state : Receiving) :
    Loop.Pass Receiving (Option Receiving) :=
  match state.packetizer.bufferContainsPacket with
  | none => .leave none
  | some (false, p) => .leave (some { state with packetizer := p })
  | some (true, p) =>
      match p.extractPacket with
      | none => .leave none
      | some (packetData, p) =>
          .again
            ⟨p, state.delivered ++ [packetData.unread],
              session packetData.unread⟩

/-- `mReadBuf` with the bytes of `buf` behind those it holds. -/
def amend (p : EtchPacketizer) (buf : EtchFlexBuffer) :
    Option EtchPacketizer := do
  let mReadBuf :=
    if p.mReadBuf.getAvailableBytes > 0 then
      p.mReadBuf.setIndex p.mReadBuf.mLength
    else
      p.mReadBuf
  let (_, mReadBuf) ← mReadBuf.putAll buf
  some { p with mReadBuf := mReadBuf.setIndex 0 }

/--
`sessionData`, with the packets handed to the session.  Every round of the
loop takes bytes out of `mReadBuf`.
-/
def sessionData (session : Session) (p : EtchPacketizer)
    (buf : EtchFlexBuffer) : Option Receiving := do
  let p ← p.amend buf
  let state ← Loop.run (sessionDataPass session)
    (p.mReadBuf.mLength + 1) ⟨p, [], .ETCH_OK⟩
  state

/-- Consecutive calls of `sessionData`. -/
def sessionDataAll (session : Session) (p : EtchPacketizer) :
    List EtchFlexBuffer → Option (EtchPacketizer × List (List UInt8))
  | [] => some (p, [])
  | buf :: bufs => do
      let state ← p.sessionData session buf
      let (p, later) ← sessionDataAll session state.packetizer bufs
      some (p, state.delivered ++ later)

end EtchPacketizer

end Etch.Cpp
