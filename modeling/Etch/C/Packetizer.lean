import Etch.C.Flexbuffer
import Etch.Library.Loop

/-!
# The C `etch_packetizer`

The loop of `session_data` has the four branches of the Java packetizer, with
result codes in the place of exceptions.  It is modelled pass by pass, since
it need not end.  What the session is handed is recorded in `delivered`.
-/

namespace Etch.C

open Etch.Library
open Etch.Packet

/-- A session, known by how much of a packet it reads. -/
structure Session where
  reads : EtchFlexbuffer → Nat
  reads_le : ∀ fbuf, reads fbuf ≤ fbuf.datalen - fbuf.index

/-- The buffer after `session_packet(thisx, whofrom, fbuf)`. -/
def Session.sessionPacket (session : Session) (fbuf : EtchFlexbuffer) :
    EtchFlexbuffer :=
  fbuf.skip (session.reads fbuf)

structure EtchPacketizer where
  maxpacketsize : Nat
  is_wantheader : Bool
  bodylength : Nat
  savebuf : EtchFlexbuffer

namespace EtchPacketizer

def ETCH_PKTIZER_DEFMAXPKTSIZE : Nat := 10240

/-- `new_packetizer_b(itd, maxpktsize)` -/
def newPacketizer (maxpktsize : Int) : EtchPacketizer where
  maxpacketsize :=
    if maxpktsize > 0 then maxpktsize.toNat else ETCH_PKTIZER_DEFMAXPKTSIZE
  is_wantheader := true
  bodylength := 0
  savebuf := .newFlexbuffer 0

/-- The data length from the header, `none` for a bad header. -/
def processHeader (pzr : EtchPacketizer) (fbuf : EtchFlexbuffer)
    (is_reset : Bool) : Option Nat × EtchFlexbuffer :=
  match fbuf.getInt with
  | (none, fbuf) => (none, fbuf)
  | (some signature, fbuf) =>
      if signature ≠ signed32 SIG then
        (none, fbuf)
      else
        let (curlen, fbuf) := fbuf.getInt
        let fbuf := if is_reset then fbuf.reset else fbuf
        match curlen with
        | none => (none, fbuf)
        | some curlen =>
            if curlen < 0 ∨ curlen > pzr.maxpacketsize then
              (none, fbuf)
            else
              (some curlen.toNat, fbuf)

/-- The variables of the loop of `session_data`. -/
structure Receiving where
  pzr : EtchPacketizer
  fbuf : EtchFlexbuffer
  delivered : List (List UInt8)

/-- A pass over the loop, left with the result code. -/
abbrev Pass : Type :=
  Loop.Pass Receiving (Int × Receiving)

/-- What `session_data` does with the data length from a header. -/
def useHeader (pzr : EtchPacketizer) (fbuf : EtchFlexbuffer)
    (delivered : List (List UInt8)) : Option Nat → Pass
  | none => .leave (-1, ⟨pzr, fbuf, delivered⟩)
  | some 0 => .again ⟨pzr, fbuf, delivered⟩
  | some packet_bodylen =>
      .again
        ⟨{ pzr with bodylength := packet_bodylen, is_wantheader := false },
          fbuf, delivered⟩

/-- There are enough bytes in the pipeline for a header. -/
def takeHeader (state : Receiving) : Pass :=
  let ⟨pzr, fbuf, delivered⟩ := state
  let savebuf := pzr.savebuf
  if savebuf.datalen = 0 then
    -- save buffer is empty, entire header in fbuf
    let (packet_bodylen, fbuf) := pzr.processHeader fbuf false
    pzr.useHeader fbuf delivered packet_bodylen
  else
    -- header split across save and buf
    let bytes_needed : Int := HEADER_SIZE - savebuf.datalen
    let (bytes_put, savebuf, fbuf) :=
      savebuf.putFrom fbuf (toSize bytes_needed)
    if bytes_put = 0 then
      .leave (-1, ⟨{ pzr with savebuf := savebuf }, fbuf, delivered⟩)
    else
      let (_, savebuf) := savebuf.setIndex 0
      let (packet_bodylen, savebuf) := pzr.processHeader savebuf true
      useHeader { pzr with savebuf := savebuf } fbuf delivered
        packet_bodylen

/-- Want header, but too few bytes in the pipeline. -/
def saveHeader (state : Receiving) : Pass :=
  let ⟨pzr, fbuf, delivered⟩ := state
  let (_, savebuf) := pzr.savebuf.setIndex pzr.savebuf.datalen
  let (_, savebuf, fbuf) :=
    savebuf.putFrom fbuf EtchFlexbuffer.ETCH_FLEXBUF_PUT_ALL
  .again ⟨{ pzr with savebuf := savebuf }, fbuf, delivered⟩

/-- Need the body, and there are enough bytes in the pipeline. -/
def takeBody (session : Session) (state : Receiving) : Pass :=
  let ⟨pzr, fbuf, delivered⟩ := state
  let savebuf := pzr.savebuf
  if savebuf.datalen = 0 then
    -- saved buffer is empty, entire body is in fbuf
    let curlen := fbuf.datalen
    let curndx := fbuf.index
    let (_, exposed) := fbuf.setLength (curndx + pzr.bodylength)
    let fbuf := session.sessionPacket exposed
    let (_, fbuf) := fbuf.setLength curlen
    let (_, fbuf) := fbuf.setIndex (curndx + pzr.bodylength)
    .again
      ⟨{ pzr with is_wantheader := true }, fbuf,
        delivered ++ [exposed.unread]⟩
  else
    -- body is split across the save buffer and the input buffer
    let bytes_needed : Int := pzr.bodylength - savebuf.datalen
    let (bytes_put, savebuf, fbuf) :=
      savebuf.putFrom fbuf (toSize bytes_needed)
    if bytes_put = 0 then
      .leave (-1, ⟨{ pzr with savebuf := savebuf }, fbuf, delivered⟩)
    else
      let (_, exposed) := savebuf.setIndex 0
      let savebuf := (session.sessionPacket exposed).reset
      .again
        ⟨{ pzr with savebuf := savebuf, is_wantheader := true }, fbuf,
          delivered ++ [exposed.unread]⟩

/-- Need body, but too few bytes in the pipeline to complete it. -/
def saveBody (state : Receiving) : Pass :=
  let ⟨pzr, fbuf, delivered⟩ := state
  let (_, savebuf, fbuf) :=
    pzr.savebuf.putFrom fbuf EtchFlexbuffer.ETCH_FLEXBUF_PUT_ALL
  .again ⟨{ pzr with savebuf := savebuf }, fbuf, delivered⟩

/-- One pass over the loop of `session_data`. -/
def sessionDataPass (session : Session) (state : Receiving) : Pass :=
  let fbuf_avail := state.fbuf.avail
  if fbuf_avail = 0 then
    .leave (0, state)
  else
    let bytes_avail := state.pzr.savebuf.datalen + fbuf_avail
    if state.pzr.is_wantheader then
      if bytes_avail ≥ HEADER_SIZE then
        takeHeader state
      else
        saveHeader state
    else if bytes_avail ≥ state.pzr.bodylength then
      takeBody session state
    else
      saveBody state

end EtchPacketizer

end Etch.C
