import Etch.Library.BigEndian
import Etch.Library.Reassembly

/-!
# The packet header

Every binding puts the same eight bytes in front of a packet: the signature
`0xdeadbeef` and the length of the packet, both big-endian 32-bit integers.
The bindings read the length as a signed integer and differ only in the
lengths they accept.
-/

namespace Etch.Packet

open Etch.Library.BigEndian
open Etch.Library.Framing

def SIG : Nat := 0xdeadbeef

def HEADER_SIZE : Nat := 8

/-- The value of a 32-bit pattern read as a signed integer. -/
def signed32 (value : Nat) : Int :=
  if value < 2 ^ 31 then value else value - 2 ^ 32

theorem signed32_of_lt {value : Nat} (small : value < 2 ^ 31) :
    signed32 value = value :=
  if_pos small

/-- The header of a packet of `pktSize` bytes. -/
def header (pktSize : Nat) : List UInt8 :=
  toBytes 4 SIG ++ toBytes 4 pktSize

@[simp]
theorem length_header (pktSize : Nat) :
    (header pktSize).length = HEADER_SIZE := by
  simp [header, HEADER_SIZE]

/-- The length in a header with a good signature. -/
def pktSizeOf (bytes : List UInt8) : Option Int :=
  if ofBytes (bytes.take 4) = SIG then
    some (signed32 (ofBytes (bytes.drop 4)))
  else
    none

theorem pktSizeOf_header {pktSize : Nat} (small : pktSize < 2 ^ 31) :
    pktSizeOf (header pktSize) = some (pktSize : Int) := by
  have front : (header pktSize).take 4 = toBytes 4 SIG :=
    List.take_left' (length_toBytes 4 SIG)
  have back : (header pktSize).drop 4 = toBytes 4 pktSize :=
    List.drop_left' (length_toBytes 4 SIG)
  rw [pktSizeOf, front, back, ofBytes_toBytes_of_lt (by decide),
    ofBytes_toBytes_of_lt (by omega), if_pos rfl, signed32_of_lt small]

/-- A length from 2^31 on is read as another one. -/
theorem pktSizeOf_header_iff {pktSize : Nat} :
    pktSizeOf (header pktSize) = some (pktSize : Int) ↔
      pktSize < 2 ^ 31 := by
  refine ⟨fun read => ?_, pktSizeOf_header⟩
  have back : (header pktSize).drop 4 = toBytes 4 pktSize :=
    List.drop_left' (length_toBytes 4 SIG)
  have small : pktSize % 256 ^ 4 < 2 ^ 32 := Nat.mod_lt _ (by decide)
  unfold pktSizeOf at read
  split at read
  · rw [back, ofBytes_toBytes, Option.some_inj] at read
    unfold signed32 at read
    split at read <;> omega
  · exact nomatch read

/-- The header format of a receiver that takes the lengths `accepts`. -/
def headerFormat (accepts : Nat → Bool) : HeaderFormat UInt8 where
  size := HEADER_SIZE
  encode := header
  decode bytes :=
    match pktSizeOf bytes with
    | some (.ofNat pktSize) =>
        if accepts pktSize then some pktSize else none
    | _ => none
  Fits pktSize := pktSize < 2 ^ 31 ∧ accepts pktSize = true
  size_pos := by decide
  length_encode := length_header
  decode_encode := by
    rintro pktSize ⟨small, accepted⟩
    rw [pktSizeOf_header small]
    simp [accepted]

/-- What a receiver checks of a header. -/
theorem decode_eq_some_iff {accepts : Nat → Bool} {bytes : List UInt8}
    {pktSize : Nat} :
    (headerFormat accepts).decode bytes = some pktSize ↔
      ofBytes (bytes.take 4) = SIG ∧
      signed32 (ofBytes (bytes.drop 4)) = pktSize ∧
      accepts pktSize = true := by
  simp only [headerFormat, pktSizeOf]
  by_cases sig : ofBytes (bytes.take 4) = SIG
  · rw [if_pos sig]
    generalize signed32 (ofBytes (bytes.drop 4)) = word
    cases word with
    | ofNat size =>
        change (if accepts size = true then some size else none) =
          some pktSize ↔ _ ∧ (size : Int) = pktSize ∧ _
        rw [Nat.cast_inj]
        by_cases accepted : accepts size = true
        · rw [if_pos accepted, Option.some_inj]
          exact ⟨fun same => ⟨sig, same, same ▸ accepted⟩,
            fun found => found.2.1⟩
        · rw [if_neg accepted]
          refine ⟨(nomatch ·), ?_⟩
          rintro ⟨-, rfl, accepted'⟩
          exact absurd accepted' accepted
    | negSucc size =>
        refine ⟨(nomatch ·), ?_⟩
        rintro ⟨-, same, -⟩
        exact nomatch same
  · rw [if_neg sig]
    exact ⟨(nomatch ·), fun found => absurd found.1 sig⟩

/-- The stream of a sequence of packets. -/
def stream (packets : List (List UInt8)) : List UInt8 :=
  packets.flatMap fun packet => header packet.length ++ packet

@[simp]
theorem stream_cons (packet : List UInt8) (rest : List (List UInt8)) :
    stream (packet :: rest) =
      header packet.length ++ packet ++ stream rest := by
  simp [stream]

theorem length_stream_replicate (count : Nat) (packet : List UInt8) :
    (stream (List.replicate count packet)).length =
      count * (HEADER_SIZE + packet.length) := by
  simp [stream]

/--
Every packet longer than `limit` arrives within one chunk: no chunk ends
between the first and the last byte of such a packet.
-/
def ArrivesWhole (limit : Nat) (packets chunks : List (List UInt8)) :
    Prop :=
  ∀ later, later <:+ chunks →
    ¬ ∃ packet after, packet :: after <:+ packets ∧
      limit < packet.length ∧
      (stream after).length < later.flatten.length ∧
      later.flatten.length < packet.length + (stream after).length

theorem whole_headerFormat_iff {accepts : Nat → Bool} {limit : Nat}
    {packets chunks : List (List UInt8)} :
    (headerFormat accepts).Whole limit packets chunks ↔
      ArrivesWhole limit packets chunks :=
  Iff.rfl

/-- Packets within the limit may be cut anywhere. -/
theorem arrivesWhole_of_le {limit : Nat}
    {packets : List (List UInt8)} (chunks : List (List UInt8))
    (small : ∀ packet ∈ packets, packet.length ≤ limit) :
    ArrivesWhole limit packets chunks := by
  rintro later - ⟨packet, after, place, long, -⟩
  have := small packet (place.subset List.mem_cons_self)
  omega

end Etch.Packet
