/-
The lengths that reach the calls of the system.

The size of a payload is narrowed to 32 bits in the header, and what remains of
a transfer is narrowed to an `int` on its way to `::send` and `::recv`.
-/

import Shr.Library.Requests
import Shr.Network.Frames

namespace Shr

open Transmission (Source Sink Request)

/-! ### One request -/

/-- An `int` holds a length of less than 31 bits, and no other length survives
the two conversions. -/
theorem requestLength_within_iff {remaining : Nat} (some_left : 0 < remaining)
    (fits : remaining < 2 ^ 32) :
    Request.Within
        { remaining := remaining
          limit := requestLength remaining } ↔
      remaining < 2 ^ 31 := by
  constructor
  · intro within
    obtain ⟨_positive, bounded⟩ := within
    by_contra large
    have word : castInt remaining = (remaining : Int).bmod (2 ^ 32) := Int32.toInt_ofNat
    unfold requestLength UInt64.ofInt at bounded
    rw [word, UInt64.toNat_ofNat', Int.bmod] at bounded
    simp only at bounded
    split at bounded <;> omega
  · intro small
    refine ⟨requestLength_pos some_left fits, Nat.le_of_eq ?_⟩
    exact requestLength_of_lt small

theorem within_of_asks {length : Nat} (small : length < 2 ^ 31) {call : Request}
    (asks : Transmission.Asks requestLength length call) : call.Within := by
  obtain ⟨some_left, inside, limit⟩ := asks
  obtain ⟨remaining, asked⟩ := call
  simp only at some_left inside limit
  subst limit
  exact (requestLength_within_iff some_left (by omega)).mpr (by omega)

namespace Network

/-! ### The header -/

def PayloadLenKept (hmac : Hmac) (type : PacketType) (payload : Bytes)
    (hmacKey : Option Bytes) : Prop :=
  ∃ header, parsePacketHeader (serializePacket hmac type payload hmacKey) = some header ∧
    header.payloadLen.toNat = payload.length

theorem payloadLenKept_iff (hmac : Hmac) (type : PacketType) (payload : Bytes)
    (hmacKey : Option Bytes) :
    PayloadLenKept hmac type payload hmacKey ↔ payload.length < 2 ^ 32 := by
  have parsed : parsePacketHeader (serializePacket hmac type payload hmacKey) = some
      { magic := ⟨shrProtocolMagic, shrProtocolMagic_length⟩
        type := type.code
        payloadLen := UInt32.ofNat payload.length
        hmac := packetTag hmac payload hmacKey } :=
    parsePacketHeader_eq_some_iff.mpr ⟨rfl, List.prefix_append _ _⟩
  constructor
  · intro kept
    obtain ⟨header, same, length⟩ := kept
    rw [parsed] at same
    cases same
    rw [← length]
    exact UInt32.toNat_lt _
  · intro fits
    exact ⟨_, parsed, UInt32.toNat_ofNat_of_lt' fits⟩

/-! ### Sending -/

/-- Every `::send` of `write_raw` is given a sound length, whatever the calls
before it accepted. -/
def SendsWithin (data : Bytes) : Prop :=
  ∀ conn : Sink UInt8, ∀ call ∈ conn.requests requestLength data, call.Within

theorem writeRaw_calls (conn : Sink UInt8) (data : Bytes) :
    (writeRaw conn data).2.calls =
      conn.calls + (conn.requests requestLength data).length :=
  Sink.push_calls data conn

theorem sendsWithin_iff (data : Bytes) : SendsWithin data ↔ data.length < 2 ^ 31 := by
  constructor
  · intro within
    by_contra large
    have calls := within
      { accepted := []
        outcomes := fun _call => some 1
        calls := 0 }
    have reached := @Sink.slow_requests UInt8 requestLength data _ rfl (2 ^ 31) (by omega)
      (by omega) (fun call member => (calls call member).1)
    have small := (requestLength_within_iff (by omega) (by omega)).mp (calls _ reached)
    omega
  · intro small conn call member
    exact within_of_asks small (Sink.requests_asks data conn call member)

/-! ### Receiving -/

def acceptedHeader (conn : Source UInt8) : Option PacketHeader :=
  if (readRaw conn headerSize).1 then parsePacketHeader (readRaw conn headerSize).2.1 else none

/-- The calls of `::recv` that `read_packet` makes for the payload. -/
def payloadRequests (conn : Source UInt8) : List Request :=
  match acceptedHeader conn with
  | none => []
  | some header =>
      (readRaw conn headerSize).2.2.requests requestLength header.payloadLen.toNat

def readPacketRequests (conn : Source UInt8) : List Request :=
  conn.requests requestLength headerSize ++ payloadRequests conn

theorem readPacket_calls (conn : Source UInt8) (out : RawPacket) :
    (readPacket conn out).2.2.calls = conn.calls + (readPacketRequests conn).length := by
  have first := @Source.fill_calls UInt8 requestLength headerSize conn
  unfold readPacket readPacketRequests payloadRequests acceptedHeader readRaw
  rcases received : conn.fill requestLength headerSize with ⟨ok, buf, later⟩
  rw [received] at first
  simp only at first ⊢
  cases ok with
  | false => simpa using first
  | true =>
      simp only [Bool.true_eq_false, if_false, if_true]
      cases parsePacketHeader buf with
      | none => simpa using first
      | some header =>
          have second := @Source.fill_calls UInt8 requestLength header.payloadLen.toNat later
          simp only [List.length_append]
          split
          next => rw [second, first, Nat.add_assoc]
          next nothing =>
              rw [Nat.eq_zero_of_not_pos nothing, Source.requests_zero, first]
              rfl

def ReceivesWithin (conn : Source UInt8) : Prop :=
  ∀ call ∈ readPacketRequests conn, call.Within

theorem receivesWithin_iff (conn : Source UInt8) :
    ReceivesWithin conn ↔
      ∀ header, acceptedHeader conn = some header → header.payloadLen.toNat < 2 ^ 31 := by
  constructor
  · intro within header accepted
    by_contra large
    have fits := header.payloadLen.toNat_lt
    have asked : { remaining := header.payloadLen.toNat
                   limit := requestLength header.payloadLen.toNat } ∈ payloadRequests conn := by
      unfold payloadRequests
      rw [accepted]
      exact Source.mem_requests_self (by omega) _
    have call := within _ (List.mem_append_right _ asked)
    exact large ((requestLength_within_iff (by omega) fits).mp call)
  · intro small call member
    rcases List.mem_append.mp member with first | second
    · exact within_of_asks (by decide) (Source.requests_asks headerSize conn call first)
    · unfold payloadRequests at second
      cases accepted : acceptedHeader conn with
      | none =>
          rw [accepted] at second
          cases second
      | some header =>
          rw [accepted] at second
          exact within_of_asks (small header accepted)
            (Source.requests_asks header.payloadLen.toNat _ call second)

end Network

open Network in
/-- Lengths survive their conversions exactly for payloads of less than 2^32
bytes in the header, for frames of less than 2^31 bytes when they are sent, and
for headers that declare less than 2^31 bytes when they are read. -/
theorem lengths_survive_iff (hmac : Hmac) :
    (∀ (type : PacketType) (payload : Bytes) (hmacKey : Option Bytes),
      PayloadLenKept hmac type payload hmacKey ↔ payload.length < 2 ^ 32) ∧
    (∀ data : Bytes, SendsWithin data ↔ data.length < 2 ^ 31) ∧
    (∀ conn : Source UInt8, ReceivesWithin conn ↔
      ∀ header, acceptedHeader conn = some header → header.payloadLen.toNat < 2 ^ 31) :=
  ⟨payloadLenKept_iff hmac, sendsWithin_iff, receivesWithin_iff⟩

namespace Network
namespace Reference

def largeHeader : PacketHeader :=
  { magic := ⟨shrProtocolMagic, shrProtocolMagic_length⟩
    type := PacketType.fileChunk.code
    payloadLen := 0x80000000
    hmac := zeroTag }

def largeArrives : Source UInt8 :=
  { incoming := largeHeader.bytes
    wishes := fun _call => headerSize
    calls := 0 }

theorem largeArrives_accepted : acceptedHeader largeArrives = some largeHeader := by
  have read := @readRaw_of_le largeArrives headerSize (by decide) (by decide)
  unfold acceptedHeader
  rw [read.1, read.2.1, if_pos rfl]
  exact parsePacketHeader_eq_some_iff.mpr ⟨rfl, List.prefix_rfl⟩

/-- A peer that declares 2^31 bytes makes `::recv` write past the buffer. -/
theorem large_header_overruns : ¬∀ conn : Source UInt8, ReceivesWithin conn := by
  intro within
  have small := (receivesWithin_iff largeArrives).mp (within largeArrives) largeHeader
    largeArrives_accepted
  revert small
  decide

end Reference
end Network

end Shr
