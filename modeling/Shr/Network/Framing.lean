/-
Framing loses nothing, however the bytes are cut up on the way.
-/

import Shr.Network.Frames

namespace Shr
namespace Network

open Transmission (Source Sink)

def Outgoing.frame (hmac : Hmac) (outgoing : Outgoing) (fits : outgoing.payload.length < 2 ^ 32) :
    Frame :=
  { type := outgoing.code
    hmac := packetTag hmac outgoing.payload outgoing.hmacKey
    payload := outgoing.payload
    fits := fits }

theorem asking_frame {frame : Frame} (short : frame.payload.length < 2 ^ 31 - 41) :
    Transmission.Asking requestLength frame.bytes.length := by
  apply asking_requestLength
  rw [frame.bytes_length, headerSize]
  omega

theorem writeRaw_frame {frame : Frame} (short : frame.payload.length < 2 ^ 31 - 41)
    (conn : Sink UInt8) (accepting : ∀ call, conn.outcomes call ≠ none) :
    (writeRaw conn frame.bytes).1 = true ∧
      (writeRaw conn frame.bytes).2.accepted = conn.accepted ++ frame.bytes ∧
      (writeRaw conn frame.bytes).2.outcomes = conn.outcomes := by
  have ok := Sink.push_of_accepting frame.bytes conn (asking_frame short)
    fun call _later => accepting call
  exact ⟨ok, Sink.push_of_ok _ _ ok, Sink.push_outcomes _ _ _⟩

theorem readPackets_empty {conn : Source UInt8} (out : RawPacket) (empty : conn.incoming = []) :
    (readPackets conn out).1 = [] ∧ (readPackets conn out).2.incoming = [] := by
  have failed : (readPacket conn out).1 ≠ true := by
    intro ok
    have shorter := readPacket_shorter ok
    rw [empty] at shorter
    exact Nat.not_lt_zero _ shorter
  have left := readPacket_incoming_le conn out
  rw [empty, List.length_nil] at left
  rw [readPackets, dif_neg failed]
  exact ⟨rfl, List.length_eq_zero_iff.mp (Nat.le_zero.mp left)⟩

theorem readPackets_frame {conn : Source UInt8} {frame : Frame} {rest : Bytes} (out : RawPacket)
    (arrived : conn.incoming = frame.bytes ++ rest) :
    ∃ (later : Source UInt8) (next : RawPacket), later.incoming = rest ∧
      readPackets conn out =
        (frame.packet :: (readPackets later next).1, (readPackets later next).2) := by
  obtain ⟨ok, packet, left⟩ := readPacket_of_frame arrived out
  refine ⟨(readPacket conn out).2.2, (readPacket conn out).2.1, left, ?_⟩
  rw [readPackets, dif_pos ok, packet]

theorem readPackets_writePackets (hmac : Hmac) (outgoing : List Outgoing)
    (short : ∀ item ∈ outgoing, item.payload.length < 2 ^ 31 - 41) (sink : Sink UInt8)
    (accepting : ∀ call, sink.outcomes call ≠ none) :
    (writePackets hmac outgoing sink).1 = true ∧
      ∃ stream, (writePackets hmac outgoing sink).2.accepted = sink.accepted ++ stream ∧
        ∀ (source : Source UInt8) (out : RawPacket), source.incoming = stream →
          (readPackets source out).1 = outgoing.map Outgoing.packet ∧
            (readPackets source out).2.incoming = [] := by
  induction outgoing generalizing sink with
  | nil =>
      refine ⟨rfl, [], by simp [writePackets], ?_⟩
      intro source out empty
      exact readPackets_empty out empty
  | cons item rest ih =>
      have itemShort := short item List.mem_cons_self
      have fits : item.payload.length < 2 ^ 32 := by omega
      obtain ⟨ok, accepted, same⟩ :=
        @writeRaw_frame (item.frame hmac fits) itemShort sink accepting
      have written : serializePacket hmac (PacketType.ofCode item.code) item.payload
          item.hmacKey = (item.frame hmac fits).bytes :=
        serializePacket_eq hmac item.code item.payload item.hmacKey fits
      have further := ih (fun other member => short other (List.mem_cons_of_mem _ member))
        (writeRaw sink (item.frame hmac fits).bytes).2
        (fun call => by rw [same]; exact accepting call)
      obtain ⟨allOk, stream, allAccepted, read⟩ := further
      have step : writePackets hmac (item :: rest) sink =
          writePackets hmac rest (writeRaw sink (item.frame hmac fits).bytes).2 := by
        rw [writePackets, written]
        simp only
        rw [if_pos ok]
      rw [step]
      refine ⟨allOk, (item.frame hmac fits).bytes ++ stream, ?_, ?_⟩
      · rw [allAccepted, accepted, List.append_assoc]
      · intro source out arrived
        obtain ⟨later, next, left, packets⟩ := readPackets_frame out arrived
        obtain ⟨restRead, restLeft⟩ := read later next left
        rw [packets]
        refine ⟨?_, restLeft⟩
        rw [restRead]
        rfl

/-- `read_packet` succeeds exactly on the frames at the head of a stream. -/
theorem readPacket_iff (conn : Source UInt8) (out : RawPacket) (code : UInt8)
    (payload rest : Bytes) (fits : payload.length < 2 ^ 32) :
    ((readPacket conn out).1 = true ∧
        (readPacket conn out).2.1.toPacket =
          { type := PacketType.ofCode code, payload := payload } ∧
        (readPacket conn out).2.2.incoming = rest) ↔
      ∃ tag : Block 32, conn.incoming = ascii "SHR1" ++ [code] ++
        LittleEndian.bytes 4 payload.length ++ tag.val ++ payload ++ rest := by
  constructor
  · rintro ⟨ok, packet, left⟩
    obtain ⟨frame, arrived, read⟩ := readPacket_ok ok
    rw [read] at packet
    have type := PacketType.ofCode_injective (congrArg Packet.type packet)
    have same := congrArg Packet.payload packet
    simp only [Frame.packet] at same
    refine ⟨frame.hmac, ?_⟩
    rw [arrived, left, frame.bytes_eq, type, same]
  · rintro ⟨tag, arrived⟩
    have layout := Frame.bytes_eq
      { type := code
        hmac := tag
        payload := payload
        fits := fits }
    obtain ⟨ok, packet, left⟩ := readPacket_of_frame (arrived.trans (by rw [layout])) out
    exact ⟨ok, congrArg RawPacket.toPacket packet, left⟩

theorem hmac_serializePacket (hmac : Hmac) (type : PacketType) (payload key : Bytes)
    (some_key : key ≠ []) :
    ∃ header, parsePacketHeader (serializePacket hmac type payload (some key)) = some header ∧
      header.hmac = hmacSha256 hmac payload key := by
  refine ⟨_, parsePacketHeader_eq_some_iff.mpr ⟨rfl, List.prefix_append _ _⟩, ?_⟩
  simp only [packetTag]
  rw [if_pos (List.length_pos_iff.mpr some_key)]

end Network

open Transmission (Source Sink)

/-- Frames are read exactly as they are written, however the calls cut the bytes
into pieces, and a given key leaves its tag in the header. -/
theorem framing_lossless (hmac : Hmac) :
    (∀ (conn : Source UInt8) (out : RawPacket) (code : UInt8) (payload rest : Bytes),
      payload.length < 2 ^ 31 - 41 →
      (((Network.readPacket conn out).1 = true ∧
          (Network.readPacket conn out).2.1.toPacket =
            { type := PacketType.ofCode code, payload := payload } ∧
          (Network.readPacket conn out).2.2.incoming = rest) ↔
        ∃ tag : Block 32, conn.incoming = ascii "SHR1" ++ [code] ++
          LittleEndian.bytes 4 payload.length ++ tag.val ++ payload ++ rest)) ∧
    (∀ (outgoing : List Network.Outgoing),
      (∀ item ∈ outgoing, item.payload.length < 2 ^ 31 - 41) →
      ∀ (sink : Sink UInt8), (∀ call, sink.outcomes call ≠ none) →
        (Network.writePackets hmac outgoing sink).1 = true ∧
          ∃ stream,
            (Network.writePackets hmac outgoing sink).2.accepted = sink.accepted ++ stream ∧
            ∀ (source : Source UInt8) (out : RawPacket), source.incoming = stream →
              (Network.readPackets source out).1 = outgoing.map Network.Outgoing.packet ∧
                (Network.readPackets source out).2.incoming = []) ∧
    (∀ (type : PacketType) (payload key : Bytes), key ≠ [] →
      ∃ header, parsePacketHeader (serializePacket hmac type payload (some key)) = some header ∧
        header.hmac = hmacSha256 hmac payload key) := by
  refine ⟨?_, ?_, ?_⟩
  · intro conn out code payload rest short
    exact Network.readPacket_iff conn out code payload rest (by omega)
  · intro outgoing short sink accepting
    exact Network.readPackets_writePackets hmac outgoing short sink accepting
  · intro type payload key some_key
    exact Network.hmac_serializePacket hmac type payload key some_key

/-- Two packets, written one byte at a time. -/
theorem Reference.two_packets_framed :
    ∃ stream : Bytes, ∀ (source : Source UInt8) (out : RawPacket), source.incoming = stream →
      (Network.readPackets source out).1 =
          [{ type := .ping, payload := [1, 2] }, { type := .unnamed 0x77, payload := [] }] ∧
        (Network.readPackets source out).2.incoming = [] := by
  have framed := (framing_lossless fun _key _length _data => zeroTag).2.1
    [{ code := 0x40, payload := [1, 2], hmacKey := some [7] },
      { code := 0x77, payload := [], hmacKey := none }] (by decide)
    { accepted := []
      outcomes := fun _call => some 1
      calls := 0 } (by simp)
  obtain ⟨_ok, stream, _accepted, read⟩ := framed
  exact ⟨stream, read⟩

end Shr
