/-
One connection, from its sender's calls to its receiver's handlers.

Whatever the program does after a send has failed, a connection that stays
broken has carried a beginning of all the frames.  So the handlers at the other
end get the packets that were sent, in order and unaltered, up to some point:
on the level of packets a connection is a queue that may be cut.
-/

import Shr.Network.Connection
import Shr.Network.Framing

namespace Shr

open Transmission (Source Sink)

/-! ### Packets and their frames -/

/-- A packet whose type is that of its byte, and whose payload `send` can take. -/
structure Packet.Wired (packet : Packet) : Prop where
  type : PacketType.ofCode packet.type.code = packet.type
  short : packet.payload.length < 2 ^ 31 - 41

/-- Packets up to the first after which the receiver leaves its loop. -/
def cutPackets : List Packet → List Packet
  | [] => []
  | packet :: rest => if packet.type.EndsConn then [packet] else packet :: cutPackets rest

theorem cutPackets_kept (packets : List Packet) : cutPackets packets <+: packets := by
  induction packets with
  | nil => exact List.prefix_rfl
  | cons packet rest ih =>
      unfold cutPackets
      split
      · exact (List.prefix_cons_inj packet).mpr List.nil_prefix
      · exact (List.prefix_cons_inj packet).mpr ih

theorem cutPackets_mono {few many : List Packet} (fewer : few <+: many) :
    cutPackets few <+: cutPackets many := by
  induction few generalizing many with
  | nil => exact List.nil_prefix
  | cons packet few ih =>
      obtain ⟨rest, whole⟩ := fewer
      rw [← whole, List.cons_append, cutPackets, cutPackets]
      split
      · exact List.prefix_rfl
      · exact (List.prefix_cons_inj packet).mpr (ih (List.prefix_append few rest))

theorem map_packet_cutFrames (frames : List Frame) :
    (cutFrames frames).map Frame.packet = cutPackets (frames.map Frame.packet) := by
  induction frames with
  | nil => rfl
  | cons frame rest ih =>
      unfold cutFrames
      rw [List.map_cons, cutPackets]
      split
      · rfl
      · rw [List.map_cons, ih]

namespace Network

/-- `send_packet_conn` for one packet after the other, whatever it returns. -/
def sendPackets (hmac : Hmac) (packets : List Packet) (conn : Sink UInt8) : Sink UInt8 :=
  packets.foldl (fun conn packet => (sendPacketConn hmac conn packet).2) conn

theorem sendPackets_eq (hmac : Hmac) (packets : List Packet) (conn : Sink UInt8) :
    sendPackets hmac packets conn =
      conn.pushAll requestLength
        (packets.map fun packet => serializePacket hmac packet.type packet.payload none) := by
  induction packets generalizing conn with
  | nil => rfl
  | cons packet rest ih => exact ih (sendPacketConn hmac conn packet).2

theorem exists_frames (hmac : Hmac) {packets : List Packet}
    (wired : ∀ packet ∈ packets, packet.Wired) :
    ∃ frames : List Frame, frames.map Frame.packet = packets ∧
      frames.map Frame.bytes =
        packets.map fun packet => serializePacket hmac packet.type packet.payload none := by
  induction packets with
  | nil => exact ⟨[], rfl, rfl⟩
  | cons packet rest ih =>
      have first := wired packet List.mem_cons_self
      have fits : packet.payload.length < 2 ^ 32 := by
        have short := first.short
        omega
      obtain ⟨frames, packets, bytes⟩ := ih fun other member =>
        wired other (List.mem_cons_of_mem packet member)
      have serialized := serializePacket_eq hmac packet.type.code packet.payload none fits
      rw [first.type] at serialized
      refine ⟨{ type := packet.type.code
                hmac := packetTag hmac packet.payload none
                payload := packet.payload
                fits := fits } :: frames, ?_, ?_⟩
      · rw [List.map_cons, packets, Frame.packet, first.type]
      · rw [List.map_cons, List.map_cons, bytes, serialized]

/-! ### Beginnings of a stream of frames -/

/-- What has arrived of a stream of frames begins with some of them, and no other
frame follows. -/
theorem longestFrames_of_prefix {frames : List Frame} {stream : Bytes}
    (carried : stream <+: framesBytes frames) :
    ∃ arrived rest, arrived <+: frames ∧ LongestFrames stream arrived rest ∧
      (stream = framesBytes frames → arrived = frames) := by
  induction frames generalizing stream with
  | nil =>
      have empty : stream = [] := List.prefix_nil.mp carried
      refine ⟨[], [], List.prefix_rfl, LongestFrames.of_stuck empty ?_, fun _whole => rfl⟩
      intro frame after begins
      have length := congrArg List.length begins
      rw [List.length_nil, List.length_append, frame.bytes_length, headerSize] at length
      omega
  | cons frame frames ih =>
      have flat : framesBytes (frame :: frames) = frame.bytes ++ framesBytes frames := rfl
      rw [flat] at carried
      by_cases enough : frame.bytes.length ≤ stream.length
      · have begins := List.prefix_of_prefix_length_le (List.prefix_append frame.bytes _) carried
          enough
        obtain ⟨later, whole⟩ := begins
        rw [← whole] at carried ⊢
        obtain ⟨arrived, rest, beginning, parse, all⟩ :=
          ih ((List.prefix_append_right_inj frame.bytes).mp carried)
        refine ⟨frame :: arrived, rest, (List.prefix_cons_inj frame).mpr beginning,
          LongestFrames.of_stuck ?_ parse.stuck, ?_⟩
        · rw [parse.splits]
          exact (List.append_assoc _ _ _).symm
        · intro everything
          rw [flat, List.append_cancel_left_eq] at everything
          rw [all everything]
      · have short : stream.length < frame.bytes.length := Nat.lt_of_not_le enough
        have cut : stream = frame.bytes.take stream.length := by
          have within := List.prefix_of_prefix_length_le carried (List.prefix_append _ _)
            (Nat.le_of_lt short)
          exact List.prefix_iff_eq_take.mp within
        refine ⟨[], stream, List.nil_prefix, LongestFrames.of_stuck rfl ?_, ?_⟩
        · rw [cut]
          exact Frame.cut_off short
        · intro everything
          have length := congrArg List.length everything
          rw [flat, List.length_append] at length
          omega

end Network

/-! ### What is dispatched -/

def Packet.received (peerIp : Bytes) (packet : Packet) : RawPacket :=
  { packet with peerIp := peerIp }

def handledPackets {σ : Type} (handlers : Handlers σ) (peerIp : Bytes) (packets : List Packet) :
    List RawPacket :=
  (packets.filter fun packet => (handlers packet.type).isSome).map (Packet.received peerIp)

theorem map_received_registered {σ : Type} (handlers : Handlers σ) (peerIp : Bytes)
    (frames : List Frame) :
    (registered handlers frames).map (Frame.received peerIp) =
      handledPackets handlers peerIp (frames.map Frame.packet) := by
  unfold registered handledPackets
  rw [List.filter_map, List.map_map]
  rfl

/-- What a connection that stays broken once a send has failed hands to the handlers
at its other end: a beginning of the packets that were sent on it, whatever was
sent after the failure, however the bytes were cut into pieces and wherever the
connection was cut off; and all up to the packet that ends it, if every byte
arrives. -/
theorem sent_dispatched {σ : Type} (hmac : Hmac) (handlers : Handlers σ)
    (packets : List Packet) (wired : ∀ packet ∈ packets, packet.Wired) (conn : Sink UInt8)
    (unused : conn.accepted = []) (broken : conn.StaysBroken) (arriving : Source UInt8)
    (carried : arriving.incoming <+: (Network.sendPackets hmac packets conn).accepted)
    (peerIp : Bytes) (world : σ) :
    ∃ dispatched, dispatched <+: cutPackets packets ∧
      Network.handleConn handlers arriving peerIp world =
        ((handledPackets handlers peerIp dispatched).map ConnEvent.handled ++ [.closed],
          handleAll handlers (handledPackets handlers peerIp dispatched) world) ∧
      (arriving.incoming = packets.flatMap (fun packet =>
          serializePacket hmac packet.type packet.payload none) →
        dispatched = cutPackets packets) := by
  obtain ⟨frames, sent, serialized⟩ := Network.exists_frames hmac wired
  have stream : packets.flatMap (fun packet =>
      serializePacket hmac packet.type packet.payload none) = framesBytes frames := by
    rw [List.flatMap_def, ← serialized, framesBytes, List.flatMap_def]
  have short (data : Bytes) (piece : data ∈ frames.map Frame.bytes) :
      Transmission.Asking requestLength data.length := by
    obtain ⟨frame, member, same⟩ := List.mem_map.mp piece
    have small := (wired frame.packet (sent ▸ List.mem_map_of_mem member)).short
    rw [← same]
    exact Network.asking_frame small
  obtain ⟨accepted, beginning, taken⟩ :=
    Sink.pushAll_accepted (frames.map Frame.bytes) conn broken short
  rw [Network.sendPackets_eq, ← serialized, taken, unused, List.nil_append] at carried
  rw [← List.flatMap_def] at beginning
  obtain ⟨arrived, rest, some_frames, parse, whole⟩ :=
    Network.longestFrames_of_prefix (carried.trans beginning)
  refine ⟨cutPackets (arrived.map Frame.packet), ?_, ?_, ?_⟩
  · rw [← sent]
    exact cutPackets_mono (some_frames.map Frame.packet)
  · have served := @Network.serve_eq _ handlers _ _ arriving (Network.freshPacket peerIp) world
      parse
    rw [Network.handleConn, served, map_received_registered, map_packet_cutFrames]
    rfl
  · intro everything
    rw [whole (everything.trans stream), sent]

end Shr
