/-
The tag of a packet protects nothing: no reader looks at it.
-/

import Shr.Network.Connection

namespace Shr

open Transmission (Source)

/-- A serialized packet with any tag in place of its own. -/
def taggedPacket (type : PacketType) (payload : Bytes) (tag : Block 32) : Bytes :=
  let header : PacketHeader :=
    { magic := ⟨shrProtocolMagic, shrProtocolMagic_length⟩
      type := type.code
      payloadLen := UInt32.ofNat payload.length
      hmac := tag }
  header.bytes ++ payload

theorem serializePacket_eq_tagged (hmac : Hmac) (type : PacketType) (payload : Bytes)
    (hmacKey : Option Bytes) :
    serializePacket hmac type payload hmacKey =
      taggedPacket type payload (packetTag hmac payload hmacKey) :=
  rfl

/-- As much of a payload as the length field of its packet announces. -/
def announced (payload : Bytes) : Bytes :=
  payload.take (payload.length % 2 ^ 32)

theorem announced_length (payload : Bytes) :
    (announced payload).length = payload.length % 2 ^ 32 := by
  unfold announced
  rw [List.length_take]
  exact Nat.min_eq_left (Nat.mod_le _ _)

def taggedFrame (code : UInt8) (payload : Bytes) (tag : Block 32) : Frame :=
  { type := code
    hmac := tag
    payload := announced payload
    fits := by
      rw [announced_length]
      exact Nat.mod_lt _ (by decide) }

theorem taggedPacket_eq (code : UInt8) (payload : Bytes) (tag : Block 32) :
    taggedPacket (PacketType.ofCode code) payload tag =
      (taggedFrame code payload tag).bytes ++ payload.drop (payload.length % 2 ^ 32) := by
  have length : UInt32.ofNat (payload.length % 2 ^ 32) = UInt32.ofNat payload.length := by
    apply UInt32.toNat_inj.mp
    rw [UInt32.toNat_ofNat', UInt32.toNat_ofNat']
    omega
  have whole : payload = announced payload ++ payload.drop (payload.length % 2 ^ 32) :=
    (List.take_append_drop _ payload).symm
  simp only [taggedPacket, Frame.bytes, Frame.header, taggedFrame, PacketType.code_ofCode]
  rw [announced_length, length, List.append_assoc, ← whole]

/-- A connection on which a stream arrives, cut into pieces by `wishes`. -/
def arriving (stream : Bytes) (wishes : Nat → Nat) : Source UInt8 :=
  { incoming := stream
    wishes := wishes
    calls := 0 }

namespace Network

theorem readPacket_tagged (code : UInt8) (payload : Bytes) (tag : Block 32) (rest : Bytes)
    (wishes : Nat → Nat) (out : RawPacket) :
    (readPacket (arriving (taggedPacket (PacketType.ofCode code) payload tag ++ rest) wishes)
        out).1 = true ∧
      (readPacket (arriving (taggedPacket (PacketType.ofCode code) payload tag ++ rest) wishes)
          out).2.1 =
        { type := PacketType.ofCode code
          payload := announced payload
          peerIp := out.peerIp } := by
  have arrived : (arriving (taggedPacket (PacketType.ofCode code) payload tag ++ rest)
        wishes).incoming =
      (taggedFrame code payload tag).bytes ++
        (payload.drop (payload.length % 2 ^ 32) ++ rest) := by
    rw [arriving, taggedPacket_eq, List.append_assoc]
  obtain ⟨ok, packet, _left⟩ := readPacket_of_frame arrived out
  exact ⟨ok, packet⟩

section Serving

variable {σ : Type} (handlers : Handlers σ)

theorem serve_tagged (code : UInt8) (payload : Bytes) (tag : Block 32) (rest : Bytes)
    (wishes : Nat → Nat) (pkt : RawPacket) (world : σ)
    (found : (handlers (PacketType.ofCode code)).isSome) :
    .handled
        { type := PacketType.ofCode code
          payload := announced payload
          peerIp := pkt.peerIp } ∈
      (serve handlers (arriving (taggedPacket (PacketType.ofCode code) payload tag ++ rest) wishes)
        pkt world).1 := by
  have arrived : (arriving (taggedPacket (PacketType.ofCode code) payload tag ++ rest)
        wishes).incoming =
      (taggedFrame code payload tag).bytes ++
        (payload.drop (payload.length % 2 ^ 32) ++ rest) := by
    rw [arriving, taggedPacket_eq, List.append_assoc]
  obtain ⟨later, _left, serving⟩ := @serve_frame _ handlers _ _ _ pkt arrived world
  have events := @dispatch_events _ handlers
    ((taggedFrame code payload tag).received pkt.peerIp) world
  have type : ((taggedFrame code payload tag).received pkt.peerIp).type =
      PacketType.ofCode code := rfl
  rw [type, if_pos found] at events
  rw [serving]
  split
  next =>
      rw [events]
      exact List.mem_singleton.mpr rfl
  next =>
      rw [events]
      exact List.mem_append_left _ (List.mem_singleton.mpr rfl)

theorem received_cons (peerIp : Bytes) {frame other : Frame} {frames others : List Frame}
    (packet : frame.packet = other.packet)
    (rest : (registered handlers frames).map (Frame.received peerIp) =
      (registered handlers others).map (Frame.received peerIp)) :
    (registered handlers (frame :: frames)).map (Frame.received peerIp) =
      (registered handlers (other :: others)).map (Frame.received peerIp) := by
  have received : frame.received peerIp = other.received peerIp := by
    rw [Frame.received, Frame.received, packet]
  unfold registered at rest ⊢
  rw [List.filter_cons, List.filter_cons, packet]
  split
  next => rw [List.map_cons, List.map_cons, received, rest]
  next => exact rest

theorem received_congr (peerIp : Bytes) (frames others : List Frame)
    (same : frames.map Frame.packet = others.map Frame.packet) :
    (registered handlers (cutFrames frames)).map (Frame.received peerIp) =
      (registered handlers (cutFrames others)).map (Frame.received peerIp) := by
  induction frames generalizing others with
  | nil =>
      have none_left : others = [] := List.map_eq_nil_iff.mp same.symm
      rw [none_left]
  | cons frame frames ih =>
      cases others with
      | nil => cases same
      | cons other others =>
          rw [List.map_cons, List.map_cons] at same
          obtain ⟨packet, packets⟩ := List.cons.inj same
          rw [cutFrames, cutFrames, packet]
          split
          next => exact received_cons handlers peerIp packet rfl
          next => exact received_cons handlers peerIp packet (ih others packets)

theorem serve_retagged (frames others : List Frame) (rest : Bytes)
    (same : frames.map Frame.packet = others.map Frame.packet) (one other : Source UInt8)
    (oneArrives : one.incoming = framesBytes frames ++ rest)
    (otherArrives : other.incoming = framesBytes others ++ rest) (pkt : RawPacket) (world : σ) :
    serve handlers one pkt world = serve handlers other pkt world := by
  obtain ⟨further, last, parse⟩ := exists_longestFrames rest
  have split : ∀ frames : List Frame,
      framesBytes frames ++ rest = framesBytes (frames ++ further) ++ last := by
    intro frames
    rw [parse.splits]
    simp [framesBytes]
  have packets : (frames ++ further).map Frame.packet = (others ++ further).map Frame.packet := by
    rw [List.map_append, List.map_append, same]
  have oneParse := LongestFrames.of_stuck (oneArrives.trans (split frames)) parse.stuck
  have otherParse := LongestFrames.of_stuck (otherArrives.trans (split others)) parse.stuck
  rw [serve_eq one pkt world oneParse, serve_eq other pkt world otherParse,
    received_congr handlers pkt.peerIp _ _ packets]

end Serving

end Network

/-- No reader tells packets apart by their tags.  Whatever the payload and the
tag, a packet is accepted and its handler is called, and streams whose frames
carry the same packets under different tags are served alike. -/
theorem tags_never_checked {σ : Type} (handlers : Handlers σ) (out : RawPacket) (peerIp : Bytes)
    (world : σ) (oneWishes otherWishes : Nat → Nat) :
    (∀ (code : UInt8) (payload : Bytes) (first second : Block 32) (rest : Bytes),
      (Network.readPacket (arriving
          (taggedPacket (PacketType.ofCode code) payload first ++ rest) oneWishes) out).1 = true ∧
        (Network.readPacket (arriving
          (taggedPacket (PacketType.ofCode code) payload second ++ rest) otherWishes) out).1 =
            true) ∧
      (∀ (code : UInt8) (payload : Bytes) (tag : Block 32) (rest : Bytes),
        (handlers (PacketType.ofCode code)).isSome →
        .handled
            { type := PacketType.ofCode code
              payload := announced payload
              peerIp := peerIp } ∈
          (Network.handleConn handlers (arriving
            (taggedPacket (PacketType.ofCode code) payload tag ++ rest) oneWishes)
            peerIp world).1) ∧
      ∀ (frames others : List Frame) (rest : Bytes),
        frames.map Frame.packet = others.map Frame.packet →
        Network.handleConn handlers (arriving (framesBytes frames ++ rest) oneWishes)
            peerIp world =
          Network.handleConn handlers (arriving (framesBytes others ++ rest) otherWishes)
            peerIp world := by
  refine ⟨?_, ?_, ?_⟩
  · intro code payload first second rest
    exact ⟨(Network.readPacket_tagged code payload first rest oneWishes out).1,
      (Network.readPacket_tagged code payload second rest otherWishes out).1⟩
  · intro code payload tag rest found
    exact List.mem_append_left _ (Network.serve_tagged handlers code payload tag rest oneWishes
      (Network.freshPacket peerIp) world found)
  · intro frames others rest same
    have served := Network.serve_retagged handlers frames others rest same
      (arriving (framesBytes frames ++ rest) oneWishes)
      (arriving (framesBytes others ++ rest) otherWishes) rfl rfl
      (Network.freshPacket peerIp) world
    rw [Network.handleConn, Network.handleConn, served]

/-- A `Ping` without a payload, once with a tag of zeros and once with another. -/
theorem Reference.two_tags_accepted :
    ¬∀ (code : UInt8) (payload : Bytes) (first second : Block 32), first ≠ second →
      ∀ (wishes : Nat → Nat) (out : RawPacket),
        ¬((Network.readPacket (arriving
            (taggedPacket (PacketType.ofCode code) payload first) wishes) out).1 = true ∧
          (Network.readPacket (arriving
            (taggedPacket (PacketType.ofCode code) payload second) wishes) out).1 = true) := by
  intro authenticated
  have differ : zeroTag ≠ ⟨List.replicate 32 1, List.length_replicate⟩ := by decide
  have first := Network.readPacket_tagged 0x40 [] zeroTag []
    (fun _call => 1) (Network.freshPacket [])
  have second := Network.readPacket_tagged 0x40 []
    ⟨List.replicate 32 1, List.length_replicate⟩ [] (fun _call => 1) (Network.freshPacket [])
  rw [List.append_nil] at first second
  exact authenticated 0x40 [] _ _ differ (fun _call => 1) (Network.freshPacket [])
    ⟨first.1, second.1⟩

end Shr
