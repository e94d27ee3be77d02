/-
Serving one accepted connection, after `Network::handle_conn`.

A handler is what it makes of the rest of the node and of what it sends back;
it does not read from the connection.  The packet being read is one buffer that
is used again for every packet.
-/

import Shr.Network.Frames

namespace Shr

open Transmission (Source)

/-! ### The loop -/

inductive ConnEvent where
  | handled (packet : RawPacket)
  | closed
deriving DecidableEq

abbrev Handlers (σ : Type) := PacketType → Option (RawPacket → σ → σ)

/-- The types after which the loop is left. -/
def PacketType.EndsConn (type : PacketType) : Prop :=
  type = .fileComplete ∨ type = .msgAck ∨ type = .pong ∨ type = .error

instance (type : PacketType) : Decidable type.EndsConn :=
  inferInstanceAs (Decidable (_ ∨ _))

namespace Network

section HandleConn

variable {σ : Type} (handlers : Handlers σ)

def dispatch (packet : RawPacket) (world : σ) : List ConnEvent × σ :=
  match handlers packet.type with
  | none => ([], world)
  | some handler => ([.handled packet], handler packet world)

/-- `while (true)` -/
def serve (conn : Source UInt8) (pkt : RawPacket) (world : σ) : List ConnEvent × σ :=
  if _ok : (readPacket conn pkt).1 = true then
    let conn' := (readPacket conn pkt).2.2
    let pkt' := (readPacket conn pkt).2.1
    let (events, world) := dispatch handlers pkt' world
    if pkt'.type.EndsConn then (events, world)
    else
      let (later, world) := serve conn' pkt' world
      (events ++ later, world)
  else ([], world)
termination_by conn.incoming.length
decreasing_by exact readPacket_shorter _ok

/-- The type of a fresh packet is not read before it is set. -/
def freshPacket (peerIp : Bytes) : RawPacket :=
  { type := .unnamed 0
    payload := []
    peerIp := peerIp }

def handleConn (conn : Source UInt8) (peerIp : Bytes) (world : σ) : List ConnEvent × σ :=
  let (events, world) := serve handlers conn (freshPacket peerIp) world
  (events ++ [.closed], world)

end HandleConn

end Network

/-! ### Streams as sequences of frames -/

def framesBytes (frames : List Frame) : Bytes :=
  frames.flatMap Frame.bytes

/-- `frames` is the longest sequence of complete frames that starts the stream,
and `rest` is what follows it. -/
structure LongestFrames (stream : Bytes) (frames : List Frame) (rest : Bytes) : Prop where
  splits : stream = framesBytes frames ++ rest
  longest : ∀ (others : List Frame) (after : Bytes),
    stream = framesBytes others ++ after → others <+: frames

theorem LongestFrames.of_stuck {stream : Bytes} {frames : List Frame} {rest : Bytes}
    (splits : stream = framesBytes frames ++ rest)
    (stuck : ∀ (frame : Frame) (after : Bytes), rest ≠ frame.bytes ++ after) :
    LongestFrames stream frames rest := by
  refine ⟨splits, ?_⟩
  induction frames generalizing stream with
  | nil =>
      intro others after same
      cases others with
      | nil => exact List.prefix_rfl
      | cons frame others =>
          rw [splits] at same
          simp only [framesBytes, List.flatMap_nil, List.nil_append, List.flatMap_cons,
            List.append_assoc] at same
          exact absurd same (stuck frame _)
  | cons frame frames ih =>
      intro others after same
      cases others with
      | nil => exact List.nil_prefix
      | cons other others =>
          rw [splits] at same
          simp only [framesBytes, List.flatMap_cons, List.append_assoc] at same
          obtain ⟨sameFrame, sameRest⟩ := Frame.bytes_injective same
          rw [sameFrame]
          exact List.prefix_cons_inj other |>.mpr (ih rfl others after sameRest)

theorem LongestFrames.stuck {stream : Bytes} {frames : List Frame} {rest : Bytes}
    (parse : LongestFrames stream frames rest) (frame : Frame) (after : Bytes) :
    rest ≠ frame.bytes ++ after := by
  intro begins
  have longer := parse.longest (frames ++ [frame]) after (by
    rw [parse.splits, begins]
    simp [framesBytes])
  have length := longer.length_le
  rw [List.length_append, List.length_singleton] at length
  omega

theorem LongestFrames.tail {stream : Bytes} {frame : Frame} {frames : List Frame} {rest : Bytes}
    (parse : LongestFrames stream (frame :: frames) rest) :
    LongestFrames (framesBytes frames ++ rest) frames rest :=
  LongestFrames.of_stuck rfl parse.stuck

theorem exists_longestFrames (stream : Bytes) :
    ∃ frames rest, LongestFrames stream frames rest := by
  induction size : stream.length using Nat.strong_induction_on generalizing stream with
  | _ length ih =>
      by_cases begins : ∃ (frame : Frame) (after : Bytes), stream = frame.bytes ++ after
      · obtain ⟨frame, after, whole⟩ := begins
        have shorter : after.length < length := by
          rw [← size, whole, List.length_append, frame.bytes_length, headerSize]
          omega
        obtain ⟨frames, rest, parse⟩ := ih after.length shorter after rfl
        refine ⟨frame :: frames, rest, LongestFrames.of_stuck ?_ parse.stuck⟩
        rw [whole, parse.splits]
        simp [framesBytes]
      · refine ⟨[], stream, LongestFrames.of_stuck rfl ?_⟩
        intro frame after whole
        exact begins ⟨frame, after, whole⟩

theorem Frame.cut_off {frame : Frame} {count : Nat} (short : count < frame.bytes.length)
    (other : Frame) (after : Bytes) : frame.bytes.take count ≠ other.bytes ++ after := by
  intro begins
  have whole : frame.bytes ++ [] = other.bytes ++ (after ++ frame.bytes.drop count) := by
    rw [List.append_nil, ← List.append_assoc, ← begins, List.take_append_drop]
  obtain ⟨_same, left⟩ := Frame.bytes_injective whole
  have nothing := (List.append_eq_nil_iff.mp left.symm).2
  have length := congrArg List.length nothing
  rw [List.length_drop, List.length_nil] at length
  omega

/-! ### What is dispatched -/

/-- Frames up to the first after which the loop is left. -/
def cutFrames : List Frame → List Frame
  | [] => []
  | frame :: rest =>
      if frame.packet.type.EndsConn then [frame] else frame :: cutFrames rest

def Frame.received (peerIp : Bytes) (frame : Frame) : RawPacket :=
  { frame.packet with peerIp := peerIp }

def registered {σ : Type} (handlers : Handlers σ) (frames : List Frame) : List Frame :=
  frames.filter fun frame => (handlers frame.packet.type).isSome

/-- What the handlers make of the node, each called on its packet, one packet after
the other. -/
def handleAll {σ : Type} (handlers : Handlers σ) : List RawPacket → σ → σ
  | [], world => world
  | packet :: rest, world =>
      match handlers packet.type with
      | some handler => handleAll handlers rest (handler packet world)
      | none => handleAll handlers rest world

namespace Network

section Serve

variable {σ : Type} {handlers : Handlers σ}

theorem serve_frame {conn : Source UInt8} {frame : Frame} {rest : Bytes} {pkt : RawPacket}
    (arrived : conn.incoming = frame.bytes ++ rest) (world : σ) :
    ∃ later : Source UInt8, later.incoming = rest ∧
      serve handlers conn pkt world =
        if frame.packet.type.EndsConn then
          dispatch handlers (frame.received pkt.peerIp) world
        else
          ((dispatch handlers (frame.received pkt.peerIp) world).1 ++
              (serve handlers later (frame.received pkt.peerIp)
                (dispatch handlers (frame.received pkt.peerIp) world).2).1,
            (serve handlers later (frame.received pkt.peerIp)
              (dispatch handlers (frame.received pkt.peerIp) world).2).2) := by
  obtain ⟨ok, packet, left⟩ := readPacket_of_frame arrived pkt
  refine ⟨(readPacket conn pkt).2.2, left, ?_⟩
  rw [serve, dif_pos ok, packet]
  rfl

theorem serve_stuck {conn : Source UInt8} {pkt : RawPacket} (world : σ)
    (stuck : ∀ (frame : Frame) (after : Bytes), conn.incoming ≠ frame.bytes ++ after) :
    serve handlers conn pkt world = ([], world) := by
  rw [serve, dif_neg]
  intro ok
  obtain ⟨frame, arrived, _packet⟩ := readPacket_ok ok
  exact stuck frame _ arrived

theorem serve_single {conn : Source UInt8} {frame : Frame} (pkt : RawPacket) (world : σ)
    (arrived : conn.incoming = frame.bytes) :
    (serve handlers conn pkt world).2 =
      (dispatch handlers (frame.received pkt.peerIp) world).2 := by
  have whole : conn.incoming = frame.bytes ++ [] := by
    rw [arrived, List.append_nil]
  obtain ⟨later, left, serving⟩ := @serve_frame _ handlers _ _ _ pkt whole world
  rw [serving]
  split
  next => rfl
  next =>
      rw [serve_stuck]
      intro other after begins
      have length := congrArg List.length begins
      rw [left, List.length_nil, List.length_append, other.bytes_length, headerSize] at length
      omega

theorem dispatch_events (packet : RawPacket) (world : σ) :
    (dispatch handlers packet world).1 =
      if (handlers packet.type).isSome then [.handled packet] else [] := by
  unfold dispatch
  cases handlers packet.type <;> rfl

theorem dispatch_unregistered {packet : RawPacket}
    (none_registered : ¬(handlers packet.type).isSome) (world : σ) : (dispatch handlers packet world).2 = world := by
  unfold dispatch
  cases found : handlers packet.type with
  | none => rfl
  | some handler =>
      rw [found] at none_registered
      exact absurd rfl none_registered

theorem handleAll_cons (packet : RawPacket) (rest : List RawPacket) (world : σ) :
    handleAll handlers (packet :: rest) world =
      handleAll handlers rest (dispatch handlers packet world).2 := by
  rw [handleAll, dispatch]
  cases handlers packet.type <;> rfl

theorem dispatch_cons (peerIp : Bytes) (frame : Frame) (frames : List Frame) (world : σ) :
    ((registered handlers (frame :: frames)).map (Frame.received peerIp)).map
          ConnEvent.handled =
        (dispatch handlers (frame.received peerIp) world).1 ++
          ((registered handlers frames).map (Frame.received peerIp)).map ConnEvent.handled ∧
      handleAll handlers
          ((registered handlers (frame :: frames)).map (Frame.received peerIp)) world =
        handleAll handlers ((registered handlers frames).map (Frame.received peerIp))
          (dispatch handlers (frame.received peerIp) world).2 := by
  have events := @dispatch_events _ handlers (frame.received peerIp) world
  have type : (frame.received peerIp).type = frame.packet.type := rfl
  rw [type] at events
  rw [events]
  by_cases found : (handlers frame.packet.type).isSome = true
  · have kept : registered handlers (frame :: frames) = frame :: registered handlers frames := by
      unfold registered
      exact List.filter_cons_of_pos found
    rw [if_pos found, kept]
    exact ⟨rfl, handleAll_cons _ _ world⟩
  · have skipped : registered handlers (frame :: frames) = registered handlers frames := by
      unfold registered
      exact List.filter_cons_of_neg found
    rw [if_neg found, skipped,
      @dispatch_unregistered _ handlers (frame.received peerIp) found]
    exact ⟨rfl, rfl⟩

/-- The loop works through the frames of the stream up to the cut. -/
theorem serve_eq {frames : List Frame} {rest : Bytes} (conn : Source UInt8) (pkt : RawPacket)
    (world : σ) (parse : LongestFrames conn.incoming frames rest) :
    serve handlers conn pkt world =
      (((registered handlers (cutFrames frames)).map (Frame.received pkt.peerIp)).map
          ConnEvent.handled,
        handleAll handlers
          ((registered handlers (cutFrames frames)).map (Frame.received pkt.peerIp)) world) := by
  induction frames generalizing conn pkt world with
  | nil =>
      apply serve_stuck
      intro frame after begins
      have splits := parse.splits
      simp only [framesBytes, List.flatMap_nil, List.nil_append] at splits
      exact parse.stuck frame after (splits ▸ begins)
  | cons frame frames ih =>
      have splits : conn.incoming = frame.bytes ++ (framesBytes frames ++ rest) := by
        rw [parse.splits]
        simp [framesBytes]
      obtain ⟨later, left, serving⟩ := @serve_frame _ handlers _ _ _ pkt splits world
      rw [serving, cutFrames]
      split
      next =>
          obtain ⟨events, after⟩ := @dispatch_cons _ handlers pkt.peerIp frame [] world
          rw [events, after]
          simp [registered, handleAll]
      next =>
          obtain ⟨events, after⟩ := @dispatch_cons _ handlers pkt.peerIp frame
            (cutFrames frames) world
          rw [events, after, ih later _ _ (left ▸ parse.tail)]
          rfl

end Serve

end Network

/-- A connection hands its handlers the packets of the longest sequence of
complete frames that arrives, cut after the first that ends it, and is closed
once. -/
theorem handleConn_dispatches {σ : Type} (handlers : Handlers σ) (conn : Source UInt8)
    (peerIp : Bytes) (world : σ) :
    ∃ frames rest, LongestFrames conn.incoming frames rest ∧
      Network.handleConn handlers conn peerIp world =
        (((registered handlers (cutFrames frames)).map
            fun frame => ConnEvent.handled (frame.received peerIp)) ++ [.closed],
          handleAll handlers
            ((registered handlers (cutFrames frames)).map (Frame.received peerIp)) world) := by
  obtain ⟨frames, rest, parse⟩ := exists_longestFrames conn.incoming
  refine ⟨frames, rest, parse, ?_⟩
  rw [Network.handleConn, Network.serve_eq conn _ world parse, List.map_map]
  rfl

end Shr
