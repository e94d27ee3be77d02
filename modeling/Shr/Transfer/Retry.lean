/-
Retrying a chunk, down to the bytes the connection accepts.

A failed attempt may have sent a part of its frame, and the next attempt starts
a whole frame behind it.
-/

import Shr.Network.Frames
import Shr.Reference
import Shr.Transfer.NodeRun

namespace Shr

open Transmission (Source Sink Accepts Breaks FirstTry Hopeless)

/-- The connection of a call next to its node: a packet is sent as its frame. -/
def SendOp.overConn (hmac : Hmac) (answer : Answer) :
    (op : SendOp) → Node × Sink UInt8 → op.Reply × (Node × Sink UInt8)
  | .sendPacket packet, (node, conn) =>
      let (ok, conn) := Network.sendPacketConn hmac conn packet
      (ok, (node, conn))
  | op, (node, conn) => ((op.effect answer node).1, ((op.effect answer node).2, conn))

section Attempts

variable (hmac : Hmac) (answer : Answer) (inputs : SendInputs)

theorem sendAttempts_run (packet : Packet) (attempt left : Nat) (node : Node)
    (conn : Sink UInt8) :
    (sendAttempts inputs packet attempt left).run (SendOp.overConn hmac answer) (node, conn) =
      ((conn.retry requestLength (serializePacket hmac packet.type packet.payload none) left).1,
        (node,
          (conn.retry requestLength
            (serializePacket hmac packet.type packet.payload none) left).2)) := by
  induction left generalizing attempt conn with
  | zero => rfl
  | succ left ih =>
      have sending : (sendAttempts inputs packet attempt (left + 1)).run
            (SendOp.overConn hmac answer) (node, conn) =
          (sendPacket packet >>= fun sent =>
            if sent then return true
            else sendAttempts inputs packet (attempt + 1) left :
              SendProgram Bool).run (SendOp.overConn hmac answer) (node, conn) := by
        conv_lhs => unfold sendAttempts
        split <;> rfl
      rw [sending]
      have sent : (sendPacket packet >>= fun sent =>
            if sent then return true
            else sendAttempts inputs packet (attempt + 1) left :
              SendProgram Bool).run (SendOp.overConn hmac answer) (node, conn) =
          (if (Network.sendPacketConn hmac conn packet).1 then return true
            else sendAttempts inputs packet (attempt + 1) left :
              SendProgram Bool).run (SendOp.overConn hmac answer)
            (node, (Network.sendPacketConn hmac conn packet).2) :=
        rfl
      rw [sent, Sink.retry_succ]
      unfold Network.sendPacketConn Network.writeRaw
      split
      next => rfl
      next => exact ih (attempt + 1) _

end Attempts

/-! ### What the connection accepts -/

def rawChunk (payload : Bytes) : Packet :=
  { type := .fileChunk
    payload := payload }

def chunkBytes (hmac : Hmac) (payload : Bytes) : Bytes :=
  serializePacket hmac (rawChunk payload).type payload none

/-- The connection took exactly one copy of a chunk's frame, so that a receiver
reads the chunk once and stands behind its frame. -/
def SentOnce (hmac : Hmac) (payload : Bytes) (before after : Sink UInt8) : Prop :=
  ∃ since, after.accepted = before.accepted ++ since ∧ since = chunkBytes hmac payload ∧
    ∀ (source : Source UInt8) (out : RawPacket) (rest : Bytes),
      source.incoming = since ++ rest →
      (Network.readPacket source out).1 = true ∧
        (Network.readPacket source out).2.1.toPacket = rawChunk payload ∧
        (Network.readPacket source out).2.2.incoming = rest

section Chunk

variable (hmac : Hmac) {payload : Bytes}

theorem chunkBytes_length (payload : Bytes) :
    (chunkBytes hmac payload).length = headerSize + payload.length := by
  rw [chunkBytes, serializePacket, List.length_append, PacketHeader.bytes_length]

theorem chunkBytes_ne_nil (payload : Bytes) : chunkBytes hmac payload ≠ [] := by
  apply List.length_pos_iff.mp
  rw [chunkBytes_length, headerSize]
  omega

theorem sentOnce_iff (fits : headerSize + payload.length < 2 ^ 32) (before after : Sink UInt8) :
    SentOnce hmac payload before after ↔
      after.accepted = before.accepted ++ chunkBytes hmac payload := by
  have short : payload.length < 2 ^ 32 := by
    rw [headerSize] at fits
    omega
  have frame : chunkBytes hmac payload = Frame.bytes
      { type := PacketType.fileChunk.code
        hmac := packetTag hmac payload none
        payload := payload
        fits := short } :=
    serializePacket_eq hmac PacketType.fileChunk.code payload none short
  constructor
  · rintro ⟨since, accepted, exactly, _read⟩
    rw [accepted, exactly]
  · intro accepted
    refine ⟨_, accepted, rfl, ?_⟩
    intro source out rest arrived
    rw [frame] at arrived
    obtain ⟨ok, packet, left⟩ := Network.readPacket_of_frame arrived out
    exact ⟨ok, congrArg RawPacket.toPacket packet, left⟩

end Chunk

/-- When the attempts for a chunk end with one that went through, the connection
has taken exactly one copy of its frame if and only if the first attempt that
got anything accepted was the one that went through. -/
theorem chunk_sent_once_iff (hmac : Hmac) (answer : Answer) (inputs : SendInputs) (node : Node)
    (conn : Sink UInt8) (payload : Bytes) (fits : headerSize + payload.length < 2 ^ 32) :
    (((sendAttempts inputs (rawChunk payload) 0 shrRetryLimit).run
          (SendOp.overConn hmac answer) (node, conn)).1 = true →
        SentOnce hmac payload conn
          ((sendAttempts inputs (rawChunk payload) 0 shrRetryLimit).run
            (SendOp.overConn hmac answer) (node, conn)).2.2) ↔
      FirstTry conn.outcomes requestLength (headerSize + payload.length) conn.calls shrRetryLimit ∨
        Hopeless conn.outcomes requestLength (headerSize + payload.length) conn.calls
          shrRetryLimit := by
  have length := chunkBytes_length hmac payload
  have asking : Transmission.Asking requestLength (chunkBytes hmac payload).length := by
    rw [length]
    exact asking_requestLength fits
  have hopeless := @Sink.retry_eq_false_iff _ requestLength (chunkBytes hmac payload)
    shrRetryLimit conn
  have exactly := Sink.retry_exact_iff (chunkBytes_ne_nil hmac payload) asking shrRetryLimit conn
  rw [sendAttempts_run hmac answer inputs]
  simp only [sentOnce_iff hmac fits]
  rw [length] at hopeless exactly
  change ((conn.retry requestLength (chunkBytes hmac payload) shrRetryLimit).1 = true →
    (conn.retry requestLength (chunkBytes hmac payload) shrRetryLimit).2.accepted =
      conn.accepted ++ chunkBytes hmac payload) ↔ _
  constructor
  · intro once
    cases sent : (conn.retry requestLength (chunkBytes hmac payload) shrRetryLimit).1 with
    | false => exact .inr (hopeless.mp sent)
    | true => exact .inl ((exactly sent).mp (once sent))
  · intro condition sent
    rcases condition with first | never
    · exact (exactly sent).mpr first
    · rw [hopeless.mpr never] at sent
      cases sent

/-! ### Two connections -/

namespace Reference

def retryInputs : SendInputs :=
  sendInputs [] fun _index => 0

def retryAnswer : Answer :=
  { ok := true
    packet := none
    now := 0 }

def idle : Node :=
  (NodeState.initial fun _path => none).node

def openConn : Sink UInt8 :=
  { accepted := []
    outcomes := fun _call => some 64
    calls := 0 }

/-- A connection whose second call fails after the first took ten bytes. -/
def brokenConn : Sink UInt8 :=
  { accepted := []
    outcomes := fun call => if call = 0 then some 10 else if call = 1 then none else some 64
    calls := 0 }

theorem requestLength_short : requestLength 42 = 42 ∧ requestLength 32 = 32 := by
  decide

theorem asking_shortChunk (hmac : Hmac) :
    Transmission.Asking requestLength (chunkBytes hmac [7]).length := by
  apply asking_requestLength
  rw [chunkBytes_length]
  decide

theorem open_attempt_sent (hmac : Hmac) :
    ((sendAttempts retryInputs (rawChunk [7]) 0 shrRetryLimit).run
      (SendOp.overConn hmac retryAnswer) (idle, openConn)).1 = true := by
  have pushed : (openConn.push requestLength (chunkBytes hmac [7])).1 = true := by
    apply Sink.push_of_accepting _ _ (asking_shortChunk hmac)
    intro call _later
    exact Option.some_ne_none 64
  rw [sendAttempts_run hmac retryAnswer retryInputs]
  change (openConn.retry requestLength (chunkBytes hmac [7]) shrRetryLimit).1 = true
  rw [shrRetryLimit, Sink.retry_succ, pushed, if_pos rfl]

/-- One byte of data over the connection that takes everything. -/
theorem short_chunk_sent_once :
    ((sendAttempts retryInputs (rawChunk [7]) 0 shrRetryLimit).run
        (SendOp.overConn (fun _key _length _data => zeroTag) retryAnswer) (idle, openConn)).1 =
      true ∧
    SentOnce (fun _key _length _data => zeroTag) [7] openConn
      ((sendAttempts retryInputs (rawChunk [7]) 0 shrRetryLimit).run
        (SendOp.overConn (fun _key _length _data => zeroTag) retryAnswer)
        (idle, openConn)).2.2 := by
  refine ⟨open_attempt_sent _, ?_⟩
  apply (chunk_sent_once_iff _ retryAnswer retryInputs idle openConn [7] (by decide)).mpr
  · refine .inl ⟨0, by decide, ?_, 1, ?_⟩
    · intro earlier before
      exact absurd before (Nat.not_lt_zero _)
    · exact Accepts.whole (by decide) rfl (by decide) (Nat.le_of_eq requestLength_short.1.symm)
  · exact open_attempt_sent _

theorem brokenConn_breaks : Breaks brokenConn.outcomes requestLength 42 0 2 := by
  have size : Transmission.pieceSize 10 (requestLength 42) 42 = 10 := by
    rw [requestLength_short.1]
    rfl
  refine .piece (by decide) rfl (by rw [size]; decide) ?_
  rw [size]
  exact .fails (by decide) rfl

theorem broken_attempt_fails (hmac : Hmac) :
    (brokenConn.push requestLength (chunkBytes hmac [7])).1 = false ∧
      (brokenConn.push requestLength (chunkBytes hmac [7])).2.calls = 2 := by
  have length : (chunkBytes hmac [7]).length = 42 := rfl
  rcases brokenConn.push_pattern requestLength (chunkBytes hmac [7]) with
    ⟨_ok, accepts⟩ | ⟨failed, other⟩
  · rw [length] at accepts
    exact absurd brokenConn_breaks accepts.not_breaks
  · rw [length] at other
    exact ⟨failed, other.next_unique brokenConn_breaks⟩

theorem broken_attempts_sent (hmac : Hmac) :
    (brokenConn.retry requestLength (chunkBytes hmac [7]) shrRetryLimit).1 = true := by
  obtain ⟨failed, calls⟩ := broken_attempt_fails hmac
  have second : ((brokenConn.push requestLength (chunkBytes hmac [7])).2.push requestLength
      (chunkBytes hmac [7])).1 = true := by
    apply Sink.push_of_accepting _ _ (asking_shortChunk hmac)
    intro call later
    rw [calls] at later
    rw [Sink.push_outcomes, brokenConn]
    simp only
    rw [if_neg (by omega), if_neg (by omega)]
    exact Option.some_ne_none 64
  rw [shrRetryLimit, Sink.retry_succ, failed, if_neg (by decide), Sink.retry_succ, second,
    if_pos rfl]

/-- One byte of data over the connection that breaks: the ten bytes already sent
stay in front of the whole frame. -/
theorem broken_chunk_sent_twice :
    ¬∀ (hmac : Hmac) (answer : Answer) (inputs : SendInputs) (node : Node) (conn : Sink UInt8)
      (payload : Bytes), headerSize + payload.length < 2 ^ 32 →
      ((sendAttempts inputs (rawChunk payload) 0 shrRetryLimit).run
          (SendOp.overConn hmac answer) (node, conn)).1 = true →
        SentOnce hmac payload conn
          ((sendAttempts inputs (rawChunk payload) 0 shrRetryLimit).run
            (SendOp.overConn hmac answer) (node, conn)).2.2 := by
  intro always
  let hmac : Hmac := fun _key _length _data => zeroTag
  have sent := broken_attempts_sent hmac
  have once := always hmac retryAnswer retryInputs idle brokenConn [7] (by decide)
  rw [sendAttempts_run hmac retryAnswer retryInputs] at once
  have exactly := (sentOnce_iff hmac (by decide) _ _).mp (once sent)
  obtain ⟨count, _inside, before, next, accepts⟩ := (Sink.retry_exact_iff
    (chunkBytes_ne_nil hmac [7]) (asking_shortChunk hmac) shrRetryLimit brokenConn sent).mp exactly
  cases count with
  | zero => exact accepts.not_breaks brokenConn_breaks
  | succ count =>
      have failing := before 0 (Nat.succ_pos _)
      cases failing

end Reference

end Shr
