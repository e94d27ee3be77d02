/-
The course of one call of `send_file`.

`Point` names every point between two operations of a call that comes to send
a readable file, with the offset the peer asked for and the number of chunks
behind it.  `Point.move` is what the call does next, for every reply.  That the
program of the call follows this automaton is proved once; what can happen to a
call in a larger system is then a matter of its point.
-/

import Shr.Transfer.SendFile

namespace Shr

structure SendCall where
  inputs : SendInputs
  absPath : Bytes
  peer : PeerInfo
  contents : Bytes
  sendable : Sendable inputs absPath peer
  readable : inputs.contents = some contents

/-! ### The chunks of a file -/

section Chunks

variable (contents : Bytes) (start : UInt64)

def remainingFrom : Bytes :=
  (resumedStream contents start).remaining

def bytesBefore (chunk : Nat) : Nat :=
  min (chunk * shrChunkSize) (remainingFrom contents start).length

def position (chunk : Nat) : UInt64 :=
  start + UInt64.ofNat (bytesBefore contents start chunk)

def chunkData (chunk : Nat) : Bytes :=
  ((remainingFrom contents start).drop (chunk * shrChunkSize)).take shrChunkSize

def More (chunk : Nat) : Prop :=
  chunk * shrChunkSize < (remainingFrom contents start).length

instance (chunk : Nat) : Decidable (More contents start chunk) :=
  inferInstanceAs (Decidable (_ < _))

end Chunks

section ChunkFacts

variable {contents : Bytes} {start : UInt64} {chunk : Nat}

theorem more_iff : More contents start chunk ↔ chunkData contents start chunk ≠ [] := by
  have positive := shrChunkSize_pos
  unfold More chunkData
  rw [← List.length_pos_iff, List.length_take, List.length_drop]
  omega

theorem More.earlier {few many : Nat} (more : More contents start many) (fewer : few ≤ many) :
    More contents start few :=
  Nat.lt_of_le_of_lt (Nat.mul_le_mul_right shrChunkSize fewer) more

theorem length_chunkData :
    (chunkData contents start chunk).length =
      min shrChunkSize ((remainingFrom contents start).length - chunk * shrChunkSize) := by
  simp [chunkData]

theorem bytesBefore_succ (chunk : Nat) :
    bytesBefore contents start (chunk + 1) =
      bytesBefore contents start chunk + (chunkData contents start chunk).length := by
  rw [length_chunkData]
  unfold bytesBefore
  have next : (chunk + 1) * shrChunkSize = chunk * shrChunkSize + shrChunkSize := by
    rw [Nat.succ_mul]
  omega

@[simp] theorem bytesBefore_zero : bytesBefore contents start 0 = 0 := by
  simp [bytesBefore]

theorem bytesBefore_of_more (more : More contents start chunk) :
    bytesBefore contents start chunk = chunk * shrChunkSize := by
  unfold More at more
  unfold bytesBefore
  omega

theorem bytesBefore_of_end (finished : ¬More contents start chunk) :
    bytesBefore contents start chunk = (remainingFrom contents start).length := by
  unfold More at finished
  unfold bytesBefore
  omega

@[simp] theorem position_zero : position contents start 0 = start := by
  simp [position]

theorem position_succ (chunk : Nat) :
    position contents start (chunk + 1) =
      position contents start chunk +
        UInt64.ofNat (chunkData contents start chunk).length := by
  unfold position
  rw [bytesBefore_succ, UInt64.ofNat_add, UInt64.add_assoc]

end ChunkFacts

/-! ### Points -/

inductive Point where
  | checkActive
  | store
  | connect
  | connectFailed
  | offer
  | awaitAnswer
  | abandonClose
  | abandonRecord
  | begin (start : UInt64)
  | enter (start : UInt64)
  | pause (start : UInt64) (chunk left : Nat)
  | sendChunk (start : UInt64) (chunk left : Nat)
  | awaitAck (start : UInt64) (chunk : Nat)
  | recordAck (start : UInt64) (chunk : Nat)
  | failClose (start : UInt64) (chunk : Nat)
  | failRecord (start : UInt64) (chunk : Nat)
  | failLeave (start : UInt64) (chunk : Nat)
  | complete (start : UInt64) (acked sent : Nat)
  | completeClose (start : UInt64) (acked sent : Nat)
  | completeRecord (start : UInt64) (acked sent : Nat)
  | completeLeave (start : UInt64) (acked sent : Nat)
  | turnedAway
  | unconnected
  | abandoned
  | failed (start : UInt64) (chunk : Nat)
  | completed (start : UInt64) (acked sent : Nat)

section Course

variable (vendor : Vendor) (call : SendCall)

def answerOffset (resp : Packet) : UInt64 :=
  if resp.type = .fileResume then readFileResume vendor resp.payload else 0

def nthChunk (start : UInt64) (chunk : Nat) : Packet :=
  chunkPacket vendor call.inputs (position call.contents start chunk)
    (start / UInt64.ofNat shrChunkSize + UInt64.ofNat chunk)
    (chunkData call.contents start chunk)

def loopPoint (contents : Bytes) (start : UInt64) (chunk : Nat) : Point :=
  if More contents start chunk then .sendChunk start chunk (shrRetryLimit - 1)
  else .complete start chunk chunk

def afterActive (active : Int) : Point :=
  if shrMaxConcurrent ≤ active then .turnedAway else .store

def afterAttempt (start : UInt64) (chunk : Nat) (left : Nat) (sent : Bool) : Point :=
  if sent then .awaitAck start chunk
  else
    match left with
    | 0 => .failClose start chunk
    | left + 1 => .pause start chunk left

def afterAnswer : Option Packet → Point
  | none => .abandonClose
  | some resp =>
      if resp.type = .fileReject then .abandonClose else .begin (answerOffset vendor resp)

def afterAck (start : UInt64) (chunk : Nat) : Option Packet → Point
  | none => .complete start chunk (chunk + 1)
  | some _ack => .recordAck start chunk

def Point.records (transferred : UInt64) (state : TransferState) (after : Point) :
    Program.Move sendSignature Bytes Point :=
  .ask (.updateTransferProgress call.inputs.xferId transferred state) fun _updated => after

def Point.move : Point → Program.Move sendSignature Bytes Point
  | .checkActive => .ask .loadActive afterActive
  | .store => .ask (.upsertTransfer (sentRecord call.inputs call.absPath)) fun _stored => .connect
  | .connect =>
      .ask (.connectTo call.peer.ip call.peer.port) fun (connected : Bool) =>
        if connected then .offer else .connectFailed
  | .connectFailed => Point.records call 0 .failed .unconnected
  | .offer =>
      .ask (.sendPacket (offerPacket vendor call.inputs call.absPath)) fun _sent => .awaitAnswer
  | .awaitAnswer => .ask .readPacket (afterAnswer vendor)
  | .abandonClose => .ask .closeConn fun _closed => .abandonRecord
  | .abandonRecord => Point.records call 0 .failed .abandoned
  | .begin start => Point.records call start .inProgress (.enter start)
  | .enter start => .ask .incrementActive fun _incremented => loopPoint call.contents start 0
  | .pause start chunk left =>
      .ask (.sleep call.inputs.retryDelayMs) fun _slept => .sendChunk start chunk left
  | .sendChunk start chunk left =>
      .ask (.sendPacket (nthChunk vendor call start chunk)) (afterAttempt start chunk left)
  | .awaitAck start chunk => .ask .readPacket (afterAck start chunk)
  | .recordAck start chunk =>
      Point.records call (position call.contents start (chunk + 1)) .inProgress
        (loopPoint call.contents start (chunk + 1))
  | .failClose start chunk => .ask .closeConn fun _closed => .failRecord start chunk
  | .failRecord start chunk =>
      Point.records call (position call.contents start chunk) .failed (.failLeave start chunk)
  | .failLeave start chunk => .ask .decrementActive fun _decremented => .failed start chunk
  | .complete start acked sent =>
      .ask (.sendPacket (completePacket vendor call.inputs)) fun _sent =>
        .completeClose start acked sent
  | .completeClose start acked sent =>
      .ask .closeConn fun _closed => .completeRecord start acked sent
  | .completeRecord start acked sent =>
      Point.records call (position call.contents start acked) .completed
        (.completeLeave start acked sent)
  | .completeLeave start acked sent =>
      .ask .decrementActive fun _decremented => .completed start acked sent
  | .turnedAway => .finish []
  | .unconnected => .finish []
  | .abandoned => .finish []
  | .failed _start _chunk => .finish []
  | .completed _start _acked _sent => .finish call.inputs.xferId

end Course

/-! ### The program of a call follows its course -/

section Follows

variable {vendor : Vendor} {call : SendCall}

abbrev SendCall.At (vendor : Vendor) (call : SendCall) (point : Point)
    (program : SendProgram Bytes) : Prop :=
  Program.Follows (Point.move vendor call) point program

private theorem records_at {point after : Point} {transferred : UInt64} {state : TransferState}
    {rest : SendProgram Bytes}
    (moves : point.move vendor call = Point.records call transferred state after)
    (follows : call.At vendor after rest) :
    call.At vendor point (do
      updateTransferProgress call.inputs.xferId transferred state
      rest) :=
  .call moves fun _updated => follows

theorem abandonOffer_at :
    call.At vendor .abandonClose (abandonOffer call.inputs) := by
  unfold abandonOffer
  refine .call rfl fun _closed => ?_
  exact records_at rfl (.done rfl)

theorem completeFile_at (start : UInt64) (acked sent : Nat) :
    call.At vendor (.complete start acked sent)
      (completeFile vendor call.inputs (position call.contents start acked)) := by
  unfold completeFile
  refine .call rfl fun _sent => ?_
  refine .call rfl fun _closed => ?_
  refine records_at rfl ?_
  exact .call rfl fun _decremented => .done rfl

/-- The attempts for one chunk, before a continuation that takes over where they
end. -/
theorem sendAttempts_at {start : UInt64} {chunk : Nat} {rest : Bool → SendProgram Bytes}
    (success : call.At vendor (.awaitAck start chunk) (rest true))
    (failure : call.At vendor (.failClose start chunk) (rest false)) (attempt left : Nat) :
    call.At vendor (.sendChunk start chunk left) (do
      let sent ← sendPacket (nthChunk vendor call start chunk)
      let result ← (if sent then return true
        else sendAttempts call.inputs (nthChunk vendor call start chunk) (attempt + 1) left)
      rest result) := by
  induction left generalizing attempt with
  | zero =>
      refine .call rfl fun (sent : Bool) => ?_
      cases sent with
      | true => exact success
      | false => exact failure
  | succ left ih =>
      refine .call rfl fun (sent : Bool) => ?_
      cases sent with
      | true => exact success
      | false => exact .call rfl fun _slept => ih (attempt + 1)

/-- What `streamFile` does with the result of the loop. -/
private def afterLoop (vendor : Vendor) (call : SendCall) :
    Option UInt64 → SendProgram Bytes
  | none => return []
  | some transferred => completeFile vendor call.inputs transferred

/-- The loop from its head, for a stream that stands behind `chunk` chunks. -/
theorem sendLoop_at (start : UInt64) (chunk : Nat) (file : InputStream UInt8)
    (remaining : file.remaining =
      (remainingFrom call.contents start).drop (chunk * shrChunkSize)) :
    call.At vendor (loopPoint call.contents start chunk)
      (sendLoop vendor call.inputs file (position call.contents start chunk)
        (start / UInt64.ofNat shrChunkSize + UInt64.ofNat chunk) >>= afterLoop vendor call) := by
  have delivered : file.delivered shrChunkSize = chunkData call.contents start chunk := by
    rw [InputStream.delivered, remaining, chunkData]
  by_cases more : More call.contents start chunk
  · have some_delivered : file.delivered shrChunkSize ≠ [] := by
      rw [delivered]
      exact more_iff.mp more
    have good : ¬file.good = false := by
      intro failed
      apply some_delivered
      simp [InputStream.delivered, InputStream.remaining, failed]
    have nextRemaining : (file.afterRead shrChunkSize).remaining =
        (remainingFrom call.contents start).drop ((chunk + 1) * shrChunkSize) := by
      rw [InputStream.remaining_afterRead, remaining, List.drop_drop, Nat.succ_mul]
    have ih := sendLoop_at start (chunk + 1) (file.afterRead shrChunkSize) nextRemaining
    rw [loopPoint, if_pos more, sendLoop, if_neg good, dif_neg some_delivered,
      Program.assoc_bind, delivered]
    have nextIndex : start / UInt64.ofNat shrChunkSize + UInt64.ofNat chunk + 1 =
        start / UInt64.ofNat shrChunkSize + UInt64.ofNat (chunk + 1) := by
      rw [UInt64.ofNat_add, ← UInt64.add_assoc]
      rfl
    apply sendAttempts_at
    case success =>
      refine .call rfl fun (ack : Option Packet) => ?_
      cases ack with
      | none => exact completeFile_at start chunk (chunk + 1)
      | some ack =>
          rw [← position_succ, nextIndex]
          exact .call rfl fun _updated => ih
    case failure =>
      refine .call rfl fun _closed => ?_
      refine .call rfl fun _updated => ?_
      exact .call rfl fun _decremented => .done rfl
  · have ended : file.delivered shrChunkSize = [] := by
      by_contra some_delivered
      rw [delivered] at some_delivered
      exact more (more_iff.mpr some_delivered)
    have finished : sendLoop vendor call.inputs file (position call.contents start chunk)
        (start / UInt64.ofNat shrChunkSize + UInt64.ofNat chunk) =
          return some (position call.contents start chunk) := by
      rw [sendLoop]
      by_cases failed : file.good = false
      · rw [if_pos failed]
      · rw [if_neg failed, dif_pos ended]
    rw [loopPoint, if_neg more, finished]
    exact completeFile_at start chunk chunk
termination_by (remainingFrom call.contents start).length - chunk * shrChunkSize
decreasing_by
  have positive := shrChunkSize_pos
  unfold More at more
  rw [Nat.succ_mul]
  omega

theorem streamFile_at (start : UInt64) :
    call.At vendor (.begin start) (streamFile vendor call.inputs call.contents start) := by
  unfold streamFile
  refine records_at rfl ?_
  refine .call rfl fun _incremented => ?_
  have looped := @sendLoop_at vendor call start 0 (resumedStream call.contents start) (by
    rw [Nat.zero_mul, List.drop_zero]
    rfl)
  have firstIndex : start / UInt64.ofNat shrChunkSize + UInt64.ofNat 0 =
      start / UInt64.ofNat shrChunkSize := UInt64.add_zero _
  rw [position_zero, firstIndex] at looped
  exact looped

theorem answerOffer_at (resp : Packet) :
    call.At vendor (afterAnswer vendor (some resp)) (answerOffer vendor call.inputs resp) := by
  unfold afterAnswer answerOffer
  simp only
  by_cases rejected : resp.type = .fileReject
  · rw [if_pos rejected, if_pos rejected]
    exact abandonOffer_at
  · rw [if_neg rejected, if_neg rejected, call.readable]
    exact streamFile_at _

theorem offerFile_at :
    call.At vendor .store (offerFile vendor call.inputs call.absPath call.peer) := by
  unfold offerFile
  refine .call rfl fun _stored => ?_
  refine .call rfl fun (connected : Bool) => ?_
  cases connected with
  | false => exact records_at rfl (.done rfl)
  | true =>
      refine .call rfl fun _sent => ?_
      refine .call rfl fun (resp : Option Packet) => ?_
      cases resp with
      | none => exact abandonOffer_at
      | some resp => exact answerOffer_at resp

/-- A call that comes to send follows its course from beginning to end, whatever
the replies are. -/
theorem sendFile_at (vendor : Vendor) (call : SendCall) :
    call.At vendor .checkActive (sendFile vendor call.inputs) := by
  rw [call.sendable.sendFile_eq vendor]
  refine .call rfl fun (active : Int) => ?_
  unfold afterActive
  by_cases full : shrMaxConcurrent ≤ active
  · rw [if_pos full, if_pos full]
    exact .done rfl
  · rw [if_neg full, if_neg full]
    exact offerFile_at

end Follows

end Shr
