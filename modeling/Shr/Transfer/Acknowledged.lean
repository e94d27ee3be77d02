/-
The success of `send_file` and what the peer has acknowledged.

The loop takes any packet for the acknowledgement of a chunk and looks at none of
its fields.  Where no packet comes it is left by the exit that the end of the
file takes, and the call completes.
-/

import Shr.Transfer.Acceptance

namespace Shr

/-! ### Acknowledgements -/

def chunkEnd (vendor : Vendor) (packet : Packet) : UInt64 :=
  match readFileChunk vendor packet.payload with
  | none => 0
  | some chunk => newTransferred chunk.offset (vendor.base64Decode chunk.b64data)

/-- The packet acknowledges the transfer up to the offset. -/
structure AckFor (vendor : Vendor) (xferId : Bytes) (offset : UInt64) (packet : Packet) : Prop where
  type : packet.type = .fileChunkAck
  fields : ∃ fields value, vendor.fromCbor packet.payload = some (.object fields) ∧
    fields.lookup (ascii "transfer_id") = some (.string xferId) ∧
    fields.lookup (ascii "offset") = some value ∧ value.asUInt64 = some offset

theorem ackFor_ackPacket (vendor : Vendor) (xferId : Bytes) (offset : UInt64) :
    AckFor vendor xferId offset (ackPacket vendor xferId offset) where
  type := rfl
  fields := by
    refine ⟨ackFields xferId offset, .number offset.toNat, ?_, rfl, rfl, ?_⟩
    · exact vendor.fromCbor_toCbor _ (ackFields_transmissible xferId offset)
    · exact JsonValue.asUInt64_toNat offset

/-- Every chunk that was sent has been acknowledged by the packet that was read
after it, and the last acknowledged offset is the size of the file. -/
structure Acknowledged (vendor : Vendor) (call : SendCall) (fate : Fate) (start : UInt64)
    (chunksSent : List Packet) : Prop where
  each : ∀ (chunk : Nat) packet, chunksSent[chunk]? = some packet →
    ∃ ack, fate.ack chunk = some ack ∧
      AckFor vendor call.inputs.xferId (chunkEnd vendor packet) ack
  whole : ((chunksSent.getLast?.map (chunkEnd vendor)).getD start).toNat = call.contents.length

def SuccessAcknowledged (vendor : Vendor) (call : SendCall) (fate : Fate) (start : UInt64)
    (node : Node) : Prop :=
  (fate.sendFile vendor call.inputs node).1 ≠ [] →
    (∃ record, (fate.sendFile vendor call.inputs node).2.node.transfers.getTransfer
      call.inputs.xferId = some record ∧ record.state = .completed) →
      Acknowledged vendor call fate start (fate.sendFile vendor call.inputs node).2.chunksSent

/-! ### The chunks of a call -/

def Fate.Sends (fate : Fate) (chunk : Nat) : Prop :=
  ∃ attempt < shrRetryLimit, fate.chunkSent chunk attempt = true

def Fate.Acks (fate : Fate) (vendor : Vendor) (call : SendCall) (start : UInt64) (chunk : Nat) :
    Prop :=
  ∃ ack, fate.ack chunk = some ack ∧
    AckFor vendor call.inputs.xferId (position call.contents start (chunk + 1)) ack

section Streaming

variable (vendor : Vendor) (call : SendCall) (fate : Fate) (start : UInt64)

def Passed (chunk : Nat) : Prop :=
  ∀ earlier < chunk, More call.contents start earlier ∧ fate.Sends earlier ∧
    fate.ack earlier ≠ none

def GivesUpAt (chunk : Nat) : Prop :=
  More call.contents start chunk ∧ ¬fate.Sends chunk ∧ Passed call fate start chunk

/-- The loop is left towards completion: at the end of the file, or at a chunk to
which no packet is read. -/
def Completes (acked sent : Nat) : Prop :=
  Passed call fate start acked ∧
    ((sent = acked ∧ ¬More call.contents start acked) ∨
      (sent = acked + 1 ∧ More call.contents start acked ∧ fate.Sends acked ∧
        fate.ack acked = none))

/-- The attempts that failed when so many are left behind the next one. -/
def triedBefore (left : Nat) : Nat :=
  shrRetryLimit - 1 - left

/-- What has happened to a call that stands at a point of its stream. -/
def Point.Reached : Point → Prop
  | .begin first => first = start
  | .enter first => first = start
  | .pause first chunk left => first = start ∧ More call.contents start chunk ∧
      Passed call fate start chunk ∧ left < shrRetryLimit ∧
      ∀ attempt < triedBefore left, fate.chunkSent chunk attempt = false
  | .sendChunk first chunk left => first = start ∧ More call.contents start chunk ∧
      Passed call fate start chunk ∧ left < shrRetryLimit ∧
      ∀ attempt < triedBefore left, fate.chunkSent chunk attempt = false
  | .awaitAck first chunk => first = start ∧ More call.contents start chunk ∧
      Passed call fate start chunk ∧ fate.Sends chunk
  | .recordAck first chunk => first = start ∧ Passed call fate start (chunk + 1)
  | .failClose first chunk => first = start ∧ GivesUpAt call fate start chunk
  | .failRecord first chunk => first = start ∧ GivesUpAt call fate start chunk
  | .failLeave first chunk => first = start ∧ GivesUpAt call fate start chunk
  | .failed first chunk => first = start ∧ GivesUpAt call fate start chunk
  | .complete first acked sent => first = start ∧ Completes call fate start acked sent
  | .completeClose first acked sent => first = start ∧ Completes call fate start acked sent
  | .completeRecord first acked sent => first = start ∧ Completes call fate start acked sent
  | .completeLeave first acked sent => first = start ∧ Completes call fate start acked sent
  | .completed first acked sent => first = start ∧ Completes call fate start acked sent
  | _ => False

def Point.chunks : Point → Nat
  | .pause _ chunk _ => chunk
  | .sendChunk _ chunk _ => chunk
  | .awaitAck _ chunk => chunk + 1
  | .recordAck _ chunk => chunk + 1
  | .failClose _ chunk => chunk
  | .failRecord _ chunk => chunk
  | .failLeave _ chunk => chunk
  | .failed _ chunk => chunk
  | .complete _ _ sent => sent
  | .completeClose _ _ sent => sent
  | .completeRecord _ _ sent => sent
  | .completeLeave _ _ sent => sent
  | .completed _ _ sent => sent
  | _ => 0

def Point.tried : Point → Nat
  | .pause _ _ left => triedBefore left
  | .sendChunk _ _ left => triedBefore left
  | .failClose _ _ => shrRetryLimit
  | .failRecord _ _ => shrRetryLimit
  | .failLeave _ _ => shrRetryLimit
  | .failed _ _ => shrRetryLimit
  | _ => 0

structure InStream (point : Point) (world : CallWorld) : Prop where
  reached : point.Reached call fate start
  answered : world.answered = true
  attempts : world.attempts = point.tried
  chunksSent : world.chunksSent = (List.range point.chunks).map (nthChunk vendor call start)

end Streaming

section Streaming

variable {vendor : Vendor} {call : SendCall} {fate : Fate} {start : UInt64}
variable {point : Point} {world : CallWorld} {chunk : Nat}

theorem Passed.succ (passed : Passed call fate start chunk)
    (more : More call.contents start chunk) (sends : fate.Sends chunk)
    (answered : fate.ack chunk ≠ none) : Passed call fate start (chunk + 1) := by
  intro earlier before
  rcases Nat.lt_succ_iff_lt_or_eq.mp before with earlier' | same
  · exact passed earlier earlier'
  · rw [same]
    exact ⟨more, sends, answered⟩

theorem InStream.loopPoint (passed : Passed call fate start chunk)
    (answered : world.answered = true) (attempts : world.attempts = 0)
    (chunksSent : world.chunksSent = (List.range chunk).map (nthChunk vendor call start)) :
    InStream vendor call fate start (Shr.loopPoint call.contents start chunk) world := by
  unfold Shr.loopPoint
  by_cases more : More call.contents start chunk
  · rw [if_pos more]
    refine ⟨⟨rfl, more, passed, by decide, ?_⟩, answered, attempts, chunksSent⟩
    intro attempt before
    exact absurd before (Nat.not_lt_zero attempt)
  · rw [if_neg more]
    exact ⟨⟨rfl, passed, .inl ⟨rfl, more⟩⟩, answered, attempts, chunksSent⟩

theorem InStream.length_chunksSent (stands : InStream vendor call fate start point world) :
    world.chunksSent.length = point.chunks := by
  rw [stands.chunksSent, List.length_map, List.length_range]

theorem InStream.sends {left : Nat}
    (stands : InStream vendor call fate start (.sendChunk start chunk left) world) :
    (fate.effect (.sendPacket (nthChunk vendor call start chunk)) world).1 =
      fate.chunkSent chunk (triedBefore left) := by
  change fate.chunkSent world.chunksSent.length world.attempts = _
  rw [stands.length_chunksSent, stands.attempts]
  rfl

theorem not_sends_of_failures
    (failures : ∀ attempt < triedBefore 0, fate.chunkSent chunk attempt = false)
    (failed : fate.chunkSent chunk (triedBefore 0) = false) : ¬fate.Sends chunk := by
  intro sends
  obtain ⟨attempt, within, succeeds⟩ := sends
  rcases Nat.lt_succ_iff_lt_or_eq.mp within with earlier | last
  · rw [failures attempt earlier] at succeeds
    cases succeeds
  · rw [last] at succeeds
    cases failed.symm.trans succeeds

theorem InStream.attempt {left : Nat}
    (stands : InStream vendor call fate start (.sendChunk start chunk left) world) :
    InStream vendor call fate start
      (afterAttempt start chunk left (fate.chunkSent chunk (triedBefore left)))
      (fate.effect (.sendPacket (nthChunk vendor call start chunk)) world).2 := by
  have outcome := stands.sends
  obtain ⟨⟨_same, more, passed, inside, failures⟩, answered, attempts, chunksSent⟩ := stands
  have tried : triedBefore left < shrRetryLimit := by
    unfold triedBefore
    omega
  have noted : (fate.effect (.sendPacket (nthChunk vendor call start chunk)) world).2 =
      { (if fate.chunkSent chunk (triedBefore left) then
          { world with
            attempts := 0
            chunksSent := world.chunksSent ++ [nthChunk vendor call start chunk] }
        else { world with attempts := world.attempts + 1 } : CallWorld) with
        node := world.node
        asked := world.asked ++ [.sendPacket (nthChunk vendor call start chunk)] } := by
    rw [← outcome]
    rfl
  rw [noted]
  cases sent : fate.chunkSent chunk (triedBefore left) with
  | true =>
      refine ⟨⟨rfl, more, passed, triedBefore left, tried, sent⟩, answered, rfl, ?_⟩
      change world.chunksSent ++ _ = (List.range (chunk + 1)).map _
      rw [chunksSent, List.range_succ, List.map_append]
      rfl
  | false =>
      have next : world.attempts + 1 = triedBefore left + 1 := congrArg (· + 1) attempts
      cases left with
      | zero =>
          have unsent := not_sends_of_failures failures sent
          exact ⟨⟨rfl, more, unsent, passed⟩, answered, next, chunksSent⟩
      | succ left =>
          have further : triedBefore left = triedBefore (left + 1) + 1 := by
            unfold triedBefore
            omega
          refine ⟨⟨rfl, more, passed, by omega, ?_⟩, answered, next.trans further.symm, chunksSent⟩
          intro attempt before
          rw [further] at before
          rcases Nat.lt_succ_iff_lt_or_eq.mp before with earlier | last
          · exact failures attempt earlier
          · rw [last]
            exact sent

theorem InStream.readAck
    (stands : InStream vendor call fate start (.awaitAck start chunk) world) :
    InStream vendor call fate start (afterAck start chunk (fate.ack chunk))
      (fate.effect .readPacket world).2 := by
  obtain ⟨⟨_same, more, passed, sends⟩, answered, attempts, chunksSent⟩ := stands
  cases ack : fate.ack chunk with
  | none => exact ⟨⟨rfl, passed, .inr ⟨rfl, more, sends, ack⟩⟩, rfl, attempts, chunksSent⟩
  | some packet =>
      have answers : fate.ack chunk ≠ none := by
        rw [ack]
        exact Option.some_ne_none packet
      exact ⟨⟨rfl, passed.succ more sends answers⟩, rfl, attempts, chunksSent⟩

theorem InStream.reads (stands : InStream vendor call fate start (.awaitAck start chunk) world) :
    (fate.effect .readPacket world).1 = fate.ack chunk := by
  change (if world.answered then fate.ack (world.chunksSent.length - 1) else fate.answer) = _
  rw [stands.answered, stands.length_chunksSent]
  rfl

theorem InStream.step (stands : InStream vendor call fate start point world) {op : SendOp}
    {after : op.Reply → Point} (asks : point.move vendor call = .ask op after) :
    InStream vendor call fate start (after (fate.effect op world).1) (fate.effect op world).2 := by
  obtain ⟨reached, answered, attempts, chunksSent⟩ := stands
  cases point with
  | begin first =>
      cases asks
      exact ⟨reached, answered, attempts, chunksSent⟩
  | enter first =>
      cases asks
      rw [show first = start from reached]
      exact .loopPoint (fun _earlier impossible => absurd impossible (Nat.not_lt_zero _)) answered
        attempts chunksSent
  | pause first chunk left =>
      cases asks
      exact ⟨reached, answered, attempts, chunksSent⟩
  | sendChunk first chunk left =>
      cases asks
      obtain ⟨rfl, _rest⟩ := id reached
      have here : InStream vendor call fate first (.sendChunk first chunk left) world :=
        ⟨reached, answered, attempts, chunksSent⟩
      rw [here.sends]
      exact here.attempt
  | awaitAck first chunk =>
      cases asks
      obtain ⟨rfl, _rest⟩ := id reached
      have here : InStream vendor call fate first (.awaitAck first chunk) world :=
        ⟨reached, answered, attempts, chunksSent⟩
      rw [here.reads]
      exact here.readAck
  | recordAck first chunk =>
      cases asks
      rw [show first = start from reached.1]
      exact .loopPoint reached.2 answered attempts chunksSent
  | failClose first chunk =>
      cases asks
      exact ⟨reached, answered, attempts, chunksSent⟩
  | failRecord first chunk =>
      cases asks
      exact ⟨reached, answered, attempts, chunksSent⟩
  | failLeave first chunk =>
      cases asks
      exact ⟨reached, answered, attempts, chunksSent⟩
  | complete first acked sent =>
      cases asks
      exact ⟨reached, answered, attempts, chunksSent⟩
  | completeClose first acked sent =>
      cases asks
      exact ⟨reached, answered, attempts, chunksSent⟩
  | completeRecord first acked sent =>
      cases asks
      exact ⟨reached, answered, attempts, chunksSent⟩
  | completeLeave first acked sent =>
      cases asks
      exact ⟨reached, answered, attempts, chunksSent⟩
  | failed first chunk => cases asks
  | completed first acked sent => cases asks
  | _ => exact reached.elim

theorem Answered.ends {node : Node} {resp : Packet}
    (answered : Answered call.inputs call.absPath call.peer node fate resp)
    (unrejected : resp.type ≠ .fileReject) (vendor : Vendor) :
    (∃ chunk, GivesUpAt call fate (answerOffset vendor resp) chunk ∧
        (fate.sendFile vendor call.inputs node).1 = []) ∨
      ∃ acked sent, Completes call fate (answerOffset vendor resp) acked sent ∧
        (fate.sendFile vendor call.inputs node).1 = call.inputs.xferId ∧
        (fate.sendFile vendor call.inputs node).2.chunksSent =
          (List.range sent).map (nthChunk vendor call (answerOffset vendor resp)) := by
  rw [answered.sendFile_eq vendor]
  have follows : call.At vendor (.begin (answerOffset vendor resp))
      (answerOffer vendor call.inputs resp) := by
    have at_answer := @answerOffer_at vendor call resp
    rwa [afterAnswer, if_neg unrejected] at at_answer
  have begins : InStream vendor call fate (answerOffset vendor resp)
      (.begin (answerOffset vendor resp))
      (offeredWorld vendor call.inputs call.absPath call.peer node) :=
    ⟨rfl, rfl, rfl, rfl⟩
  obtain ⟨last, ends, stands⟩ := @Program.Follows.run sendSignature Bytes CallWorld Point _ _
    fate.effect (fun holds asks => holds.step asks) _ _ follows _ begins
  cases last with
  | failed first chunk =>
      exact .inl ⟨chunk, stands.reached.2, (Program.Move.finish.inj ends).symm⟩
  | completed first acked sent =>
      exact .inr ⟨acked, sent, stands.reached.2, (Program.Move.finish.inj ends).symm,
        stands.chunksSent⟩
  | _ => first | cases ends | exact stands.reached.elim

/-! ### What has been acknowledged -/

theorem chunkEnd_nthChunk (vendor : Vendor) (call : SendCall) (start : UInt64) (chunk : Nat) :
    chunkEnd vendor (nthChunk vendor call start chunk) =
      position call.contents start (chunk + 1) := by
  have decoded : readFileChunk vendor (nthChunk vendor call start chunk).payload =
      some (chunkOf vendor call.inputs.xferId (position call.contents start chunk)
        (chunkData call.contents start chunk)) :=
    readFileChunk_toCbor vendor _ _ _
  unfold chunkEnd
  rw [decoded]
  change newTransferred _ (vendor.base64Decode (vendor.base64Encode _)) = _
  rw [vendor.base64Decode_encode, position_succ]
  rfl

theorem lastEnd_chunks (vendor : Vendor) (call : SendCall) (start : UInt64) (count : Nat) :
    ((((List.range count).map (nthChunk vendor call start)).getLast?.map
      (chunkEnd vendor)).getD start) = position call.contents start count := by
  cases count with
  | zero => exact position_zero.symm
  | succ count =>
      rw [List.range_succ, List.map_append, List.map_singleton, List.getLast?_concat]
      exact chunkEnd_nthChunk vendor call start count

theorem nth_of_chunks (vendor : Vendor) (call : SendCall) (start : UInt64) {index count : Nat}
    (before : index < count) :
    ((List.range count).map (nthChunk vendor call start))[index]? =
      some (nthChunk vendor call start index) := by
  rw [List.getElem?_map, List.getElem?_range before]
  rfl

theorem toNat_position_of_end {contents : Bytes} (bounded : contents.length < 2 ^ 63)
    (finished : ¬More contents start chunk) :
    (position contents start chunk).toNat = contents.length ↔ start.toNat ≤ contents.length := by
  constructor
  · intro ends
    by_contra behind
    have nothing : remainingFrom contents start = [] := by
      by_cases negative : 2 ^ 63 ≤ start.toNat
      · exact remainingFrom_of_negative negative
      · rw [remainingFrom_eq (by omega)]
        exact List.drop_eq_nil_of_le (by omega)
    have unmoved : position contents start chunk = start := by
      unfold position
      rw [bytesBefore_of_end finished, nothing]
      exact UInt64.add_zero start
    rw [unmoved] at ends
    omega
  · intro inside
    rw [toNat_position inside bounded, lengthBefore_of_end inside bounded finished]

theorem acknowledged_of_finished (bounded : call.contents.length < 2 ^ 63)
    (passed : Passed call fate start chunk) (finished : ¬More call.contents start chunk) :
    Acknowledged vendor call fate start ((List.range chunk).map (nthChunk vendor call start)) ↔
      start.toNat ≤ call.contents.length ∧
        ∀ index, More call.contents start index → fate.Acks vendor call start index := by
  have whole_iff := toNat_position_of_end bounded finished
  have inside_iff : ∀ index, More call.contents start index ↔ index < chunk := by
    intro index
    constructor
    · intro more
      by_contra behind
      exact finished (more.earlier (Nat.le_of_not_lt behind))
    · intro before
      exact (passed index before).1
  constructor
  · intro acknowledged
    have whole := acknowledged.whole
    rw [lastEnd_chunks] at whole
    refine ⟨whole_iff.mp whole, ?_⟩
    intro index more
    have present := nth_of_chunks vendor call start ((inside_iff index).mp more)
    obtain ⟨ack, read, isAck⟩ := acknowledged.each index _ present
    rw [chunkEnd_nthChunk] at isAck
    exact ⟨ack, read, isAck⟩
  · intro condition
    obtain ⟨inside, acks⟩ := condition
    refine ⟨?_, ?_⟩
    · intro index packet present
      rw [List.getElem?_map, Option.map_eq_some_iff] at present
      obtain ⟨place, placed, isChunk⟩ := present
      obtain ⟨before, same⟩ := List.getElem?_eq_some_iff.mp placed
      rw [List.getElem_range] at same
      rw [List.length_range] at before
      rw [← isChunk, ← same, chunkEnd_nthChunk]
      exact acks index ((inside_iff index).mpr before)
    · rw [lastEnd_chunks]
      exact whole_iff.mpr inside

theorem Fate.Acks.reads (acks : fate.Acks vendor call start chunk) : fate.ack chunk ≠ none := by
  obtain ⟨ack, read, _isAck⟩ := acks
  rw [read]
  exact Option.some_ne_none ack

/-- A call that misses a packet is not acknowledged, and the peer did not do so. -/
theorem not_acknowledged_of_silent (silent : fate.ack chunk = none) :
    ¬Acknowledged vendor call fate start
      ((List.range (chunk + 1)).map (nthChunk vendor call start)) := by
  intro acknowledged
  have present := nth_of_chunks vendor call start (Nat.lt_succ_self chunk)
  obtain ⟨ack, read, _isAck⟩ := acknowledged.each chunk _ present
  rw [silent] at read
  cases read

theorem Completes.not_givesUpAt {acked sent : Nat}
    (completes : Completes call fate start acked sent) (gives : GivesUpAt call fate start chunk) :
    False := by
  obtain ⟨passed, ends⟩ := completes
  obtain ⟨more, unsent, earlier⟩ := gives
  rcases Nat.lt_trichotomy chunk acked with before | same | behind
  · exact unsent (passed chunk before).2.1
  · subst same
    rcases ends with finished | silent
    · exact finished.2 more
    · exact unsent silent.2.2.1
  · have came := earlier acked behind
    rcases ends with finished | silent
    · exact finished.2 came.1
    · exact came.2.2 silent.2.2.2

theorem Completes.acknowledged_iff {acked sent : Nat}
    (completes : Completes call fate start acked sent) (bounded : call.contents.length < 2 ^ 63) :
    Acknowledged vendor call fate start ((List.range sent).map (nthChunk vendor call start)) ↔
      start.toNat ≤ call.contents.length ∧
        ∀ index, More call.contents start index → fate.Acks vendor call start index := by
  obtain ⟨passed, ⟨rfl, finished⟩ | ⟨rfl, more, _sends, silent⟩⟩ := completes
  · exact acknowledged_of_finished bounded passed finished
  · refine iff_of_false (not_acknowledged_of_silent silent) ?_
    intro condition
    exact (condition.2 acked more).reads silent

theorem Answered.success_iff {node : Node} {resp : Packet} {acked sent : Nat}
    (answered : Answered call.inputs call.absPath call.peer node fate resp)
    (completes : Completes call fate start acked sent)
    (succeeded : (fate.sendFile vendor call.inputs node).1 = call.inputs.xferId)
    (chunksSent : (fate.sendFile vendor call.inputs node).2.chunksSent =
      (List.range sent).map (nthChunk vendor call start))
    (bounded : call.contents.length < 2 ^ 63) :
    SuccessAcknowledged vendor call fate start node ↔
      start.toNat ≤ call.contents.length ∧
        ∀ index, More call.contents start index → fate.Acks vendor call start index := by
  have nonempty : (fate.sendFile vendor call.inputs node).1 ≠ [] := by
    rw [succeeded]
    exact xferId_ne_nil call.inputs
  obtain ⟨record, found, _failed, completed, _rest⟩ :=
    (cleanExit vendor call.inputs fate node).record answered.stored
  unfold SuccessAcknowledged
  rw [chunksSent, completes.acknowledged_iff bounded]
  constructor
  · intro success
    exact success nonempty ⟨record, found, completed.mpr succeeded⟩
  · intro condition _succeeds _recorded
    exact condition

end Streaming

/-- The peer does what the call never looks at: it asks for no offset behind the
end of the file and acknowledges every chunk; or the call gives a chunk up. -/
def AcknowledgedOrFails (vendor : Vendor) (call : SendCall) (fate : Fate) (start : UInt64) :
    Prop :=
  (∃ chunk, GivesUpAt call fate start chunk) ∨
    (start.toNat ≤ call.contents.length ∧
      ∀ chunk, More call.contents start chunk → fate.Acks vendor call start chunk)

/-- A success is an acknowledged one exactly when the peer has acknowledged every
chunk by itself: nothing it answers is checked. -/
theorem success_acknowledged_iff {vendor : Vendor} {call : SendCall} {node : Node} {fate : Fate}
    {resp : Packet} (answered : Answered call.inputs call.absPath call.peer node fate resp)
    (unrejected : resp.type ≠ .fileReject) (bounded : call.contents.length < 2 ^ 63) :
    SuccessAcknowledged vendor call fate (answerOffset vendor resp) node ↔
      AcknowledgedOrFails vendor call fate (answerOffset vendor resp) := by
  rcases answered.ends unrejected vendor with
    ⟨chunk, gives, failed⟩ | ⟨acked, sent, completes, succeeded, chunksSent⟩
  · exact iff_of_true (fun succeeds => absurd failed succeeds) (.inl ⟨chunk, gives⟩)
  · rw [answered.success_iff completes succeeded chunksSent bounded, AcknowledgedOrFails]
    constructor
    · exact .inr
    · intro condition
      exact condition.resolve_left fun gives => completes.not_givesUpAt gives.choose_spec

namespace Reference

def oneByteCall : SendCall :=
  sendCall (ascii "x") fun _index => 0

theorem oneByte_bounded : oneByteCall.contents.length < 2 ^ 63 := by
  decide

theorem oneByte_more : More oneByteCall.contents 0 0 := by
  decide

/-- The peer accepts and acknowledges one byte after every chunk. -/
def acknowledgingFate : Fate :=
  { answeredFate .fileAccept with
    ack := fun _chunk => some (ackPacket vendor oneByteCall.inputs.xferId 1) }

theorem acknowledgingFate_answers :
    Answered oneByteCall.inputs oneByteCall.absPath oneByteCall.peer freshNode acknowledgingFate
      { type := .fileAccept, payload := [] } where
  sendable := oneByteCall.sendable
  free := by decide
  connected := rfl
  answered := rfl

theorem one_byte_acknowledged :
    SuccessAcknowledged vendor oneByteCall acknowledgingFate 0 freshNode := by
  refine (@success_acknowledged_iff vendor _ _ _ _ acknowledgingFate_answers nofun
    oneByte_bounded).mpr (.inr ⟨Nat.zero_le _, ?_⟩)
  intro chunk more
  have first : chunk = 0 := by
    have within : chunk * shrChunkSize < 1 := more
    have positive := shrChunkSize_pos
    rcases Nat.eq_zero_or_pos chunk with first | later
    · exact first
    · have scaled := Nat.mul_le_mul later positive
      omega
  subst first
  exact ⟨_, rfl, ackFor_ackPacket vendor _ 1⟩

/-- No packet comes after the only chunk, and the call reports success. -/
theorem unacknowledged_success :
    ¬∀ (vendor : Vendor) (call : SendCall) (node : Node) (fate : Fate) (resp : Packet),
      Answered call.inputs call.absPath call.peer node fate resp → resp.type ≠ .fileReject →
        call.contents.length < 2 ^ 63 →
          SuccessAcknowledged vendor call fate (answerOffset vendor resp) node := by
  intro always
  have success := always vendor oneByteCall freshNode (answeredFate .fileAccept) _
    (answeredFate_answers .fileAccept) nofun oneByte_bounded
  rcases @Answered.ends oneByteCall _ _ _ (answeredFate_answers .fileAccept) nofun vendor with
    ⟨chunk, gives, _failed⟩ | ⟨acked, sent, completes, succeeded, chunksSent⟩
  · exact gives.2.1 ⟨0, by decide, rfl⟩
  · have acks := (((answeredFate_answers .fileAccept).success_iff completes succeeded chunksSent
      oneByte_bounded).mp success).2 0 oneByte_more
    exact acks.reads rfl

end Reference

end Shr
