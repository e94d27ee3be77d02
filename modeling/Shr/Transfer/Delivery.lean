/-
What holds of one transfer at every moment.

`Holds` relates the point of the call, the progress of the receiver and the
state of the link.  The packets of the sender are those of its point, and what
is under way in either direction is some beginning of what has been handed over
and not taken.  There is one lemma for each event, which says where the event
leads; from them it holds in every state that is reached.
-/

import Shr.Transfer.Exchange

namespace Shr

/-! ### What the point of a call tells -/

/-- The packets the sender has come past. -/
def Point.progress : Point → Progress
  | .checkActive => .nothing
  | .store => .nothing
  | .connect => .nothing
  | .connectFailed => .nothing
  | .offer => .nothing
  | .awaitAnswer => .offered 0
  | .abandonClose => .offered 0
  | .abandonRecord => .offered 0
  | .begin _start => .offered 0
  | .enter _start => .offered 0
  | .pause _start chunk _left => .offered chunk
  | .sendChunk _start chunk _left => .offered chunk
  | .awaitAck _start chunk => .offered (chunk + 1)
  | .recordAck _start chunk => .offered (chunk + 1)
  | .failClose _start chunk => .offered chunk
  | .failRecord _start chunk => .offered chunk
  | .failLeave _start chunk => .offered chunk
  | .complete _start _acked sent => .offered sent
  | .completeClose _start _acked sent => .finished sent
  | .completeRecord _start _acked sent => .finished sent
  | .completeLeave _start _acked sent => .finished sent
  | .turnedAway => .nothing
  | .unconnected => .nothing
  | .abandoned => .offered 0
  | .failed _start chunk => .offered chunk
  | .completed _start _acked sent => .finished sent

def Point.consumed : Point → Nat
  | .begin _start => 1
  | .enter _start => 1
  | .pause _start chunk _left => chunk + 1
  | .sendChunk _start chunk _left => chunk + 1
  | .awaitAck _start chunk => chunk + 1
  | .recordAck _start chunk => chunk + 2
  | .failClose _start chunk => chunk + 1
  | .failRecord _start chunk => chunk + 1
  | .failLeave _start chunk => chunk + 1
  | .complete _start acked _sent => acked + 1
  | .completeClose _start acked _sent => acked + 1
  | .completeRecord _start acked _sent => acked + 1
  | .completeLeave _start acked _sent => acked + 1
  | .failed _start chunk => chunk + 1
  | .completed _start acked _sent => acked + 1
  | _ => 0

/-- The number of chunks the sender's record counts, once it counts any. -/
def Point.recorded : Point → Option Nat
  | .enter _start => some 0
  | .pause _start chunk _left => some chunk
  | .sendChunk _start chunk _left => some chunk
  | .awaitAck _start chunk => some chunk
  | .recordAck _start chunk => some chunk
  | .failClose _start chunk => some chunk
  | .failRecord _start chunk => some chunk
  | .failLeave _start chunk => some chunk
  | .complete _start acked _sent => some acked
  | .completeClose _start acked _sent => some acked
  | .completeRecord _start acked _sent => some acked
  | .completeLeave _start acked _sent => some acked
  | .failed _start chunk => some chunk
  | .completed _start acked _sent => some acked
  | _ => none

def Point.recordState : Point → Option TransferState
  | .checkActive => none
  | .store => none
  | .turnedAway => none
  | .enter _start => some .inProgress
  | .pause _start _chunk _left => some .inProgress
  | .sendChunk _start _chunk _left => some .inProgress
  | .awaitAck _start _chunk => some .inProgress
  | .recordAck _start _chunk => some .inProgress
  | .failClose _start _chunk => some .inProgress
  | .failRecord _start _chunk => some .inProgress
  | .complete _start _acked _sent => some .inProgress
  | .completeClose _start _acked _sent => some .inProgress
  | .completeRecord _start _acked _sent => some .inProgress
  | .unconnected => some .failed
  | .abandoned => some .failed
  | .failLeave _start _chunk => some .failed
  | .failed _start _chunk => some .failed
  | .completeLeave _start _acked _sent => some .completed
  | .completed _start _acked _sent => some .completed
  | _ => some .pending

/-! ### Where a call can stand when it asks -/

section Asking

variable {vendor : Vendor} {call : SendCall} {point : Point}

theorem Point.of_connectTo {ip : Bytes} {port : UInt16} {after : Bool → Point}
    (asks : point.move vendor call = .ask (.connectTo ip port) after) :
    point = .connect ∧ after = fun connected => if connected then .offer else .connectFailed := by
  cases point <;> cases asks
  exact ⟨rfl, rfl⟩

theorem Point.of_sendPacket {packet : Packet} {after : Bool → Point}
    (asks : point.move vendor call = .ask (.sendPacket packet) after) :
    (point = .offer ∧ packet = offerPacket vendor call.inputs call.absPath ∧
        after = fun _sent => .awaitAnswer) ∨
      (∃ start chunk left, point = .sendChunk start chunk left ∧
        packet = nthChunk vendor call start chunk ∧ after = afterAttempt start chunk left) ∨
      (∃ start acked sent, point = .complete start acked sent ∧
        packet = completePacket vendor call.inputs ∧
        after = fun _sent => .completeClose start acked sent) := by
  cases point with
  | offer =>
      cases asks
      exact Or.inl ⟨rfl, rfl, rfl⟩
  | sendChunk start chunk left =>
      cases asks
      exact Or.inr (Or.inl ⟨start, chunk, left, rfl, rfl, rfl⟩)
  | complete start acked sent =>
      cases asks
      exact Or.inr (Or.inr ⟨start, acked, sent, rfl, rfl, rfl⟩)
  | _ => cases asks

theorem Point.of_readPacket {after : Option Packet → Point}
    (asks : point.move vendor call = .ask .readPacket after) :
    (point = .awaitAnswer ∧ after = afterAnswer vendor) ∨
      (∃ start chunk, point = .awaitAck start chunk ∧ after = afterAck start chunk) := by
  cases point with
  | awaitAnswer =>
      cases asks
      exact Or.inl ⟨rfl, rfl⟩
  | awaitAck start chunk =>
      cases asks
      exact Or.inr ⟨start, chunk, rfl, rfl⟩
  | _ => cases asks

theorem Point.of_closeConn {after : Unit → Point}
    (asks : point.move vendor call = .ask .closeConn after) :
    (point = .abandonClose ∧ after = fun _closed => .abandonRecord) ∨
      (∃ start chunk, point = .failClose start chunk ∧
        after = fun _closed => .failRecord start chunk) ∨
      (∃ start acked sent, point = .completeClose start acked sent ∧
        after = fun _closed => .completeRecord start acked sent) := by
  cases point with
  | abandonClose =>
      cases asks
      exact Or.inl ⟨rfl, rfl⟩
  | failClose start chunk =>
      cases asks
      exact Or.inr (Or.inl ⟨start, chunk, rfl, rfl⟩)
  | completeClose start acked sent =>
      cases asks
      exact Or.inr (Or.inr ⟨start, acked, sent, rfl, rfl⟩)
  | _ => cases asks

end Asking

/-! ### What holds at every moment -/

namespace Exchange

section Holds

variable {vendor : Vendor} {host : Host} (exchange : Exchange vendor host)

def Proper : Point → Prop
  | .begin start => start = exchange.offset
  | .enter start => start = exchange.offset
  | .pause start chunk _left => start = exchange.offset ∧ exchange.More chunk
  | .sendChunk start chunk _left => start = exchange.offset ∧ exchange.More chunk
  | .awaitAck start chunk => start = exchange.offset ∧ exchange.More chunk
  | .recordAck start chunk => start = exchange.offset ∧ exchange.More chunk
  | .failClose start chunk => start = exchange.offset ∧ exchange.More chunk
  | .failRecord start chunk => start = exchange.offset ∧ exchange.More chunk
  | .failLeave start chunk => start = exchange.offset ∧ exchange.More chunk
  | .failed start chunk => start = exchange.offset ∧ exchange.More chunk
  | .complete start acked sent => start = exchange.offset ∧ Left acked sent
  | .completeClose start acked sent => start = exchange.offset ∧ Left acked sent
  | .completeRecord start acked sent => start = exchange.offset ∧ Left acked sent
  | .completeLeave start acked sent => start = exchange.offset ∧ Left acked sent
  | .completed start acked sent => start = exchange.offset ∧ Left acked sent
  | _ => True
where
  /-- The loop was left at the end of the file, or for want of a reply. -/
  Left (acked sent : Nat) : Prop :=
    (∀ index < sent, exchange.More index) ∧
      ((sent = acked ∧ ¬exchange.More sent) ∨ sent = acked + 1)

def recordedBytes (point : Point) : UInt64 :=
  point.recorded.elim 0 exchange.bytesAt

/-- The sender's record is the one its point tells. -/
structure SenderRecord (point : Point) (node : Node) : Prop where
  unstored : point.recordState = none →
    node.transfers.getTransfer exchange.id = exchange.sender.transfers.getTransfer exchange.id
  stored : ∀ state, point.recordState = some state →
    ∃ record, node.transfers.getTransfer exchange.id = some record ∧
      record.totalBytes = exchange.call.inputs.fileSize ∧
      record.transferredBytes = exchange.recordedBytes point ∧ record.state = state

structure Holds (point : Point) (received : Progress) (link : Link) : Prop where
  follows : exchange.call.At vendor point link.sender
  proper : exchange.Proper point
  record : exchange.SenderRecord point link.senderNode
  behind : received.Within point.progress
  outward : Fifo.Carries (link.up = true) (exchange.packets point.progress)
    (exchange.packets received).length link.toReceiver
  inward : Fifo.Carries (link.up = true) (exchange.replies received) point.consumed
    link.toSender
  consumed : point.consumed ≤ (exchange.replies received).length
  received : exchange.Received received link.receiverNode

end Holds

section Local

variable {vendor : Vendor} {host : Host} {exchange : Exchange vendor host} {point : Point}

theorem more_of_proper (proper : exchange.Proper point) :
    ∀ index < point.progress.chunks, exchange.More index := by
  intro index inside
  cases point with
  | pause start chunk left => exact proper.2.earlier (Nat.le_of_lt inside)
  | sendChunk start chunk left => exact proper.2.earlier (Nat.le_of_lt inside)
  | awaitAck start chunk => exact proper.2.earlier (Nat.le_of_lt_succ inside)
  | recordAck start chunk => exact proper.2.earlier (Nat.le_of_lt_succ inside)
  | failClose start chunk => exact proper.2.earlier (Nat.le_of_lt inside)
  | failRecord start chunk => exact proper.2.earlier (Nat.le_of_lt inside)
  | failLeave start chunk => exact proper.2.earlier (Nat.le_of_lt inside)
  | failed start chunk => exact proper.2.earlier (Nat.le_of_lt inside)
  | complete start acked sent => exact proper.2.1 index inside
  | completeClose start acked sent => exact proper.2.1 index inside
  | completeRecord start acked sent => exact proper.2.1 index inside
  | completeLeave start acked sent => exact proper.2.1 index inside
  | completed start acked sent => exact proper.2.1 index inside
  | _ => exact absurd inside (Nat.not_lt_zero index)

theorem loopPoint_facts {chunk : Nat} (more : ∀ index < chunk, exchange.More index) :
    exchange.Proper (loopPoint exchange.contents exchange.offset chunk) ∧
      (loopPoint exchange.contents exchange.offset chunk).progress = .offered chunk ∧
      (loopPoint exchange.contents exchange.offset chunk).consumed = chunk + 1 ∧
      (loopPoint exchange.contents exchange.offset chunk).recorded = some chunk ∧
      (loopPoint exchange.contents exchange.offset chunk).recordState = some .inProgress := by
  unfold loopPoint
  by_cases next : Shr.More exchange.contents exchange.offset chunk
  · rw [if_pos next]
    exact ⟨⟨rfl, next⟩, rfl, rfl, rfl, rfl⟩
  · rw [if_neg next]
    exact ⟨⟨rfl, more, Or.inl ⟨rfl, next⟩⟩, rfl, rfl, rfl, rfl⟩

theorem SenderRecord.moved {after : Point} {node : Node}
    (record : exchange.SenderRecord point node)
    (sameState : after.recordState = point.recordState)
    (sameRecorded : after.recorded = point.recorded) :
    exchange.SenderRecord after node := by
  constructor
  · intro unstored
    exact record.unstored (sameState ▸ unstored)
  · intro state stored
    unfold recordedBytes
    rw [sameRecorded]
    exact record.stored state (sameState ▸ stored)

theorem SenderRecord.elsewhere {node other : Node} (record : exchange.SenderRecord point node)
    (sameRecord : other.transfers.getTransfer exchange.id =
      node.transfers.getTransfer exchange.id) : exchange.SenderRecord point other := by
  constructor
  · intro unstored
    exact sameRecord.trans (record.unstored unstored)
  · intro state stored
    have same := record.stored state stored
    rw [← sameRecord] at same
    exact same

theorem SenderRecord.updated {after : Point} {node : Node}
    (record : exchange.SenderRecord point node) {earlier : TransferState}
    (stored : point.recordState = some earlier) {transferred : UInt64} {state : TransferState}
    (now : Int64) (sameState : after.recordState = some state)
    (sameBytes : exchange.recordedBytes after = transferred) :
    exchange.SenderRecord after
      { node with
        transfers :=
          node.transfers.updateTransferProgress exchange.id transferred state now } := by
  constructor
  · intro unstored
    rw [sameState] at unstored
    cases unstored
  · intro wanted same
    rw [sameState] at same
    cases same
    obtain ⟨row, found, totalBytes, _transferred, _state⟩ := record.stored earlier stored
    refine ⟨row.progressed transferred state now, ?_, totalBytes, sameBytes.symm, rfl⟩
    rw [TransferTable.getTransfer_update_self _ _ _ _ rfl, found, Option.map_some]

/-- What a step that does not use the link leaves: the packets and the replies
it counts, and the record it tells of. -/
structure LocalStep (exchange : Exchange vendor host) (before after : Point) (node : Node) :
    Prop where
  proper : exchange.Proper after
  progress : after.progress = before.progress
  consumed : after.consumed = before.consumed
  record : exchange.SenderRecord after node

private theorem localStep_loop {chunk : Nat} {node : Node}
    (more : ∀ index < chunk, exchange.More index) (progress : point.progress = .offered chunk)
    (consumed : point.consumed = chunk + 1)
    (record : ∀ after : Point, after.recordState = some .inProgress →
      after.recorded = some chunk → exchange.SenderRecord after node) :
    exchange.LocalStep point (loopPoint exchange.contents exchange.offset chunk) node := by
  obtain ⟨proper, sameProgress, sameConsumed, recorded, state⟩ := loopPoint_facts more
  constructor
  · exact proper
  · rw [sameProgress, progress]
  · rw [sameConsumed, consumed]
  · exact record _ state recorded

private theorem localStep_active {node : Node}
    (record : exchange.SenderRecord .checkActive node) (active : Int) :
    exchange.LocalStep .checkActive (afterActive active) node := by
  unfold afterActive
  by_cases full : shrMaxConcurrent ≤ active
  · rw [if_pos full]
    exact ⟨trivial, rfl, rfl, record.moved rfl rfl⟩
  · rw [if_neg full]
    exact ⟨trivial, rfl, rfl, record.moved rfl rfl⟩

theorem localStep {node : Node} {op : SendOp} {after : op.Reply → Point} (isLocal : op.Local)
    (asks : point.move vendor exchange.call = .ask op after) (proper : exchange.Proper point)
    (record : exchange.SenderRecord point node) (answer : Answer) :
    exchange.LocalStep point (after (op.effect answer node).1) (op.effect answer node).2 := by
  cases point with
  | checkActive =>
      cases asks
      exact localStep_active record _
  | store =>
      cases asks
      refine ⟨trivial, rfl, rfl, ?_⟩
      constructor
      · intro unstored
        cases unstored
      · intro state stored
        cases stored
        exact ⟨_, TransferTable.getTransfer_upsert_self _ _ rfl, rfl, rfl, rfl⟩
  | connectFailed =>
      cases asks
      exact ⟨trivial, rfl, rfl, record.updated rfl _ rfl rfl⟩
  | abandonRecord =>
      cases asks
      exact ⟨trivial, rfl, rfl, record.updated rfl _ rfl rfl⟩
  | begin start =>
      cases asks
      obtain rfl : start = exchange.offset := proper
      have begun : exchange.recordedBytes (.enter exchange.offset) = exchange.offset :=
        position_zero
      exact ⟨rfl, rfl, rfl, record.updated rfl _ rfl begun⟩
  | enter start =>
      cases asks
      obtain rfl : start = exchange.offset := proper
      apply localStep_loop
      · intro index impossible
        exact absurd impossible (Nat.not_lt_zero index)
      · rfl
      · rfl
      · intro after state recorded
        apply SenderRecord.elsewhere (record.moved state recorded)
        rfl
  | pause start chunk left =>
      cases asks
      exact ⟨proper, rfl, rfl, record.moved rfl rfl⟩
  | recordAck start chunk =>
      cases asks
      obtain ⟨rfl, more⟩ := proper
      apply localStep_loop
      · intro index inside
        exact more.earlier (Nat.le_of_lt_succ inside)
      · rfl
      · rfl
      · intro after state recorded
        apply record.updated rfl _ state
        unfold recordedBytes
        rw [recorded]
        rfl
  | failRecord start chunk =>
      cases asks
      obtain ⟨rfl, more⟩ := proper
      exact ⟨⟨rfl, more⟩, rfl, rfl, record.updated rfl _ rfl rfl⟩
  | failLeave start chunk =>
      cases asks
      have moved : exchange.SenderRecord (.failed start chunk) node := record.moved rfl rfl
      refine ⟨proper, rfl, rfl, moved.elsewhere ?_⟩
      rfl
  | completeRecord start acked sent =>
      cases asks
      obtain ⟨rfl, left⟩ := proper
      exact ⟨⟨rfl, left⟩, rfl, rfl, record.updated rfl _ rfl rfl⟩
  | completeLeave start acked sent =>
      cases asks
      have moved : exchange.SenderRecord (.completed start acked sent) node := record.moved rfl rfl
      refine ⟨proper, rfl, rfl, moved.elsewhere ?_⟩
      rfl
  | _ => cases asks <;> exact absurd isLocal not_false

end Local

/-! ### Packets and replies -/

section Sending

variable {vendor : Vendor} {host : Host} {exchange : Exchange vendor host} {point : Point}
  {packet : Packet} {after : Bool → Point}

theorem sends_of_asks (asks : point.move vendor exchange.call = .ask (.sendPacket packet) after)
    (proper : exchange.Proper point) :
    exchange.Sends point.progress packet (after true).progress := by
  rcases Point.of_sendPacket asks with ⟨rfl, rfl, rfl⟩ | ⟨start, chunk, left, rfl, rfl, rfl⟩ |
    ⟨start, acked, sent, rfl, rfl, rfl⟩
  · exact .offer
  · obtain ⟨rfl, more⟩ := proper
    exact .chunk chunk more
  · exact .complete sent

/-- A chunk that could not be sent is not counted; the other packets are, whether
they could be sent or not. -/
theorem progress_of_failed
    (asks : point.move vendor exchange.call = .ask (.sendPacket packet) after)
    (proper : exchange.Proper point) :
    (after false).progress = point.progress ∨
      exchange.Sends point.progress packet (after false).progress := by
  rcases Point.of_sendPacket asks with ⟨rfl, rfl, rfl⟩ | ⟨start, chunk, left, rfl, rfl, rfl⟩ |
    ⟨start, acked, sent, rfl, rfl, rfl⟩
  · exact Or.inr .offer
  · cases left with
    | zero => exact Or.inl rfl
    | succ left => exact Or.inl rfl
  · exact Or.inr (.complete sent)

/-- What a reply leaves that neither takes a packet nor writes a record. -/
structure SendStep (exchange : Exchange vendor host) (before after : Point) : Prop where
  proper : exchange.Proper after
  consumed : after.consumed = before.consumed
  recordState : after.recordState = before.recordState
  recorded : after.recorded = before.recorded

theorem sendStep (asks : point.move vendor exchange.call = .ask (.sendPacket packet) after)
    (proper : exchange.Proper point) (sent : Bool) : exchange.SendStep point (after sent) := by
  rcases Point.of_sendPacket asks with ⟨rfl, rfl, rfl⟩ | ⟨start, chunk, left, rfl, rfl, rfl⟩ |
    ⟨start, acked, sent, rfl, rfl, rfl⟩
  · exact ⟨trivial, rfl, rfl, rfl⟩
  · cases sent with
    | true => exact ⟨proper, rfl, rfl, rfl⟩
    | false =>
        cases left with
        | zero => exact ⟨proper, rfl, rfl, rfl⟩
        | succ left => exact ⟨proper, rfl, rfl, rfl⟩
  · exact ⟨proper, rfl, rfl, rfl⟩

end Sending

section Replies

variable {vendor : Vendor} {host : Host} {exchange : Exchange vendor host}

theorem within_of_sends {received before after : Progress} {packet : Packet}
    (behind : received.Within before) (sends : exchange.Sends before packet after) :
    received.Within after := by
  cases sends with
  | offer =>
      cases received with
      | nothing => trivial
      | _ => cases behind
  | chunk index more =>
      cases received with
      | nothing => trivial
      | offered few => exact Nat.le_succ_of_le behind
      | finished few => cases behind
  | complete chunks =>
      cases received with
      | nothing => trivial
      | offered few => exact behind
      | finished few => cases behind

theorem length_packets_le {received sent : Progress} (behind : received.Within sent) :
    (exchange.packets received).length ≤ (exchange.packets sent).length := by
  cases received with
  | nothing => exact Nat.zero_le _
  | offered few =>
      cases sent with
      | nothing => cases behind
      | offered many =>
          have fewer : few ≤ many := behind
          rw [length_packets_offered, length_packets_offered]
          omega
      | finished many =>
          have fewer : few ≤ many := behind
          rw [length_packets_offered, length_packets_finished]
          omega
  | finished few =>
      cases sent with
      | nothing => cases behind
      | offered many => cases behind
      | finished many =>
          have same : few = many := behind
          rw [same]

theorem length_replies_offered (chunks : Nat) :
    (exchange.replies (.offered chunks)).length = chunks + 1 := by
  simp [replies]

theorem replies_zero {progress : Progress} {reply : Packet}
    (first : (exchange.replies progress)[0]? = some reply) : reply = exchange.answer := by
  cases progress with
  | nothing => cases first
  | offered chunks =>
      cases first
      rfl
  | finished chunks =>
      cases first
      rfl

private theorem afterAnswer_resume (offset : UInt64) :
    afterAnswer vendor (some (resumePacket vendor offset)) = .begin offset := by
  have type : (resumePacket vendor offset).type = .fileResume := rfl
  have decoded : readFileResume vendor (resumePacket vendor offset).payload = offset :=
    readFileResume_toCbor vendor offset
  unfold afterAnswer answerOffset
  simp [type, decoded]

theorem afterAnswer_answer :
    afterAnswer vendor (some exchange.answer) = .begin exchange.offset := by
  unfold answer offset
  cases exchange.paused with
  | none => rfl
  | some record => exact afterAnswer_resume record.transferredBytes

end Replies

/-! ### One lemma for each event -/

section Events

variable {vendor : Vendor} {host : Host} {exchange : Exchange vendor host} {point : Point}
  {received : Progress} {link : Link}

theorem Holds.asks (holds : exchange.Holds point received link) {op : SendOp}
    {next : op.Reply → SendProgram Bytes} (sender : link.sender = .call op next) :
    ∃ after, point.move vendor exchange.call = .ask op after := by
  have follows := holds.follows
  rw [sender] at follows
  obtain ⟨after, asks, _rest⟩ := follows.asks
  exact ⟨after, asks⟩

theorem Holds.atConnect (holds : exchange.Holds point received link) {ip : Bytes}
    {port : UInt16} {next : Bool → SendProgram Bytes}
    (sender : link.sender = .call (.connectTo ip port) next) :
    point = .connect ∧ ip = exchange.call.peer.ip ∧ port = exchange.call.peer.port := by
  obtain ⟨after, asks⟩ := holds.asks sender
  obtain ⟨isConnect, _after⟩ := Point.of_connectTo asks
  rw [isConnect] at asks
  cases asks
  exact ⟨isConnect, rfl, rfl⟩

theorem Holds.next (holds : exchange.Holds point received link) {op : SendOp}
    {next : op.Reply → SendProgram Bytes} {after : op.Reply → Point}
    (sender : link.sender = .call op next)
    (asks : point.move vendor exchange.call = .ask op after) (reply : op.Reply) :
    exchange.call.At vendor (after reply) (next reply) := by
  have follows := holds.follows
  rw [sender] at follows
  exact follows.next asks reply

theorem Holds.runs (holds : exchange.Holds point received link) {op : SendOp}
    {next : op.Reply → SendProgram Bytes} {after : op.Reply → Point}
    (sender : link.sender = .call op next)
    (asks : point.move vendor exchange.call = .ask op after) (isLocal : op.Local)
    (answer : Answer) :
    exchange.Holds (after (op.effect answer link.senderNode).1) received
      { link with
        sender := next (op.effect answer link.senderNode).1
        senderNode := (op.effect answer link.senderNode).2 } := by
  have step := localStep isLocal asks holds.proper holds.record answer
  constructor
  · exact holds.next sender asks _
  · exact step.proper
  · exact step.record
  · rw [step.progress]
    exact holds.behind
  · rw [step.progress]
    exact holds.outward
  · rw [step.consumed]
    exact holds.inward
  · rw [step.consumed]
    exact holds.consumed
  · exact holds.received

theorem Holds.nothing_received (holds : exchange.Holds point received link)
    (unsent : point.progress = .nothing) : received = .nothing := by
  have behind := holds.behind
  rw [unsent] at behind
  cases received with
  | nothing => rfl
  | offered chunks => cases behind
  | finished chunks => cases behind

theorem Holds.connects (holds : exchange.Holds .connect received link)
    {next : Bool → SendProgram Bytes}
    (sender : link.sender =
      .call (.connectTo exchange.call.peer.ip exchange.call.peer.port) next) :
    exchange.Holds .offer received
      { link with
        sender := next true
        up := true } := by
  have unreceived := holds.nothing_received rfl
  constructor
  · exact holds.next sender rfl true
  · trivial
  · exact holds.record.moved rfl rfl
  · exact holds.behind
  · exact holds.outward.restore (Nat.zero_le _)
  · have inward := holds.inward
    rw [unreceived] at inward ⊢
    exact inward.restore (Nat.zero_le _)
  · exact Nat.zero_le _
  · exact holds.received

theorem Holds.goesOn (holds : exchange.Holds point received link) {op : SendOp}
    {next : op.Reply → SendProgram Bytes} {after : op.Reply → Point}
    (sender : link.sender = .call op next)
    (asks : point.move vendor exchange.call = .ask op after) (reply : op.Reply)
    (step : exchange.SendStep point (after reply))
    (progress : (after reply).progress = point.progress) :
    exchange.Holds (after reply) received { link with sender := next reply } := by
  constructor
  · exact holds.next sender asks reply
  · exact step.proper
  · exact holds.record.moved step.recordState step.recorded
  · rw [progress]
    exact holds.behind
  · rw [progress]
    exact holds.outward
  · rw [step.consumed]
    exact holds.inward
  · rw [step.consumed]
    exact holds.consumed
  · exact holds.received

theorem Holds.refused (holds : exchange.Holds .connect received link)
    {next : Bool → SendProgram Bytes}
    (sender : link.sender =
      .call (.connectTo exchange.call.peer.ip exchange.call.peer.port) next) :
    exchange.Holds .connectFailed received { link with sender := next false } :=
  holds.goesOn sender rfl false ⟨trivial, rfl, rfl, rfl⟩ rfl

section Sends

variable {packet : Packet} {after : Bool → Point} {next : Bool → SendProgram Bytes}

theorem Holds.sends (holds : exchange.Holds point received link)
    (sender : link.sender = .call (.sendPacket packet) next)
    (asks : point.move vendor exchange.call = .ask (.sendPacket packet) after)
    (up : link.up = true) :
    exchange.Holds (after true) received
      { link with
        sender := next true
        toReceiver := link.toReceiver ++ [packet]
        sent := link.sent ++ [packet] } := by
  have step := sendStep asks holds.proper true
  have sends := sends_of_asks asks holds.proper
  constructor
  · exact holds.next sender asks true
  · exact step.proper
  · exact holds.record.moved step.recordState step.recorded
  · exact within_of_sends holds.behind sends
  · rw [sends.packets]
    exact holds.outward.push up (length_packets_le holds.behind) _
  · rw [step.consumed]
    exact holds.inward
  · rw [step.consumed]
    exact holds.consumed
  · exact holds.received

theorem Holds.loses (holds : exchange.Holds point received link)
    (sender : link.sender = .call (.sendPacket packet) next)
    (asks : point.move vendor exchange.call = .ask (.sendPacket packet) after)
    (down : link.up = false) :
    exchange.Holds (after true) received
      { link with
        sender := next true
        sent := link.sent ++ [packet] } := by
  have step := sendStep asks holds.proper true
  have sends := sends_of_asks asks holds.proper
  have broken : ¬link.up = true := by
    rw [down]
    exact Bool.false_ne_true
  constructor
  · exact holds.next sender asks true
  · exact step.proper
  · exact holds.record.moved step.recordState step.recorded
  · exact within_of_sends holds.behind sends
  · rw [sends.packets]
    exact holds.outward.lose broken (length_packets_le holds.behind) _
  · rw [step.consumed]
    exact holds.inward
  · rw [step.consumed]
    exact holds.consumed
  · exact holds.received

theorem Holds.failsToSend (holds : exchange.Holds point received link)
    (sender : link.sender = .call (.sendPacket packet) next)
    (asks : point.move vendor exchange.call = .ask (.sendPacket packet) after) :
    exchange.Holds (after false) received
      { link with
        sender := next false
        up := false
        sent := link.sent ++ [packet] } := by
  have step := sendStep asks holds.proper false
  constructor
  · exact holds.next sender asks false
  · exact step.proper
  · exact holds.record.moved step.recordState step.recorded
  · rcases progress_of_failed asks holds.proper with same | sends
    · rw [same]
      exact holds.behind
    · exact within_of_sends holds.behind sends
  · rcases progress_of_failed asks holds.proper with same | sends
    · rw [same]
      exact holds.outward.cut Bool.false_ne_true List.prefix_rfl
    · rw [sends.packets]
      exact holds.outward.lose Bool.false_ne_true (length_packets_le holds.behind) _
  · rw [step.consumed]
    exact holds.inward.cut Bool.false_ne_true List.prefix_rfl
  · rw [step.consumed]
    exact holds.consumed
  · exact holds.received

end Sends

section Reads

variable {next : Option Packet → SendProgram Bytes}

theorem Holds.receivesAnswer (holds : exchange.Holds .awaitAnswer received link)
    (sender : link.sender = .call .readPacket next) {packet : Packet} {rest : List Packet}
    (arrived : link.toSender = packet :: rest) :
    exchange.Holds (.begin exchange.offset) received
      { link with
        sender := next (some packet)
        toSender := rest } := by
  have inward := holds.inward
  rw [arrived] at inward
  have isAnswer : packet = exchange.answer := replies_zero inward.head
  have begins : afterAnswer vendor (some packet) = .begin exchange.offset := by
    rw [isAnswer]
    exact afterAnswer_answer
  have follows := holds.next sender rfl (some packet)
  rw [begins] at follows
  constructor
  · exact follows
  · rfl
  · exact holds.record.moved rfl rfl
  · exact holds.behind
  · exact holds.outward
  · exact inward.pop
  · exact inward.inside
  · exact holds.received

theorem Holds.receivesAck {start : UInt64} {chunk : Nat}
    (holds : exchange.Holds (.awaitAck start chunk) received link)
    (sender : link.sender = .call .readPacket next) {packet : Packet} {rest : List Packet}
    (arrived : link.toSender = packet :: rest) :
    exchange.Holds (.recordAck start chunk) received
      { link with
        sender := next (some packet)
        toSender := rest } := by
  have inward := holds.inward
  rw [arrived] at inward
  constructor
  · exact holds.next sender rfl (some packet)
  · exact holds.proper
  · exact holds.record.moved rfl rfl
  · exact holds.behind
  · exact holds.outward
  · exact inward.pop
  · exact inward.inside
  · exact holds.received

theorem Holds.missesAnswer (holds : exchange.Holds .awaitAnswer received link)
    (sender : link.sender = .call .readPacket next) :
    exchange.Holds .abandonClose received { link with sender := next none } :=
  holds.goesOn sender rfl none ⟨trivial, rfl, rfl, rfl⟩ rfl

/-- A missing acknowledgement leaves the loop as the end of the file does. -/
theorem Holds.missesAck {start : UInt64} {chunk : Nat}
    (holds : exchange.Holds (.awaitAck start chunk) received link)
    (sender : link.sender = .call .readPacket next) :
    exchange.Holds (.complete start chunk (chunk + 1)) received
      { link with sender := next none } := by
  have proper : exchange.Proper (.complete start chunk (chunk + 1)) :=
    ⟨holds.proper.1, more_of_proper holds.proper, .inr rfl⟩
  exact holds.goesOn sender rfl none ⟨proper, rfl, rfl, rfl⟩ rfl

end Reads

theorem Holds.closes (holds : exchange.Holds point received link)
    {next : Unit → SendProgram Bytes} {after : Unit → Point}
    (sender : link.sender = .call .closeConn next)
    (asks : point.move vendor exchange.call = .ask .closeConn after) :
    exchange.Holds (after ()) received
      { link with
        sender := next ()
        toSender := []
        up := false } := by
  have follows := holds.next sender asks ()
  rcases Point.of_closeConn asks with ⟨rfl, rfl⟩ | ⟨start, chunk, rfl, rfl⟩ |
    ⟨start, acked, sent, rfl, rfl⟩
  all_goals
    constructor
    · exact follows
    · exact holds.proper
    · exact holds.record.moved rfl rfl
    · exact holds.behind
    · exact holds.outward.cut Bool.false_ne_true List.prefix_rfl
    · exact holds.inward.cut Bool.false_ne_true (List.nil_prefix)
    · exact holds.consumed
    · exact holds.received

theorem Holds.handles (holds : exchange.Holds point received link) {packet : Packet}
    {rest : List Packet} (arrived : link.toReceiver = packet :: rest) {arrival : Arrival}
    (takes : exchange.Takes arrival packet) {handled : Handled}
    (runs : handleTransferPacket vendor host arrival packet link.receiverNode = handled) :
    ∃ after, exchange.Sends received packet after ∧
      exchange.Holds point after
        { link with
          toReceiver := rest
          toSender := if link.up then link.toSender ++ handled.replies else link.toSender
          receiverNode := handled.node } := by
  have outward := holds.outward
  rw [arrived] at outward
  obtain ⟨after, sends, within⟩ :=
    sends_next (more_of_proper holds.proper) holds.behind outward.head
  have handles := sends.handles takes holds.received
  rw [runs] at handles
  have taken : (exchange.packets after).length = (exchange.packets received).length + 1 := by
    rw [sends.packets, List.length_append, List.length_singleton]
  refine ⟨after, sends, ?_⟩
  constructor
  · exact holds.follows
  · exact holds.proper
  · exact holds.record
  · exact within
  · rw [taken]
    exact outward.pop
  · rw [handles.replies]
    cases up : link.up with
    | true => exact holds.inward.push up holds.consumed _
    | false => exact holds.inward.lose Bool.false_ne_true holds.consumed _
  · rw [handles.replies, List.length_append]
    exact Nat.le_add_right_of_le holds.consumed
  · exact handles.received

theorem Holds.cut (holds : exchange.Holds point received link) (outward inward : Nat) :
    exchange.Holds point received
      { link with
        toReceiver := link.toReceiver.take outward
        toSender := link.toSender.take inward
        up := false } where
  follows := holds.follows
  proper := holds.proper
  record := holds.record
  behind := holds.behind
  outward := holds.outward.cut Bool.false_ne_true (List.take_prefix _ _)
  inward := holds.inward.cut Bool.false_ne_true (List.take_prefix _ _)
  consumed := holds.consumed
  received := holds.received

theorem Holds.senderElsewhere (holds : exchange.Holds point received link) {node : Node}
    (sameRecord : node.transfers.getTransfer exchange.id =
      link.senderNode.transfers.getTransfer exchange.id) :
    exchange.Holds point received { link with senderNode := node } where
  follows := holds.follows
  proper := holds.proper
  record := holds.record.elsewhere sameRecord
  behind := holds.behind
  outward := holds.outward
  inward := holds.inward
  consumed := holds.consumed
  received := holds.received

theorem Holds.receiverElsewhere (holds : exchange.Holds point received link) {node : Node}
    (elsewhere : Elsewhere host exchange.id exchange.path link.receiverNode node) :
    exchange.Holds point received { link with receiverNode := node } where
  follows := holds.follows
  proper := holds.proper
  record := holds.record
  behind := holds.behind
  outward := holds.outward
  inward := holds.inward
  consumed := holds.consumed
  received := holds.received.elsewhere elsewhere

end Events

/-! ### Every state that is reached -/

section Reached

variable {vendor : Vendor} {host : Host} (exchange : Exchange vendor host)

def opening : Link :=
  Link.start vendor exchange.call exchange.sender exchange.receiver

abbrev Moves : Link → LinkEvent → Link → Prop :=
  LinkStep vendor host exchange.call exchange.path

/-- A move at which the receiver's file and database calls succeed. -/
def Step (before : Link) (event : LinkEvent) (after : Link) : Prop :=
  exchange.Moves before event after ∧ event.Sound

def Taken (link : Link) : LinkEvent → Prop
  | .handles arrival => ∀ packet rest, link.toReceiver = packet :: rest →
      exchange.Takes arrival packet
  | _ => True

/-- What a move does to the receiver: it handles the next packet, or leaves the
transfer alone. -/
inductive Receives (before after : Link) : LinkEvent → Progress → Progress → Prop where
  | handles {arrival : Arrival} {packet : Packet} {received further : Progress}
      (sends : exchange.Sends received packet further)
      (node : after.receiverNode =
        (handleTransferPacket vendor host arrival packet before.receiverNode).node) :
      Receives before after (.handles arrival) received further
  | elsewhere {event : LinkEvent} {received : Progress}
      (elsewhere : Elsewhere host exchange.id exchange.path before.receiverNode
        after.receiverNode) :
      Receives before after event received received

def Reaches (link : Link) : Prop :=
  ∃ events, Steps exchange.Step exchange.opening events link

variable {exchange}

theorem holds_opening : exchange.Holds .checkActive .nothing exchange.opening where
  follows := sendFile_at vendor exchange.call
  proper := trivial
  record := by
    constructor
    · intro _unstored
      rfl
    · intro state impossible
      cases impossible
  behind := trivial
  outward := .nothing _
  inward := .nothing _
  consumed := Nat.le_refl _
  received := received_nothing

theorem taken_of_sound {link : Link} {event : LinkEvent} (sound : event.Sound) :
    exchange.Taken link event := by
  cases event with
  | handles arrival => exact fun packet _rest _arrived => takes_of_sound sound packet
  | _ => trivial

theorem Holds.step {point : Point} {received : Progress} {link after : Link} {event : LinkEvent}
    (holds : exchange.Holds point received link) (step : exchange.Moves link event after)
    (taken : exchange.Taken link event) :
    ∃ point further, exchange.Holds point further after ∧
      exchange.Receives link after event received further := by
  have still : Elsewhere host exchange.id exchange.path link.receiverNode link.receiverNode :=
    .refl _ _ _ _
  cases step with
  | runs now sender isLocal answer clock =>
      obtain ⟨_after, asks⟩ := holds.asks sender
      exact ⟨_, _, holds.runs sender asks isLocal answer, .elsewhere still⟩
  | connects sender =>
      obtain ⟨rfl, rfl, rfl⟩ := holds.atConnect sender
      exact ⟨_, _, holds.connects sender, .elsewhere still⟩
  | refused sender =>
      obtain ⟨rfl, rfl, rfl⟩ := holds.atConnect sender
      exact ⟨_, _, holds.refused sender, .elsewhere still⟩
  | sends sender up =>
      obtain ⟨_after, asks⟩ := holds.asks sender
      exact ⟨_, _, holds.sends sender asks up, .elsewhere still⟩
  | loses sender down =>
      obtain ⟨_after, asks⟩ := holds.asks sender
      exact ⟨_, _, holds.loses sender asks down, .elsewhere still⟩
  | failsToSend sender =>
      obtain ⟨_after, asks⟩ := holds.asks sender
      exact ⟨_, _, holds.failsToSend sender asks, .elsewhere still⟩
  | receives sender arrived =>
      obtain ⟨_after, asks⟩ := holds.asks sender
      rcases Point.of_readPacket asks with ⟨rfl, rfl⟩ | ⟨start, chunk, rfl, rfl⟩
      · exact ⟨_, _, holds.receivesAnswer sender arrived, .elsewhere still⟩
      · exact ⟨_, _, holds.receivesAck sender arrived, .elsewhere still⟩
  | timesOut sender =>
      obtain ⟨_after, asks⟩ := holds.asks sender
      rcases Point.of_readPacket asks with ⟨rfl, rfl⟩ | ⟨start, chunk, rfl, rfl⟩
      · exact ⟨_, _, holds.missesAnswer sender, .elsewhere still⟩
      · exact ⟨_, _, holds.missesAck sender, .elsewhere still⟩
  | closes sender =>
      obtain ⟨_after, asks⟩ := holds.asks sender
      exact ⟨_, _, holds.closes sender asks, .elsewhere still⟩
  | handles arrival arrived runs =>
      obtain ⟨further, sends, kept⟩ := holds.handles arrived (taken _ _ arrived) runs
      exact ⟨_, _, kept, .handles sends (congrArg Handled.node runs.symm)⟩
  | cut outward inward => exact ⟨_, _, holds.cut outward inward, .elsewhere still⟩
  | senderElsewhere sameRecord =>
      exact ⟨_, _, holds.senderElsewhere sameRecord, .elsewhere still⟩
  | receiverElsewhere elsewhere =>
      exact ⟨_, _, holds.receiverElsewhere elsewhere, .elsewhere elsewhere⟩

end Reached

end Exchange

end Shr
