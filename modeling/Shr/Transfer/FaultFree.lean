/-
A transfer over a connection that neither fails nor times out.

Such a transfer ends, and it can only end with the whole file on both sides.
Without faults the call keeps to the points `Smooth`, nothing that was sent is
ever lost, and as long as the call is under way one of the two parties can go
on.
-/

import Shr.Transfer.Delivery

namespace Shr

/-! ### Points without a fault -/

def Point.Smooth : Point → Prop
  | .connectFailed => False
  | .abandonClose => False
  | .abandonRecord => False
  | .pause _start _chunk _left => False
  | .failClose _start _chunk => False
  | .failRecord _start _chunk => False
  | .failLeave _start _chunk => False
  | .turnedAway => False
  | .unconnected => False
  | .abandoned => False
  | .failed _start _chunk => False
  | .complete _start acked sent => acked = sent
  | .completeClose _start acked sent => acked = sent
  | .completeRecord _start acked sent => acked = sent
  | .completeLeave _start acked sent => acked = sent
  | .completed _start acked sent => acked = sent
  | _ => True

def Point.Connected : Point → Prop
  | .offer => True
  | .awaitAnswer => True
  | .begin _start => True
  | .enter _start => True
  | .sendChunk _start _chunk _left => True
  | .awaitAck _start _chunk => True
  | .recordAck _start _chunk => True
  | .complete _start _acked _sent => True
  | .completeClose _start _acked _sent => True
  | _ => False

namespace Exchange

section FaultFree

variable {vendor : Vendor} {host : Host} (exchange : Exchange vendor host)

def Faultless (before : Link) (event : LinkEvent) (after : Link) : Prop :=
  exchange.Moves before event after ∧ event.Faultless

/-- What holds beyond `Holds` while there are no faults. -/
structure Flawless (point : Point) (received : Progress) (link : Link) : Prop where
  holds : exchange.Holds point received link
  smooth : point.Smooth
  connected : point.Connected → link.up = true
  whole : Fifo.Carries True (exchange.packets point.progress)
    (exchange.packets received).length link.toReceiver
  history : link.sent = exchange.packets point.progress
  free : point = .checkActive → link.senderNode.activeCount < shrMaxConcurrent

end FaultFree

section Steps

variable {vendor : Vendor} {host : Host} {exchange : Exchange vendor host} {point : Point}
  {received : Progress} {link : Link}

theorem Faultless.step {before after : Link} {event : LinkEvent}
    (faultless : exchange.Faultless before event after) : exchange.Step before event after :=
  ⟨faultless.1, faultless.2.sound⟩

/-- What a step without the link leaves of a smooth point. -/
structure SmoothStep (before after : Point) : Prop where
  smooth : after.Smooth
  connected : after.Connected → before.Connected
  progress : after.progress = before.progress
  entered : after ≠ .checkActive

private theorem smoothStep_loop {contents : Bytes} {start : UInt64} {chunk : Nat}
    (connected : point.Connected) (progress : point.progress = .offered chunk) :
    SmoothStep point (loopPoint contents start chunk) := by
  unfold loopPoint
  by_cases more : Shr.More contents start chunk
  · rw [if_pos more]
    exact ⟨trivial, fun _connected => connected, progress.symm,
      fun impossible => by cases impossible⟩
  · rw [if_neg more]
    exact ⟨rfl, fun _connected => connected, progress.symm,
      fun impossible => by cases impossible⟩

private theorem smoothStep_active {active : Int} (free : active < shrMaxConcurrent) :
    SmoothStep .checkActive (afterActive active) := by
  have notFull : ¬shrMaxConcurrent ≤ active := by omega
  unfold afterActive
  rw [if_neg notFull]
  exact ⟨trivial, fun impossible => impossible, rfl, fun impossible => by cases impossible⟩

theorem smoothStep {node : Node} {op : SendOp} {after : op.Reply → Point} (isLocal : op.Local)
    (asks : point.move vendor exchange.call = .ask op after) (smooth : point.Smooth)
    (free : point = .checkActive → node.activeCount < shrMaxConcurrent) (answer : Answer) :
    SmoothStep point (after (op.effect answer node).1) := by
  cases point with
  | checkActive =>
      cases asks
      exact smoothStep_active (free rfl)
  | store =>
      cases asks
      exact ⟨trivial, fun impossible => impossible, rfl, fun impossible => by cases impossible⟩
  | begin start =>
      cases asks
      exact ⟨trivial, fun _connected => trivial, rfl, fun impossible => by cases impossible⟩
  | enter start =>
      cases asks
      exact smoothStep_loop trivial rfl
  | recordAck start chunk =>
      cases asks
      exact smoothStep_loop trivial rfl
  | completeRecord start acked sent =>
      cases asks
      exact ⟨smooth, fun impossible => impossible, rfl, fun impossible => by cases impossible⟩
  | completeLeave start acked sent =>
      cases asks
      exact ⟨smooth, fun impossible => impossible, rfl, fun impossible => by cases impossible⟩
  | _ => cases asks <;> first | exact absurd isLocal not_false | exact absurd smooth not_false

theorem Flawless.runs (flawless : exchange.Flawless point received link) {op : SendOp}
    {next : op.Reply → SendProgram Bytes} {after : op.Reply → Point}
    (sender : link.sender = .call op next)
    (asks : point.move vendor exchange.call = .ask op after) (isLocal : op.Local)
    (answer : Answer) :
    exchange.Flawless (after (op.effect answer link.senderNode).1) received
      { link with
        sender := next (op.effect answer link.senderNode).1
        senderNode := (op.effect answer link.senderNode).2 } := by
  have step := smoothStep isLocal asks flawless.smooth flawless.free answer
  constructor
  · exact flawless.holds.runs sender asks isLocal answer
  · exact step.smooth
  · intro connected
    exact flawless.connected (step.connected connected)
  · rw [step.progress]
    exact flawless.whole
  · rw [step.progress]
    exact flawless.history
  · intro same
    exact absurd same step.entered

theorem Flawless.connects (flawless : exchange.Flawless .connect received link)
    {next : Bool → SendProgram Bytes}
    (sender : link.sender =
      .call (.connectTo exchange.call.peer.ip exchange.call.peer.port) next) :
    exchange.Flawless .offer received
      { link with
        sender := next true
        up := true } where
  holds := flawless.holds.connects sender
  smooth := trivial
  connected := fun _connected => rfl
  whole := flawless.whole
  history := flawless.history
  free := fun impossible => by cases impossible

theorem Flawless.sends (flawless : exchange.Flawless point received link) {packet : Packet}
    {after : Bool → Point} {next : Bool → SendProgram Bytes}
    (sender : link.sender = .call (.sendPacket packet) next)
    (asks : point.move vendor exchange.call = .ask (.sendPacket packet) after)
    (up : link.up = true) :
    exchange.Flawless (after true) received
      { link with
        sender := next true
        toReceiver := link.toReceiver ++ [packet]
        sent := link.sent ++ [packet] } := by
  have sends := sends_of_asks asks flawless.holds.proper
  have behind := @length_packets_le vendor _ exchange _ _ flawless.holds.behind
  have moved : (after true).Smooth ∧ after true ≠ .checkActive := by
    have smooth := flawless.smooth
    rcases Point.of_sendPacket asks with ⟨rfl, rfl, rfl⟩ | ⟨start, chunk, left, rfl, rfl, rfl⟩ |
      ⟨start, acked, sent, rfl, rfl, rfl⟩
    · exact ⟨trivial, fun impossible => by cases impossible⟩
    · exact ⟨trivial, fun impossible => by cases impossible⟩
    · exact ⟨smooth, fun impossible => by cases impossible⟩
  constructor
  · exact flawless.holds.sends sender asks up
  · exact moved.1
  · intro _connected
    exact up
  · rw [sends.packets]
    exact flawless.whole.push trivial behind _
  · rw [sends.packets, flawless.history]
  · intro same
    exact absurd same moved.2

theorem Flawless.receivesAnswer (flawless : exchange.Flawless .awaitAnswer received link)
    {next : Option Packet → SendProgram Bytes} (sender : link.sender = .call .readPacket next)
    {packet : Packet} {rest : List Packet} (arrived : link.toSender = packet :: rest) :
    exchange.Flawless (.begin exchange.offset) received
      { link with
        sender := next (some packet)
        toSender := rest } where
  holds := flawless.holds.receivesAnswer sender arrived
  smooth := trivial
  connected := fun _connected => flawless.connected trivial
  whole := flawless.whole
  history := flawless.history
  free := fun impossible => by cases impossible

theorem Flawless.receivesAck {start : UInt64} {chunk : Nat}
    (flawless : exchange.Flawless (.awaitAck start chunk) received link)
    {next : Option Packet → SendProgram Bytes} (sender : link.sender = .call .readPacket next)
    {packet : Packet} {rest : List Packet} (arrived : link.toSender = packet :: rest) :
    exchange.Flawless (.recordAck start chunk) received
      { link with
        sender := next (some packet)
        toSender := rest } where
  holds := flawless.holds.receivesAck sender arrived
  smooth := trivial
  connected := fun _connected => flawless.connected trivial
  whole := flawless.whole
  history := flawless.history
  free := fun impossible => by cases impossible

theorem Flawless.closes (flawless : exchange.Flawless point received link)
    {next : Unit → SendProgram Bytes} {after : Unit → Point}
    (sender : link.sender = .call .closeConn next)
    (asks : point.move vendor exchange.call = .ask .closeConn after) :
    exchange.Flawless (after ()) received
      { link with
        sender := next ()
        toSender := []
        up := false } := by
  have holds := flawless.holds.closes sender asks
  have smooth := flawless.smooth
  rcases Point.of_closeConn asks with ⟨rfl, rfl⟩ | ⟨start, chunk, rfl, rfl⟩ |
    ⟨start, acked, sent, rfl, rfl⟩
  · exact absurd smooth not_false
  · exact absurd smooth not_false
  · constructor
    · exact holds
    · exact smooth
    · intro impossible
      exact absurd impossible not_false
    · exact flawless.whole
    · exact flawless.history
    · intro impossible
      cases impossible

theorem Flawless.handles (flawless : exchange.Flawless point received link) {packet : Packet}
    {rest : List Packet} (arrived : link.toReceiver = packet :: rest) {arrival : Arrival}
    (sound : arrival.Sound) {handled : Handled}
    (runs : handleTransferPacket vendor host arrival packet link.receiverNode = handled) :
    ∃ after, exchange.Flawless point after
      { link with
        toReceiver := rest
        toSender := if link.up then link.toSender ++ handled.replies else link.toSender
        receiverNode := handled.node } := by
  obtain ⟨after, sends, holds⟩ :=
    flawless.holds.handles arrived (takes_of_sound sound packet) runs
  have whole := flawless.whole
  rw [arrived] at whole
  have taken : (exchange.packets after).length = (exchange.packets received).length + 1 := by
    rw [sends.packets, List.length_append, List.length_singleton]
  refine ⟨after, holds, flawless.smooth, flawless.connected, ?_, flawless.history,
    flawless.free⟩
  rw [taken]
  exact whole.pop

theorem Flawless.step {after : Link} {event : LinkEvent}
    (flawless : exchange.Flawless point received link)
    (step : exchange.Faultless link event after) :
    ∃ point received, exchange.Flawless point received after := by
  obtain ⟨step, faultless⟩ := step
  cases step with
  | runs now sender isLocal answer clock =>
      obtain ⟨_after, asks⟩ := flawless.holds.asks sender
      exact ⟨_, _, flawless.runs sender asks isLocal answer⟩
  | connects sender =>
      obtain ⟨rfl, rfl, rfl⟩ := flawless.holds.atConnect sender
      exact ⟨_, _, flawless.connects sender⟩
  | sends sender up =>
      obtain ⟨_after, asks⟩ := flawless.holds.asks sender
      exact ⟨_, _, flawless.sends sender asks up⟩
  | receives sender arrived =>
      obtain ⟨_after, asks⟩ := flawless.holds.asks sender
      rcases Point.of_readPacket asks with ⟨rfl, rfl⟩ | ⟨start, chunk, rfl, rfl⟩
      · exact ⟨_, _, flawless.receivesAnswer sender arrived⟩
      · exact ⟨_, _, flawless.receivesAck sender arrived⟩
  | closes sender =>
      obtain ⟨_after, asks⟩ := flawless.holds.asks sender
      exact ⟨_, _, flawless.closes sender asks⟩
  | handles arrival arrived runs =>
      obtain ⟨further, kept⟩ := flawless.handles arrived faultless runs
      exact ⟨_, _, kept⟩
  | refused sender => exact absurd faultless not_false
  | loses sender down => exact absurd faultless not_false
  | failsToSend sender => exact absurd faultless not_false
  | timesOut sender => exact absurd faultless not_false
  | cut outward inward => exact absurd faultless not_false
  | senderElsewhere sameRecord => exact absurd faultless not_false
  | receiverElsewhere elsewhere => exact absurd faultless not_false

theorem flawless_opening (free : exchange.sender.activeCount < shrMaxConcurrent) :
    exchange.Flawless .checkActive .nothing exchange.opening where
  holds := holds_opening
  smooth := trivial
  connected := fun impossible => absurd impossible not_false
  whole := .nothing _
  history := rfl
  free := fun _same => free

theorem flawless_of_run (free : exchange.sender.activeCount < shrMaxConcurrent)
    {events : List LinkEvent} (run : Steps exchange.Faultless exchange.opening events link) :
    ∃ point received, exchange.Flawless point received link := by
  have kept : ∀ before event after,
      (∃ point received, exchange.Flawless point received before) →
      exchange.Faultless before event after →
      ∃ point received, exchange.Flawless point received after := by
    rintro before event after ⟨point, received, flawless⟩ step
    exact flawless.step step
  exact run.invariant kept ⟨_, _, flawless_opening free⟩

end Steps

/-! ### The end -/

section End

variable {vendor : Vendor} {host : Host} {exchange : Exchange vendor host}

theorem faultless_wellFounded (exchange : Exchange vendor host) :
    WellFounded fun after before => ∃ event, exchange.Faultless before event after := by
  have order : WellFounded (Prod.Lex (Program.After (σ := sendSignature) (α := Bytes))
      (fun few many : Nat => few < many)) :=
    Program.after_wellFounded.prod_lex Nat.lt_wfRel.wf
  refine Subrelation.wf ?_
    (InvImage.wf (fun link : Link => (link.sender, link.toReceiver.length)) order)
  have answered (op : SendOp) (next : op.Reply → SendProgram Bytes) (reply : op.Reply) :
      Program.After (next reply) (@Program.call sendSignature Bytes op next) :=
    @Program.After.reply sendSignature Bytes op next reply
  rintro after before ⟨event, step, faultless⟩
  cases step with
  | @runs op next now sender isLocal answer clock =>
      simp only [InvImage, sender]
      exact Prod.Lex.left _ _ (answered op next _)
  | @connects ip port next sender =>
      simp only [InvImage, sender]
      exact Prod.Lex.left _ _ (answered (.connectTo ip port) next true)
  | @sends packet next sender up =>
      simp only [InvImage, sender]
      exact Prod.Lex.left _ _ (answered (.sendPacket packet) next true)
  | @receives packet rest next sender arrived =>
      simp only [InvImage, sender]
      exact Prod.Lex.left _ _ (answered .readPacket next (some packet))
  | @closes next sender =>
      simp only [InvImage, sender]
      exact Prod.Lex.left _ _ (answered .closeConn next ())
  | handles arrival arrived runs =>
      simp only [InvImage, arrived]
      exact Prod.Lex.right _ (Nat.lt_succ_self _)
  | refused sender => exact absurd faultless not_false
  | loses sender down => exact absurd faultless not_false
  | failsToSend sender => exact absurd faultless not_false
  | timesOut sender => exact absurd faultless not_false
  | cut outward inward => exact absurd faultless not_false
  | senderElsewhere sameRecord => exact absurd faultless not_false
  | receiverElsewhere elsewhere => exact absurd faultless not_false

theorem paused_of_fresh
    (fresh : exchange.receiver.transfers.getTransfer exchange.id = none) :
    exchange.paused = none := by
  unfold paused pausedRecord
  rw [fresh]
  rfl

theorem received_of_handled {received : Progress} {chunks : Nat} {queue : List Packet}
    (behind : received.Within (.finished chunks))
    (whole : queue = (exchange.packets (.finished chunks)).drop
      (exchange.packets received).length) (unhandled : queue = []) :
    received = .finished chunks := by
  rw [unhandled] at whole
  have all := List.drop_eq_nil_iff.mp whole.symm
  rw [length_packets_finished] at all
  cases received with
  | nothing => cases all
  | offered few =>
      have fewer : few ≤ chunks := behind
      rw [length_packets_offered] at all
      omega
  | finished few =>
      have same : few = chunks := behind
      rw [same]

theorem Holds.answered {received : Progress} {link : Link}
    (holds : exchange.Holds .awaitAnswer received link) (up : link.up = true)
    (handled : link.toReceiver = []) : ∃ packet rest, link.toSender = packet :: rest := by
  have outward := holds.outward.whole up
  have inward := holds.inward.whole up
  rw [handled] at outward
  have allReceived := List.drop_eq_nil_iff.mp outward.symm
  cases received with
  | nothing => cases allReceived
  | offered chunks => exact ⟨_, _, inward⟩
  | finished chunks => exact ⟨_, _, inward⟩

theorem Holds.acknowledged {received : Progress} {link : Link} {start : UInt64} {chunk : Nat}
    (holds : exchange.Holds (.awaitAck start chunk) received link) (up : link.up = true)
    (handled : link.toReceiver = []) : ∃ packet rest, link.toSender = packet :: rest := by
  have outward := holds.outward.whole up
  have inward := holds.inward.whole up
  rw [handled] at outward
  have allReceived := List.drop_eq_nil_iff.mp outward.symm
  have behind := holds.behind
  cases received with
  | nothing => cases allReceived
  | offered chunks =>
      rw [Point.progress, length_packets_offered, length_packets_offered] at allReceived
      cases arrived : link.toSender with
      | nil =>
          rw [arrived] at inward
          have allRead := List.drop_eq_nil_iff.mp inward.symm
          rw [length_replies_offered] at allRead
          have consumed : (Point.awaitAck start chunk).consumed = chunk + 1 := rfl
          omega
      | cons packet rest => exact ⟨packet, rest, rfl⟩
  | finished chunks => cases behind

theorem unhandled_of_stuck {link : Link} (stuck : Steps.Stuck exchange.Faultless link) :
    link.toReceiver = [] := by
  cases arrived : link.toReceiver with
  | nil => rfl
  | cons packet rest =>
      have sound : (Arrival.sound (fun _index => 0) 0 0).Sound := ⟨rfl, rfl, rfl⟩
      exact absurd ⟨.handles _ arrived rfl, sound⟩ (stuck (.handles (.sound _ 0 0)) _)

/-- A call that has not returned can always go on: what it waits for is there. -/
theorem Flawless.not_stuck {point : Point} {received : Progress} {link : Link}
    (flawless : exchange.Flawless point received link)
    (unfinished : ∀ result, point.move vendor exchange.call ≠ .finish result) :
    ¬Steps.Stuck exchange.Faultless link := by
  intro stuck
  have unhandled := unhandled_of_stuck stuck
  have follows := flawless.holds.follows
  have runs {op : SendOp} {after : op.Reply → Point}
      (asks : point.move vendor exchange.call = .ask op after) (isLocal : op.Local) : False := by
    obtain ⟨next, sender, _rest⟩ := follows.of_ask asks
    exact stuck (.runs 0) _ ⟨.runs 0 sender isLocal ⟨true, none, 0⟩ rfl, trivial⟩
  have sends {packet : Packet} {after : Bool → Point} (connected : point.Connected)
      (asks : point.move vendor exchange.call = .ask (.sendPacket packet) after) : False := by
    obtain ⟨next, sender, _rest⟩ := follows.of_ask asks
    exact stuck (.sends packet) _ ⟨.sends sender (flawless.connected connected), trivial⟩
  have closes {after : Unit → Point}
      (asks : point.move vendor exchange.call = .ask .closeConn after) : False := by
    obtain ⟨next, sender, _rest⟩ := follows.of_ask asks
    exact stuck .closes _ ⟨.closes sender, trivial⟩
  have reads {after : Option Packet → Point}
      (asks : point.move vendor exchange.call = .ask .readPacket after)
      (arrived : ∃ packet rest, link.toSender = packet :: rest) : False := by
    obtain ⟨next, sender, _rest⟩ := follows.of_ask asks
    obtain ⟨packet, rest, first⟩ := arrived
    exact stuck .receives _ ⟨.receives sender first, trivial⟩
  cases point with
  | checkActive => exact runs rfl trivial
  | store => exact runs rfl trivial
  | connect =>
      obtain ⟨next, sender, _rest⟩ := follows.of_ask rfl
      exact stuck .connects _ ⟨.connects sender, trivial⟩
  | offer => exact sends trivial rfl
  | awaitAnswer =>
      exact reads rfl (flawless.holds.answered (flawless.connected trivial) unhandled)
  | begin start => exact runs rfl trivial
  | enter start => exact runs rfl trivial
  | sendChunk start chunk left => exact sends trivial rfl
  | awaitAck start chunk =>
      exact reads rfl (flawless.holds.acknowledged (flawless.connected trivial) unhandled)
  | recordAck start chunk => exact runs rfl trivial
  | complete start acked sent => exact sends trivial rfl
  | completeClose start acked sent => exact closes rfl
  | completeRecord start acked sent => exact runs rfl trivial
  | completeLeave start acked sent => exact runs rfl trivial
  | completed start acked sent => exact unfinished _ rfl
  | _ => exact absurd flawless.smooth not_false

/-- At the end of the file the receiver has it, unless there was nothing to
write and the file is not there either. -/
theorem fileAt_of_end {chunks : Nat} (finished : ¬exchange.More chunks)
    (begun : exchange.contents ≠ [] ∨ exchange.receiver.read host exchange.path = some []) :
    exchange.fileAt chunks = some exchange.contents := by
  have whole : exchange.lengthAt chunks = exchange.contents.length :=
    lengthBefore_of_end offset_inside exchange.bounded finished
  unfold fileAt
  by_cases none_sent : chunks = 0
  · rw [if_pos none_sent]
    have allBefore : exchange.offset.toNat = exchange.contents.length := by
      rw [none_sent] at whole
      simpa [lengthAt, lengthBefore] using whole
    by_cases fromStart : exchange.offset = 0
    · have empty : exchange.contents = [] := by
        rw [fromStart, UInt64.toNat_zero] at allBefore
        exact List.length_eq_zero_iff.mp allBefore.symm
      rw [empty] at begun ⊢
      exact begun.resolve_left (fun different => different rfl)
    · rw [file_of_resumed fromStart, allBefore, List.take_length]
  · rw [if_neg none_sent, whole, List.take_length]

structure Whole (exchange : Exchange vendor host) (record : TransferRecord) : Prop where
  completed : record.state = .completed
  transferredBytes : record.transferredBytes = UInt64.ofNat exchange.contents.length
  totalBytes : record.totalBytes = UInt64.ofNat exchange.contents.length

/-- Both sides have all of the file, the receiver at the path. -/
structure Copied (exchange : Exchange vendor host) (path : Bytes) (link : Link) : Prop where
  sent : ∃ record, link.senderNode.transfers.getTransfer exchange.id = some record ∧
    exchange.Whole record
  received : ∃ record, link.receiverNode.transfers.getTransfer exchange.id = some record ∧
    record.filepath = path ∧ exchange.Whole record
  file : link.receiverNode.read host path = some exchange.contents

theorem received_of_end {chunks : Nat} {node : Node}
    (received : exchange.Received (.finished chunks) node) (finished : ¬exchange.More chunks)
    (begun : exchange.contents ≠ [] ∨ exchange.receiver.read host exchange.path = some []) :
    (∃ record, node.transfers.getTransfer exchange.id = some record ∧
      record.filepath = exchange.path ∧ exchange.Whole record) ∧
      node.read host exchange.path = some exchange.contents := by
  have file := fileAt_of_end finished begun
  have verified : exchange.Verified chunks := by
    unfold Verified
    rw [file, sha256File_some, exchange.checksum]
    rfl
  obtain ⟨record, stored, ⟨_verified, completed, total⟩ | ⟨differs, _failed⟩⟩ := received.record
  · have size : exchange.call.inputs.fileSize = UInt64.ofNat exchange.contents.length :=
      exchange.size
    constructor
    · refine ⟨record, stored.found, stored.filepath, completed, ?_, ?_⟩
      · rw [total, size]
      · rw [stored.totalBytes, size]
    · rw [received.file]
      exact file
  · exact absurd verified differs

/-- A transfer without faults that can go no further has come to the end of the
file, and every packet has been handled. -/
theorem Flawless.ended {point : Point} {received : Progress} {link : Link}
    (flawless : exchange.Flawless point received link)
    (stuck : Steps.Stuck exchange.Faultless link) :
    ∃ start sent, point = .completed start sent sent ∧ received = .finished sent ∧
      ¬exchange.More sent ∧ link.Finished := by
  have ended : ∃ start acked sent, point = .completed start acked sent := by
    by_contra unfinished
    refine flawless.not_stuck ?_ stuck
    intro result ends
    cases point with
    | completed start acked sent => exact unfinished ⟨start, acked, sent, rfl⟩
    | _ => first | exact absurd flawless.smooth not_false | cases ends
  obtain ⟨start, acked, sent, rfl⟩ := ended
  obtain rfl : acked = sent := flawless.smooth
  obtain ⟨_start, _more, left⟩ := flawless.holds.proper
  have finished : ¬exchange.More acked := by
    rcases left with ⟨_same, finished⟩ | impossible
    · exact finished
    · omega
  have unhandled := unhandled_of_stuck stuck
  have allReceived : received = .finished acked :=
    received_of_handled flawless.holds.behind (flawless.whole.whole trivial) unhandled
  exact ⟨start, acked, rfl, allReceived, finished,
    ⟨⟨_, flawless.holds.follows.of_finish rfl⟩, unhandled⟩⟩

theorem Flawless.copied {point : Point} {received : Progress} {link : Link}
    (flawless : exchange.Flawless point received link)
    (stuck : Steps.Stuck exchange.Faultless link)
    (begun : exchange.contents ≠ [] ∨ exchange.receiver.read host exchange.path = some []) :
    exchange.Copied exchange.path link := by
  obtain ⟨start, sent, rfl, allReceived, finished, _ended⟩ := flawless.ended stuck
  have size : exchange.call.inputs.fileSize = UInt64.ofNat exchange.contents.length :=
    exchange.size
  obtain ⟨record, found, totalBytes, transferred, completed⟩ :=
    flawless.holds.record.stored _ rfl
  have counted : exchange.recordedBytes (.completed start sent sent) =
      UInt64.ofNat exchange.contents.length := by
    rw [← size, ← bytesAt_of_end finished]
    rfl
  have receiver := flawless.holds.received
  rw [allReceived] at receiver
  obtain ⟨kept, file⟩ := received_of_end receiver finished begun
  constructor
  · exact ⟨record, found, completed, transferred.trans counted, totalBytes.trans size⟩
  · exact kept
  · exact file

end End

end Exchange

/-- A transfer without faults under an id that is new to the receiver ends, and
where it ends the file has been copied. -/
theorem fault_free_copies {vendor : Vendor} {host : Host} (exchange : Exchange vendor host)
    (fresh : exchange.receiver.transfers.getTransfer exchange.id = none)
    (nonempty : exchange.contents ≠ []) (free : exchange.sender.activeCount < shrMaxConcurrent) :
    (WellFounded fun after before => ∃ event, exchange.Faultless before event after) ∧
      ∀ events link, Steps exchange.Faultless exchange.opening events link →
        Steps.Stuck exchange.Faultless link →
          exchange.Copied (receivedPath host (pathFilename exchange.call.absPath)) link := by
  constructor
  · exact Exchange.faultless_wellFounded exchange
  · intro events link run stuck
    obtain ⟨point, received, flawless⟩ := Exchange.flawless_of_run free run
    have path : exchange.path = receivedPath host (pathFilename exchange.call.absPath) := by
      unfold Exchange.path
      rw [Exchange.paused_of_fresh fresh, Option.elim_none,
        Exchange.receivedPath_nulFree exchange.name]
    rw [← path]
    exact flawless.copied stuck (Or.inl nonempty)

/-- A transfer without faults under an id the receiver has paused, at any
number of bytes, ends, and where it ends the file has been completed. -/
theorem resumed_copies {vendor : Vendor} {host : Host} (exchange : Exchange vendor host)
    {record : TransferRecord}
    (found : exchange.receiver.transfers.getTransfer exchange.id = some record)
    (paused : record.state = .paused) (free : exchange.sender.activeCount < shrMaxConcurrent) :
    exchange.answer = resumePacket vendor record.transferredBytes ∧
      (WellFounded fun after before => ∃ event, exchange.Faultless before event after) ∧
      ∀ events link, Steps exchange.Faultless exchange.opening events link →
        Steps.Stuck exchange.Faultless link → exchange.Copied record.filepath link := by
  have resumes : exchange.paused = some record := pausedRecord_eq_some.mpr ⟨found, paused⟩
  have path : exchange.path = record.filepath := by
    unfold Exchange.path
    rw [resumes, Option.elim_some]
  have begun : exchange.contents ≠ [] ∨
      exchange.receiver.read host exchange.path = some [] := by
    by_cases empty : exchange.contents = []
    · right
      rw [path, (Exchange.paused_resumable resumes).file]
      have nothing : exchange.call.contents = [] := empty
      rw [nothing, List.take_nil]
    · exact Or.inl empty
  refine ⟨?_, Exchange.faultless_wellFounded exchange, ?_⟩
  · unfold Exchange.answer
    rw [resumes, Option.elim_some]
  · intro events link run stuck
    obtain ⟨point, received, flawless⟩ := Exchange.flawless_of_run free run
    rw [← path]
    exact flawless.copied stuck begun

namespace Reference

def shortFile : Bytes :=
  ascii "xy"

def anyRandom : Random :=
  fun _index => 0

def newNode : Node :=
  idleNode TransferTable.empty fun _path => none

def shortExchange : Exchange vendor host :=
  exchange shortFile (by decide) anyRandom newNode newNode
    fun _record impossible => by cases impossible

/-- Two bytes arrive. -/
theorem short_file_copied :
    ∃ events link, Steps shortExchange.Faultless shortExchange.opening events link ∧
      shortExchange.Copied (receivedPath host (ascii "notes.txt")) link := by
  have copies := fault_free_copies shortExchange rfl (by decide) (by decide)
  obtain ⟨events, link, run, stuck⟩ := Steps.exists_stuck copies.1 shortExchange.opening
  exact ⟨events, link, run, copies.2 events link run stuck⟩

def pausedAt : Bytes :=
  ascii "/home/user/shr_received/notes.txt"

def pausedRow : TransferRecord :=
  { id := generateUuid anyRandom
    peerId := peer.id
    filename := ascii "notes.txt"
    filepath := pausedAt
    totalBytes := 2
    transferredBytes := 1
    state := .paused
    checksum := []
    createdAt := 0
    updatedAt := 0
    outbound := false }

def pausedNode : Node :=
  idleNode (TransferTable.empty.upsertTransfer pausedRow) fun path =>
    if path = pausedAt then some (ascii "x") else none

theorem pausedNode_record :
    pausedNode.transfers.getTransfer (generateUuid anyRandom) = some pausedRow := by
  have stored : pausedRow.stored = pausedRow := by
    unfold TransferRecord.stored pausedRow
    simp only [cstr_of_nulFree (generateUuid_nulFree anyRandom)]
    rfl
  rw [← stored]
  exact TransferTable.getTransfer_upsert_self _ _ rfl

def resumedExchange : Exchange vendor host :=
  exchange shortFile (by decide) anyRandom newNode pausedNode (by
    intro record paused
    have same : some pausedRow = some record :=
      pausedNode_record.symm.trans (pausedRecord_eq_some.mp paused).1
    cases same
    constructor
    · decide
    · rfl
    · decide
    · rfl)

/-- The second of two bytes arrives. -/
theorem short_file_resumed :
    ∃ events link, Steps resumedExchange.Faultless resumedExchange.opening events link ∧
      resumedExchange.Copied pausedAt link := by
  have copies := resumed_copies resumedExchange pausedNode_record rfl (by decide)
  obtain ⟨events, link, run, stuck⟩ := Steps.exists_stuck copies.2.1 resumedExchange.opening
  exact ⟨events, link, run, copies.2.2 events link run stuck⟩

end Reference

end Shr
