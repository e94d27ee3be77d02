/-
When the two sides agree on success.

A call completes its record in every way it can leave the loop, whatever becomes of
its last packet and whatever the receiver makes of the others.  The two sides agree
along every run in which no acknowledgement is missing before the last chunk, the
final packet is not lost and the receiver stores what arrives, provided that it has
something to hash.
-/

import Shr.Transfer.FaultFree

namespace Shr

def Point.completing : Point → Option Nat
  | .complete _start _acked sent => some sent
  | .completeClose _start _acked sent => some sent
  | .completeRecord _start _acked sent => some sent
  | .completeLeave _start _acked sent => some sent
  | .completed _start _acked sent => some sent
  | _ => none

namespace Exchange

section Agreement

variable {vendor : Vendor} {host : Host} (exchange : Exchange vendor host)

/-- A reply is missing, while chunks are being sent, only for the last of them; the
final packet is neither sent into a broken connection nor lost in a cut; and what
arrives is stored and written whole. -/
def Careful (link : Link) : LinkEvent → Prop
  | .timesOut => ∀ record, link.senderNode.transfers.getTransfer exchange.id = some record →
      record.state = .inProgress →
        record.totalBytes.toNat ≤ record.transferredBytes.toNat + shrChunkSize
  | .loses packet => packet ≠ exchange.complete
  | .failsToSend packet => packet ≠ exchange.complete
  | .cut outward _inward => exchange.complete ∉ link.toReceiver.drop outward
  | .handles arrival => exchange.Taken link (.handles arrival)
  | _ => True

def CarefulStep (before : Link) (event : LinkEvent) (after : Link) : Prop :=
  exchange.Moves before event after ∧ exchange.Careful before event

/-- What holds beyond `Holds` along a careful run: the loop was left with all
chunks sent, and the final packet is on its way or has arrived. -/
structure Agreeing (point : Point) (received : Progress) (link : Link) : Prop where
  holds : exchange.Holds point received link
  ended : ∀ sent, point.completing = some sent → ¬exchange.More sent
  delivered : ∀ sent, point.progress = .finished sent →
    Fifo.Carries True (exchange.packets point.progress) (exchange.packets received).length
      link.toReceiver

end Agreement

section Steps

variable {vendor : Vendor} {host : Host} {exchange : Exchange vendor host} {point : Point}
  {received : Progress} {link : Link}

theorem careful_of_faultless {event : LinkEvent} (faultless : event.Faultless) :
    exchange.Careful link event := by
  cases event with
  | handles arrival => exact taken_of_sound faultless.sound
  | _ => first | exact trivial | exact absurd faultless not_false

private theorem ended_loopPoint {contents : Bytes} {start : UInt64} {chunk : Nat} {sent : Nat}
    (completing : (loopPoint contents start chunk).completing = some sent) :
    ¬Shr.More contents start sent := by
  unfold loopPoint at completing
  by_cases more : Shr.More contents start chunk
  · rw [if_pos more] at completing
    cases completing
  · rw [if_neg more] at completing
    cases completing
    exact more

theorem ended_of_local {node : Node} {op : SendOp} {after : op.Reply → Point}
    (isLocal : op.Local) (asks : point.move vendor exchange.call = .ask op after)
    (proper : exchange.Proper point)
    (ended : ∀ sent, point.completing = some sent → ¬exchange.More sent) (answer : Answer) :
    ∀ sent, (after (op.effect answer node).1).completing = some sent →
      ¬exchange.More sent := by
  intro sent completing
  cases point with
  | checkActive =>
      cases asks
      simp only [afterActive] at completing
      split at completing <;> cases completing
  | enter start =>
      cases asks
      obtain rfl : start = exchange.offset := proper
      exact ended_loopPoint completing
  | recordAck start chunk =>
      cases asks
      obtain ⟨rfl, _more⟩ := proper
      exact ended_loopPoint completing
  | completeRecord start acked sentBefore =>
      cases asks
      exact ended sent completing
  | completeLeave start acked sentBefore =>
      cases asks
      exact ended sent completing
  | _ => cases asks <;> first | exact absurd isLocal not_false | cases completing

theorem Agreeing.runs (agreeing : exchange.Agreeing point received link) {op : SendOp}
    {next : op.Reply → SendProgram Bytes} {after : op.Reply → Point}
    (sender : link.sender = .call op next)
    (asks : point.move vendor exchange.call = .ask op after) (isLocal : op.Local)
    (answer : Answer) :
    exchange.Agreeing (after (op.effect answer link.senderNode).1) received
      { link with
        sender := next (op.effect answer link.senderNode).1
        senderNode := (op.effect answer link.senderNode).2 } := by
  have holds := agreeing.holds
  have step := localStep isLocal asks holds.proper holds.record answer
  constructor
  · exact holds.runs sender asks isLocal answer
  · exact ended_of_local isLocal asks holds.proper agreeing.ended answer
  · intro sent final
    rw [step.progress] at final ⊢
    exact agreeing.delivered sent final

theorem not_final_of_other {packet : Packet} {after : Bool → Point}
    (asks : point.move vendor exchange.call = .ask (.sendPacket packet) after)
    (other : packet ≠ exchange.complete) (sent : Bool) :
    (after sent).completing = none ∧ ∀ chunks, (after sent).progress ≠ .finished chunks := by
  rcases Point.of_sendPacket asks with ⟨rfl, rfl, rfl⟩ | ⟨start, chunk, left, rfl, rfl, rfl⟩ |
    ⟨start, acked, count, rfl, rfl, rfl⟩
  · exact ⟨rfl, fun chunks impossible => by cases impossible⟩
  · cases sent with
    | true => exact ⟨rfl, fun chunks impossible => by cases impossible⟩
    | false =>
        cases left with
        | zero => exact ⟨rfl, fun chunks impossible => by cases impossible⟩
        | succ left => exact ⟨rfl, fun chunks impossible => by cases impossible⟩
  · exact absurd rfl other

theorem Agreeing.sends (agreeing : exchange.Agreeing point received link) {packet : Packet}
    {after : Bool → Point} {next : Bool → SendProgram Bytes}
    (sender : link.sender = .call (.sendPacket packet) next)
    (asks : point.move vendor exchange.call = .ask (.sendPacket packet) after)
    (up : link.up = true) :
    exchange.Agreeing (after true) received
      { link with
        sender := next true
        toReceiver := link.toReceiver ++ [packet]
        sent := link.sent ++ [packet] } := by
  have holds := agreeing.holds
  have sends := sends_of_asks asks holds.proper
  constructor
  · exact holds.sends sender asks up
  · have ended := agreeing.ended
    rcases Point.of_sendPacket asks with ⟨rfl, rfl, rfl⟩ |
      ⟨start, chunk, left, rfl, rfl, rfl⟩ | ⟨start, acked, sent, rfl, rfl, rfl⟩
    · intro sent impossible
      cases impossible
    · intro sent impossible
      cases impossible
    · exact ended
  · intro sent _final
    rw [sends.packets]
    exact holds.outward.push up (length_packets_le holds.behind) _

theorem agreeing_inside {after : Point} {other : Link}
    (holds : exchange.Holds after received other) (inside : after.completing = none)
    (unfinished : ∀ chunks, after.progress ≠ .finished chunks) :
    exchange.Agreeing after received other := by
  constructor
  · exact holds
  · intro sent completing
    rw [inside] at completing
    cases completing
  · intro sent final
    exact absurd final (unfinished sent)

theorem Agreeing.missesAck {start : UInt64} {chunk : Nat}
    (agreeing : exchange.Agreeing (.awaitAck start chunk) received link)
    (careful : exchange.Careful link .timesOut) {next : Option Packet → SendProgram Bytes}
    (sender : link.sender = .call .readPacket next) :
    exchange.Agreeing (.complete start chunk (chunk + 1)) received
      { link with sender := next none } := by
  have holds := agreeing.holds
  obtain ⟨record, found, totalBytes, transferred, state⟩ := holds.record.stored _ rfl
  have last := careful record found state
  constructor
  · exact holds.missesAck sender
  · intro sent completing
    cases completing
    have counted : record.transferredBytes.toNat = exchange.lengthAt chunk := by
      rw [transferred]
      exact toNat_bytesAt chunk
    have total : record.totalBytes.toNat = exchange.contents.length := by
      have bounded := exchange.bounded
      rw [totalBytes, exchange.size, UInt64.toNat_ofNat_of_lt' (by
        have fits : (2 : Nat) ^ 63 < UInt64.size := by decide
        omega)]
      rfl
    have here := bytesBefore_of_more holds.proper.2
    have inside : exchange.offset.toNat ≤ exchange.contents.length := offset_inside
    have remaining := length_remainingFrom inside exchange.bounded
    intro more
    unfold More Shr.More at more
    unfold lengthAt lengthBefore at counted
    rw [here] at counted
    rw [Nat.succ_mul] at more
    omega
  · intro sent final
    cases final

theorem Agreeing.closes (agreeing : exchange.Agreeing point received link)
    {next : Unit → SendProgram Bytes} {after : Unit → Point}
    (sender : link.sender = .call .closeConn next)
    (asks : point.move vendor exchange.call = .ask .closeConn after) :
    exchange.Agreeing (after ()) received
      { link with
        sender := next ()
        toSender := []
        up := false } := by
  have holds := agreeing.holds.closes sender asks
  rcases Point.of_closeConn asks with ⟨rfl, rfl⟩ | ⟨start, chunk, rfl, rfl⟩ |
    ⟨start, acked, sent, rfl, rfl⟩
  · exact agreeing_inside holds rfl fun chunks impossible => by cases impossible
  · exact agreeing_inside holds rfl fun chunks impossible => by cases impossible
  · exact ⟨holds, agreeing.ended, agreeing.delivered⟩

theorem Agreeing.handles (agreeing : exchange.Agreeing point received link) {packet : Packet}
    {rest : List Packet} (arrived : link.toReceiver = packet :: rest) {arrival : Arrival}
    (takes : exchange.Takes arrival packet) {handled : Handled}
    (runs : handleTransferPacket vendor host arrival packet link.receiverNode = handled) :
    ∃ after, exchange.Agreeing point after
      { link with
        toReceiver := rest
        toSender := if link.up then link.toSender ++ handled.replies else link.toSender
        receiverNode := handled.node } := by
  obtain ⟨after, sends, holds⟩ :=
    agreeing.holds.handles arrived takes runs
  have taken : (exchange.packets after).length = (exchange.packets received).length + 1 := by
    rw [sends.packets, List.length_append, List.length_singleton]
  refine ⟨after, holds, agreeing.ended, ?_⟩
  intro sent final
  have delivered := agreeing.delivered sent final
  rw [arrived] at delivered
  rw [taken]
  exact delivered.pop

theorem take_of_careful {sent taken outward : Nat} {queue : List Packet}
    (whole : queue = (exchange.packets (.finished sent)).drop taken)
    (kept : exchange.complete ∉ queue.drop outward) : queue.take outward = queue := by
  apply List.take_of_length_le
  by_contra longer
  apply kept
  have dropped : queue.drop outward =
      (exchange.packets (.finished sent)).drop (taken + outward) := by
    rw [whole, List.drop_drop]
  have inside : taken + outward ≤
      (exchange.offer :: (List.range sent).map exchange.chunk).length := by
    rw [whole, List.length_drop, length_packets_finished] at longer
    simp only [List.length_cons, List.length_map, List.length_range]
    omega
  rw [dropped, packets, List.drop_append_of_le_length inside]
  exact List.mem_append_right _ (List.mem_singleton.mpr rfl)

theorem Agreeing.cut (agreeing : exchange.Agreeing point received link) (outward inward : Nat)
    (careful : exchange.Careful link (.cut outward inward)) :
    exchange.Agreeing point received
      { link with
        toReceiver := link.toReceiver.take outward
        toSender := link.toSender.take inward
        up := false } := by
  constructor
  · exact agreeing.holds.cut outward inward
  · exact agreeing.ended
  · intro sent final
    have delivered := agreeing.delivered sent final
    have whole := delivered.whole trivial
    rw [final] at whole
    have uncut := take_of_careful whole careful
    simp only [uncut]
    exact delivered

theorem Agreeing.step {after : Link} {event : LinkEvent}
    (agreeing : exchange.Agreeing point received link)
    (step : exchange.CarefulStep link event after) :
    ∃ point received, exchange.Agreeing point received after := by
  have holds := agreeing.holds
  obtain ⟨step, careful⟩ := step
  cases step with
  | runs now sender isLocal answer clock =>
      obtain ⟨_after, asks⟩ := holds.asks sender
      exact ⟨_, _, agreeing.runs sender asks isLocal answer⟩
  | connects sender =>
      obtain ⟨rfl, rfl, rfl⟩ := holds.atConnect sender
      exact ⟨_, _, Exchange.agreeing_inside (holds.connects sender) rfl
        fun chunks impossible => by cases impossible⟩
  | refused sender =>
      obtain ⟨rfl, rfl, rfl⟩ := holds.atConnect sender
      exact ⟨_, _, Exchange.agreeing_inside (holds.refused sender) rfl
        fun chunks impossible => by cases impossible⟩
  | sends sender up =>
      obtain ⟨_after, asks⟩ := holds.asks sender
      exact ⟨_, _, agreeing.sends sender asks up⟩
  | loses sender down =>
      obtain ⟨_after, asks⟩ := holds.asks sender
      obtain ⟨inside, unfinished⟩ := not_final_of_other asks careful true
      exact ⟨_, _, Exchange.agreeing_inside (holds.loses sender asks down) inside unfinished⟩
  | failsToSend sender =>
      obtain ⟨_after, asks⟩ := holds.asks sender
      obtain ⟨inside, unfinished⟩ := not_final_of_other asks careful false
      exact ⟨_, _, Exchange.agreeing_inside (holds.failsToSend sender asks) inside unfinished⟩
  | receives sender arrived =>
      obtain ⟨_after, asks⟩ := holds.asks sender
      rcases Point.of_readPacket asks with ⟨rfl, rfl⟩ | ⟨start, chunk, rfl, rfl⟩
      · exact ⟨_, _, Exchange.agreeing_inside (holds.receivesAnswer sender arrived) rfl
          fun chunks impossible => by cases impossible⟩
      · exact ⟨_, _, Exchange.agreeing_inside (holds.receivesAck sender arrived) rfl
          fun chunks impossible => by cases impossible⟩
  | timesOut sender =>
      obtain ⟨_after, asks⟩ := holds.asks sender
      rcases Point.of_readPacket asks with ⟨rfl, rfl⟩ | ⟨start, chunk, rfl, rfl⟩
      · exact ⟨_, _, Exchange.agreeing_inside (holds.missesAnswer sender) rfl
          fun chunks impossible => by cases impossible⟩
      · exact ⟨_, _, agreeing.missesAck careful sender⟩
  | closes sender =>
      obtain ⟨_after, asks⟩ := holds.asks sender
      exact ⟨_, _, agreeing.closes sender asks⟩
  | handles arrival arrived runs =>
      obtain ⟨further, kept⟩ := agreeing.handles arrived (careful _ _ arrived) runs
      exact ⟨_, _, kept⟩
  | cut outward inward => exact ⟨_, _, agreeing.cut outward inward careful⟩
  | senderElsewhere sameRecord =>
      exact ⟨_, _, holds.senderElsewhere sameRecord, agreeing.ended, agreeing.delivered⟩
  | receiverElsewhere elsewhere =>
      exact ⟨_, _, holds.receiverElsewhere elsewhere, agreeing.ended, agreeing.delivered⟩

theorem agreeing_of_run {events : List LinkEvent}
    (run : Steps exchange.CarefulStep exchange.opening events link) :
    ∃ point received, exchange.Agreeing point received link := by
  have kept : ∀ before event after,
      (∃ point received, exchange.Agreeing point received before) →
      exchange.CarefulStep before event after →
      ∃ point received, exchange.Agreeing point received after := by
    rintro before event after ⟨point, received, agreeing⟩ step
    exact agreeing.step step
  apply run.invariant kept
  refine ⟨_, _, holds_opening, ?_, ?_⟩
  · intro sent impossible
    cases impossible
  · intro sent impossible
    cases impossible

/-- A call that has returned with a completed record has sent everything. -/
theorem Holds.completed (holds : exchange.Holds point received link)
    (new : exchange.sender.transfers.getTransfer exchange.id = none) {result : Bytes}
    (returned : link.sender = .done result) {record : TransferRecord}
    (found : link.senderNode.transfers.getTransfer exchange.id = some record)
    (completed : record.state = .completed) :
    ∃ start acked sent, point = .completed start acked sent := by
  have follows := holds.follows
  rw [returned] at follows
  have ends := follows.ends
  have stated {state : TransferState} (recordState : point.recordState = some state) :
      state = .completed := by
    obtain ⟨own, ownFound, _totalBytes, _transferred, same⟩ :=
      holds.record.stored state recordState
    obtain rfl : record = own := Option.some.inj (found.symm.trans ownFound)
    exact same.symm.trans completed
  cases point with
  | completed start acked sent => exact ⟨start, acked, sent, rfl⟩
  | turnedAway =>
      have unstored := holds.record.unstored rfl
      rw [found, new] at unstored
      cases unstored
  | unconnected => exact absurd (stated rfl) (fun impossible => by cases impossible)
  | abandoned => exact absurd (stated rfl) (fun impossible => by cases impossible)
  | failed start chunk => exact absurd (stated rfl) (fun impossible => by cases impossible)
  | _ => cases ends

end Steps

end Exchange

/-- Along every run that loses no acknowledgement but the last, does not lose the
final packet and takes what arrives, a call whose record is completed in the end has
copied its file, unless the file is empty and the receiver has none. -/
theorem agreement_along {vendor : Vendor} {host : Host} (exchange : Exchange vendor host)
    (new : exchange.sender.transfers.getTransfer exchange.id = none)
    (begun : exchange.contents ≠ [] ∨ exchange.receiver.read host exchange.path = some [])
    {events : List LinkEvent} {link : Link}
    (run : Steps exchange.CarefulStep exchange.opening events link) (finished : link.Finished)
    {sent : TransferRecord}
    (found : link.senderNode.transfers.getTransfer exchange.id = some sent)
    (completed : sent.state = .completed) :
    ∃ received, link.receiverNode.transfers.getTransfer exchange.id = some received ∧
      received.state = .completed ∧
      link.receiverNode.read host received.filepath = some exchange.contents := by
  obtain ⟨point, progress, agreeing⟩ := Exchange.agreeing_of_run run
  obtain ⟨result, returned⟩ := finished.sender
  obtain ⟨start, acked, count, rfl⟩ := agreeing.holds.completed new returned found completed
  have delivered := agreeing.delivered count rfl
  have allReceived : progress = .finished count :=
    Exchange.received_of_handled agreeing.holds.behind (delivered.whole trivial)
      finished.receiver
  have receiver := agreeing.holds.received
  rw [allReceived] at receiver
  obtain ⟨⟨received, kept, path, whole⟩, file⟩ :=
    Exchange.received_of_end receiver (agreeing.ended count rfl) begun
  refine ⟨received, kept, whole.completed, ?_⟩
  rw [path]
  exact file

namespace Reference

def emptyExchange : Exchange vendor host :=
  exchange [] (by decide) anyRandom newNode newNode
    fun _record impossible => by cases impossible

/-- An empty file is sent without any fault.  The sender completes, the receiver
has no file to hash and fails. -/
theorem empty_file_disagrees :
    ∃ events link, Steps emptyExchange.Step emptyExchange.opening events link ∧
      link.Finished ∧
      (∃ sent, link.senderNode.transfers.getTransfer emptyExchange.id = some sent ∧
        sent.state = .completed) ∧
      ¬∃ received, link.receiverNode.transfers.getTransfer emptyExchange.id = some received ∧
        received.state = .completed ∧
        link.receiverNode.read host received.filepath = some emptyExchange.contents := by
  obtain ⟨events, link, run, stuck⟩ :=
    Steps.exists_stuck (Exchange.faultless_wellFounded emptyExchange) emptyExchange.opening
  obtain ⟨point, progress, flawless⟩ := Exchange.flawless_of_run (by decide) run
  obtain ⟨start, count, rfl, rfl, _finished, ended⟩ := flawless.ended stuck
  obtain ⟨sent, found, _totalBytes, _transferred, completed⟩ :=
    flawless.holds.record.stored _ rfl
  refine ⟨events, link, run.mono fun _before _event _after step => step.step, ended,
    ⟨sent, found, completed⟩, ?_⟩
  rintro ⟨received, kept, agrees, _file⟩
  have none_sent : count = 0 := by
    by_contra some_sent
    have more := flawless.holds.proper.2.1 0 (Nat.pos_of_ne_zero some_sent)
    have beyond : ¬Shr.More [] 0 0 := by decide
    exact beyond more
  have differs : ¬emptyExchange.Verified count := by
    rw [none_sent]
    intro verified
    have empty : sha256Bytes vendor [] = [] := verified.symm
    exact absurd empty (by decide +kernel)
  obtain ⟨record, stored, ⟨verified, _completed⟩ | ⟨_differs, failed⟩⟩ :=
    flawless.holds.received.record
  · exact differs verified
  · obtain rfl : received = record := Option.some.inj (kept.symm.trans stored.found)
    rw [failed] at agrees
    cases agrees

/-- Two bytes are sent, and both sides agree. -/
theorem short_file_agrees :
    ∃ events link sent, Steps shortExchange.CarefulStep shortExchange.opening events link ∧
      link.Finished ∧
      link.senderNode.transfers.getTransfer shortExchange.id = some sent ∧
      sent.state = .completed ∧
      ∃ received, link.receiverNode.transfers.getTransfer shortExchange.id = some received ∧
        received.state = .completed ∧
        link.receiverNode.read host received.filepath = some shortFile := by
  obtain ⟨events, link, run, stuck⟩ :=
    Steps.exists_stuck (Exchange.faultless_wellFounded shortExchange) shortExchange.opening
  obtain ⟨point, progress, flawless⟩ := Exchange.flawless_of_run (by decide) run
  obtain ⟨start, count, rfl, rfl, _finished, ended⟩ := flawless.ended stuck
  obtain ⟨sent, found, _totalBytes, _transferred, completed⟩ :=
    flawless.holds.record.stored _ rfl
  have careful : Steps shortExchange.CarefulStep shortExchange.opening events link :=
    run.mono fun _before event _after step =>
      ⟨step.1, Exchange.careful_of_faultless step.2⟩
  exact ⟨events, link, sent, careful, ended, found, completed,
    agreement_along shortExchange rfl (Or.inl (by decide)) careful ended found completed⟩

end Reference

end Shr
