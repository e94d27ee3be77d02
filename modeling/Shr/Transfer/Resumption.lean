/-
An interrupted transfer and the call that sends the file again.

A receiver resumes a transfer only from a record in the state `paused`, under
the id of the offer.  No packet pauses a record, so a second call is answered
like the first: its first chunk has offset 0.  The runs that lose their
connection after some chunks are constructed one operation at a time.
-/

import Shr.Transfer.FaultFree

namespace Shr

/-! ### Nothing pauses a transfer -/

section Unpaused

variable {vendor : Vendor} {host : Host}

def Unpaused (node : Node) : Prop :=
  ∀ id, pausedRecord node id = none

theorem unpaused_handled {node : Node} (unpaused : Unpaused node) (arrival : Arrival)
    (packet : Packet) :
    Unpaused (handleTransferPacket vendor host arrival packet node).node := by
  intro id
  rw [pausedRecord_eq_none]
  intro record found
  have before := pausedRecord_eq_none.mp (unpaused id)
  rcases @step_record vendor host ⟨node, []⟩ (.packet arrival packet) id with
    ⟨write, writes, written⟩ | ⟨_unwritten, same⟩
  · have stated : write.apply (node.transfers.getTransfer id) = some record :=
      written.symm.trans found
    have progressed {transferred : UInt64} {state : TransferState} {now : Int64}
        (notPaused : state ≠ .paused)
        (result : RecordWrite.apply (node.transfers.getTransfer id)
          (.progress transferred state now) = some record) : record.state ≠ .paused := by
      obtain ⟨earlier, _present, rfl⟩ := Option.map_eq_some_iff.mp result
      exact notPaused
    cases writes with
    | offer type decoded notPaused stores same =>
        cases stated
        intro impossible
        cases impossible
    | chunk type applies stores same => exact progressed (by decide) stated
    | complete type decoded present verified stores same => exact progressed (by decide) stated
    | mismatch type decoded present differs stores same => exact progressed (by decide) stated
  · exact before record (same.symm.trans found)

theorem unpaused_step {call : SendCall} {path : Bytes} {before after : Link} {event : LinkEvent}
    (unpaused : Unpaused before.receiverNode)
    (step : LinkStep vendor host call path before event after) :
    Unpaused after.receiverNode := by
  cases step with
  | handles arrival arrived runs =>
      rw [← runs]
      exact unpaused_handled unpaused _ _
  | receiverElsewhere elsewhere =>
      intro id
      exact elsewhere.unpaused id (unpaused id)
  | _ => exact unpaused

theorem unpaused_of_run {exchange : Exchange vendor host} {events : List LinkEvent} {link : Link}
    (run : Steps exchange.Step exchange.opening events link)
    (unpaused : Unpaused exchange.receiver) : Unpaused link.receiverNode := by
  have kept : ∀ before event after, Unpaused before.receiverNode →
      exchange.Step before event after → Unpaused after.receiverNode :=
    fun _before _event _after earlier step => unpaused_step earlier step.1
  exact run.invariant kept unpaused

end Unpaused

namespace Exchange

/-! ### The first chunk of a call -/

section FirstChunk

variable {vendor : Vendor} {host : Host} {exchange : Exchange vendor host} {point : Point}
  {received : Progress} {link : Link}

def firstChunk (sent : List Packet) : Option Packet :=
  sent.find? fun packet => packet.type = .fileChunk

structure Begins (exchange : Exchange vendor host) (point : Point) (link : Link) : Prop where
  first : firstChunk link.sent = none ∨ firstChunk link.sent = some (exchange.chunk 0)
  unsent : firstChunk link.sent = none → point.progress.chunks = 0

theorem Begins.kept (begins : exchange.Begins point link) {after : Point} {other : Link}
    (sameSent : other.sent = link.sent) (sameProgress : after.progress = point.progress) :
    exchange.Begins after other := by
  constructor
  · rw [sameSent]
    exact begins.first
  · rw [sameSent, sameProgress]
    exact begins.unsent

theorem Begins.sends (begins : exchange.Begins point link) {packet : Packet}
    {after : Bool → Point} {other : Link}
    (asks : point.move vendor exchange.call = .ask (.sendPacket packet) after)
    (proper : exchange.Proper point) (sent : Bool)
    (appended : other.sent = link.sent ++ [packet]) : exchange.Begins (after sent) other := by
  have search : firstChunk other.sent =
      (firstChunk link.sent).or (firstChunk [packet]) := by
    unfold firstChunk
    rw [appended, List.find?_append]
  -- A packet of another type does not end the search.
  have other_type (other_than : packet.type ≠ .fileChunk) :
      firstChunk other.sent = firstChunk link.sent := by
    have skipped : firstChunk [packet] = none := by
      unfold firstChunk
      rw [List.find?_singleton, if_neg (by simpa using other_than)]
    rw [search, skipped, Option.or_none]
  rcases Point.of_sendPacket asks with ⟨rfl, rfl, rfl⟩ | ⟨start, chunk, left, rfl, rfl, rfl⟩ |
    ⟨start, acked, count, rfl, rfl, rfl⟩
  · have same := other_type (fun impossible => by cases impossible)
    constructor
    · rw [same]
      exact begins.first
    · intro _unsent
      rfl
  · obtain ⟨rfl, _more⟩ := proper
    have found : firstChunk [nthChunk vendor exchange.call exchange.offset chunk] =
        some (exchange.chunk chunk) := by
      unfold firstChunk
      rw [List.find?_singleton]
      rfl
    have result : firstChunk other.sent = some (exchange.chunk 0) := by
      rw [search, found]
      rcases begins.first with unsent | first
      · have none_before : chunk = 0 := begins.unsent unsent
        rw [unsent, Option.none_or, none_before]
      · rw [first, Option.some_or]
    constructor
    · exact Or.inr result
    · intro impossible
      rw [result] at impossible
      cases impossible
  · have same := other_type (fun impossible => by cases impossible)
    constructor
    · rw [same]
      exact begins.first
    · rw [same]
      exact begins.unsent

theorem begins_step {after : Link} {event : LinkEvent}
    (holds : exchange.Holds point received link) (begins : exchange.Begins point link)
    (step : exchange.Step link event after) :
    ∃ point received, exchange.Holds point received after ∧ exchange.Begins point after := by
  obtain ⟨moves, sound⟩ := step
  cases moves with
  | runs now sender isLocal answer clock =>
      obtain ⟨_after, asks⟩ := holds.asks sender
      have moved := localStep isLocal asks holds.proper holds.record answer
      exact ⟨_, _, holds.runs sender asks isLocal answer, begins.kept rfl moved.progress⟩
  | connects sender =>
      obtain ⟨rfl, rfl, rfl⟩ := holds.atConnect sender
      exact ⟨_, _, holds.connects sender, begins.kept rfl rfl⟩
  | refused sender =>
      obtain ⟨rfl, rfl, rfl⟩ := holds.atConnect sender
      exact ⟨_, _, holds.refused sender, begins.kept rfl rfl⟩
  | sends sender up =>
      obtain ⟨_after, asks⟩ := holds.asks sender
      exact ⟨_, _, holds.sends sender asks up, begins.sends asks holds.proper true rfl⟩
  | loses sender down =>
      obtain ⟨_after, asks⟩ := holds.asks sender
      exact ⟨_, _, holds.loses sender asks down, begins.sends asks holds.proper true rfl⟩
  | failsToSend sender =>
      obtain ⟨_after, asks⟩ := holds.asks sender
      exact ⟨_, _, holds.failsToSend sender asks, begins.sends asks holds.proper false rfl⟩
  | receives sender arrived =>
      obtain ⟨_after, asks⟩ := holds.asks sender
      rcases Point.of_readPacket asks with ⟨rfl, rfl⟩ | ⟨start, chunk, rfl, rfl⟩
      · exact ⟨_, _, holds.receivesAnswer sender arrived, begins.kept rfl rfl⟩
      · exact ⟨_, _, holds.receivesAck sender arrived, begins.kept rfl rfl⟩
  | timesOut sender =>
      obtain ⟨_after, asks⟩ := holds.asks sender
      rcases Point.of_readPacket asks with ⟨rfl, rfl⟩ | ⟨start, chunk, rfl, rfl⟩
      · exact ⟨_, _, holds.missesAnswer sender, begins.kept rfl rfl⟩
      · exact ⟨_, _, holds.missesAck sender, begins.kept rfl rfl⟩
  | closes sender =>
      obtain ⟨_after, asks⟩ := holds.asks sender
      have closed := holds.closes sender asks
      rcases Point.of_closeConn asks with ⟨rfl, rfl⟩ | ⟨start, chunk, rfl, rfl⟩ |
        ⟨start, acked, sent, rfl, rfl⟩
      all_goals exact ⟨_, _, closed, begins.kept rfl rfl⟩
  | handles arrival arrived runs =>
      obtain ⟨further, _sends, kept⟩ := holds.handles arrived (takes_of_sound sound _) runs
      exact ⟨_, _, kept, begins.kept rfl rfl⟩
  | cut outward inward => exact ⟨_, _, holds.cut outward inward, begins.kept rfl rfl⟩
  | senderElsewhere sameRecord =>
      exact ⟨_, _, holds.senderElsewhere sameRecord, begins.kept rfl rfl⟩
  | receiverElsewhere elsewhere =>
      exact ⟨_, _, holds.receiverElsewhere elsewhere, begins.kept rfl rfl⟩

theorem firstChunk_of_run {events : List LinkEvent}
    (run : Steps exchange.Step exchange.opening events link) :
    firstChunk link.sent = none ∨ firstChunk link.sent = some (exchange.chunk 0) := by
  have kept : ∀ before event after,
      (∃ point received, exchange.Holds point received before ∧ exchange.Begins point before) →
      exchange.Step before event after →
      ∃ point received, exchange.Holds point received after ∧ exchange.Begins point after := by
    rintro before event after ⟨point, received, holds, begins⟩ step
    exact begins_step holds begins step
  have opening : exchange.Begins .checkActive exchange.opening := ⟨Or.inl rfl, fun _unsent => rfl⟩
  obtain ⟨_point, _received, _holds, begins⟩ :=
    run.invariant kept ⟨_, _, holds_opening, opening⟩
  exact begins.first

end FirstChunk

/-! ### Two calls for one file -/

section TwoCalls

variable {vendor : Vendor} {host : Host}

def Breaks : LinkEvent → Prop
  | .failsToSend _packet => True
  | .cut _outward _inward => True
  | _ => False

/-- A call whose connection is lost after a number of chunks has been
acknowledged, before the end of the file. -/
structure Interrupted (exchange : Exchange vendor host) (events : List LinkEvent) (link : Link)
    (chunks : Nat) : Prop where
  run : Steps exchange.Step exchange.opening events link
  finished : link.Finished
  lost : ∃ event ∈ events, Breaks event
  acknowledged : ∃ record, link.senderNode.transfers.getTransfer exchange.id = some record ∧
    record.transferredBytes.toNat = chunks * shrChunkSize
  some_chunks : 1 ≤ chunks
  unfinished : chunks * shrChunkSize < exchange.contents.length

/-- A second call for the same unchanged file and the same peer, between the
machines as the first has left them. -/
structure Repeats (first : Exchange vendor host) (link : Link) (second : Exchange vendor host) :
    Prop where
  absPath : second.call.absPath = first.call.absPath
  contents : second.contents = first.contents
  peer : second.call.peer = first.call.peer
  sender : second.sender = link.senderNode
  receiver : second.receiver = link.receiverNode

/-- The call has sent the file from the acknowledged chunks on, or further, and
nothing before them, and both sides have all of it. -/
structure Resumed (exchange : Exchange vendor host) (chunks : Nat) (link : Link) : Prop where
  begins : ∃ packet chunk, firstChunk link.sent = some packet ∧
    readFileChunk vendor packet.payload = some chunk ∧
      chunks * shrChunkSize ≤ chunk.offset.toNat
  nothingBefore : ∀ packet ∈ link.sent, packet.type = .fileChunk →
    ∀ chunk, readFileChunk vendor packet.payload = some chunk →
      chunks * shrChunkSize ≤ chunk.offset.toNat
  copied : exchange.Copied exchange.path link

theorem not_resumed {exchange : Exchange vendor host} (unpaused : Unpaused exchange.receiver)
    {events : List LinkEvent} {link : Link}
    (run : Steps exchange.Step exchange.opening events link) {chunks : Nat}
    (some_chunks : 1 ≤ chunks) : ¬exchange.Resumed chunks link := by
  intro resumed
  have fromStart : exchange.offset = 0 := by
    unfold offset paused
    rw [unpaused]
    rfl
  obtain ⟨packet, chunk, first, decoded, begins⟩ := resumed.begins
  have isFirst : packet = exchange.chunk 0 := by
    rcases firstChunk_of_run run with unsent | sent
    · rw [unsent] at first
      cases first
    · rw [sent] at first
      exact (Option.some.inj first).symm
  rw [isFirst, readFileChunk_chunk] at decoded
  cases decoded
  have zero : (exchange.bytesAt 0).toNat = 0 := by
    rw [toNat_bytesAt]
    simp [lengthAt, lengthBefore, fromStart]
  have beyond : chunks * shrChunkSize ≤ (exchange.bytesAt 0).toNat := begins
  have positive := Nat.mul_pos some_chunks shrChunkSize_pos
  omega

end TwoCalls

end Exchange

/-- After no interrupted call, of any file and after any number of chunks, is the
file resumed by a second call, whatever the connection of the second. -/
theorem never_resumed {vendor : Vendor} {host : Host} {first : Exchange vendor host}
    {receiver : NodeState} (reachable : receiver.Reachable vendor host)
    (received : first.receiver = receiver.node) {events : List LinkEvent} {link : Link}
    {chunks : Nat} (interrupted : first.Interrupted events link chunks)
    {second : Exchange vendor host} (repeats : first.Repeats link second)
    {laterEvents : List LinkEvent} {later : Link}
    (run : Steps second.Step second.opening laterEvents later) :
    ¬second.Resumed chunks later := by
  have opening : Unpaused first.receiver := by
    intro id
    have unpaused := pausedRecord_of_reachable reachable id
    rw [← received] at unpaused
    exact unpaused
  have unpaused : Unpaused second.receiver := by
    rw [repeats.receiver]
    exact unpaused_of_run interrupted.run opening
  exact Exchange.not_resumed unpaused run interrupted.some_chunks

namespace Exchange

/-! ### A run that is interrupted -/

section Construction

variable {vendor : Vendor} {host : Host} {exchange : Exchange vendor host} {point : Point}
  {link : Link}

/-- The connection is intact and the receiver has handled every packet. -/
structure Quiet (exchange : Exchange vendor host) (point : Point) (link : Link) : Prop where
  holds : ∃ received, exchange.Holds point received link
  up : link.up = true
  handled : link.toReceiver = []

def LeadsTo (exchange : Exchange vendor host) (link : Link) (point : Point) : Prop :=
  ∃ events after, Steps exchange.Step link events after ∧ exchange.Quiet point after

theorem LeadsTo.trans {next : Point} (leads : exchange.LeadsTo link point)
    (further : ∀ after, exchange.Quiet point after → exchange.LeadsTo after next) :
    exchange.LeadsTo link next := by
  obtain ⟨events, between, front, quiet⟩ := leads
  obtain ⟨later, after, back, quietAfter⟩ := further between quiet
  exact ⟨events ++ later, after, front.append back, quietAfter⟩

theorem Quiet.runs (quiet : exchange.Quiet point link) {op : SendOp}
    {after : op.Reply → Point} (asks : point.move vendor exchange.call = .ask op after)
    (isLocal : op.Local) {next : Point} (leads : ∀ reply, after reply = next) :
    exchange.LeadsTo link next := by
  obtain ⟨received, holds⟩ := quiet.holds
  obtain ⟨rest, sender, _follows⟩ := holds.follows.of_ask asks
  have moved := holds.runs sender asks isLocal ⟨true, none, 0⟩
  rw [leads] at moved
  exact ⟨_, _, .single ⟨.runs 0 sender isLocal ⟨true, none, 0⟩ rfl, trivial⟩,
    ⟨_, moved⟩, quiet.up, quiet.handled⟩

theorem Quiet.delivers (quiet : exchange.Quiet point link) {packet : Packet}
    {after : Bool → Point}
    (asks : point.move vendor exchange.call = .ask (.sendPacket packet) after) :
    exchange.LeadsTo link (after true) := by
  obtain ⟨received, holds⟩ := quiet.holds
  obtain ⟨rest, sender, _follows⟩ := holds.follows.of_ask asks
  have sent := holds.sends sender asks quiet.up
  have sends : exchange.Step link (.sends packet) _ := ⟨.sends sender quiet.up, trivial⟩
  have only : link.toReceiver ++ [packet] = [packet] := by
    rw [quiet.handled]
    rfl
  have sound : (Arrival.sound (fun _index => 0) 0 0).Sound := ⟨rfl, rfl, rfl⟩
  obtain ⟨further, _sends, handled⟩ := sent.handles only (takes_of_sound sound packet) rfl
  exact ⟨_, _, .cons sends (.single ⟨.handles _ only rfl, sound⟩),
    ⟨_, handled⟩, quiet.up, rfl⟩

theorem Quiet.answered (quiet : exchange.Quiet .awaitAnswer link) :
    exchange.LeadsTo link (.begin exchange.offset) := by
  obtain ⟨received, holds⟩ := quiet.holds
  obtain ⟨rest, sender, _follows⟩ := holds.follows.of_ask rfl
  obtain ⟨packet, others, arrived⟩ := holds.answered quiet.up quiet.handled
  exact ⟨_, _, .single ⟨.receives sender arrived, trivial⟩,
    ⟨_, holds.receivesAnswer sender arrived⟩, quiet.up, quiet.handled⟩

theorem Quiet.acknowledged {start : UInt64} {chunk : Nat}
    (quiet : exchange.Quiet (.awaitAck start chunk) link) :
    exchange.LeadsTo link (.recordAck start chunk) := by
  obtain ⟨received, holds⟩ := quiet.holds
  obtain ⟨rest, sender, _follows⟩ := holds.follows.of_ask rfl
  obtain ⟨packet, others, arrived⟩ := holds.acknowledged quiet.up quiet.handled
  exact ⟨_, _, .single ⟨.receives sender arrived, trivial⟩,
    ⟨_, holds.receivesAck sender arrived⟩, quiet.up, quiet.handled⟩

theorem leadsTo_offer (free : exchange.sender.activeCount < shrMaxConcurrent) :
    exchange.LeadsTo exchange.opening .offer := by
  have notFull : ¬shrMaxConcurrent ≤ exchange.sender.activeCount := by omega
  have opening : exchange.Holds .checkActive .nothing exchange.opening := holds_opening
  obtain ⟨checked, sender, _follows⟩ := opening.follows.of_ask rfl
  have checks : exchange.Step exchange.opening (.runs 0) _ :=
    ⟨.runs 0 sender trivial ⟨true, none, 0⟩ rfl, trivial⟩
  have admitted := opening.runs sender rfl trivial ⟨true, none, 0⟩
  have goesOn : afterActive exchange.sender.activeCount = .store := if_neg notFull
  have storing : exchange.Holds .store .nothing _ := goesOn ▸ admitted
  obtain ⟨stored, storeSender, _follows⟩ := storing.follows.of_ask rfl
  have connecting := storing.runs storeSender rfl trivial ⟨true, none, 0⟩
  obtain ⟨connected, connectSender, _follows⟩ := connecting.follows.of_ask rfl
  have offering := connecting.connects connectSender
  exact ⟨_, _, .cons checks (.cons ⟨.runs 0 storeSender trivial ⟨true, none, 0⟩ rfl, trivial⟩
    (.single ⟨.connects connectSender, trivial⟩)), ⟨_, offering⟩, rfl, rfl⟩

theorem loopPoint_of_more {chunk : Nat} (more : exchange.More chunk) :
    loopPoint exchange.contents exchange.offset chunk =
      .sendChunk exchange.offset chunk (shrRetryLimit - 1) :=
  if_pos more

theorem leadsTo_chunk (free : exchange.sender.activeCount < shrMaxConcurrent) {chunk : Nat}
    (more : exchange.More chunk) :
    exchange.LeadsTo exchange.opening
      (.sendChunk exchange.offset chunk (shrRetryLimit - 1)) := by
  induction chunk with
  | zero =>
      have offered : exchange.LeadsTo exchange.opening .awaitAnswer := by
        apply (leadsTo_offer free).trans
        intro after quiet
        exact quiet.delivers rfl
      apply offered.trans
      intro after quiet
      apply quiet.answered.trans
      intro begun quietBegun
      have entering : exchange.LeadsTo begun (.enter exchange.offset) :=
        quietBegun.runs rfl trivial fun _reply => rfl
      apply entering.trans
      intro entered quietEntered
      exact quietEntered.runs rfl trivial fun _reply => loopPoint_of_more more
  | succ chunk ih =>
      apply (ih (more.earlier (Nat.le_succ chunk))).trans
      intro sending quiet
      apply (quiet.delivers rfl).trans
      intro sent quietSent
      apply quietSent.acknowledged.trans
      intro acknowledged quietAcknowledged
      exact quietAcknowledged.runs rfl trivial fun _reply => loopPoint_of_more more

theorem fails_at_chunk {received : Progress} {start : UInt64} {chunk left : Nat}
    (holds : exchange.Holds (.sendChunk start chunk left) received link) :
    ∃ events after, Steps exchange.Step link events after ∧ (∃ event ∈ events, Breaks event) ∧
      exchange.Holds (.failClose start chunk) received after ∧
      after.toReceiver = link.toReceiver := by
  induction left generalizing link with
  | zero =>
      obtain ⟨rest, sender, _follows⟩ := holds.follows.of_ask rfl
      have failed := holds.failsToSend sender rfl
      exact ⟨_, _, .single ⟨.failsToSend sender, trivial⟩,
        ⟨_, List.mem_singleton.mpr rfl, trivial⟩, failed, rfl⟩
  | succ left ih =>
      obtain ⟨rest, sender, _follows⟩ := holds.follows.of_ask rfl
      have failed := holds.failsToSend sender rfl
      have pausing : exchange.Holds (.pause start chunk left) received _ := failed
      obtain ⟨slept, pauseSender, _follows⟩ := pausing.follows.of_ask rfl
      have again := pausing.runs pauseSender rfl trivial ⟨true, none, 0⟩
      obtain ⟨events, after, run, _breaks, ended, same⟩ := ih again
      have fails : exchange.Step link (.failsToSend _) _ := ⟨.failsToSend sender, trivial⟩
      have pauses : exchange.Step _ (.runs 0) _ :=
        ⟨.runs 0 pauseSender trivial ⟨true, none, 0⟩ rfl, trivial⟩
      exact ⟨_, after, .cons fails (.cons pauses run), ⟨_, List.mem_cons_self, trivial⟩, ended,
        same⟩

/-- A call at a file that is long enough can be interrupted after any number of
chunks. -/
theorem exists_interrupted (unpaused : Unpaused exchange.receiver)
    (free : exchange.sender.activeCount < shrMaxConcurrent) {chunks : Nat}
    (some_chunks : 1 ≤ chunks) (unfinished : chunks * shrChunkSize < exchange.contents.length) :
    ∃ events link, exchange.Interrupted events link chunks := by
  have fromStart : exchange.offset = 0 := by
    unfold offset paused
    rw [unpaused]
    rfl
  have more : exchange.More chunks := by
    have inside : exchange.offset.toNat ≤ exchange.contents.length := offset_inside
    have remaining := length_remainingFrom inside exchange.bounded
    rw [fromStart, UInt64.toNat_zero, Nat.sub_zero] at remaining
    unfold More Shr.More
    rw [fromStart]
    have same : exchange.contents.length = exchange.call.contents.length := rfl
    omega
  obtain ⟨front, sending, reaches, quiet⟩ := leadsTo_chunk free more
  obtain ⟨received, holds⟩ := quiet.holds
  obtain ⟨failures, broken, fails, ⟨event, member, breaks⟩, closing, same⟩ :=
    fails_at_chunk holds
  obtain ⟨closed, closeSender, _follows⟩ := closing.follows.of_ask rfl
  have recording := closing.closes closeSender rfl
  obtain ⟨recorded, recordSender, _follows⟩ := recording.follows.of_ask rfl
  have leaving := recording.runs recordSender rfl trivial ⟨true, none, 0⟩
  obtain ⟨left, leaveSender, _follows⟩ := leaving.follows.of_ask rfl
  have failed := leaving.runs leaveSender rfl trivial ⟨true, none, 0⟩
  have ends : Steps exchange.Step broken _ _ :=
    .cons ⟨.closes closeSender, trivial⟩
      (.cons ⟨.runs 0 recordSender trivial ⟨true, none, 0⟩ rfl, trivial⟩
        (.single ⟨.runs 0 leaveSender trivial ⟨true, none, 0⟩ rfl, trivial⟩))
  obtain ⟨record, found, _totalBytes, transferred, _state⟩ := failed.record.stored _ rfl
  refine ⟨_, _, reaches.append (fails.append ends), ?_, ?_, ?_, some_chunks, unfinished⟩
  · exact ⟨⟨_, failed.follows.of_finish rfl⟩, same.trans quiet.handled⟩
  · exact ⟨event, List.mem_append_right _ (List.mem_append_left _ member), breaks⟩
  · refine ⟨record, found, ?_⟩
    rw [transferred]
    have counted : exchange.recordedBytes (.failed exchange.offset chunks) =
        exchange.bytesAt chunks := rfl
    have counts : (exchange.bytesAt chunks).toNat = chunks * shrChunkSize := by
      rw [toNat_bytesAt]
      unfold lengthAt lengthBefore
      rw [bytesBefore_of_more more, fromStart, UInt64.toNat_zero, Nat.zero_add]
    exact (congrArg UInt64.toNat counted).trans counts

end Construction

end Exchange

namespace Reference

def longFile : Bytes :=
  List.replicate (shrChunkSize + 1) 0

theorem length_longFile : longFile.length = shrChunkSize + 1 :=
  List.length_replicate

theorem longFile_bounded : longFile.length < 2 ^ 63 := by
  rw [length_longFile]
  decide

theorem newNode_unpaused : Unpaused newNode := by
  intro id
  rfl

def longExchange : Exchange vendor host :=
  exchange longFile longFile_bounded anyRandom newNode newNode
    fun record paused => by
      rw [newNode_unpaused] at paused
      cases paused

def longExchangeAgain (sender receiver : Node) (unpaused : Unpaused receiver) :
    Exchange vendor host :=
  exchange longFile longFile_bounded (fun _index => 1) sender receiver
    fun record paused => by
      rw [unpaused] at paused
      cases paused

theorem longExchange_repeats {link : Link} (unpaused : Unpaused link.receiverNode) :
    longExchange.Repeats link
      (longExchangeAgain link.senderNode link.receiverNode unpaused) where
  absPath := rfl
  contents := rfl
  peer := rfl
  sender := rfl
  receiver := rfl

theorem longFile_interrupted : ∃ events link, longExchange.Interrupted events link 1 := by
  apply Exchange.exists_interrupted newNode_unpaused
  · decide
  · exact Nat.le_refl 1
  · have length : longExchange.contents.length = shrChunkSize + 1 := length_longFile
    rw [length]
    omega

/-- The transfer of a chunk and a byte is interrupted after the chunk.  The call
that sends the file again sends it from its start. -/
theorem interrupted_file_sent_again :
    ∃ events link second laterEvents later,
      longExchange.Interrupted events link 1 ∧ longExchange.Repeats link second ∧
      Steps second.Faultless second.opening laterEvents later ∧
      Steps.Stuck second.Faultless later ∧ ¬second.Resumed 1 later := by
  obtain ⟨events, link, interrupted⟩ := longFile_interrupted
  have unpaused := unpaused_of_run interrupted.run newNode_unpaused
  obtain ⟨laterEvents, later, run, stuck⟩ := Steps.exists_stuck
    (Exchange.faultless_wellFounded (longExchangeAgain link.senderNode link.receiverNode unpaused))
    (longExchangeAgain link.senderNode link.receiverNode unpaused).opening
  exact ⟨events, link, _, laterEvents, later, interrupted, longExchange_repeats unpaused, run,
    stuck, Exchange.not_resumed unpaused (run.mono fun _before _event _after step => step.step)
      (Nat.le_refl 1)⟩

theorem long_file_not_resumed :
    ∃ events link second laterEvents later,
      longExchange.Interrupted events link 1 ∧ longExchange.Repeats link second ∧
      Steps second.Step second.opening laterEvents later ∧ ¬second.Resumed 1 later := by
  obtain ⟨events, link, interrupted⟩ := longFile_interrupted
  have unpaused := unpaused_of_run interrupted.run newNode_unpaused
  have repeats := longExchange_repeats unpaused
  obtain ⟨laterEvents, later, run, _stuck⟩ := Steps.exists_stuck
    (Exchange.faultless_wellFounded (longExchangeAgain link.senderNode link.receiverNode unpaused))
    (longExchangeAgain link.senderNode link.receiverNode unpaused).opening
  have steps := run.mono fun _before _event _after step => step.step
  exact ⟨events, link, _, laterEvents, later, interrupted, repeats, steps,
    never_resumed (NodeState.reachable_initial vendor host fun _path => none) rfl interrupted
      repeats steps⟩

end Reference

end Shr
