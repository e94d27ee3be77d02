/-
What a network can always do.

A call and the machine it reaches behave, between any other events, like the two
parties of one connection: each step that such a pair can take without a fault is
an event that the network admits.  Hence a file can be delivered from any state
in which the caller knows an address of a machine that has not seen the transfer.
-/

import Shr.Fleet.Runs
import Shr.Transfer.FaultFree

namespace Shr
namespace Fleet

/-! ### The address a call dials -/

def DialsOnly (peer : PeerInfo) (op : SendOp) : Prop :=
  ∀ ip port, op = .connectTo ip port → ip = peer.ip ∧ port = peer.port

theorem move_dialsOnly {vendor : Vendor} {call : SendCall} {point : Point} {op : SendOp}
    {after : op.Reply → Point} (moves : point.move vendor call = .ask op after) :
    DialsOnly call.peer op := by
  intro ip port dials
  cases point with
  | connect =>
      cases moves
      cases dials
      exact ⟨rfl, rfl⟩
  | _ =>
      cases moves
      try cases dials

theorem sendFile_dialsOnly (vendor : Vendor) (call : SendCall) :
    (sendFile vendor call.inputs).Asks (DialsOnly call.peer) :=
  @Program.Follows.asks_of_closed sendSignature Bytes Point (Point.move vendor call) _
    (fun _point => True) _ (fun _inside moves => ⟨move_dialsOnly moves, fun _reply => trivial⟩) _
    (sendFile_at vendor call) trivial

/-! ### A connection inside a network -/

section Mirrors

variable {ι : Type} (world : World ι) (me other : ι)

/-- A call of one machine and the node of another stand as the two parties of a
connection do, and what is under way between these is on record. -/
structure Mirrors (call : SendCall) (index : Nat) (link : Link) (state : State ι) : Prop where
  sender : (state.machines me).files.sends[index]? = some link.sender
  senderNode : (state.machines me).files.node = link.senderNode
  receiverNode : (state.machines other).files.node = link.receiverNode
  dials : link.sender.Asks (DialsOnly call.peer)
  dialled : link.up = true ∨ link.toReceiver ≠ [] →
    .dialled (.sendFile me index) call.peer.ip call.peer.port ∈ state.traffic
  sent : ∀ packet ∈ link.toReceiver, .sent (.sendFile me index) packet ∈ state.traffic
  answered : ∀ packet ∈ link.toSender, .answered (.sendFile me index) packet ∈ state.traffic

end Mirrors

section Steps

variable {ι : Type} {world : World ι} {me other : ι}
variable {call : SendCall} {index : Nat} {link : Link} {state : State ι}

def answering (me : ι) (index : Nat) (answer : Answer) : Event ι :=
  { machine := me
    happening := .files (.advance index answer) }

theorem Mirrors.admits (mirrors : Mirrors me other call index link state) {op : SendOp}
    {next : op.Reply → SendProgram Bytes} (asks : link.sender = .call op next)
    (notRead : op ≠ .readPacket) (answer : Answer) :
    state.Admits world (answering me index answer) := by
  intro following packet present
  have found := mirrors.sender
  rw [asks] at found
  have isRead : (state.machines me).files.sends[index]? = some (.call .readPacket following) :=
    present
  rw [found] at isRead
  cases isRead
  exact absurd rfl notRead

variable [DecidableEq ι]

theorem Mirrors.advance (mirrors : Mirrors me other call index link state)
    (different : me ≠ other) {op : SendOp} {next : op.Reply → SendProgram Bytes}
    (asks : link.sender = .call op next) (answer : Answer) {after : Link}
    (sender : after.sender = next (op.effect answer link.senderNode).1)
    (senderNode : after.senderNode = (op.effect answer link.senderNode).2)
    (receiverNode : after.receiverNode = link.receiverNode)
    (dialled : after.up = true ∨ after.toReceiver ≠ [] →
      .dialled (.sendFile me index) call.peer.ip call.peer.port ∈
        state.traffic ++ fileTraffic (.sendFile me index) (.call op next))
    (sent : ∀ packet ∈ after.toReceiver, .sent (.sendFile me index) packet ∈
      state.traffic ++ fileTraffic (.sendFile me index) (.call op next))
    (answered : ∀ packet ∈ after.toSender,
      .answered (.sendFile me index) packet ∈ state.traffic) :
    Mirrors me other call index after (state.step world (answering me index answer)) := by
  have present := mirrors.sender
  rw [asks] at present
  obtain ⟨inside, _same⟩ := List.getElem?_eq_some_iff.mp present
  have here : (state.step world (answering me index answer)).machines me =
      (state.machines me).step world.vendor (world.sites me)
        (answering me index answer).happening :=
    state.step_machine_self (answering me index answer)
  have elsewhere : (state.step world (answering me index answer)).machines other =
      state.machines other := state.step_machine_of_ne different
  have files : ((state.step world (answering me index answer)).machines me).files =
      { node := after.senderNode
        sends := (state.machines me).files.sends.set index after.sender } := by
    rw [here, sender, senderNode, ← mirrors.senderNode]
    simp only [answering, Machine.step, Happening.onFiles, EventRun.optionally_some,
      NodeState.step, present, Shr.advance]
  have traffic : (state.step world (answering me index answer)).traffic =
      state.traffic ++ fileTraffic (.sendFile me index) (.call op next) := by
    simp only [answering, State.step, Machine.emits, present, Option.elim_some]
  have dials := mirrors.dials
  rw [asks] at dials
  constructor
  case sender =>
    rw [files]
    exact List.getElem?_set_self inside
  case senderNode => rw [files]
  case receiverNode => rw [elsewhere, mirrors.receiverNode, receiverNode]
  case dials =>
    rw [sender]
    exact dials.2 _
  case dialled =>
    rw [traffic]
    exact dialled
  case sent =>
    rw [traffic]
    exact sent
  case answered =>
    rw [traffic]
    exact fun packet member => List.mem_append_left _ (answered packet member)

theorem Mirrors.handles (mirrors : Mirrors me other call index link state)
    (different : me ≠ other) (listens : world.listener call.peer.ip call.peer.port = some other)
    {packet : Packet} {rest : List Packet} (arrived : link.toReceiver = packet :: rest)
    (arrival : Arrival) (received : Messaging.Arrival) {handled : Handled}
    (runs : handleTransferPacket world.vendor (world.sites other).host arrival packet
      link.receiverNode = handled) :
    state.Admits world
        { machine := other
          happening := .handle (.sendFile me index) packet arrival received } ∧
      Mirrors me other call index
        { link with
          toReceiver := rest
          toSender := if link.up then link.toSender ++ handled.replies else link.toSender
          receiverNode := handled.node }
        (state.step world
          { machine := other
            happening := .handle (.sendFile me index) packet arrival received }) := by
  have dialled := mirrors.dialled (.inr (by rw [arrived]; exact List.cons_ne_nil _ _))
  have here : ((state.step world
      { machine := other
        happening := .handle (.sendFile me index) packet arrival received }).machines
          other).files.node = handled.node := by
    rw [State.step_machine_self]
    simp only [Machine.step, Happening.onFiles, EventRun.optionally_some, NodeState.step]
    rw [mirrors.receiverNode, runs]
  have elsewhere : (state.step world
      { machine := other
        happening := .handle (.sendFile me index) packet arrival received }).machines me =
          state.machines me := state.step_machine_of_ne (Ne.symm different)
  have kept {item : Traffic ι} (member : item ∈ state.traffic) : item ∈ (state.step world
      { machine := other
        happening := .handle (.sendFile me index) packet arrival received }).traffic :=
    List.mem_append_left _ member
  constructor
  · refine ⟨mirrors.sent packet ?_, call.peer.ip, call.peer.port, dialled, listens⟩
    rw [arrived]
    exact List.mem_cons_self
  constructor
  case sender =>
    rw [elsewhere]
    exact mirrors.sender
  case senderNode =>
    rw [elsewhere]
    exact mirrors.senderNode
  case receiverNode => exact here
  case dials => exact mirrors.dials
  case dialled => exact fun _needed => kept dialled
  case sent =>
    intro later member
    refine kept (mirrors.sent later ?_)
    rw [arrived]
    exact List.mem_cons_of_mem packet member
  case answered =>
    intro reply member
    have fromBoth : reply ∈ link.toSender ∨ reply ∈ handled.replies := by
      simp only at member
      split at member
      · exact List.mem_append.mp member
      · exact .inl member
    rcases fromBoth with earlier | new
    · exact kept (mirrors.answered reply earlier)
    · refine List.mem_append_right _ (List.mem_map_of_mem (List.mem_append_left _ ?_))
      rw [mirrors.receiverNode, runs]
      exact new

/-- Every step that the two parties of a connection can take without a fault is an
event the network admits. -/
theorem Mirrors.step (mirrors : Mirrors me other call index link state)
    (different : me ≠ other) (listens : world.listener call.peer.ip call.peer.port = some other)
    {path : Bytes} {event : LinkEvent} {after : Link}
    (step : LinkStep world.vendor (world.sites other).host call path link event after)
    (faultless : event.Faultless) :
    ∃ happens, state.Admits world happens ∧
      Mirrors me other call index after (state.step world happens) := by
  have dials := mirrors.dials
  cases step with
  | @runs op next now asks isLocal answer clock =>
      refine ⟨answering me index answer, mirrors.admits asks ?_ answer, ?_⟩
      · intro isRead
        rw [isRead] at isLocal
        exact isLocal
      · refine mirrors.advance different asks answer rfl rfl rfl ?_ ?_ mirrors.answered
        · exact fun needed => List.mem_append_left _ (mirrors.dialled needed)
        · exact fun packet member => List.mem_append_left _ (mirrors.sent packet member)
  | @connects ip port next asks =>
      let answer : Answer :=
        { ok := true
          packet := none
          now := 0 }
      rw [asks] at dials
      obtain ⟨sameIp, samePort⟩ := dials.1 ip port rfl
      refine ⟨answering me index answer, mirrors.admits asks nofun answer, ?_⟩
      refine mirrors.advance different asks answer rfl rfl rfl ?_ ?_ mirrors.answered
      · rw [sameIp, samePort]
        exact fun _needed => List.mem_append_right _ (List.mem_singleton_self _)
      · exact fun packet member => List.mem_append_left _ (mirrors.sent packet member)
  | @sends packet next asks up =>
      let answer : Answer :=
        { ok := true
          packet := none
          now := 0 }
      refine ⟨answering me index answer, mirrors.admits asks nofun answer, ?_⟩
      refine mirrors.advance different asks answer rfl rfl rfl ?_ ?_ mirrors.answered
      · exact fun _needed => List.mem_append_left _ (mirrors.dialled (.inl up))
      · intro other member
        rcases List.mem_append.mp member with earlier | last
        · exact List.mem_append_left _ (mirrors.sent other earlier)
        · rw [List.mem_singleton.mp last]
          exact List.mem_append_right _ (List.mem_singleton_self _)
  | @receives packet rest next asks arrived =>
      let answer : Answer :=
        { ok := true
          packet := some packet
          now := 0 }
      have isAnswered : .answered (.sendFile me index) packet ∈ state.traffic :=
        mirrors.answered packet (by rw [arrived]; exact List.mem_cons_self)
      refine ⟨answering me index answer, ?_, ?_⟩
      · intro following read _present answers
        cases answers
        exact isAnswered
      · refine mirrors.advance different asks answer rfl rfl rfl ?_ ?_ ?_
        · exact fun needed => List.mem_append_left _ (mirrors.dialled needed)
        · exact fun packet member => List.mem_append_left _ (mirrors.sent packet member)
        · intro later member
          apply mirrors.answered
          rw [arrived]
          exact List.mem_cons_of_mem packet member
  | @closes next asks =>
      let answer : Answer :=
        { ok := true
          packet := none
          now := 0 }
      refine ⟨answering me index answer, mirrors.admits asks nofun answer, ?_⟩
      refine mirrors.advance different asks answer rfl rfl rfl ?_ ?_ nofun
      · rintro (up | pending)
        · cases up
        · exact List.mem_append_left _ (mirrors.dialled (.inr pending))
      · exact fun packet member => List.mem_append_left _ (mirrors.sent packet member)
  | handles arrival arrived runs =>
      exact ⟨_, mirrors.handles different listens arrived arrival
        { random := arrival.random
          now := arrival.updatedAt
          stores := arrival.stores } runs⟩
  | refused asks => exact faultless.elim
  | loses asks down => exact faultless.elim
  | failsToSend asks => exact faultless.elim
  | timesOut asks => exact faultless.elim
  | cut outward inward => exact faultless.elim
  | senderElsewhere same => exact faultless.elim
  | receiverElsewhere elsewhere => exact faultless.elim

theorem Mirrors.run {exchange : Exchange world.vendor (world.sites other).host}
    (different : me ≠ other)
    (listens : world.listener exchange.call.peer.ip exchange.call.peer.port = some other)
    {events : List LinkEvent} {after : Link}
    (steps : Steps exchange.Faultless link events after)
    (mirrors : Mirrors me other exchange.call index link state) :
    ∃ happened, Admissible world state happened ∧
      Mirrors me other exchange.call index after (state.run world happened) := by
  induction steps generalizing state with
  | nil link => exact ⟨[], trivial, mirrors⟩
  | cons first rest ih =>
      obtain ⟨happens, admitted, next⟩ := mirrors.step different listens first.1 first.2
      obtain ⟨happened, admissible, last⟩ := ih next
      exact ⟨happens :: happened, ⟨admitted, admissible⟩, last⟩

end Steps

/-! ### Calls that are made -/

section Calls

variable {ι : Type} [DecidableEq ι] {world : World ι} {me other : ι}

def launching (me : ι) (call : SendCall) : Event ι :=
  { machine := me
    happening := .files (.launch call.inputs) }

theorem mirrors_start (state : State ι) (call : SendCall) (different : me ≠ other) :
    Mirrors me other call (state.machines me).files.sends.length
      (Link.start world.vendor call (state.machines me).files.node
        (state.machines other).files.node)
      (state.step world (launching me call)) := by
  have here : (state.step world (launching me call)).machines me =
      (state.machines me).step world.vendor (world.sites me) (launching me call).happening :=
    state.step_machine_self (launching me call)
  have elsewhere : (state.step world (launching me call)).machines other =
      state.machines other := state.step_machine_of_ne different
  constructor
  case sender =>
    rw [here]
    exact List.getElem?_concat_length
  case senderNode =>
    rw [here]
    rfl
  case receiverNode =>
    rw [elsewhere]
    rfl
  case dials => exact sendFile_dialsOnly world.vendor call
  case dialled => exact fun needed => needed.elim nofun fun pending => absurd rfl pending
  case sent => exact fun packet member => absurd member List.not_mem_nil
  case answered => exact fun packet member => absurd member List.not_mem_nil

/-- The file of a call is the one that was measured and hashed for it; a file
system knows no name with a zero byte and no file beyond the signed range. -/
structure Measured (vendor : Vendor) (call : SendCall) : Prop where
  name : NulFree (pathFilename call.absPath)
  bounded : call.contents.length < 2 ^ 63
  size : call.inputs.fileSize = UInt64.ofNat call.contents.length
  checksum : call.inputs.checksum = sha256Bytes vendor call.contents

def Measured.exchange {vendor : Vendor} {call : SendCall} (measured : Measured vendor call)
    (host : Host) (sender receiver : Node)
    (fresh : receiver.transfers.getTransfer call.inputs.xferId = none) :
    Exchange vendor host where
  call := call
  sender := sender
  receiver := receiver
  name := measured.name
  bounded := measured.bounded
  size := measured.size
  checksum := measured.checksum
  resumable := by
    intro record paused
    obtain ⟨found, _paused⟩ := pausedRecord_eq_some.mp paused
    rw [fresh] at found
    cases found

theorem Measured.exchange_path {vendor : Vendor} {call : SendCall}
    (measured : Measured vendor call) {host : Host} {sender receiver : Node}
    (fresh : receiver.transfers.getTransfer call.inputs.xferId = none) :
    (measured.exchange host sender receiver fresh).path =
      receivedPath host (pathFilename call.absPath) := by
  have unpaused : (measured.exchange host sender receiver fresh).paused = none :=
    Exchange.paused_of_fresh fresh
  unfold Exchange.path
  rw [unpaused, Option.elim_none]
  exact Exchange.receivedPath_nulFree measured.name

structure Delivered (world : World ι) (me other : ι) (call : SendCall) (state : State ι) :
    Prop where
  sent : ∃ record,
    (state.machines me).files.node.transfers.getTransfer call.inputs.xferId = some record ∧
      record.state = .completed ∧ record.transferredBytes = call.inputs.fileSize
  received : ∃ record,
    (state.machines other).files.node.transfers.getTransfer call.inputs.xferId = some record ∧
      record.state = .completed ∧ record.transferredBytes = call.inputs.fileSize ∧
      record.filepath = receivedPath (world.sites other).host (pathFilename call.absPath)
  file : (state.machines other).files.node.read (world.sites other).host
      (receivedPath (world.sites other).host (pathFilename call.absPath)) = some call.contents

/-- From any state a file can be delivered: if the caller knows an address at which
the other machine listens and has a free slot, and the other machine has not seen
the id, then the call can be made and has a run at whose end it is delivered. -/
theorem transfer_can_complete (world : World ι) (state : State ι) (different : me ≠ other)
    (call : SendCall) (measured : Measured world.vendor call) (nonempty : call.contents ≠ [])
    (ownId : call.inputs.ownId = (world.sites me).ownId)
    (known : Peers.findPeer call.inputs.recipientId (state.machines me).peers.table =
      some call.peer)
    (listens : world.listener call.peer.ip call.peer.port = some other)
    (fresh : (state.machines other).files.node.transfers.getTransfer call.inputs.xferId = none)
    (free : (state.machines me).files.node.activeCount < shrMaxConcurrent) :
    ∃ events, Admissible world state (launching me call :: events) ∧
      Delivered world me other call (state.run world (launching me call :: events)) := by
  let exchange := measured.exchange (world.sites other).host (state.machines me).files.node
    (state.machines other).files.node fresh
  obtain ⟨linkEvents, link, steps, stuck⟩ :=
    Steps.exists_stuck (Exchange.faultless_wellFounded exchange) exchange.opening
  obtain ⟨point, progress, flawless⟩ := Exchange.flawless_of_run free steps
  have copied := flawless.copied stuck (.inl nonempty)
  rw [measured.exchange_path fresh] at copied
  obtain ⟨events, admissible, mirrors⟩ :=
    Mirrors.run different listens steps (mirrors_start state call different)
  have launchable : state.Admits world (launching me call) :=
    ⟨ownId, call.sendable.registered.trans known.symm⟩
  refine ⟨events, ⟨launchable, admissible⟩, ?_⟩
  obtain ⟨sent, sentFound, sentWhole⟩ := copied.sent
  obtain ⟨received, receivedFound, filepath, receivedWhole⟩ := copied.received
  have file := copied.file
  rw [← mirrors.senderNode] at sentFound
  rw [← mirrors.receiverNode] at receivedFound file
  constructor
  · exact ⟨sent, sentFound, sentWhole.completed, sentWhole.transferredBytes.trans
      measured.size.symm⟩
  · exact ⟨received, receivedFound, receivedWhole.completed,
      receivedWhole.transferredBytes.trans measured.size.symm, filepath⟩
  · exact file

end Calls

namespace Reference

theorem call_measured {contents : Bytes} (bounded : contents.length < 2 ^ 63) :
    Measured world.vendor (call contents) where
  name := by
    change NulFree (pathFilename Shr.Reference.sentPath)
    decide
  bounded := bounded
  size := rfl
  checksum := rfl

/-- Two bytes reach the second machine. -/
theorem short_file_delivered :
    ∃ events,
      Admissible world (after [addition])
        (launching false (call Shr.Reference.shortFile) :: events) ∧
      Delivered world false true (call Shr.Reference.shortFile)
        ((after [addition]).run world
          (launching false (call Shr.Reference.shortFile) :: events)) :=
  transfer_can_complete world (after [addition]) Bool.false_ne_true
    (call Shr.Reference.shortFile) (call_measured (by decide)) (by decide) rfl
    find_added (by decide) rfl (by decide)

end Reference

/-! ### Calls that go on -/

section Stands

variable {ι : Type} [DecidableEq ι] {world : World ι}

def Stands (world : World ι) (call : SendCall) (me : ι) (index : Nat) (point : Point)
    (state : State ι) : Prop :=
  ∃ program, (state.machines me).files.sends[index]? = some program ∧
    call.At world.vendor point program

variable {call : SendCall} {me : ι} {index : Nat} {point : Point} {state : State ι}

theorem Stands.advance (stands : Stands world call me index point state) {op : SendOp}
    {after : op.Reply → Point} (moves : point.move world.vendor call = .ask op after)
    (answer : Answer) :
    Stands world call me index (after (op.effect answer (state.machines me).files.node).1)
        (state.step world (answering me index answer)) ∧
      ((state.step world (answering me index answer)).machines me).files.node =
        (op.effect answer (state.machines me).files.node).2 ∧
      ∃ next, (state.step world (answering me index answer)).traffic =
        state.traffic ++ fileTraffic (.sendFile me index) (.call op next) := by
  obtain ⟨program, present, follows⟩ := stands
  obtain ⟨next, isCall, rest⟩ := follows.of_ask moves
  rw [isCall] at present
  obtain ⟨inside, _same⟩ := List.getElem?_eq_some_iff.mp present
  have files : ((state.step world (answering me index answer)).machines me).files =
      { node := (op.effect answer (state.machines me).files.node).2
        sends := (state.machines me).files.sends.set index
          (next (op.effect answer (state.machines me).files.node).1) } := by
    have here : (state.step world (answering me index answer)).machines me =
        (state.machines me).step world.vendor (world.sites me)
          (answering me index answer).happening :=
      state.step_machine_self (answering me index answer)
    rw [here]
    simp only [answering, Machine.step, Happening.onFiles, EventRun.optionally_some,
      NodeState.step, present, Shr.advance]
  refine ⟨⟨next (op.effect answer (state.machines me).files.node).1, ?_, rest _⟩, ?_, next, ?_⟩
  · rw [files]
    exact List.getElem?_set_self inside
  · rw [files]
  · simp only [answering, State.step, Machine.emits, present, Option.elim_some]

end Stands

namespace Reference

def ready : Answer :=
  { ok := true
    packet := none
    now := 0 }

abbrev sentFile : Bytes :=
  Shr.Reference.shortFile

def offering : List (Event Bool) :=
  addition :: launching false (call sentFile) :: List.replicate 4 (answering false 0 ready)

def offer : Packet :=
  offerPacket world.vendor (inputs sentFile) Shr.Reference.sentPath

theorem launched_stands :
    Stands world (call sentFile) false 0 .checkActive
      (after [addition, launching false (call sentFile)]) :=
  ⟨sendFile world.vendor (call sentFile).inputs, rfl, sendFile_at world.vendor (call sentFile)⟩

theorem offering_stands :
    Stands world (call sentFile) false 0 .awaitAnswer (after offering) ∧
    (after offering).traffic =
      [.dialled (.sendFile false 0) added.ip added.port, .sent (.sendFile false 0) offer] ∧
    ((after offering).machines false).files.node.transfers.getTransfer (inputs sentFile).xferId =
      some (sentRecord (inputs sentFile) Shr.Reference.sentPath).stored := by
  obtain ⟨first, _firstNode, _, firstTraffic⟩ := launched_stands.advance rfl ready
  obtain ⟨second, secondNode, _, secondTraffic⟩ := first.advance (by rfl) ready
  obtain ⟨third, thirdNode, _, thirdTraffic⟩ := second.advance (by rfl) ready
  obtain ⟨fourth, fourthNode, _, fourthTraffic⟩ := third.advance (by rfl) ready
  refine ⟨fourth, ?_, ?_⟩
  · refine fourthTraffic.trans ?_
    rw [thirdTraffic, secondTraffic, firstTraffic]
    rfl
  · have node : ((after offering).machines false).files.node = _ := fourthNode.trans
      (thirdNode.trans secondNode)
    rw [node]
    exact TransferTable.getTransfer_upsert_self _ _ rfl

theorem quiet_admitted (state : State Bool) : state.Admits world (answering false 0 ready) := by
  intro next packet _present impossible
  cases impossible

theorem offering_admissible : Admissible world (State.initial disks) offering :=
  ⟨trivial, ⟨rfl, find_added.symm⟩, quiet_admitted _, quiet_admitted _, quiet_admitted _,
    quiet_admitted _, trivial⟩

end Reference

end Fleet
end Shr
