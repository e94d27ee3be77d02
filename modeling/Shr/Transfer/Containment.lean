/-
Where the packets of a peer write.

A packet is contained when the only paths it opens are children of the receive
directory and the node's own sends come to no harm.  The handlers look records
up in the one table that inbound and outbound transfers share, and none of them
looks at the direction of what it finds: containment holds along the runs whose
packets leave the node's own sends alone, and fails as soon as a peer names
one.
-/

import Shr.Reference

namespace Shr

/-! ### Contained packets -/

/-- The transfers a node sends, and the files they name, are as they were. -/
def SendsKept (host : Host) (before after : Node) : Prop :=
  ∀ id record, before.transfers.getTransfer id = some record → record.outbound = true →
    after.read host record.filepath = before.read host record.filepath ∧
      ∃ kept, after.transfers.getTransfer id = some kept ∧
        kept.state = record.state ∧
        kept.transferredBytes = record.transferredBytes ∧
        kept.filepath = record.filepath

def Contained (vendor : Vendor) (host : Host) (state : NodeState) : NodeEvent → Prop
  | .packet arrival packet =>
      let handled := handleTransferPacket vendor host arrival packet state.node
      (∀ path, handled.opened = some path → ChildOf host.receivedDir path) ∧
        SendsKept host state.node handled.node
  | _ => True

/-- The packet names no transfer the node sends, and no file such a transfer
names is written. -/
structure SparesSends (vendor : Vendor) (host : Host) (arrival : Arrival) (packet : Packet)
    (node : Node) : Prop where
  offer : packet.type = .fileOffer → ∀ offer record,
    readFileOffer vendor arrival.random packet.payload = some offer →
    node.transfers.getTransfer offer.xferId = some record → record.outbound = false
  chunk : packet.type = .fileChunk → ∀ chunk record,
    ChunkApplies vendor arrival packet.payload node chunk record →
    record.outbound = false ∧
      ∀ id sent, node.transfers.getTransfer id = some sent → sent.outbound = true →
        host.resolve sent.filepath ≠ host.resolve record.filepath
  complete : packet.type = .fileComplete → ∀ complete record,
    readFileComplete vendor packet.payload = some complete →
    node.transfers.getTransfer complete.xferId = some record → record.outbound = false

def PacketSparesSends (vendor : Vendor) (host : Host) (state : NodeState) : NodeEvent → Prop
  | .packet arrival packet => SparesSends vendor host arrival packet state.node
  | _ => True

/-! ### One packet -/

section Packets

variable {vendor : Vendor} {host : Host}

theorem Contained.kept {state : NodeState} {arrival : Arrival} {packet : Packet}
    (contained : Contained vendor host state (.packet arrival packet)) :
    SendsKept host state.node (state.step vendor host (.packet arrival packet)).node :=
  contained.2

theorem SendsKept.refl (node : Node) : SendsKept host node node := by
  intro id record found _outbound
  constructor
  · rfl
  · exact ⟨record, found, rfl, rfl, rfl⟩

theorem SendsKept.of_frame {before after : Node} {written : Bytes}
    (inbound : ∀ record, before.transfers.getTransfer written = some record →
      record.outbound = false)
    (files : ∀ id record, before.transfers.getTransfer id = some record →
      record.outbound = true →
      after.read host record.filepath = before.read host record.filepath)
    (records : ∀ id, cstr id ≠ cstr written →
      after.transfers.getTransfer id = before.transfers.getTransfer id) :
    SendsKept host before after := by
  intro id record found outbound
  constructor
  · exact files id record found outbound
  · have different : cstr id ≠ cstr written := by
      intro same
      rw [TransferTable.getTransfer_cstr _ same] at found
      rw [inbound record found] at outbound
      cases outbound
    exact ⟨record, (records id different).trans found, rfl, rfl, rfl⟩

theorem sendsKept_update {node : Node} (arrival : Arrival) {id : Bytes}
    (inbound : ∀ record, node.transfers.getTransfer id = some record →
      record.outbound = false)
    (transferred : UInt64) (state : TransferState) :
    SendsKept host node (node.update arrival id transferred state) := by
  apply SendsKept.of_frame inbound
  · intro other record _found _outbound
    rfl
  · intro other different
    exact node.getTransfer_update_of_ne arrival transferred state different

theorem contained_offer {arrival : Arrival} {payload : Bytes} {node : Node}
    (inbound : ∀ offer record, readFileOffer vendor arrival.random payload = some offer →
      node.transfers.getTransfer offer.xferId = some record → record.outbound = false) :
    (handleFileOffer vendor host arrival payload node).opened = none ∧
      SendsKept host node (handleFileOffer vendor host arrival payload node).node := by
  rcases handleFileOffer_cases arrival payload node with
    ⟨_malformed, handled⟩ | ⟨_offer, _existing, _decoded, _found, handled⟩ |
    ⟨offer, decoded, _notPaused, handled⟩
  · rw [handled]
    exact ⟨rfl, SendsKept.refl node⟩
  · rw [handled]
    exact ⟨rfl, SendsKept.refl node⟩
  · rw [handled]
    refine ⟨rfl, ?_⟩
    apply SendsKept.of_frame fun record => inbound offer record decoded
    · intro id record _found _outbound
      rfl
    · intro id different
      simp only
      split
      · exact TransferTable.getTransfer_upsert_of_ne _ _ different
      · rfl

theorem RecordInvariant.childOf {record : TransferRecord} (holds : RecordInvariant host record)
    (inbound : record.outbound = false) (file : namesFile record.filepath = true) :
    ChildOf host.receivedDir record.filepath := by
  obtain ⟨filename, path⟩ := holds.inbound inbound
  have noSlash := sanitizeFilename_noSlash filename
  have noSlashCut : slash ∉ cstr (sanitizeFilename filename) := fun member =>
    noSlash ((List.takeWhile_prefix _).subset member)
  have cut : record.filepath =
      joinPath host.receivedDir (cstr (sanitizeFilename filename)) := by
    rw [path]
    exact cstr_joinPath host.receivedDir_nulFree noSlash
  rw [cut] at file ⊢
  exact childOf_of_namesFile host.receivedDir noSlashCut (cstr_nulFree _) file

theorem contained_chunk {arrival : Arrival} {payload : Bytes} {node : Node}
    (records : ∀ id record, node.transfers.getTransfer id = some record →
      RecordInvariant host record)
    (spared : ∀ chunk record, ChunkApplies vendor arrival payload node chunk record →
      record.outbound = false ∧
        ∀ id sent, node.transfers.getTransfer id = some sent → sent.outbound = true →
          host.resolve sent.filepath ≠ host.resolve record.filepath) :
    (∀ path, (handleFileChunk vendor host arrival payload node).opened = some path →
      ChildOf host.receivedDir path) ∧
      SendsKept host node (handleFileChunk vendor host arrival payload node).node := by
  rcases handleFileChunk_cases arrival payload node with
    ⟨_ignored, handled⟩ | ⟨chunk, record, applies, handled⟩
  · rw [handled]
    constructor
    · intro path impossible
      cases impossible
    · exact SendsKept.refl node
  · obtain ⟨inbound, otherFile⟩ := spared chunk record applies
    rw [handled]
    constructor
    · intro path opened
      cases opened
      exact (records _ record applies.found).childOf inbound applies.namesFile
    · apply @SendsKept.of_frame host node _ chunk.xferId
      · intro found present
        rw [applies.found] at present
        cases present
        exact inbound
      · intro id sent present outbound
        exact Node.read_write_of_ne host node _ (otherFile id sent present outbound)
      · intro id different
        exact Node.getTransfer_update_of_ne _ arrival _ _ different

theorem contained_complete {arrival : Arrival} {payload : Bytes} {node : Node}
    (inbound : ∀ complete record, readFileComplete vendor payload = some complete →
      node.transfers.getTransfer complete.xferId = some record → record.outbound = false) :
    (handleFileComplete vendor host arrival payload node).opened = none ∧
      SendsKept host node (handleFileComplete vendor host arrival payload node).node := by
  rcases handleFileComplete_cases arrival payload node with
    ⟨_ignored, handled⟩ | ⟨complete, record, decoded, _found, _mismatch, handled⟩ |
    ⟨complete, record, decoded, _found, _match, handled⟩
  · rw [handled]
    exact ⟨rfl, SendsKept.refl node⟩
  · rw [handled]
    exact ⟨rfl, sendsKept_update arrival (fun other => inbound complete other decoded) _ _⟩
  · rw [handled]
    exact ⟨rfl, sendsKept_update arrival (fun other => inbound complete other decoded) _ _⟩

theorem contained_of_spares {state : NodeState} (holds : NodeInvariant host state)
    (event : NodeEvent) (spares : PacketSparesSends vendor host state event) :
    Contained vendor host state event := by
  cases event with
  | packet arrival packet =>
      simp only [Contained, handleTransferPacket]
      split
      · rename_i isOffer
        obtain ⟨opened, kept⟩ := contained_offer (spares.offer isOffer)
        refine ⟨fun path some_opened => ?_, kept⟩
        rw [opened] at some_opened
        cases some_opened
      · rename_i isChunk
        exact contained_chunk holds.records (spares.chunk isChunk)
      · rename_i isComplete
        obtain ⟨opened, kept⟩ := contained_complete (spares.complete isComplete)
        refine ⟨fun path some_opened => ?_, kept⟩
        rw [opened] at some_opened
        cases some_opened
      · constructor
        · intro path impossible
          cases impossible
        · exact SendsKept.refl state.node
  | cancel id now => trivial
  | launch inputs => trivial
  | advance index answer => trivial

end Packets

/-! ### Whole runs -/

/-- From every reachable state, packets that leave the node's own sends alone
are contained, in any order and between any other steps of the node. -/
theorem contained_along (vendor : Vendor) (host : Host) {state : NodeState}
    (reachable : state.Reachable vendor host) {events : List NodeEvent}
    (spares : EventRun.Along (NodeState.step vendor host) (PacketSparesSends vendor host)
      state events) :
    EventRun.Along (NodeState.step vendor host) (Contained vendor host) state events := by
  have kept (state : NodeState) (event : NodeEvent) (holds : NodeInvariant host state) :
      NodeInvariant host (state.step vendor host event) := holds.step event
  have contained (state : NodeState) (event : NodeEvent) (holds : NodeInvariant host state) :
      PacketSparesSends vendor host state event → Contained vendor host state event :=
    contained_of_spares holds event
  exact EventRun.Along.mono kept contained (NodeInvariant.of_reachable reachable) spares

/-! ### A peer that names a transfer of the node -/

namespace Reference

def notesOnDisk : Bytes → Option Bytes := fun path =>
  if path = sentPath then some (ascii "notes") else none

def notesCall : SendInputs :=
  sendInputs (ascii "notes") fun _index => 0

def ready : Answer :=
  { ok := true
    packet := none
    now := 0 }

def sendsNotes : List NodeEvent :=
  launchEvents (NodeState.initial notesOnDisk) notesCall ready

def sendingNode : Node :=
  { transfers := TransferTable.empty.upsertTransfer (sentRecord notesCall sentPath)
    files := notesOnDisk
    activeCount := 0 }

theorem sendsNotes_node :
    (EventRun.run (NodeState.step vendor host) (NodeState.initial notesOnDisk)
      sendsNotes).node = sendingNode :=
  node_after_launch (NodeState.initial notesOnDisk)
    (sendInputs_sendable (ascii "notes") fun _index => 0) (by decide) ready

theorem sendingNode_own {id : Bytes} (own : cstr id = cstr notesCall.xferId) :
    sendingNode.transfers.getTransfer id = some (sentRecord notesCall sentPath).stored :=
  TransferTable.getTransfer_upsert_self _ _ own

theorem sendingNode_other {id : Bytes} (other : cstr id ≠ cstr notesCall.xferId) :
    sendingNode.transfers.getTransfer id = none := by
  have absent := TransferTable.getTransfer_upsert_of_ne TransferTable.empty
    (sentRecord notesCall sentPath) other
  exact absent.trans (TransferTable.getTransfer_empty id)

/-- The node starts to send its notes, and a peer's chunk replaces them. -/
theorem source_overwritten :
    (NodeState.initial notesOnDisk).Reachable vendor host ∧
      ¬EventRun.Along (NodeState.step vendor host) (Contained vendor host)
        (NodeState.initial notesOnDisk)
        (sendsNotes ++ [chunkArrives notesCall.xferId 0 (ascii "x")]) := by
  constructor
  · exact NodeState.reachable_initial vendor host notesOnDisk
  · rw [EventRun.along_append, EventRun.along_cons]
    rintro ⟨_sends, contained, _rest⟩
    generalize sent : EventRun.run (NodeState.step vendor host)
      (NodeState.initial notesOnDisk) sendsNotes = state at contained
    have sending : state.node = sendingNode := by
      rw [← sent]
      exact sendsNotes_node
    have found : state.node.transfers.getTransfer notesCall.xferId =
        some (sentRecord notesCall sentPath).stored := by
      rw [sending]
      exact sendingNode_own rfl
    have same := (contained.kept notesCall.xferId _ found rfl).1
    change (state.step vendor host (chunkArrives notesCall.xferId 0 (ascii "x"))).node.read host
      (sentRecord notesCall sentPath).stored.filepath = _ at same
    rw [node_after_chunk found (by decide), Node.read_update,
      Node.read_write_same host state.node _ rfl, sending] at same
    cases same

def receivingNode : Node :=
  { transfers := sendingNode.transfers.upsertTransfer
      (offeredRecord host arrival receivedOffer)
    files := notesOnDisk
    activeCount := 0 }

theorem receivingNode_offered {id : Bytes} (offered : cstr id = cstr receivedOffer.xferId) :
    receivingNode.transfers.getTransfer id =
      some (offeredRecord host arrival receivedOffer).stored :=
  TransferTable.getTransfer_upsert_self _ _ offered

theorem receivingNode_other {id : Bytes} (other : cstr id ≠ cstr receivedOffer.xferId) :
    receivingNode.transfers.getTransfer id = sendingNode.transfers.getTransfer id :=
  TransferTable.getTransfer_upsert_of_ne _ _ other

theorem receivedOffer_node {state : NodeState} (sending : state.node = sendingNode) :
    (state.step vendor host (offerArrives receivedOffer)).node = receivingNode := by
  have absent : sendingNode.transfers.getTransfer receivedOffer.xferId = none :=
    sendingNode_other (by decide)
  have notPaused : pausedRecord state.node receivedOffer.xferId = none := by
    rw [sending, pausedRecord, absent, Option.filter_none]
  rw [node_after_offer notPaused, sending]
  rfl

/-- A file received while the notes are sent is written where it belongs. -/
theorem received_contained :
    EventRun.Along (NodeState.step vendor host) (Contained vendor host)
      (NodeState.initial notesOnDisk)
      (sendsNotes ++
        [offerArrives receivedOffer, chunkArrives receivedOffer.xferId 0 (ascii "x")]) := by
  apply contained_along vendor host (NodeState.reachable_initial vendor host notesOnDisk)
  rw [EventRun.along_append, EventRun.along_cons, EventRun.along_cons]
  refine ⟨⟨trivial, trivial, trivial, trivial⟩, ?_, ?_, trivial⟩
  · rw [offerArrives, PacketSparesSends, sendsNotes_node]
    constructor
    · intro _isOffer offer record decoded found
      rw [readFileOffer_toCbor] at decoded
      cases decoded
      rw [sendingNode_other (by decide)] at found
      cases found
    · intro impossible
      cases impossible
    · intro impossible
      cases impossible
  · rw [chunkArrives, PacketSparesSends, receivedOffer_node sendsNotes_node]
    constructor
    · intro impossible
      cases impossible
    · intro _isChunk chunk record applies
      have decoded := applies.decoded
      rw [readFileChunk_toCbor] at decoded
      cases decoded
      cases (receivingNode_offered rfl).symm.trans applies.found
      refine ⟨rfl, ?_⟩
      intro id sent present outbound
      by_cases offered : cstr id = cstr receivedOffer.xferId
      · rw [receivingNode_offered offered] at present
        cases present
        cases outbound
      · rw [receivingNode_other offered] at present
        by_cases own : cstr id = cstr notesCall.xferId
        · rw [sendingNode_own own] at present
          cases present
          decide
        · rw [sendingNode_other own] at present
          cases present
    · intro impossible
      cases impossible

end Reference

end Shr
