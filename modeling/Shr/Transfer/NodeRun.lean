/-
Whole runs of one node.

A node handles packets from any connection, cancels transfers, and has any
number of `send_file` calls under way, each advanced one operation at a time.
`step_record` says once what a single event can do to a single record; the
facts about every reachable table follow from it.
-/

import Shr.Library.Runs
import Shr.Transfer.Handlers
import Shr.Transfer.SendFile

namespace Shr

/-! ### One operation of a call under way -/

structure Answer where
  ok : Bool
  packet : Option Packet
  now : Int64

def SendOp.effect (answer : Answer) (node : Node) : (op : SendOp) → op.Reply × Node
  | .loadActive => (node.activeCount, node)
  | .upsertTransfer record =>
      ((), { node with transfers := node.transfers.upsertTransfer record })
  | .connectTo _ _ => (answer.ok, node)
  | .sendPacket _ => (answer.ok, node)
  | .readPacket => (answer.packet, node)
  | .closeConn => ((), node)
  | .updateTransferProgress id transferred state =>
      ((), { node with
        transfers := node.transfers.updateTransferProgress id transferred state answer.now })
  | .incrementActive => ((), { node with activeCount := node.activeCount + 1 })
  | .decrementActive => ((), { node with activeCount := node.activeCount - 1 })
  | .sleep _ => ((), node)

theorem SendOp.effect_files (answer : Answer) (node : Node) (op : SendOp) :
    (op.effect answer node).2.files = node.files := by
  cases op <;> rfl

def advance (answer : Answer) (node : Node) : SendProgram Bytes → SendProgram Bytes × Node
  | .done result => (.done result, node)
  | .call op next =>
      (next (SendOp.effect answer node op).1, (SendOp.effect answer node op).2)

/-! ### Events -/

structure NodeState where
  node : Node
  sends : List (SendProgram Bytes)

inductive NodeEvent where
  | packet (arrival : Arrival) (packet : Packet)
  | cancel (id : Bytes) (now : Int64)
  | launch (inputs : SendInputs)
  | advance (index : Nat) (answer : Answer)

section Runs

variable (vendor : Vendor) (host : Host)

def NodeState.step (state : NodeState) : NodeEvent → NodeState
  | .packet arrival packet =>
      { state with node := (handleTransferPacket vendor host arrival packet state.node).node }
  | .cancel id now => { state with node := (cancelTransfer id now state.node).2 }
  | .launch inputs => { state with sends := state.sends ++ [sendFile vendor inputs] }
  | .advance index answer =>
      match state.sends[index]? with
      | none => state
      | some program =>
          { node := (Shr.advance answer state.node program).2
            sends := state.sends.set index (Shr.advance answer state.node program).1 }

def NodeState.run (state : NodeState) (events : List NodeEvent) : NodeState :=
  EventRun.run (NodeState.step vendor host) state events

theorem NodeState.run_append (state : NodeState) (first second : List NodeEvent) :
    state.run vendor host (first ++ second) =
      (state.run vendor host first).run vendor host second :=
  EventRun.run_append state first second

theorem NodeState.run_snoc (state : NodeState) (events : List NodeEvent) (event : NodeEvent) :
    state.run vendor host (events ++ [event]) =
      (state.run vendor host events).step vendor host event :=
  EventRun.run_append state events [event]

def NodeState.initial (files : Bytes → Option Bytes) : NodeState :=
  { node :=
      { transfers := TransferTable.empty
        files := files
        activeCount := 0 }
    sends := [] }

def NodeState.Reachable (state : NodeState) : Prop :=
  ∃ files events, state = (NodeState.initial files).run vendor host events

theorem NodeState.Reachable.run {state : NodeState} (reachable : state.Reachable vendor host)
    (events : List NodeEvent) : (state.run vendor host events).Reachable vendor host := by
  obtain ⟨files, earlier, rfl⟩ := reachable
  exact ⟨files, earlier ++ events, (EventRun.run_append _ _ _).symm⟩

theorem NodeState.Reachable.step {state : NodeState} (reachable : state.Reachable vendor host)
    (event : NodeEvent) : (state.step vendor host event).Reachable vendor host :=
  reachable.run vendor host [event]

theorem NodeState.reachable_initial (files : Bytes → Option Bytes) :
    (NodeState.initial files).Reachable vendor host :=
  ⟨files, [], rfl⟩

/-- What holds initially and is kept by every event holds of every reachable
state. -/
theorem NodeState.Reachable.induct {invariant : NodeState → Prop}
    (initially : ∀ files, invariant (NodeState.initial files))
    (kept : ∀ state event, invariant state → invariant (state.step vendor host event))
    {state : NodeState} (reachable : state.Reachable vendor host) : invariant state := by
  obtain ⟨files, events, rfl⟩ := reachable
  exact EventRun.run_invariant kept (initially files) events

end Runs

/-! ### Launching a call -/

def launchEvents (state : NodeState) (inputs : SendInputs) (answer : Answer) : List NodeEvent :=
  [ .launch inputs,
    .advance state.sends.length answer,
    .advance state.sends.length answer ]

theorem node_after_launch {vendor : Vendor} {host : Host} (state : NodeState)
    {inputs : SendInputs} {absPath : Bytes} {peer : PeerInfo}
    (sendable : Sendable inputs absPath peer)
    (free : state.node.activeCount < shrMaxConcurrent) (answer : Answer) :
    (state.run vendor host (launchEvents state inputs answer)).node =
      { state.node with
        transfers := state.node.transfers.upsertTransfer (sentRecord inputs absPath) } := by
  have notFull : ¬shrMaxConcurrent ≤ state.node.activeCount := by omega
  have slot : (state.sends ++ [sendFile vendor inputs])[state.sends.length]? =
      some (sendFile vendor inputs) := by simp
  have inRange : state.sends.length < (state.sends ++ [sendFile vendor inputs]).length := by
    simp
  simp only [NodeState.run, launchEvents, EventRun.run_cons, EventRun.run_nil, NodeState.step,
    slot, List.getElem?_set_self inRange]
  rw [sendable.sendFile_eq vendor]
  simp only [advance]
  rw [if_neg (by exact notFull)]
  rfl

/-! ### What one event does to one record -/

/-- A statement that writes the row of one id. -/
inductive RecordWrite where
  | store (record : TransferRecord)
  | progress (transferred : UInt64) (state : TransferState) (now : Int64)

def RecordWrite.apply (before : Option TransferRecord) : RecordWrite → Option TransferRecord
  | .store record => some record.stored
  | .progress transferred state now =>
      before.map fun record => record.progressed transferred state now

/-- The one list of everything an event can write under an id. -/
inductive Writes (vendor : Vendor) (host : Host) (state : NodeState) (id : Bytes) :
    NodeEvent → RecordWrite → Prop where
  | offer {arrival : Arrival} {packet : Packet} {offer : FileOffer}
      (type : packet.type = .fileOffer)
      (decoded : readFileOffer vendor arrival.random packet.payload = some offer)
      (notPaused : pausedRecord state.node offer.xferId = none)
      (stores : arrival.stores = true) (same : cstr id = cstr offer.xferId) :
      Writes vendor host state id (.packet arrival packet)
        (.store (offeredRecord host arrival offer))
  | chunk {arrival : Arrival} {packet : Packet} {chunk : FileChunk} {record : TransferRecord}
      (type : packet.type = .fileChunk)
      (applies : ChunkApplies vendor arrival packet.payload state.node chunk record)
      (stores : arrival.stores = true) (same : cstr id = cstr chunk.xferId) :
      Writes vendor host state id (.packet arrival packet)
        (.progress (newTransferred chunk.offset (vendor.base64Decode chunk.b64data))
          .inProgress arrival.updatedAt)
  | complete {arrival : Arrival} {packet : Packet} {complete : FileComplete}
      {record : TransferRecord} (type : packet.type = .fileComplete)
      (decoded : readFileComplete vendor packet.payload = some complete)
      (found : state.node.transfers.getTransfer complete.xferId = some record)
      (verified : sha256File vendor (state.node.read host record.filepath) = complete.checksum)
      (stores : arrival.stores = true) (same : cstr id = cstr complete.xferId) :
      Writes vendor host state id (.packet arrival packet)
        (.progress record.totalBytes .completed arrival.updatedAt)
  | mismatch {arrival : Arrival} {packet : Packet} {complete : FileComplete}
      {record : TransferRecord} (type : packet.type = .fileComplete)
      (decoded : readFileComplete vendor packet.payload = some complete)
      (found : state.node.transfers.getTransfer complete.xferId = some record)
      (differs : sha256File vendor (state.node.read host record.filepath) ≠ complete.checksum)
      (stores : arrival.stores = true) (same : cstr id = cstr complete.xferId) :
      Writes vendor host state id (.packet arrival packet)
        (.progress record.transferredBytes .failed arrival.updatedAt)
  | cancel {cancelled : Bytes} {now : Int64} {record : TransferRecord}
      (found : state.node.transfers.getTransfer cancelled = some record)
      (same : cstr id = cstr cancelled) :
      Writes vendor host state id (.cancel cancelled now)
        (.progress record.transferredBytes .cancelled now)
  | sendStores {index : Nat} {answer : Answer} {record : TransferRecord}
      {next : Unit → SendProgram Bytes}
      (present : state.sends[index]? = some (.call (.upsertTransfer record) next))
      (same : cstr id = cstr record.id) :
      Writes vendor host state id (.advance index answer) (.store record)
  | sendProgresses {index : Nat} {answer : Answer} {sending : Bytes} {transferred : UInt64}
      {progress : TransferState} {next : Unit → SendProgram Bytes}
      (present : state.sends[index]? =
        some (.call (.updateTransferProgress sending transferred progress) next))
      (same : cstr id = cstr sending) :
      Writes vendor host state id (.advance index answer)
        (.progress transferred progress answer.now)

section Records

variable {vendor : Vendor} {host : Host}

theorem update_written (node : Node) {arrival : Arrival} {written id : Bytes}
    (transferred : UInt64) (state : TransferState) (stores : arrival.stores = true)
    (same : cstr id = cstr written) :
    (node.update arrival written transferred state).transfers.getTransfer id =
      RecordWrite.apply (node.transfers.getTransfer id)
        (.progress transferred state arrival.updatedAt) :=
  node.getTransfer_update_self arrival transferred state stores same

theorem update_unwritten (node : Node) {arrival : Arrival} {written id : Bytes}
    (transferred : UInt64) (state : TransferState)
    (unwritten : ¬(arrival.stores = true ∧ cstr id = cstr written)) :
    (node.update arrival written transferred state).transfers.getTransfer id =
      node.transfers.getTransfer id := by
  by_cases same : cstr id = cstr written
  · have refused : arrival.stores = false := by
      rw [Bool.eq_false_iff]
      exact fun stores => unwritten ⟨stores, same⟩
    simp [Node.update, refused]
  · exact node.getTransfer_update_of_ne arrival transferred state same

theorem step_written {state : NodeState} {event : NodeEvent} {id : Bytes} {write : RecordWrite}
    (writes : Writes vendor host state id event write) :
    (state.step vendor host event).node.transfers.getTransfer id =
      write.apply (state.node.transfers.getTransfer id) := by
  cases writes with
  | offer type decoded notPaused stores same =>
      simp only [NodeState.step]
      rw [handleTransferPacket_offer type, handleFileOffer_stored stores decoded notPaused]
      exact TransferTable.getTransfer_upsert_self _ _ same
  | chunk type applies stores same =>
      simp only [NodeState.step]
      rw [handleTransferPacket_chunk type, handleFileChunk_applied applies]
      exact update_written _ _ _ stores same
  | complete type decoded found verified stores same =>
      simp only [NodeState.step]
      rw [handleTransferPacket_complete type,
        handleFileComplete_verified decoded found verified]
      exact update_written _ _ _ stores same
  | mismatch type decoded found differs stores same =>
      simp only [NodeState.step]
      rw [handleTransferPacket_complete type,
        handleFileComplete_mismatch decoded found differs]
      exact update_written _ _ _ stores same
  | cancel found same =>
      simp only [NodeState.step, cancelTransfer, found]
      exact TransferTable.getTransfer_update_self _ _ _ _ same
  | sendStores present same =>
      simp only [NodeState.step, present, advance, SendOp.effect]
      exact TransferTable.getTransfer_upsert_self _ _ same
  | sendProgresses present same =>
      simp only [NodeState.step, present, advance, SendOp.effect]
      exact TransferTable.getTransfer_update_self _ _ _ _ same

theorem packet_unwritten {state : NodeState} {arrival : Arrival} {packet : Packet} {id : Bytes}
    (unwritten : ∀ write, ¬Writes vendor host state id (.packet arrival packet) write) :
    (handleTransferPacket vendor host arrival packet state.node).node.transfers.getTransfer id =
      state.node.transfers.getTransfer id := by
  unfold handleTransferPacket
  split
  · rename_i type
    rcases handleFileOffer_cases arrival packet.payload state.node with
      ⟨_malformed, handled⟩ | ⟨_offer, _existing, _decoded, _found, handled⟩ |
      ⟨offer, decoded, notPaused, handled⟩
    · rw [handled]
      rfl
    · rw [handled]
    · rw [handled]
      simp only
      split
      · rename_i stores
        apply TransferTable.getTransfer_upsert_of_ne
        intro same
        exact unwritten _ (.offer type decoded notPaused stores same)
      · rfl
  · rename_i type
    rcases handleFileChunk_cases arrival packet.payload state.node with
      ⟨_ignored, handled⟩ | ⟨chunk, record, applies, handled⟩
    · rw [handled]
      rfl
    · rw [handled]
      apply update_unwritten (state.node.write host record.filepath _)
      rintro ⟨stores, same⟩
      exact unwritten _ (.chunk type applies stores same)
  · rename_i type
    rcases handleFileComplete_cases arrival packet.payload state.node with
      ⟨_ignored, handled⟩ | ⟨complete, record, decoded, found, differs, handled⟩ |
      ⟨complete, record, decoded, found, verified, handled⟩
    · rw [handled]
      rfl
    · rw [handled]
      apply update_unwritten
      rintro ⟨stores, same⟩
      exact unwritten _ (.mismatch type decoded found differs stores same)
    · rw [handled]
      apply update_unwritten
      rintro ⟨stores, same⟩
      exact unwritten _ (.complete type decoded found verified stores same)
  · rfl

theorem step_unwritten {state : NodeState} {event : NodeEvent} {id : Bytes}
    (unwritten : ∀ write, ¬Writes vendor host state id event write) :
    (state.step vendor host event).node.transfers.getTransfer id =
      state.node.transfers.getTransfer id := by
  cases event with
  | packet arrival packet => exact packet_unwritten unwritten
  | cancel cancelled now =>
      simp only [NodeState.step, cancelTransfer]
      cases found : state.node.transfers.getTransfer cancelled with
      | none => rfl
      | some record =>
          apply TransferTable.getTransfer_update_of_ne
          intro same
          exact unwritten _ (.cancel found same)
  | launch inputs => rfl
  | advance index answer =>
      simp only [NodeState.step]
      cases present : state.sends[index]? with
      | none => rfl
      | some program =>
          cases program with
          | done result => rfl
          | call op next =>
              cases op with
              | upsertTransfer record =>
                  apply TransferTable.getTransfer_upsert_of_ne
                  intro same
                  exact unwritten _ (.sendStores present same)
              | updateTransferProgress sending transferred progress =>
                  apply TransferTable.getTransfer_update_of_ne
                  intro same
                  exact unwritten _ (.sendProgresses present same)
              | _ => rfl

/-- Every event either makes one of the listed writes or leaves the record. -/
theorem step_record (state : NodeState) (event : NodeEvent) (id : Bytes) :
    (∃ write, Writes vendor host state id event write ∧
      (state.step vendor host event).node.transfers.getTransfer id =
        write.apply (state.node.transfers.getTransfer id)) ∨
    ((∀ write, ¬Writes vendor host state id event write) ∧
      (state.step vendor host event).node.transfers.getTransfer id =
        state.node.transfers.getTransfer id) := by
  by_cases written : ∃ write, Writes vendor host state id event write
  · obtain ⟨write, writes⟩ := written
    exact Or.inl ⟨write, writes, step_written writes⟩
  · have unwritten := not_exists.mp written
    exact Or.inr ⟨unwritten, step_unwritten unwritten⟩

theorem Node.textKeys_update {node : Node} (text : node.transfers.TextKeys) (arrival : Arrival)
    (id : Bytes) (transferred : UInt64) (state : TransferState) :
    (node.update arrival id transferred state).transfers.TextKeys := by
  unfold Node.update
  simp only
  split
  · exact text.updateTransferProgress id transferred state arrival.updatedAt
  · exact text

theorem textKeys_step {state : NodeState} (text : state.node.transfers.TextKeys)
    (event : NodeEvent) : (state.step vendor host event).node.transfers.TextKeys := by
  cases event with
  | packet arrival packet =>
      simp only [NodeState.step]
      unfold handleTransferPacket
      split
      · rcases handleFileOffer_cases arrival packet.payload state.node with
          ⟨_malformed, handled⟩ | ⟨_offer, _existing, _decoded, _found, handled⟩ |
          ⟨offer, _decoded, _notPaused, handled⟩
        · rw [handled]
          exact text
        · rw [handled]
          exact text
        · rw [handled]
          simp only
          split
          · exact text.upsertTransfer _
          · exact text
      · rcases handleFileChunk_cases arrival packet.payload state.node with
          ⟨_ignored, handled⟩ | ⟨chunk, record, _applies, handled⟩
        · rw [handled]
          exact text
        · rw [handled]
          exact Node.textKeys_update text _ _ _ _
      · rcases handleFileComplete_cases arrival packet.payload state.node with
          ⟨_ignored, handled⟩ | ⟨complete, record, _decoded, _found, _differs, handled⟩ |
          ⟨complete, record, _decoded, _found, _verified, handled⟩
        · rw [handled]
          exact text
        · rw [handled]
          exact Node.textKeys_update text _ _ _ _
        · rw [handled]
          exact Node.textKeys_update text _ _ _ _
      · exact text
  | cancel id now =>
      simp only [NodeState.step, cancelTransfer]
      split
      · exact text
      · exact text.updateTransferProgress _ _ _ _
  | launch inputs => exact text
  | advance index answer =>
      simp only [NodeState.step]
      cases state.sends[index]? with
      | none => exact text
      | some program =>
          cases program with
          | done result => exact text
          | call op next =>
              cases op with
              | upsertTransfer record => exact text.upsertTransfer record
              | updateTransferProgress id transferred progress =>
                  exact text.updateTransferProgress id transferred progress answer.now
              | _ => exact text

def carriedId (vendor : Vendor) (arrival : Arrival) (packet : Packet) : Option Bytes :=
  match packet.type with
  | .fileOffer =>
      (readFileOffer vendor arrival.random packet.payload).map FileOffer.xferId
  | .fileChunk => (readFileChunk vendor packet.payload).map FileChunk.xferId
  | .fileComplete => (readFileComplete vendor packet.payload).map FileComplete.xferId
  | _ => none

theorem Writes.carried {state : NodeState} {arrival : Arrival} {packet : Packet} {id : Bytes}
    {write : RecordWrite}
    (writes : Writes vendor host state id (.packet arrival packet) write) :
    ∃ carried, carriedId vendor arrival packet = some carried ∧ cstr id = cstr carried := by
  unfold carriedId
  cases writes with
  | @offer _ _ offer type decoded notPaused stores same =>
      exact ⟨offer.xferId, by simp [type, decoded], same⟩
  | @chunk _ _ chunk record type applies stores same =>
      exact ⟨chunk.xferId, by simp [type, applies.decoded], same⟩
  | @complete _ _ complete record type decoded found verified stores same =>
      exact ⟨complete.xferId, by simp [type, decoded], same⟩
  | @mismatch _ _ complete record type decoded found differs stores same =>
      exact ⟨complete.xferId, by simp [type, decoded], same⟩

/-! ### What one event does to one file -/

/-- The event applies a chunk to a record whose file a path names too. -/
def WritesFile (vendor : Vendor) (host : Host) (state : NodeState) (path : Bytes) :
    NodeEvent → Prop
  | .packet arrival packet =>
      packet.type = .fileChunk ∧ ∃ chunk record,
        ChunkApplies vendor arrival packet.payload state.node chunk record ∧
          host.resolve path = host.resolve record.filepath
  | _ => False

theorem carriedId_chunk {arrival : Arrival} {packet : Packet} {node : Node}
    {chunk : FileChunk} {record : TransferRecord} (type : packet.type = .fileChunk)
    (applies : ChunkApplies vendor arrival packet.payload node chunk record) :
    carriedId vendor arrival packet = some chunk.xferId := by
  simp [carriedId, type, applies.decoded]

theorem step_file {state : NodeState} {event : NodeEvent} {path : Bytes}
    (unwritten : ¬WritesFile vendor host state path event) :
    (state.step vendor host event).node.read host path = state.node.read host path := by
  cases event with
  | packet arrival packet =>
      simp only [NodeState.step]
      unfold handleTransferPacket
      split
      · exact read_handleFileOffer arrival packet.payload state.node path
      · rename_i type
        rcases handleFileChunk_cases arrival packet.payload state.node with
          ⟨_ignored, handled⟩ | ⟨chunk, record, applies, handled⟩
        · rw [handled]
          rfl
        · rw [handled]
          apply Node.read_write_of_ne host state.node
          intro same
          exact unwritten ⟨type, chunk, record, applies, same⟩
      · exact read_handleFileComplete arrival packet.payload state.node path
      · rfl
  | cancel cancelled now =>
      simp only [NodeState.step, cancelTransfer]
      split <;> rfl
  | launch inputs => rfl
  | advance index answer =>
      simp only [NodeState.step]
      cases state.sends[index]? with
      | none => rfl
      | some program =>
          cases program with
          | done result => rfl
          | call op next =>
              unfold Node.read
              exact congrFun (SendOp.effect_files answer state.node op) _

/-! ### Every reachable table -/

/-- The calls under way are continuations of `send_file`. -/
def CallsUnderWay (state : NodeState) : Prop :=
  ∀ program ∈ state.sends, ∃ inputs, program.Asks (SendFileOp inputs)

theorem callsUnderWay_step {state : NodeState} (underWay : CallsUnderWay state)
    (event : NodeEvent) : CallsUnderWay (state.step vendor host event) := by
  cases event with
  | packet arrival packet => exact underWay
  | cancel id now => exact underWay
  | launch inputs =>
      intro program member
      rcases List.mem_append.mp member with earlier | launched
      · exact underWay program earlier
      · rw [List.mem_singleton] at launched
        subst launched
        exact ⟨inputs, sendFile_asks⟩
  | advance index answer =>
      simp only [NodeState.step]
      cases present : state.sends[index]? with
      | none => exact underWay
      | some program =>
          intro other member
          rcases List.mem_or_eq_of_mem_set member with earlier | advanced
          · exact underWay other earlier
          · obtain ⟨inputs, asks⟩ := underWay program (List.mem_of_getElem? present)
            subst advanced
            cases program with
            | done result => exact ⟨inputs, trivial⟩
            | call op next => exact ⟨inputs, asks.2 _⟩

/-- A record some event of a run has written.  Nothing ever pauses a transfer,
and an inbound record names a file made from an offered name. -/
structure RecordInvariant (host : Host) (record : TransferRecord) : Prop where
  notPaused : record.state ≠ .paused
  inbound : record.outbound = false →
    ∃ filename, record.filepath = cstr (receivedPath host filename)

theorem RecordInvariant.progressed {record : TransferRecord}
    (holds : RecordInvariant host record) (transferred : UInt64) {state : TransferState}
    (notPaused : state ≠ .paused) (now : Int64) :
    RecordInvariant host (record.progressed transferred state now) where
  notPaused := notPaused
  inbound := holds.inbound

theorem asked_write {state : NodeState} (underWay : CallsUnderWay state) {index : Nat}
    {op : SendOp} {next : op.Reply → SendProgram Bytes}
    (present : state.sends[index]? = some (.call op next)) :
    ∃ inputs, SendFileOp inputs op := by
  obtain ⟨inputs, asks⟩ := underWay _ (List.mem_of_getElem? present)
  exact ⟨inputs, asks.1⟩

theorem Writes.invariant {state : NodeState} (underWay : CallsUnderWay state)
    {event : NodeEvent} {id : Bytes} {write : RecordWrite}
    (writes : Writes vendor host state id event write)
    (holds : ∀ record, state.node.transfers.getTransfer id = some record →
      RecordInvariant host record) :
    ∀ record, write.apply (state.node.transfers.getTransfer id) = some record →
      RecordInvariant host record := by
  have progresses (transferred : UInt64) {progress : TransferState} (now : Int64)
      (notPaused : progress ≠ .paused) : ∀ record,
      RecordWrite.apply (state.node.transfers.getTransfer id)
        (.progress transferred progress now) = some record → RecordInvariant host record := by
    intro record present
    obtain ⟨earlier, found, rfl⟩ := Option.map_eq_some_iff.mp present
    exact (holds earlier found).progressed transferred notPaused now
  cases writes with
  | offer type decoded notPaused stores same =>
      rintro record ⟨⟩
      constructor
      · intro impossible
        cases impossible
      · intro _inbound
        exact ⟨_, rfl⟩
  | chunk type applies stores same => exact progresses _ _ (by decide)
  | complete type decoded found verified stores same => exact progresses _ _ (by decide)
  | mismatch type decoded found differs stores same => exact progresses _ _ (by decide)
  | cancel found same => exact progresses _ _ (by decide)
  | sendStores present same =>
      obtain ⟨inputs, asked⟩ := asked_write underWay present
      cases asked
      rintro record ⟨⟩
      constructor
      · intro impossible
        cases impossible
      · intro impossible
        cases impossible
  | sendProgresses present same =>
      obtain ⟨inputs, asked⟩ := asked_write underWay present
      cases asked <;> exact progresses _ _ (by decide)

structure NodeInvariant (host : Host) (state : NodeState) : Prop where
  underWay : CallsUnderWay state
  records : ∀ id record, state.node.transfers.getTransfer id = some record →
    RecordInvariant host record

theorem NodeInvariant.step {state : NodeState} (holds : NodeInvariant host state)
    (event : NodeEvent) : NodeInvariant host (state.step vendor host event) where
  underWay := callsUnderWay_step holds.underWay event
  records := by
    intro id record present
    rcases @step_record vendor host state event id with
      ⟨write, writes, written⟩ | ⟨_unwritten, same⟩
    · rw [written] at present
      exact writes.invariant holds.underWay (holds.records id) record present
    · rw [same] at present
      exact holds.records id record present

theorem NodeInvariant.of_reachable {state : NodeState}
    (reachable : state.Reachable vendor host) : NodeInvariant host state := by
  apply reachable.induct vendor host
  · intro files
    constructor
    · intro program impossible
      cases impossible
    · intro id record impossible
      cases impossible
  · intro earlier event holds
    exact holds.step event

/-- An offer is never answered with a resume offset. -/
theorem pausedRecord_of_reachable {state : NodeState} (reachable : state.Reachable vendor host)
    (id : Bytes) : pausedRecord state.node id = none :=
  pausedRecord_eq_none.mpr fun _record found =>
    ((NodeInvariant.of_reachable reachable).records id _ found).notPaused

end Records

end Shr
