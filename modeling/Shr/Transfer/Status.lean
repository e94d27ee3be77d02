/-
What the user is shown of the transfers.

`shr receive` lists the transfers that wait to be downloaded, and `shr status`
adds up the bytes that have been received.  The list holds the offers to which
nothing has happened since; and the sum is one of the sizes that the peers have
claimed.
-/

import Shr.Transfer.Upkeep

namespace Shr

/-! ### `shr receive` -/

/-- What `receive_pending` prints and returns.  The transfer that is chosen is only
announced: nothing is downloaded. -/
structure Receiving where
  listed : List TransferRecord
  selected : Option TransferRecord
  returned : Bool

def receivePending (interactive : Bool) (choice : Int32) (table : TransferTable) : Receiving :=
  let pending := table.pendingInbound
  { listed := pending
    selected :=
      if pending = [] ∨ interactive = false then none
      else if choice < 1 ∨ castInt pending.length < choice.toInt then none
      else pending[(choice.toInt - 1).toNat]?
    returned := true }

theorem stateOfText_eq_pending {text : Bytes} :
    stateOfText text = .pending ↔ text = ascii "pending" := by
  unfold stateOfText
  grind

theorem stateOfText_of_listed {text : Bytes}
    (listed : text ∈ [ascii "pending", ascii "paused"]) :
    stateOfText text = .pending ∨ stateOfText text = .paused := by
  rcases List.mem_cons.mp listed with pending | paused
  · rw [pending]
    exact .inl (by decide)
  · rw [List.mem_singleton.mp paused]
    exact .inr (by decide)

/-- As long as no transfer is paused, the list holds the inbound records that are
pending. -/
theorem mem_pendingInbound {table : TransferTable} (keys : table.TextKeys)
    (unpaused : ∀ id record, table.getTransfer id = some record → record.state ≠ .paused)
    {record : TransferRecord} :
    record ∈ table.pendingInbound ↔
      table.getTransfer record.id = some record ∧ record.outbound = false ∧
        record.state = .pending := by
  unfold TransferTable.pendingInbound
  rw [List.mem_map]
  constructor
  · rintro ⟨row, member, rfl⟩
    obtain ⟨stored, shown⟩ := List.mem_filter.mp member
    obtain ⟨inbound, listed⟩ := of_decide_eq_true shown
    have found := TransferTable.getTransfer_of_mem stored (keys row stored)
    refine ⟨found, decide_eq_false (not_not.mpr inbound), ?_⟩
    exact (stateOfText_of_listed listed).resolve_right (unpaused _ _ found)
  · rintro ⟨found, inbound, pending⟩
    obtain ⟨row, isRow, same⟩ := Option.map_eq_some_iff.mp found
    refine ⟨row, List.mem_filter.mpr ⟨(KeyedTable.find_eq_some_iff.mp isRow).1, ?_⟩, same⟩
    rw [← same] at inbound pending
    apply decide_eq_true
    refine ⟨not_not.mp (of_decide_eq_false inbound), ?_⟩
    rw [stateOfText_eq_pending.mp pending]
    exact List.mem_cons_self

/-! ### How an offer comes to stand in the list -/

/-- The packet is an offer, and the handler stores it as this record. -/
def UpkeepEvent.Stores (vendor : Vendor) (host : Host) (record : TransferRecord) :
    UpkeepEvent → Prop
  | .node (.packet arrival packet) =>
      packet.type = .fileOffer ∧ arrival.stores = true ∧ ∃ offer,
        readFileOffer vendor arrival.random packet.payload = some offer ∧
          record = (offeredRecord host arrival offer).stored
  | _ => False

def UpkeepEvent.Leaves (vendor : Vendor) (host : Host) (id : Bytes) (state : NodeState) :
    UpkeepEvent → Prop
  | .node event => ∀ write, ¬Writes vendor host state id event write
  | _ => True

def Listed (record : TransferRecord) (state : NodeState) : Prop :=
  state.node.transfers.getTransfer record.id = some record ∧ record.outbound = false ∧
    record.state = .pending

structure KeptUp (host : Host) (state : NodeState) : Prop where
  node : NodeInvariant host state
  keys : state.node.transfers.TextKeys

section Listed

variable {vendor : Vendor} {host : Host}

theorem KeptUp.initial (files : Bytes → Option Bytes) :
    KeptUp host (NodeState.initial files) where
  node := by
    constructor
    · intro program impossible
      cases impossible
    · intro id record impossible
      cases impossible
  keys := TransferTable.textKeys_empty

theorem getTransfer_clean {node : Node} {cleanup : Cleanup} {id : Bytes}
    {record : TransferRecord} :
    (cmdClean host cleanup node).transfers.getTransfer id = some record ↔
      node.transfers.getTransfer id = some record ∧
        cstr id ∉ cleanup.deletedIds node.transfers := by
  rw [cmdClean_eq]
  by_cases lost : cstr id ∈ cleanup.deletedIds node.transfers
  · have gone := node.transfers.getTransfer_gone lost
    simp only [Node.without, gone, reduceCtorEq, lost, not_true_eq_false, and_false]
  · rw [node.getTransfer_without lost, and_iff_left lost]

theorem found_of_clean {node : Node} {cleanup : Cleanup} {id : Bytes} {record : TransferRecord}
    (found : (cmdClean host cleanup node).transfers.getTransfer id = some record) :
    node.transfers.getTransfer id = some record :=
  (getTransfer_clean.mp found).1

theorem KeptUp.step {state : NodeState} (kept : KeptUp host state) (event : UpkeepEvent) :
    KeptUp host (state.keepUp vendor host event) := by
  cases event with
  | node event => exact ⟨kept.node.step event, textKeys_step kept.keys event⟩
  | clean cleanup =>
      constructor
      · exact ⟨kept.node.underWay, fun id record found =>
          kept.node.records id record (found_of_clean found)⟩
      · intro row member
        simp only [NodeState.keepUp, cmdClean_eq] at member
        exact kept.keys row (List.mem_of_mem_filter member)
  | restart =>
      constructor
      · constructor
        · intro program impossible
          cases impossible
        · exact kept.node.records
      · exact kept.keys

theorem Writes.listed {state : NodeState} (underWay : CallsUnderWay state) {event : NodeEvent}
    {id : Bytes} {write : RecordWrite} (writes : Writes vendor host state id event write)
    {record : TransferRecord}
    (written : write.apply (state.node.transfers.getTransfer id) = some record)
    (inbound : record.outbound = false) (pending : record.state = .pending) :
    (UpkeepEvent.node event).Stores vendor host record := by
  have progresses {transferred : UInt64} {progress : TransferState} {now : Int64}
      (moves : progress ≠ .pending)
      (applied : RecordWrite.apply (state.node.transfers.getTransfer id)
        (.progress transferred progress now) = some record) : False := by
    obtain ⟨earlier, _found, rfl⟩ := Option.map_eq_some_iff.mp applied
    exact moves pending
  cases writes with
  | @offer arrival packet offer type decoded notPaused stores same =>
      cases written
      exact ⟨type, stores, offer, decoded, rfl⟩
  | chunk type applies stores same => exact (progresses (by decide) written).elim
  | complete type decoded found verified stores same =>
      exact (progresses (by decide) written).elim
  | mismatch type decoded found differs stores same =>
      exact (progresses (by decide) written).elim
  | cancel found same => exact (progresses (by decide) written).elim
  | sendStores present same =>
      obtain ⟨inputs, asked⟩ := asked_write underWay present
      cases asked
      cases written
      cases inbound
  | sendProgresses present same =>
      obtain ⟨inputs, asked⟩ := asked_write underWay present
      cases asked <;> exact (progresses (by decide) written).elim

theorem UpkeepEvent.Stores.listed {state : NodeState} (kept : KeptUp host state)
    {event : UpkeepEvent} {record : TransferRecord} (stores : event.Stores vendor host record) :
    Listed record (state.keepUp vendor host event) := by
  cases event with
  | node event =>
      cases event with
      | packet arrival packet =>
          obtain ⟨type, stored, offer, decoded, rfl⟩ := stores
          have unpaused : pausedRecord state.node offer.xferId = none :=
            pausedRecord_eq_none.mpr fun earlier found =>
              (kept.node.records _ earlier found).notPaused
          have writes : Writes vendor host state offer.xferId (.packet arrival packet)
              (.store (offeredRecord host arrival offer)) :=
            .offer type decoded unpaused stored rfl
          have written := step_written writes
          refine ⟨?_, rfl, rfl⟩
          have text : cstr (cstr offer.xferId) = cstr offer.xferId :=
            cstr_of_nulFree (cstr_nulFree offer.xferId)
          exact (TransferTable.getTransfer_cstr _ text).trans written
      | _ => exact stores.elim
  | _ => exact stores.elim

theorem listed_step {state : NodeState} (kept : KeptUp host state) (event : UpkeepEvent)
    (record : TransferRecord) :
    Listed record (state.keepUp vendor host event) ↔
      event.Stores vendor host record ∨
        Listed record state ∧ event.Leaves vendor host record.id state := by
  constructor
  · rintro ⟨found, inbound, pending⟩
    cases event with
    | node event =>
        rcases @step_record vendor host state event record.id with
          ⟨write, writes, written⟩ | ⟨unwritten, same⟩
        · exact .inl (writes.listed kept.node.underWay (written.symm.trans found) inbound pending)
        · exact .inr ⟨⟨same.symm.trans found, inbound, pending⟩, unwritten⟩
    | clean cleanup => exact .inr ⟨⟨found_of_clean found, inbound, pending⟩, trivial⟩
    | restart => exact .inr ⟨⟨found, inbound, pending⟩, trivial⟩
  · rintro (stores | ⟨⟨found, inbound, pending⟩, leaves⟩)
    · exact stores.listed kept
    · cases event with
      | node event => exact ⟨(step_unwritten leaves).trans found, inbound, pending⟩
      | clean cleanup =>
          refine ⟨getTransfer_clean.mpr ⟨found, ?_⟩, inbound, pending⟩
          intro deleted
          obtain ⟨row, stored, same, final⟩ := Cleanup.deletedIds_stale deleted
          have present := TransferTable.getTransfer_of_mem stored (kept.keys row stored)
          have text : cstr (cstr record.id) = cstr record.id :=
            cstr_of_nulFree (cstr_nulFree record.id)
          rw [same, TransferTable.getTransfer_cstr _ text, found, Option.some.injEq] at present
          have ended := stateOfText_over final
          change (rowToTransfer row).state.Over at ended
          rw [← present] at ended
          unfold TransferState.Over at ended
          rw [pending] at ended
          revert ended
          decide
      | restart => exact ⟨found, inbound, pending⟩

end Listed

/-- In every run, cleanings and restarts included, `shr receive` lists a record
exactly if an offer has been stored as this record and nothing has written to it
since: as soon as a byte has come the transfer is not listed any more. -/
theorem receive_lists_untouched_offers (vendor : Vendor) (host : Host)
    (files : Bytes → Option Bytes) (events : List UpkeepEvent) (interactive : Bool)
    (choice : Int32) (record : TransferRecord) :
    record ∈ (receivePending interactive choice
        (EventRun.run (NodeState.keepUp vendor host) (NodeState.initial files)
          events).node.transfers).listed ↔
      ∃ front event back, events = front ++ event :: back ∧
        event.Stores vendor host record ∧
        EventRun.Along (NodeState.keepUp vendor host)
          (fun state event => event.Leaves vendor host record.id state)
          (EventRun.run (NodeState.keepUp vendor host) (NodeState.initial files)
            (front ++ [event])) back := by
  have kept (state : NodeState) (event : UpkeepEvent) (kept : KeptUp host state) :
      KeptUp host (state.keepUp vendor host event) := kept.step event
  have last := EventRun.run_invariant kept (KeptUp.initial files) events
  have listed := EventRun.holds_run_iff kept
    (fun state event kept => listed_step kept event record) (KeptUp.initial files) events
  change record ∈ TransferTable.pendingInbound _ ↔ _
  rw [mem_pendingInbound last.keys fun id earlier found =>
    (last.node.records id earlier found).notPaused]
  refine listed.trans (or_iff_left ?_)
  rintro ⟨⟨impossible, _inbound, _pending⟩, _left⟩
  cases impossible

/-! ### `shr status` -/

section Storage

theorem addColumn_sub {total target : Int64} (positive : 0 ≤ total) (reached : 0 ≤ target) :
    TransferTable.addColumn total (target - total) = some target := by
  rw [Int64.le_iff_toInt_le, Int64.toInt_zero] at positive reached
  have below := total.toInt_lt
  have above := target.toInt_lt
  have difference : (target - total).toInt = target.toInt - total.toInt := by
    rw [Int64.toInt_sub]
    apply Int.bmod_eq_of_le <;> omega
  unfold TransferTable.addColumn
  rw [difference, Int64.toInt_minValue, Int64.toInt_maxValue, if_pos (by omega), Int64.add_comm,
    Int64.sub_add_cancel]

theorem receivedColumn_completed {table : TransferTable} {record : TransferRecord}
    (unknown : table.getTransfer record.id = none) (inbound : record.outbound = false)
    (now : Int64) :
    ((table.upsertTransfer record).updateTransferProgress record.id record.totalBytes
        .completed now).receivedColumn =
      table.receivedColumn ++ [record.totalBytes.toInt64] := by
  have absent : table.find (bindTransfer record).id = none := Option.map_eq_none_iff.mp unknown
  have text : cstr (transferStateStr .completed) = ascii "completed" := by
    decide
  unfold TransferTable.receivedColumn TransferTable.upsertTransfer
    TransferTable.updateTransferProgress
  have rows := KeyedTable.rows_modify_replace table absent
  unfold bindTransfer at rows ⊢
  simp only at rows ⊢
  rw [rows]
  simp [inbound, text]

def emptyOffer (vendor : Vendor) (xferId filename : Bytes) (size : UInt64) : Packet :=
  { type := .fileOffer
    payload := vendor.toCbor (offerFields
      { xferId := xferId
        filename := filename
        fileSize := size
        checksum := []
        senderId := [] }) }

def emptyComplete (vendor : Vendor) (xferId : Bytes) : Packet :=
  { type := .fileComplete
    payload := vendor.toCbor (completeFields
      { xferId := xferId
        checksum := [] }) }

/-- A file that is not there has the digest of the completion, so two packets leave
a completed transfer of the offered size. -/
theorem node_after_emptyComplete {vendor : Vendor} {host : Host} {node : Node}
    {xferId filename : Bytes} (unknown : node.transfers.getTransfer xferId = none)
    (absent : node.read host (destination host filename) = none) (size : UInt64)
    {arrival : Arrival} (stores : arrival.stores = true) :
    (handleTransferPacket vendor host arrival (emptyComplete vendor xferId)
        (handleTransferPacket vendor host arrival (emptyOffer vendor xferId filename size)
          node).node).node =
      { node with
        transfers :=
          (node.transfers.upsertTransfer (offeredRecord host arrival
            { xferId := xferId
              filename := filename
              fileSize := size
              checksum := []
              senderId := [] })).updateTransferProgress xferId size .completed
                arrival.updatedAt } := by
  have unpaused : pausedRecord node xferId = none := by
    unfold pausedRecord
    rw [unknown]
    rfl
  rw [handleTransferPacket_complete rfl, handleTransferPacket_offer rfl, emptyOffer, emptyComplete,
    handleFileOffer_stored stores (readFileOffer_toCbor vendor _ _) unpaused,
    handleFileComplete_verified (readFileComplete_toCbor vendor _)
      (TransferTable.getTransfer_upsert_self _ _ rfl)]
  · simp only [Handled.quiet, Node.update, stores, if_true]
    rfl
  · change sha256File vendor (node.read host (destination host filename)) = []
    rw [absent]
    rfl

/-- The storage figure of `shr status` is what the peers claim.  Whatever has been
received before, two packets make it any number, and no byte is written. -/
theorem storage_figure_is_claimed (vendor : Vendor) (host : Host) (node : Node)
    (total target : Int64)
    (figure : TransferTable.sumColumn node.transfers.receivedColumn = some total)
    (positive : 0 ≤ total) (reached : 0 ≤ target) (xferId filename : Bytes)
    (unknown : node.transfers.getTransfer xferId = none)
    (absent : node.read host (destination host filename) = none) (arrival : Arrival)
    (stores : arrival.stores = true) :
    ∃ offer complete : Packet,
      let offered := (handleTransferPacket vendor host arrival offer node).node
      let completed := (handleTransferPacket vendor host arrival complete offered).node
      completed.files = node.files ∧
        completed.transfers.storageUsedBytes = target.toUInt64 := by
  let size := (target - total).toUInt64
  refine ⟨emptyOffer vendor xferId filename size, emptyComplete vendor xferId, ?_⟩
  simp only [node_after_emptyComplete unknown absent size stores]
  refine ⟨trivial, ?_⟩
  let record := offeredRecord host arrival
    { xferId := xferId
      filename := filename
      fileSize := size
      checksum := []
      senderId := [] }
  have column := @receivedColumn_completed node.transfers record unknown rfl arrival.updatedAt
  unfold TransferTable.storageUsedBytes
  change (Option.getD (TransferTable.sumColumn (TransferTable.receivedColumn
    ((node.transfers.upsertTransfer record).updateTransferProgress record.id record.totalBytes
      .completed arrival.updatedAt))) 0).toUInt64 = target.toUInt64
  rw [column]
  unfold TransferTable.sumColumn at figure ⊢
  rw [List.foldlM_append, figure]
  have last := addColumn_sub positive reached
  change (Option.getD ((TransferTable.addColumn total size.toInt64).bind pure) 0).toUInt64 = _
  have signed : size.toInt64 = target - total := Int64.toInt64_toUInt64 _
  rw [signed, last]
  rfl

/-- A node that has received nothing shows a thousand bytes. -/
theorem Reference.nothing_stored :
    ∃ offer complete : Packet,
      let empty := (NodeState.initial fun _path => none).node
      let offered :=
        (handleTransferPacket Reference.vendor Reference.host Reference.arrival offer empty).node
      let completed := (handleTransferPacket Reference.vendor Reference.host Reference.arrival
        complete offered).node
      completed.files = empty.files ∧
        completed.transfers.storageUsedBytes = (1000 : Int64).toUInt64 :=
  storage_figure_is_claimed Reference.vendor Reference.host
    (NodeState.initial fun _path => none).node 0 1000 rfl (by decide) (by decide)
    Reference.receivedOffer.xferId Reference.receivedOffer.filename rfl rfl Reference.arrival rfl

end Storage

end Shr
