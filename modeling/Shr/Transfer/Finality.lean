/-
How final a final state is.

Nothing that writes the state column asks what stands there: `Completed` and
`Cancelled` last until the next step that addresses the transfer.  `Overrides`
lists these steps, and with them the two that change nothing although they
address it: the completion of a transfer that is completed in full and still
verifies, and a second cancellation.
-/

import Shr.Reference

namespace Shr

def TransferRecord.Final (record : TransferRecord) : Prop :=
  record.state = .completed ∨ record.state = .cancelled

/-- A step leaves the state, the progress and the file of every final record. -/
def FinalKept (vendor : Vendor) (host : Host) (state : NodeState) (event : NodeEvent) : Prop :=
  ∀ id record, state.node.transfers.getTransfer id = some record → record.Final →
    (∃ after, (state.step vendor host event).node.transfers.getTransfer id = some after ∧
      after.state = record.state ∧ after.transferredBytes = record.transferredBytes) ∧
    (state.step vendor host event).node.read host record.filepath =
      state.node.read host record.filepath

/-- The steps that address the transfer of an id, or write the file it names. -/
inductive Overrides (vendor : Vendor) (host : Host) (id : Bytes) (state : NodeState) :
    NodeEvent → Prop where
  | offer {arrival : Arrival} {packet : Packet} {offer : FileOffer}
      (type : packet.type = .fileOffer)
      (decoded : readFileOffer vendor arrival.random packet.payload = some offer)
      (same : cstr id = cstr offer.xferId) :
      Overrides vendor host id state (.packet arrival packet)
  | chunk {arrival : Arrival} {packet : Packet} {chunk : FileChunk} {record : TransferRecord}
      (type : packet.type = .fileChunk)
      (applies : ChunkApplies vendor arrival packet.payload state.node chunk record)
      (same : cstr id = cstr chunk.xferId) :
      Overrides vendor host id state (.packet arrival packet)
  | sharedFile {arrival : Arrival} {packet : Packet} {chunk : FileChunk}
      {own record : TransferRecord} (type : packet.type = .fileChunk)
      (applies : ChunkApplies vendor arrival packet.payload state.node chunk record)
      (found : state.node.transfers.getTransfer id = some own)
      (shared : host.resolve own.filepath = host.resolve record.filepath) :
      Overrides vendor host id state (.packet arrival packet)
  | complete {arrival : Arrival} {packet : Packet} {complete : FileComplete}
      {record : TransferRecord} (type : packet.type = .fileComplete)
      (decoded : readFileComplete vendor packet.payload = some complete)
      (same : cstr id = cstr complete.xferId)
      (found : state.node.transfers.getTransfer id = some record)
      (changes : ¬(record.state = .completed ∧ record.transferredBytes = record.totalBytes ∧
        sha256File vendor (state.node.read host record.filepath) = complete.checksum)) :
      Overrides vendor host id state (.packet arrival packet)
  | cancel {cancelled : Bytes} {now : Int64} {record : TransferRecord}
      (same : cstr id = cstr cancelled)
      (found : state.node.transfers.getTransfer id = some record)
      (changes : record.state ≠ .cancelled) :
      Overrides vendor host id state (.cancel cancelled now)
  | sendStores {index : Nat} {answer : Answer} {record : TransferRecord}
      {next : Unit → SendProgram Bytes}
      (present : state.sends[index]? = some (.call (.upsertTransfer record) next))
      (same : cstr id = cstr record.id) :
      Overrides vendor host id state (.advance index answer)
  | sendProgresses {index : Nat} {answer : Answer} {sending : Bytes} {transferred : UInt64}
      {progress : TransferState} {next : Unit → SendProgram Bytes}
      (present : state.sends[index]? =
        some (.call (.updateTransferProgress sending transferred progress) next))
      (same : cstr id = cstr sending) :
      Overrides vendor host id state (.advance index answer)

/-- The record under an id, and its file, are as a final record left them. -/
structure Unchanged (host : Host) (id : Bytes) (original : TransferRecord)
    (content : Option Bytes) (state : NodeState) (record : TransferRecord) : Prop where
  found : state.node.transfers.getTransfer id = some record
  progress : record.state = original.state
  transferred : record.transferredBytes = original.transferredBytes
  filepath : record.filepath = original.filepath
  file : state.node.read host original.filepath = content

section Finality

variable {vendor : Vendor} {host : Host} {id : Bytes} {state : NodeState} {event : NodeEvent}
  {record : TransferRecord}

theorem Writes.rewrites {write : RecordWrite} (writes : Writes vendor host state id event write)
    (found : state.node.transfers.getTransfer id = some record)
    (kept : ¬Overrides vendor host id state event) :
    ∃ now, write = .progress record.transferredBytes record.state now := by
  cases writes with
  | offer type decoded notPaused stores same => exact absurd (.offer type decoded same) kept
  | chunk type applies stores same => exact absurd (.chunk type applies same) kept
  | @complete arrival packet complete other type decoded foundOther verified stores same =>
      rw [← TransferTable.getTransfer_cstr _ same, found] at foundOther
      cases foundOther
      by_cases changes : record.state = .completed ∧
          record.transferredBytes = record.totalBytes ∧
          sha256File vendor (state.node.read host record.filepath) = complete.checksum
      · refine ⟨arrival.updatedAt, ?_⟩
        rw [changes.1, changes.2.1]
      · exact absurd (.complete type decoded same found changes) kept
  | @mismatch arrival packet complete other type decoded foundOther differs stores same =>
      rw [← TransferTable.getTransfer_cstr _ same, found] at foundOther
      cases foundOther
      have changes : ¬(record.state = .completed ∧
          record.transferredBytes = record.totalBytes ∧
          sha256File vendor (state.node.read host record.filepath) = complete.checksum) :=
        fun verified => differs verified.2.2
      exact absurd (.complete type decoded same found changes) kept
  | @cancel cancelled now other foundOther same =>
      rw [← TransferTable.getTransfer_cstr _ same, found] at foundOther
      cases foundOther
      by_cases changes : record.state = .cancelled
      · refine ⟨now, ?_⟩
        rw [changes]
      · exact absurd (.cancel same found changes) kept
  | sendStores present same => exact absurd (.sendStores present same) kept
  | sendProgresses present same => exact absurd (.sendProgresses present same) kept

theorem file_unwritten (found : state.node.transfers.getTransfer id = some record)
    (kept : ¬Overrides vendor host id state event) :
    ¬WritesFile vendor host state record.filepath event := by
  intro written
  cases event with
  | packet arrival packet =>
      obtain ⟨type, chunk, other, applies, shared⟩ := written
      exact kept (.sharedFile type applies found shared)
  | cancel cancelled now => exact written
  | launch inputs => exact written
  | advance index answer => exact written

theorem Unchanged.step {original : TransferRecord} {content : Option Bytes}
    (unchanged : Unchanged host id original content state record)
    (kept : ¬Overrides vendor host id state event) :
    ∃ after, Unchanged host id original content (state.step vendor host event) after := by
  have file : (state.step vendor host event).node.read host original.filepath = content := by
    have unwritten := file_unwritten unchanged.found kept
    rw [unchanged.filepath] at unwritten
    rw [step_file unwritten]
    exact unchanged.file
  rcases @step_record vendor host state event id with
    ⟨write, writes, written⟩ | ⟨_unwritten, same⟩
  · obtain ⟨now, rfl⟩ := writes.rewrites unchanged.found kept
    rw [unchanged.found] at written
    refine ⟨record.progressed record.transferredBytes record.state now, ?_⟩
    constructor
    · exact written
    · exact unchanged.progress
    · exact unchanged.transferred
    · exact unchanged.filepath
    · exact file
  · refine ⟨record, ?_⟩
    constructor
    · exact same.trans unchanged.found
    · exact unchanged.progress
    · exact unchanged.transferred
    · exact unchanged.filepath
    · exact file

end Finality

/-- A record, final or not, keeps its state, its progress and its file along
every run of steps that do not address its transfer. -/
theorem final_until_overridden (vendor : Vendor) (host : Host) {state : NodeState}
    {id : Bytes} {record : TransferRecord}
    (found : state.node.transfers.getTransfer id = some record)
    {events : List NodeEvent}
    (kept : EventRun.Along (NodeState.step vendor host)
      (fun state event => ¬Overrides vendor host id state event) state events) :
    ∃ after, (state.run vendor host events).node.transfers.getTransfer id = some after ∧
      after.state = record.state ∧
      after.transferredBytes = record.transferredBytes ∧
      (state.run vendor host events).node.read host record.filepath =
        state.node.read host record.filepath := by
  have initially : ∃ current, Unchanged host id record (state.node.read host record.filepath)
      state current := ⟨record, found, rfl, rfl, rfl, rfl⟩
  have steps (state' : NodeState) (event : NodeEvent)
      (earlier : ∃ current, Unchanged host id record (state.node.read host record.filepath)
        state' current) (keeps : ¬Overrides vendor host id state' event) :
      ∃ current, Unchanged host id record (state.node.read host record.filepath)
        (state'.step vendor host event) current := by
    obtain ⟨current, unchanged⟩ := earlier
    exact unchanged.step keeps
  obtain ⟨after, unchanged⟩ := kept.invariant steps initially
  exact ⟨after, unchanged.found, unchanged.progress, unchanged.transferred, unchanged.file⟩

namespace Reference

def cancelledState : NodeState :=
  offeredState.step vendor host (.cancel receivedOffer.xferId 0)

def cancelledRecord : TransferRecord :=
  (offeredRecord host arrival receivedOffer).stored.progressed 0 .cancelled 0

theorem cancelledState_record :
    cancelledState.node.transfers.getTransfer receivedOffer.xferId = some cancelledRecord := by
  rw [cancelledState, step_written (.cancel offeredState_record rfl), offeredState_record]
  rfl

/-- A chunk that arrives after the cancellation is written all the same. -/
theorem cancelled_then_written :
    ¬EventRun.Along (NodeState.step vendor host) (FinalKept vendor host)
      (NodeState.initial fun _path => none)
      [ offerArrives receivedOffer,
        .cancel receivedOffer.xferId 0,
        chunkArrives receivedOffer.xferId 0 (ascii "x") ] := by
  rw [EventRun.along_cons, EventRun.along_cons, EventRun.along_cons]
  rintro ⟨_offer, _cancel, kept, _rest⟩
  have keptHere : FinalKept vendor host cancelledState
    (chunkArrives receivedOffer.xferId 0 (ascii "x")) := kept
  have final : cancelledRecord.Final := Or.inr rfl
  obtain ⟨⟨after, present, same, _progress⟩, _file⟩ :=
    keptHere receivedOffer.xferId cancelledRecord cancelledState_record final
  rw [node_after_chunk cancelledState_record (by decide),
    Node.getTransfer_update_self _ arrival _ _ rfl rfl, Node.write_transfers,
    cancelledState_record] at present
  cases present
  cases same

/-- An offer of another file leaves the cancelled record final. -/
theorem cancelled_stays_cancelled :
    ∃ after,
      (cancelledState.run vendor host
        [offerArrives { receivedOffer with xferId := ascii "other" }]).node.transfers.getTransfer
          receivedOffer.xferId = some after ∧
      after.state = .cancelled ∧ after.transferredBytes = 0 ∧
      (cancelledState.run vendor host
        [offerArrives { receivedOffer with xferId := ascii "other" }]).node.read host
          cancelledRecord.filepath = cancelledState.node.read host cancelledRecord.filepath := by
  apply final_until_overridden vendor host cancelledState_record
  rw [EventRun.along_cons]
  refine ⟨?_, trivial⟩
  intro overrides
  rw [offerArrives] at overrides
  cases overrides with
  | offer type decoded same =>
      rw [readFileOffer_toCbor] at decoded
      cases decoded
      exact absurd same (by decide)
  | chunk type applies same => cases type
  | sharedFile type applies found shared => cases type
  | complete type decoded same found changes => cases type

end Reference

end Shr
