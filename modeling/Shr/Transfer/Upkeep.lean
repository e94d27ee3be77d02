/-
The upkeep of the transfers table.

`shr clean` deletes the records of transfers that are over and old and clears a
directory of temporary files, `shr receive` lists those that have only been offered,
and processes come and go: one that ends takes its calls with it and leaves the table
and the files to the next.  Everything that a run does with transfers whose records
and files have not been cleaned away it would have done without any cleaning.
-/

import Shr.Reference

namespace Shr

/-! ### Events -/

/-- What one cleaning meets.  `reached` are the names that the removal leaves without
a file: none of them if there is no directory of temporary files, all of them if
nothing fails. -/
structure Cleanup where
  now : Int64
  deletes : Bool
  reached : Bytes → Bool

inductive UpkeepEvent where
  | node (event : NodeEvent)
  | clean (cleanup : Cleanup)
  | restart

def UpkeepEvent.isClean : UpkeepEvent → Bool
  | .clean _cleanup => true
  | _ => false

def Host.tmpDir (host : Host) : Bytes :=
  joinPath host.configDir (ascii "tmp")

/-- The file is the directory of temporary files or lies below it. -/
def Host.temporary (host : Host) (file : Bytes) : Bool :=
  let directory := host.resolve host.tmpDir
  file == directory || (directory ++ ascii "/").isPrefixOf file

def Cleanup.clears (host : Host) (cleanup : Cleanup) (file : Bytes) : Bool :=
  host.temporary file && cleanup.reached file

def cmdClean (host : Host) (cleanup : Cleanup) (node : Node) : Node :=
  { node with
    transfers :=
      if cleanup.deletes then node.transfers.deleteStaleTransfers 7 cleanup.now
      else node.transfers
    files := fun file => if cleanup.clears host file then none else node.files file }

section Steps

variable (vendor : Vendor) (host : Host)

def NodeState.keepUp (state : NodeState) : UpkeepEvent → NodeState
  | .node event => state.step vendor host event
  | .clean cleanup => { state with node := cmdClean host cleanup state.node }
  | .restart =>
      { node := { state.node with activeCount := 0 }
        sends := [] }

def UpkeepEvent.replies (state : NodeState) : UpkeepEvent → Option (List Packet)
  | .node (.packet arrival packet) =>
      some (handleTransferPacket vendor host arrival packet state.node).replies
  | _ => none

end Steps

/-! ### What an event names -/

def sendNames : SendProgram Bytes → Option Bytes
  | .call (.upsertTransfer record) _next => some record.id
  | .call (.updateTransferProgress id _transferred _state) _next => some id
  | _ => none

section Names

variable (vendor : Vendor)

def NodeEvent.names (state : NodeState) : NodeEvent → Option Bytes
  | .packet arrival arriving => carriedId vendor arrival arriving
  | .cancel id _now => some id
  | .launch _inputs => none
  | .advance index _answer => state.sends[index]?.bind sendNames

def UpkeepEvent.names (state : NodeState) : UpkeepEvent → Option Bytes
  | .node event => event.names vendor state
  | _ => none

def UpkeepEvent.Spares (id : Bytes) (state : NodeState) (event : UpkeepEvent) : Prop :=
  ∀ named, event.names vendor state = some named → cstr named ≠ id

/-- The event is no chunk and no completion of a transfer with this file. -/
def UpkeepEvent.SparesFile (host : Host) (file : Bytes) (state : NodeState) :
    UpkeepEvent → Prop
  | .node (.packet arrival packet) =>
      packet.type ≠ .fileOffer → ∀ id record, carriedId vendor arrival packet = some id →
        state.node.transfers.getTransfer id = some record → host.resolve record.filepath ≠ file
  | _ => True

end Names

/-! ### A node without some of its records and files -/

def TransferTable.without (table : TransferTable) (gone : List Bytes) : TransferTable :=
  table.keep fun row => !gone.contains row.id

def Node.without (node : Node) (gone : List Bytes) (cleared : Bytes → Bool) : Node :=
  { node with
    transfers := node.transfers.without gone
    files := fun file => if cleared file then none else node.files file }

def NodeState.without (state : NodeState) (gone : List Bytes) (cleared : Bytes → Bool) :
    NodeState :=
  { state with node := state.node.without gone cleared }

def Handled.without (handled : Handled) (gone : List Bytes) (cleared : Bytes → Bool) :
    Handled :=
  { handled with node := handled.node.without gone cleared }

section Without

variable {gone : List Bytes} {cleared : Bytes → Bool}

theorem not_contains_iff {id : Bytes} : (!gone.contains id) = true ↔ id ∉ gone := by
  rw [Bool.not_eq_true', ← Bool.not_eq_true, List.contains_iff_mem]

theorem TransferTable.getTransfer_without (table : TransferTable) {id : Bytes}
    (kept : cstr id ∉ gone) : (table.without gone).getTransfer id = table.getTransfer id := by
  unfold getTransfer without
  rw [KeyedTable.find_keep]
  congr 1
  cases found : table.find (cstr id) with
  | none => rfl
  | some row =>
      have same := KeyedTable.key_of_find found
      exact Option.filter_eq_some_iff.mpr ⟨rfl, not_contains_iff.mpr (same ▸ kept)⟩

theorem TransferTable.getTransfer_gone (table : TransferTable) {id : Bytes}
    (lost : cstr id ∈ gone) : (table.without gone).getTransfer id = none := by
  unfold getTransfer without
  rw [KeyedTable.find_keep, Option.map_eq_none_iff, Option.filter_eq_none_iff]
  intro row found kept
  rw [KeyedTable.key_of_find found, not_contains_iff] at kept
  exact kept lost

theorem TransferTable.upsertTransfer_without (table : TransferTable) {record : TransferRecord}
    (kept : cstr record.id ∉ gone) :
    (table.without gone).upsertTransfer record = (table.upsertTransfer record).without gone :=
  (@KeyedTable.keep_replace _ _ _ TransferRow.id table (fun id => !gone.contains id)
    (bindTransfer record) (not_contains_iff.mpr kept)).symm

theorem TransferTable.updateTransferProgress_without (table : TransferTable) (id : Bytes)
    (transferred : UInt64) (state : TransferState) (now : Int64) :
    (table.without gone).updateTransferProgress id transferred state now =
      (table.updateTransferProgress id transferred state now).without gone :=
  (@KeyedTable.keep_modify _ _ _ TransferRow.id table (fun id => !gone.contains id) (cstr id)
    _ _).symm

theorem Node.update_without (node : Node) (arrival : Arrival) (id : Bytes)
    (transferred : UInt64) (state : TransferState) :
    (node.without gone cleared).update arrival id transferred state =
      (node.update arrival id transferred state).without gone cleared := by
  unfold Node.update Node.without
  simp only
  split
  · rw [TransferTable.updateTransferProgress_without]
  · rfl

theorem Node.getTransfer_without (node : Node) {id : Bytes} (kept : cstr id ∉ gone) :
    (node.without gone cleared).transfers.getTransfer id = node.transfers.getTransfer id :=
  node.transfers.getTransfer_without kept

theorem Node.read_without {host : Host} (node : Node) {path : Bytes}
    (apart : cleared (host.resolve path) = false) :
    (node.without gone cleared).read host path = node.read host path := by
  unfold Node.read Node.without
  simp only
  rw [if_neg (ne_true_of_eq_false apart)]

theorem Node.write_without {host : Host} (node : Node) {path : Bytes} (content : Bytes)
    (apart : cleared (host.resolve path) = false) :
    (node.without gone cleared).write host path content =
      (node.write host path content).without gone cleared := by
  unfold Node.write Node.without
  simp only [Node.mk.injEq, true_and, and_true]
  funext file
  by_cases same : file = host.resolve path
  · rw [if_pos same, if_pos same, same, if_neg (ne_true_of_eq_false apart)]
  · rw [if_neg same, if_neg same]

end Without

/-! ### Events that spare what is missing -/

section Commuting

variable {vendor : Vendor} {host : Host} {gone : List Bytes} {cleared : Bytes → Bool}

theorem handleFileOffer_without (arrival : Arrival) (payload : Bytes) (node : Node)
    (spared : ∀ offer, readFileOffer vendor arrival.random payload = some offer →
      cstr offer.xferId ∉ gone) :
    handleFileOffer vendor host arrival payload (node.without gone cleared) =
      (handleFileOffer vendor host arrival payload node).without gone cleared := by
  unfold handleFileOffer
  cases decoded : readFileOffer vendor arrival.random payload with
  | none => rfl
  | some offer =>
      have kept := spared offer decoded
      have same : pausedRecord (node.without gone cleared) offer.xferId =
          pausedRecord node offer.xferId := by
        unfold pausedRecord
        rw [node.getTransfer_without kept]
      simp only
      rw [same]
      cases pausedRecord node offer.xferId with
      | some existing => rfl
      | none =>
          simp only [Node.without, Handled.without]
          split
          · rw [TransferTable.upsertTransfer_without]
            exact kept
          · rfl

theorem handleFileChunk_without (arrival : Arrival) (payload : Bytes) (node : Node)
    (spared : ∀ chunk, readFileChunk vendor payload = some chunk → cstr chunk.xferId ∉ gone)
    (apart : ∀ chunk record, readFileChunk vendor payload = some chunk →
      node.transfers.getTransfer chunk.xferId = some record →
        cleared (host.resolve record.filepath) = false) :
    handleFileChunk vendor host arrival payload (node.without gone cleared) =
      (handleFileChunk vendor host arrival payload node).without gone cleared := by
  unfold handleFileChunk
  cases decoded : readFileChunk vendor payload with
  | none => rfl
  | some chunk =>
      simp only
      split
      · rfl
      · rw [node.getTransfer_without (spared chunk decoded)]
        cases found : node.transfers.getTransfer chunk.xferId with
        | none => rfl
        | some record =>
            have kept := apart chunk record decoded found
            simp only [node.read_without kept, node.write_without _ kept, Node.update_without]
            split <;> rfl

theorem handleFileComplete_without (arrival : Arrival) (payload : Bytes) (node : Node)
    (spared : ∀ complete, readFileComplete vendor payload = some complete →
      cstr complete.xferId ∉ gone)
    (apart : ∀ complete record, readFileComplete vendor payload = some complete →
      node.transfers.getTransfer complete.xferId = some record →
        cleared (host.resolve record.filepath) = false) :
    handleFileComplete vendor host arrival payload (node.without gone cleared) =
      (handleFileComplete vendor host arrival payload node).without gone cleared := by
  unfold handleFileComplete
  cases decoded : readFileComplete vendor payload with
  | none => rfl
  | some complete =>
      simp only
      rw [node.getTransfer_without (spared complete decoded)]
      cases found : node.transfers.getTransfer complete.xferId with
      | none => rfl
      | some record =>
          simp only [node.read_without (apart complete record decoded found),
            Node.update_without]
          split <;> rfl

theorem handleTransferPacket_without (arrival : Arrival) (packet : Packet) (node : Node)
    (spared : ∀ id, carriedId vendor arrival packet = some id → cstr id ∉ gone)
    (apart : packet.type ≠ .fileOffer → ∀ id record, carriedId vendor arrival packet = some id →
      node.transfers.getTransfer id = some record →
        cleared (host.resolve record.filepath) = false) :
    handleTransferPacket vendor host arrival packet (node.without gone cleared) =
      (handleTransferPacket vendor host arrival packet node).without gone cleared := by
  unfold carriedId at spared apart
  unfold handleTransferPacket
  split
  next type =>
      rw [type] at spared
      apply handleFileOffer_without
      intro offer decoded
      apply spared
      simp only [decoded, Option.map_some]
  next type =>
      rw [type] at spared apart
      apply handleFileChunk_without
      · intro chunk decoded
        apply spared
        simp only [decoded, Option.map_some]
      · intro chunk record decoded
        apply apart (by decide) chunk.xferId record
        simp only [decoded, Option.map_some]
  next type =>
      rw [type] at spared apart
      apply handleFileComplete_without
      · intro complete decoded
        apply spared
        simp only [decoded, Option.map_some]
      · intro complete record decoded
        apply apart (by decide) complete.xferId record
        simp only [decoded, Option.map_some]
  next => rfl

theorem cancelTransfer_without {id : Bytes} (kept : cstr id ∉ gone) (now : Int64) (node : Node) :
    (cancelTransfer id now (node.without gone cleared)).2 =
      ((cancelTransfer id now node).2).without gone cleared := by
  unfold cancelTransfer
  rw [node.getTransfer_without kept]
  cases node.transfers.getTransfer id with
  | none => rfl
  | some record =>
      simp only [Node.without, TransferTable.updateTransferProgress_without]

theorem advance_without (answer : Answer) (node : Node) (program : SendProgram Bytes)
    (spared : ∀ id, sendNames program = some id → cstr id ∉ gone) :
    Shr.advance answer (node.without gone cleared) program =
      ((Shr.advance answer node program).1,
        (Shr.advance answer node program).2.without gone cleared) := by
  cases program with
  | done result => rfl
  | call op next =>
      cases op with
      | upsertTransfer record =>
          have kept := spared record.id rfl
          simp only [Shr.advance, SendOp.effect, Node.without,
            TransferTable.upsertTransfer_without _ kept]
      | updateTransferProgress id transferred state =>
          simp only [Shr.advance, SendOp.effect, Node.without,
            TransferTable.updateTransferProgress_without]
      | _ => rfl

theorem handled_without {arrival : Arrival} {packet : Packet} {state : NodeState}
    (spared : ∀ id, carriedId vendor arrival packet = some id → cstr id ∉ gone)
    (apart : ∀ file, cleared file = true →
      (UpkeepEvent.node (.packet arrival packet)).SparesFile vendor host file state) :
    handleTransferPacket vendor host arrival packet (state.without gone cleared).node =
      (handleTransferPacket vendor host arrival packet state.node).without gone cleared := by
  apply handleTransferPacket_without _ _ _ spared
  intro touches id record carried found
  cases lost : cleared (host.resolve record.filepath) with
  | false => rfl
  | true => exact absurd rfl (apart _ lost touches id record carried found)

theorem UpkeepEvent.SparesFile.of_without {event : NodeEvent} {state : NodeState} {file : Bytes}
    (spared : ∀ id, event.names vendor state = some id → cstr id ∉ gone)
    (spares : (UpkeepEvent.node event).SparesFile vendor host file (state.without gone cleared)) :
    (UpkeepEvent.node event).SparesFile vendor host file state := by
  cases event with
  | packet arrival packet =>
      intro touches id record carried found
      apply spares touches id record carried
      exact (state.node.getTransfer_without (spared id carried)).trans found
  | _ => trivial

theorem step_without (state : NodeState) (event : NodeEvent)
    (spared : ∀ id, event.names vendor state = some id → cstr id ∉ gone)
    (apart : ∀ file, cleared file = true →
      (UpkeepEvent.node event).SparesFile vendor host file state) :
    (state.without gone cleared).step vendor host event =
      (state.step vendor host event).without gone cleared := by
  cases event with
  | packet arrival packet =>
      have handled := handled_without spared apart
      simp only [NodeState.step]
      rw [handled]
      rfl
  | cancel id now =>
      simp only [NodeState.step, NodeState.without]
      rw [cancelTransfer_without (spared id rfl)]
  | launch inputs => rfl
  | advance index answer =>
      simp only [NodeState.step, NodeState.without]
      cases present : state.sends[index]? with
      | none => rfl
      | some program =>
          simp only
          rw [advance_without answer state.node program fun id named => spared id (by
            simp only [NodeEvent.names, present, Option.bind_some, named])]

end Commuting

/-! ### A run and its cleanings -/

def TransferTable.staleIds (table : TransferTable) (olderThanDays : Int32) (now : Int64) :
    List Bytes :=
  (table.rows.filter (isStale (now - olderThanDays.toInt64 * 86400))).map TransferRow.id

def Cleanup.deletedIds (cleanup : Cleanup) (table : TransferTable) : List Bytes :=
  if cleanup.deletes then table.staleIds 7 cleanup.now else []

def UpkeepEvent.cleans (state : NodeState) : UpkeepEvent → List Bytes
  | .clean cleanup => cleanup.deletedIds state.node.transfers
  | _ => []

def UpkeepEvent.clears (host : Host) (file : Bytes) : UpkeepEvent → Bool
  | .clean cleanup => cleanup.clears host file
  | _ => false

/-- Once a record or a file has been cleaned away, no event names it any more. -/
def StayAway (vendor : Vendor) (host : Host) : NodeState → List UpkeepEvent → Prop
  | _, [] => True
  | state, event :: rest =>
      (∀ id ∈ event.cleans state, EventRun.Along (NodeState.keepUp vendor host)
        (fun state event => event.Spares vendor id state) (state.keepUp vendor host event) rest) ∧
      (∀ file, event.clears host file = true → EventRun.Along (NodeState.keepUp vendor host)
        (fun state event => event.SparesFile vendor host file state)
        (state.keepUp vendor host event) rest) ∧
      StayAway vendor host (state.keepUp vendor host event) rest

def TransferState.Over (state : TransferState) : Prop :=
  state = .completed ∨ state = .failed ∨ state = .cancelled

/-- The run with cleanings has lost some records, which are over, and some of the
temporary files. -/
structure Cleaned (host : Host) (gone : List Bytes) (cleared : Bytes → Bool)
    (plain cleaned : NodeState) : Prop where
  same : cleaned = plain.without gone cleared
  temporary : ∀ file, cleared file = true → host.temporary file = true
  keys : plain.node.transfers.TextKeys
  texts : ∀ id ∈ gone, NulFree id
  ended : ∀ id ∈ gone, ∀ record, plain.node.transfers.getTransfer id = some record →
    record.state.Over

section Cleaning

variable {vendor : Vendor} {host : Host} {gone : List Bytes} {cleared : Bytes → Bool}
  {plain cleaned : NodeState}

theorem Writes.names {state : NodeState} {event : NodeEvent} {id : Bytes} {write : RecordWrite}
    (writes : Writes vendor host state id event write) :
    ∃ named, event.names vendor state = some named ∧ cstr id = cstr named := by
  cases event with
  | packet arrival packet => exact writes.carried
  | cancel cancelled now =>
      cases writes with
      | cancel found same => exact ⟨cancelled, rfl, same⟩
  | launch inputs => cases writes
  | advance index answer =>
      simp only [NodeEvent.names]
      cases writes with
      | @sendStores _ _ record next present same =>
          rw [present]
          exact ⟨record.id, rfl, same⟩
      | @sendProgresses _ _ sending transferred progress next present same =>
          rw [present]
          exact ⟨sending, rfl, same⟩

theorem stateOfText_over {text : Bytes}
    (final : text ∈ [ascii "completed", ascii "failed", ascii "cancelled"]) :
    (stateOfText text).Over := by
  rcases List.mem_cons.mp final with completed | final
  · rw [completed]
    exact .inl (by decide)
  · rcases List.mem_cons.mp final with failed | final
    · rw [failed]
      exact .inr (.inl (by decide))
    · rw [List.mem_singleton.mp final]
      exact .inr (.inr (by decide))

theorem Cleaned.step (related : Cleaned host gone cleared plain cleaned) {event : NodeEvent}
    (spared : ∀ id ∈ gone, ∀ named, event.names vendor cleaned = some named →
      cstr named ≠ id)
    (apart : ∀ file, cleared file = true →
      (UpkeepEvent.node event).SparesFile vendor host file cleaned) :
    Cleaned host gone cleared (plain.step vendor host event) (cleaned.step vendor host event) where
  same := by
    rw [related.same] at spared apart ⊢
    have named : ∀ id, event.names vendor plain = some id → cstr id ∉ gone :=
      fun id isNamed member => spared _ member id isNamed rfl
    apply step_without plain event named
    intro file lost
    exact UpkeepEvent.SparesFile.of_without named (apart file lost)
  temporary := related.temporary
  keys := textKeys_step related.keys event
  texts := related.texts
  ended id member record found := by
    have unwritten : ∀ write, ¬Writes vendor host plain id event write := by
      intro write writes
      obtain ⟨named, isNamed, sameId⟩ := writes.names
      rw [related.same] at spared
      apply spared id member named isNamed
      rw [← sameId]
      exact cstr_of_nulFree (related.texts id member)
    rw [step_unwritten unwritten] at found
    exact related.ended id member record found

theorem Cleanup.deletedIds_stale {cleanup : Cleanup} {table : TransferTable} {id : Bytes}
    (deleted : id ∈ cleanup.deletedIds table) :
    ∃ row ∈ table.rows, row.id = id ∧
      row.state ∈ [ascii "completed", ascii "failed", ascii "cancelled"] := by
  unfold deletedIds at deleted
  split at deleted
  · obtain ⟨row, stale, same⟩ := List.mem_map.mp deleted
    obtain ⟨stored, isStale⟩ := List.mem_filter.mp stale
    exact ⟨row, stored, same, (of_decide_eq_true isStale).2⟩
  · cases deleted

theorem cmdClean_eq (cleanup : Cleanup) (node : Node) :
    cmdClean host cleanup node =
      node.without (cleanup.deletedIds node.transfers) (cleanup.clears host) := by
  have kept : node.transfers.without [] = node.transfers := by
    apply KeyedTable.eq_of_rows
    exact List.filter_eq_self.mpr fun row _member => rfl
  have deleted : node.transfers.deleteStaleTransfers 7 cleanup.now =
      node.transfers.without (node.transfers.staleIds 7 cleanup.now) := by
    unfold TransferTable.deleteStaleTransfers TransferTable.without TransferTable.staleIds
    rw [KeyedTable.keep_eq_keep_keys]
    simp only [Bool.not_not]
    congr 1
    funext row
    rw [Bool.eq_iff_iff, decide_eq_true_eq, not_contains_iff]
  unfold cmdClean Cleanup.deletedIds Node.without
  cases cleanup.deletes with
  | false => simp only [Bool.false_eq_true, if_false, kept]
  | true => simp only [if_true, deleted]

theorem Node.without_without (node : Node) (first second : List Bytes)
    (hidden others : Bytes → Bool) :
    (node.without first hidden).without second others =
      node.without (first ++ second) fun file => hidden file || others file := by
  unfold Node.without
  simp only [Node.mk.injEq, and_true]
  constructor
  · apply KeyedTable.eq_of_rows
    simp only [TransferTable.without, KeyedTable.keep, List.filter_filter]
    congr 1
    funext row
    rw [Bool.eq_iff_iff, Bool.and_eq_true, not_contains_iff, not_contains_iff,
      not_contains_iff, List.mem_append, not_or, and_comm]
  · funext file
    by_cases later : others file = true
    · simp only [later, Bool.or_true, if_true]
    · simp only [later, Bool.or_false, Bool.false_eq_true, if_false]

theorem Cleaned.clean (related : Cleaned host gone cleared plain cleaned) (cleanup : Cleanup) :
    Cleaned host (gone ++ cleanup.deletedIds cleaned.node.transfers)
      (fun file => cleared file || cleanup.clears host file) plain
      { cleaned with node := cmdClean host cleanup cleaned.node } where
  same := by
    rw [cmdClean_eq]
    generalize cleanup.deletedIds cleaned.node.transfers = stale
    rw [related.same]
    simp only [NodeState.without, Node.without_without]
  temporary file lost := by
    rcases Bool.or_eq_true _ _ |>.mp lost with earlier | now
    · exact related.temporary file earlier
    · exact (Bool.and_eq_true _ _ |>.mp now).1
  keys := related.keys
  texts id member := by
    rcases List.mem_append.mp member with earlier | deleted
    · exact related.texts id earlier
    · obtain ⟨row, stored, rfl, _final⟩ := Cleanup.deletedIds_stale deleted
      rw [related.same] at stored
      exact related.keys row (List.mem_of_mem_filter stored)
  ended id member record found := by
    rcases List.mem_append.mp member with earlier | deleted
    · exact related.ended id earlier record found
    · obtain ⟨row, stored, rfl, final⟩ := Cleanup.deletedIds_stale deleted
      rw [related.same] at stored
      have present := List.mem_of_mem_filter stored
      rw [TransferTable.getTransfer_of_mem present (related.keys row present),
        Option.some.injEq] at found
      rw [← found]
      exact stateOfText_over final

theorem Cleaned.restart (related : Cleaned host gone cleared plain cleaned) :
    Cleaned host gone cleared (plain.keepUp vendor host .restart)
      (cleaned.keepUp vendor host .restart) where
  same := by
    rw [related.same]
    rfl
  temporary := related.temporary
  keys := related.keys
  texts := related.texts
  ended := related.ended

theorem Cleaned.files (related : Cleaned host gone cleared plain cleaned) (file : Bytes) :
    cleaned.node.files file = plain.node.files file ∨
      host.temporary file = true ∧ cleaned.node.files file = none := by
  rw [related.same]
  simp only [NodeState.without, Node.without]
  cases lost : cleared file with
  | false => exact .inl rfl
  | true => exact .inr ⟨related.temporary file lost, rfl⟩

theorem Cleaned.activeTransfers (related : Cleaned host gone cleared plain cleaned) :
    cleaned.node.transfers.activeTransfers = plain.node.transfers.activeTransfers := by
  rw [related.same]
  unfold TransferTable.activeTransfers
  simp only [NodeState.without, Node.without, TransferTable.without, KeyedTable.keep,
    List.filter_filter]
  congr 2
  apply List.filter_congr
  intro row member
  rw [Bool.eq_iff_iff, Bool.and_eq_true, and_iff_left_iff_imp, not_contains_iff,
    decide_eq_true_eq]
  intro active lost
  have found := TransferTable.getTransfer_of_mem member (related.keys row member)
  have ended := related.ended row.id lost _ found
  have going := TransferTable.stateOfText_active active
  change (stateOfText row.state).Over at ended
  unfold TransferState.Over at ended
  grind

/-- Whatever the cleaned table has the other one has too, and what it has lost is
over. -/
theorem Cleaned.records (related : Cleaned host gone cleared plain cleaned) {id : Bytes}
    {record : TransferRecord} :
    (cleaned.node.transfers.getTransfer id = some record →
      plain.node.transfers.getTransfer id = some record) ∧
    (plain.node.transfers.getTransfer id = some record →
      cleaned.node.transfers.getTransfer id = none → record.state.Over) := by
  rw [related.same]
  simp only [NodeState.without, Node.without]
  by_cases kept : cstr id ∈ gone
  · constructor
    · intro found
      rw [TransferTable.getTransfer_gone _ kept] at found
      cases found
    · intro found _lost
      apply related.ended (cstr id) kept
      rw [← found]
      exact TransferTable.getTransfer_cstr _ (cstr_of_nulFree (cstr_nulFree id))
  · rw [TransferTable.getTransfer_without _ kept]
    refine ⟨fun found => found, fun found lost => ?_⟩
    rw [found] at lost
    cases lost

/-- Along a run the cleanings take more and more records away, and nothing else. -/
theorem Cleaned.run {events : List UpkeepEvent} (related : Cleaned host gone cleared plain cleaned)
    (spared : ∀ id ∈ gone, EventRun.Along (NodeState.keepUp vendor host)
      (fun state event => event.Spares vendor id state) cleaned events)
    (apart : ∀ file, cleared file = true → EventRun.Along (NodeState.keepUp vendor host)
      (fun state event => event.SparesFile vendor host file state) cleaned events)
    (away : StayAway vendor host cleaned events) :
    (∃ lost hidden, Cleaned host lost hidden
      (EventRun.run (NodeState.keepUp vendor host) plain
        (events.filter fun event => !event.isClean))
      (EventRun.run (NodeState.keepUp vendor host) cleaned events)) ∧
    EventRun.emitted (NodeState.keepUp vendor host) (fun state event =>
        event.replies vendor host state) cleaned events =
      EventRun.emitted (NodeState.keepUp vendor host) (fun state event =>
        event.replies vendor host state) plain (events.filter fun event => !event.isClean) := by
  induction events generalizing gone cleared plain cleaned with
  | nil => exact ⟨⟨gone, cleared, related⟩, rfl⟩
  | cons event rest ih =>
      have later {id : Bytes} (member : id ∈ gone) := (spared id member).2
      have laterApart {file : Bytes} (lost : cleared file = true) := (apart file lost).2
      cases event with
      | node event =>
          have first {id : Bytes} (member : id ∈ gone) := (spared id member).1
          have firstApart {file : Bytes} (lost : cleared file = true) := (apart file lost).1
          obtain ⟨further, replies⟩ := ih
            (related.step (fun id member => first member) fun file lost => firstApart lost)
            (fun id member => later member) (fun file lost => laterApart lost) away.2.2
          refine ⟨further, ?_⟩
          have sameReplies : UpkeepEvent.replies vendor host cleaned (.node event) =
              UpkeepEvent.replies vendor host plain (.node event) := by
            cases event with
            | packet arrival packet =>
                rw [related.same] at firstApart
                have kept : ∀ id, carriedId vendor arrival packet = some id → cstr id ∉ gone :=
                  fun id carried member => first member id carried rfl
                have handled := handled_without kept fun file lost =>
                  UpkeepEvent.SparesFile.of_without kept (firstApart lost)
                have replies := congrArg Handled.replies handled
                rw [related.same]
                exact congrArg some replies
            | _ => rfl
          simp only [UpkeepEvent.isClean, Bool.not_false, List.filter_cons_of_pos,
            EventRun.emitted, sameReplies]
          exact congrArg _ replies
      | clean cleanup =>
          apply ih (related.clean cleanup) _ _ away.2.2
          · intro id member
            rcases List.mem_append.mp member with earlier | deleted
            · exact later earlier
            · exact away.1 id deleted
          · intro file lost
            rcases Bool.or_eq_true _ _ |>.mp lost with earlier | now
            · exact laterApart earlier
            · exact away.2.1 file now
      | restart =>
          exact ih related.restart (fun id member => later member)
            (fun file lost => laterApart lost) away.2.2

end Cleaning

/-! ### Runs -/

namespace Reference

/-- A transfer is offered and cancelled; then its record is cleaned away with what
is left in the directory of temporary files, and another process goes on. -/
def cleanedRun : List UpkeepEvent :=
  [ .node (offerArrives receivedOffer),
    .node (.cancel receivedOffer.xferId 0),
    .clean
      { now := 1000000
        deletes := true
        reached := fun _file => true },
    .restart ]

def temporaryFile (path : Bytes) : Option Bytes :=
  if path = ascii "/home/user/.shr/tmp/part" then some (ascii "x") else none

theorem cleanedRun_stayAway (files : Bytes → Option Bytes) :
    StayAway vendor host (NodeState.initial files) cleanedRun := by
  have untouched {event : UpkeepEvent} {state : NodeState} {rest : List UpkeepEvent}
      (deletes : event.cleans state = []) (clears : ∀ file, event.clears host file = false)
      (away : StayAway vendor host (state.keepUp vendor host event) rest) :
      StayAway vendor host state (event :: rest) := by
    constructor
    · intro id member
      rw [deletes] at member
      cases member
    · constructor
      · intro file lost
        rw [clears file] at lost
        cases lost
      · exact away
  apply untouched rfl fun _file => rfl
  apply untouched rfl fun _file => rfl
  constructor
  · intro id _cleaned
    constructor
    · intro named impossible
      cases impossible
    · trivial
  · constructor
    · intro file _lost
      exact ⟨trivial, trivial⟩
    · exact untouched rfl (fun _file => rfl) trivial

end Reference

/-- Cleaning is invisible.  Two installations that begin alike, and of which one is
cleaned from time to time, send the same replies and end with the same calls under
way, the same list of active transfers and the same files outside the directory of
temporary files.  The cleaned one has lost the records of transfers that are over
and temporary files, and nothing else differs.  So it is as long as no event names a
transfer or a file that has been cleaned away. -/
theorem cleaning_is_invisible (vendor : Vendor) (host : Host) (files : Bytes → Option Bytes)
    (events : List UpkeepEvent)
    (away : StayAway vendor host (NodeState.initial files) events) :
    let plainEvents := events.filter fun event => !event.isClean
    let cleaned := EventRun.run (NodeState.keepUp vendor host) (NodeState.initial files) events
    let plain :=
      EventRun.run (NodeState.keepUp vendor host) (NodeState.initial files) plainEvents
    EventRun.emitted (NodeState.keepUp vendor host)
        (fun state event => event.replies vendor host state) (NodeState.initial files) events =
      EventRun.emitted (NodeState.keepUp vendor host)
        (fun state event => event.replies vendor host state) (NodeState.initial files)
        plainEvents ∧
    (∀ file, cleaned.node.files file = plain.node.files file ∨
      host.temporary file = true ∧ cleaned.node.files file = none) ∧
    cleaned.node.activeCount = plain.node.activeCount ∧
    cleaned.sends = plain.sends ∧
    cleaned.node.transfers.activeTransfers = plain.node.transfers.activeTransfers ∧
    ∀ id record,
      (cleaned.node.transfers.getTransfer id = some record →
        plain.node.transfers.getTransfer id = some record) ∧
      (plain.node.transfers.getTransfer id = some record →
        cleaned.node.transfers.getTransfer id = none → record.state.Over) := by
  have start : Cleaned host [] (fun _file => false) (NodeState.initial files)
      (NodeState.initial files) :=
    { same := rfl
      temporary := by
        intro file impossible
        cases impossible
      keys := TransferTable.textKeys_empty
      texts := by
        intro id impossible
        cases impossible
      ended := by
        intro id impossible
        cases impossible }
  obtain ⟨⟨gone, cleared, related⟩, replies⟩ := start.run
    (fun id impossible => by cases impossible) (fun file impossible => by cases impossible) away
  refine ⟨replies, related.files, ?_, ?_, related.activeTransfers,
    fun id record => related.records⟩
  · rw [related.same]
    rfl
  · rw [related.same]
    rfl

/-- Cleaning has left the place of the cancelled file as it would have been. -/
theorem Reference.cancelled_cleaned :
    (EventRun.run (NodeState.keepUp Reference.vendor Reference.host)
        (NodeState.initial Reference.temporaryFile) Reference.cleanedRun).node.files
          (ascii "/home/user/shr_received/notes.txt") =
      (EventRun.run (NodeState.keepUp Reference.vendor Reference.host)
        (NodeState.initial Reference.temporaryFile)
        (Reference.cleanedRun.filter fun event => !event.isClean)).node.files
          (ascii "/home/user/shr_received/notes.txt") := by
  obtain ⟨_replies, files, _rest⟩ := cleaning_is_invisible Reference.vendor Reference.host
    Reference.temporaryFile Reference.cleanedRun (Reference.cleanedRun_stayAway _)
  rcases files (ascii "/home/user/shr_received/notes.txt") with same | ⟨temporary, _gone⟩
  · exact same
  · exact absurd temporary (by decide)

end Shr
