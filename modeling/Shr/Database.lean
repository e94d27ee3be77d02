/-
The transfers table, after `database.cxx`.

A row is what the store keeps: text columns hold C strings, the state is a
text, and numbers are signed 64-bit integers.  `getTransfer` reads a row back
into a record, so every fact about a record below has gone through both
conversions.
-/

import Shr.Library.KeyedTable
import Shr.Types

namespace Shr

/-! ### Rows -/

structure TransferRow where
  id : Bytes
  peerId : Bytes
  filename : Bytes
  filepath : Bytes
  totalBytes : Int64
  transferredBytes : Int64
  state : Bytes
  checksum : Bytes
  createdAt : Int64
  updatedAt : Int64
  outbound : Int64
deriving DecidableEq

/-- The values `upsert_transfer` binds; text is bound up to its first NUL. -/
def bindTransfer (record : TransferRecord) : TransferRow :=
  { id := cstr record.id
    peerId := cstr record.peerId
    filename := cstr record.filename
    filepath := cstr record.filepath
    totalBytes := record.totalBytes.toInt64
    transferredBytes := record.transferredBytes.toInt64
    state := cstr (transferStateStr record.state)
    checksum := cstr record.checksum
    createdAt := record.createdAt
    updatedAt := record.updatedAt
    outbound := if record.outbound then 1 else 0 }

def stateOfText (text : Bytes) : TransferState :=
  if text = ascii "pending" then .pending
  else if text = ascii "in_progress" then .inProgress
  else if text = ascii "completed" then .completed
  else if text = ascii "failed" then .failed
  else if text = ascii "paused" then .paused
  else .cancelled

def rowToTransfer (row : TransferRow) : TransferRecord :=
  { id := row.id
    peerId := row.peerId
    filename := row.filename
    filepath := row.filepath
    totalBytes := row.totalBytes.toUInt64
    transferredBytes := row.transferredBytes.toUInt64
    state := stateOfText row.state
    checksum := row.checksum
    createdAt := row.createdAt
    updatedAt := row.updatedAt
    outbound := row.outbound ≠ 0 }

def TransferRecord.stored (record : TransferRecord) : TransferRecord :=
  { record with
    id := cstr record.id
    peerId := cstr record.peerId
    filename := cstr record.filename
    filepath := cstr record.filepath
    checksum := cstr record.checksum }

theorem stateOfText_transferStateStr (state : TransferState) :
    stateOfText (cstr (transferStateStr state)) = state := by
  cases state <;> decide

theorem rowToTransfer_bindTransfer (record : TransferRecord) :
    rowToTransfer (bindTransfer record) = record.stored := by
  cases record with
  | mk id peerId filename filepath totalBytes transferredBytes state checksum createdAt
      updatedAt outbound =>
      cases outbound <;>
        simp [rowToTransfer, bindTransfer, TransferRecord.stored, stateOfText_transferStateStr]

/-! ### Statements -/

/-- The transfers table, keyed by the text of the `id` column. -/
abbrev TransferTable := KeyedTable TransferRow.id

namespace TransferTable

def empty : TransferTable :=
  KeyedTable.empty

def upsertTransfer (table : TransferTable) (record : TransferRecord) : TransferTable :=
  table.replace (bindTransfer record)

def updateTransferProgress (table : TransferTable) (id : Bytes) (transferred : UInt64)
    (state : TransferState) (now : Int64) : TransferTable :=
  table.modify (cstr id)
    (fun row =>
      { row with
        transferredBytes := transferred.toInt64
        state := cstr (transferStateStr state)
        updatedAt := now })
    (fun _row => rfl)

def getTransfer (table : TransferTable) (id : Bytes) : Option TransferRecord :=
  (table.find (cstr id)).map rowToTransfer

/-- `WHERE state IN ('pending','in_progress','paused') ORDER BY created_at DESC` -/
def activeTransfers (table : TransferTable) : List TransferRecord :=
  ((table.rows.filter fun row =>
      row.state ∈ [ascii "pending", ascii "in_progress", ascii "paused"]).map
    rowToTransfer).mergeSort fun left right => right.createdAt ≤ left.createdAt

/-- `WHERE outbound=0 AND state IN ('pending','paused')` -/
def pendingInbound (table : TransferTable) : List TransferRecord :=
  (table.rows.filter fun row =>
    row.outbound = 0 ∧ row.state ∈ [ascii "pending", ascii "paused"]).map rowToTransfer

/-- `updated_at<? AND state IN ('completed','failed','cancelled')` -/
def isStale (cutoff : Int64) (row : TransferRow) : Bool :=
  row.updatedAt < cutoff ∧
    row.state ∈ [ascii "completed", ascii "failed", ascii "cancelled"]

def deleteStaleTransfers (table : TransferTable) (olderThanDays : Int32) (now : Int64) :
    TransferTable :=
  table.keep fun row => !isStale (now - olderThanDays.toInt64 * 86400) row

def addColumn (total value : Int64) : Option Int64 :=
  if Int64.minValue.toInt ≤ total.toInt + value.toInt ∧
      total.toInt + value.toInt ≤ Int64.maxValue.toInt then
    some (total + value)
  else none

/-- A partial sum out of range is an error of the statement. -/
def sumColumn (column : List Int64) : Option Int64 :=
  column.foldlM addColumn 0

/-- `WHERE outbound=0 AND state='completed'` -/
def receivedColumn (table : TransferTable) : List Int64 :=
  (table.rows.filter fun row => row.outbound = 0 ∧ row.state = ascii "completed").map
    TransferRow.transferredBytes

/-- No row and an error of the statement leave the total at 0. -/
def storageUsedBytes (table : TransferTable) : UInt64 :=
  ((sumColumn table.receivedColumn).getD 0).toUInt64

end TransferTable

def TransferRecord.progressed (record : TransferRecord) (transferred : UInt64)
    (state : TransferState) (now : Int64) : TransferRecord :=
  { record with
    transferredBytes := transferred
    state := state
    updatedAt := now }

section Progressed

variable (record : TransferRecord) (transferred : UInt64) (state : TransferState) (now : Int64)

@[simp] theorem TransferRecord.progressed_transferredBytes :
    (record.progressed transferred state now).transferredBytes = transferred :=
  rfl

end Progressed

namespace TransferTable

theorem getTransfer_cstr (table : TransferTable) {left right : Bytes}
    (same : cstr left = cstr right) : table.getTransfer left = table.getTransfer right := by
  unfold getTransfer
  rw [same]

@[simp] theorem getTransfer_empty (id : Bytes) : empty.getTransfer id = none :=
  rfl

theorem getTransfer_upsert_self (table : TransferTable) (record : TransferRecord) {id : Bytes}
    (same : cstr id = cstr record.id) :
    (table.upsertTransfer record).getTransfer id = some record.stored := by
  unfold getTransfer upsertTransfer
  have found := KeyedTable.find_replace_self table (bindTransfer record)
  have keyed : (bindTransfer record).id = cstr id := same.symm
  rw [keyed] at found
  rw [found, Option.map_some, rowToTransfer_bindTransfer]

theorem getTransfer_upsert_of_ne (table : TransferTable) (record : TransferRecord) {id : Bytes}
    (different : cstr id ≠ cstr record.id) :
    (table.upsertTransfer record).getTransfer id = table.getTransfer id := by
  unfold getTransfer upsertTransfer
  rw [KeyedTable.find_replace_of_ne table (bindTransfer record) different]

theorem getTransfer_update_self (table : TransferTable) {id wanted : Bytes}
    (transferred : UInt64) (state : TransferState) (now : Int64)
    (same : cstr wanted = cstr id) :
    (table.updateTransferProgress id transferred state now).getTransfer wanted =
      (table.getTransfer wanted).map fun record => record.progressed transferred state now := by
  unfold getTransfer updateTransferProgress
  rw [same, KeyedTable.find_modify_self, Option.map_map, Option.map_map]
  congr 1
  funext row
  simp [rowToTransfer, TransferRecord.progressed, stateOfText_transferStateStr]

theorem getTransfer_update_of_ne (table : TransferTable) {id wanted : Bytes}
    (transferred : UInt64) (state : TransferState) (now : Int64)
    (different : cstr wanted ≠ cstr id) :
    (table.updateTransferProgress id transferred state now).getTransfer wanted =
      table.getTransfer wanted := by
  unfold getTransfer updateTransferProgress
  rw [KeyedTable.find_modify_of_ne _ _ _ different]

theorem getTransfer_of_mem {table : TransferTable} {row : TransferRow}
    (member : row ∈ table.rows) (text : NulFree row.id) :
    table.getTransfer row.id = some (rowToTransfer row) := by
  unfold getTransfer
  rw [cstr_of_nulFree text, KeyedTable.find_of_mem member]
  rfl

theorem stateOfText_active {text : Bytes}
    (active : text ∈ [ascii "pending", ascii "in_progress", ascii "paused"]) :
    stateOfText text = .pending ∨ stateOfText text = .inProgress ∨
      stateOfText text = .paused := by
  rcases List.mem_cons.mp active with pending | active
  · rw [pending]
    exact .inl (by decide)
  · rcases List.mem_cons.mp active with inProgress | active
    · rw [inProgress]
      exact .inr (.inl (by decide))
    · rw [List.mem_singleton.mp active]
      exact .inr (.inr (by decide))

theorem mem_activeTransfers {table : TransferTable} {record : TransferRecord}
    (listed : record ∈ table.activeTransfers) :
    (∃ row ∈ table.rows, record = rowToTransfer row) ∧
      (record.state = .pending ∨ record.state = .inProgress ∨ record.state = .paused) := by
  unfold activeTransfers at listed
  rw [List.mem_mergeSort] at listed
  obtain ⟨row, member, rfl⟩ := List.mem_map.mp listed
  obtain ⟨stored, active⟩ := List.mem_filter.mp member
  rw [decide_eq_true_eq] at active
  exact ⟨⟨row, stored, rfl⟩, stateOfText_active active⟩

/-! ### Keys that are texts -/

def TextKeys (table : TransferTable) : Prop :=
  ∀ row ∈ table.rows, NulFree row.id

theorem textKeys_empty : empty.TextKeys := by
  intro row impossible
  cases impossible

theorem TextKeys.upsertTransfer {table : TransferTable} (text : table.TextKeys)
    (record : TransferRecord) : (table.upsertTransfer record).TextKeys := by
  intro row member
  rcases List.mem_append.mp member with old | stored
  · exact text row (List.mem_of_mem_filter old)
  · rw [List.mem_singleton.mp stored]
    exact cstr_nulFree _

theorem TextKeys.updateTransferProgress {table : TransferTable} (text : table.TextKeys)
    (id : Bytes) (transferred : UInt64) (state : TransferState) (now : Int64) :
    (table.updateTransferProgress id transferred state now).TextKeys := by
  intro row member
  obtain ⟨old, oldMember, rfl⟩ := List.mem_map.mp member
  have same := text old oldMember
  split
  · exact same
  · exact same

end TransferTable

end Shr
