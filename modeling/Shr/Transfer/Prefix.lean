/-
The receiver holds a beginning of the file, at most one chunk ahead.

Whenever the receiver is not inside a handler, and as long as its file and database
calls succeed, the two records of a transfer under a new id differ by one chunk at
most, and the file of the receiver is as much of the sender's as its record says.
Only completion sets the receiver's count without writing; there the digest vouches
for the file.  Inside the handler of a chunk the record can be ahead of the file.
-/

import Shr.Transfer.Concurrent
import Shr.Transfer.Resumption

namespace Shr

namespace Exchange

section Prefix

variable {vendor : Vendor} {host : Host} {exchange : Exchange vendor host}

/-! ### How far the two sides can be apart -/

variable {point : Point} {received : Progress} {link : Link}

/-- The receiver's record counts the chunks that have arrived, until completion sets it
to the size. -/
def Counted (exchange : Exchange vendor host) (node : Node) : Progress → Prop
  | .nothing => True
  | .offered chunks => ∀ record, node.transfers.getTransfer exchange.id = some record →
      record.transferredBytes = exchange.bytesAt chunks
  | .finished chunks => ∀ record, node.transfers.getTransfer exchange.id = some record →
      record.state = .failed → record.transferredBytes = exchange.bytesAt chunks

section Counting

variable {node : Node} {arrival : Arrival}

theorem Stored.of_updated {earlier record : TransferRecord} (stored : exchange.Stored node earlier)
    (sound : arrival.Sound) {transferred : UInt64} {state : TransferState}
    (found : (node.update arrival exchange.id transferred state).transfers.getTransfer
      exchange.id = some record) :
    record = earlier.progressed transferred state arrival.updatedAt :=
  Option.some.inj (found.symm.trans (stored.update sound.stores transferred state).found)

theorem counted_offer (sound : arrival.Sound) (before : exchange.Received .nothing node) :
    exchange.Counted (handleTransferPacket vendor host arrival exchange.offer node).node
      (.offered 0) := by
  intro record found
  have begun : exchange.bytesAt 0 = exchange.offset := position_zero
  have decoded := readFileOffer_offer exchange arrival
  have same := paused_of_nothing before
  rw [handleTransferPacket_offer rfl] at found
  rw [begun]
  cases paused : exchange.paused with
  | none =>
      rw [handleFileOffer_stored sound.stores decoded (same.trans paused)] at found
      cases (TransferTable.getTransfer_upsert_self _ _ rfl).symm.trans found
      simp only [offset, paused, Option.elim_none]
      rfl
  | some resumed =>
      rw [handleFileOffer_resumed decoded (same.trans paused)] at found
      obtain ⟨present, _isPaused⟩ := pausedRecord_eq_some.mp (same.trans paused)
      cases present.symm.trans found
      simp only [offset, paused, Option.elim_some]

theorem counted_chunk (sound : arrival.Sound) {index : Nat}
    (before : exchange.Received (.offered index) node) :
    exchange.Counted (handleTransferPacket vendor host arrival (exchange.chunk index) node).node
      (.offered (index + 1)) := by
  obtain ⟨earlier, stored, _unfinished⟩ := before.record
  have namesFile : namesFile earlier.filepath = true := by
    rw [stored.filepath]
    exact namesFile_path
  intro record found
  rw [handleTransferPacket_chunk rfl, handleFileChunk_whole sound.opens (sound.written _)
    readFileChunk_chunk stored.found namesFile, newTransferred_bytesAt] at found
  rw [(stored.write _ _).of_updated sound found]
  rfl

theorem counted_complete (sound : arrival.Sound) {chunks : Nat}
    (before : exchange.Received (.offered chunks) node)
    (counted : exchange.Counted node (.offered chunks)) :
    exchange.Counted (handleTransferPacket vendor host arrival exchange.complete node).node
      (.finished chunks) := by
  obtain ⟨earlier, stored, _unfinished⟩ := before.record
  intro record found failed
  rw [handleTransferPacket_complete rfl] at found
  by_cases verified :
      sha256File vendor (node.read host earlier.filepath) = exchange.call.inputs.checksum
  · rw [handleFileComplete_verified (readFileComplete_complete exchange) stored.found verified]
      at found
    rw [stored.of_updated sound found] at failed
    cases failed
  · rw [handleFileComplete_mismatch (readFileComplete_complete exchange) stored.found verified]
      at found
    rw [stored.of_updated sound found]
    exact counted earlier stored.found

theorem Sends.counted {before after : Progress} {packet : Packet}
    (sends : exchange.Sends before packet after) (sound : arrival.Sound)
    (received : exchange.Received before node) (counted : exchange.Counted node before) :
    exchange.Counted (handleTransferPacket vendor host arrival packet node).node after := by
  cases sends with
  | offer => exact counted_offer sound received
  | chunk index more => exact counted_chunk sound received
  | complete chunks => exact counted_complete sound received counted

theorem Receives.counted {before after : Link} {event : LinkEvent} {further : Progress}
    (receives : exchange.Receives before after event received further) (sound : event.Sound)
    (holds : exchange.Received received before.receiverNode)
    (counted : exchange.Counted before.receiverNode received) :
    exchange.Counted after.receiverNode further := by
  cases receives with
  | handles sends node =>
      rw [node]
      exact sends.counted sound holds counted
  | elsewhere elsewhere =>
      have same := elsewhere.record
      cases received with
      | nothing => trivial
      | offered chunks => exact fun record found => counted record (same ▸ found)
      | finished chunks => exact fun record found => counted record (same ▸ found)

end Counting

theorem Reaches.counted (reaches : exchange.Reaches link) :
    ∃ point received, exchange.Holds point received link ∧
      exchange.Counted link.receiverNode received := by
  obtain ⟨events, run⟩ := reaches
  have kept : ∀ before event after,
      (∃ point received, exchange.Holds point received before ∧
        exchange.Counted before.receiverNode received) →
      exchange.Step before event after →
      ∃ point received, exchange.Holds point received after ∧
        exchange.Counted after.receiverNode received := by
    rintro before event after ⟨point, received, holds, counted⟩ step
    obtain ⟨next, further, holdsAfter, receives⟩ :=
      holds.step step.1 (taken_of_sound step.2)
    exact ⟨next, further, holdsAfter, receives.counted step.2 holds.received counted⟩
  exact run.invariant kept ⟨_, _, holds_opening, trivial⟩

/-! ### What completion counts -/

end Prefix

end Exchange

/-! ### Every moment -/

namespace Exchange

section Inside

variable {vendor : Vendor} {host : Host} {exchange : Exchange vendor host} {link : Link}

theorem Quiet.offered {start : UInt64} {chunk left : Nat}
    (quiet : exchange.Quiet (.sendChunk start chunk left) link) :
    exchange.Holds (.sendChunk start chunk left) (.offered chunk) link := by
  obtain ⟨received, holds⟩ := quiet.holds
  have outward := holds.outward.whole quiet.up
  have behind := holds.behind
  rw [quiet.handled] at outward
  have allReceived := List.drop_eq_nil_iff.mp outward.symm
  cases received with
  | nothing => cases allReceived
  | offered few =>
      rw [Point.progress, length_packets_offered, length_packets_offered] at allReceived
      have same : few = chunk := Nat.le_antisymm behind (Nat.le_of_succ_le_succ allReceived)
      rw [← same] at holds ⊢
      exact holds
  | finished few => cases behind

/-- A chunk at the start of the file is recorded before its bytes are there. -/
theorem Stored.midway {node : Node} {record : TransferRecord}
    (stored : exchange.Stored node record) {arrival : Arrival} (sound : arrival.Sound) {index : Nat}
    (first : exchange.bytesAt index = 0) :
    (Handling.program vendor host ⟨arrival, true, exchange.chunk index⟩).midway
        (answerHandler host) 3 node =
      (node.write host record.filepath []).update arrival exchange.id
        (exchange.bytesAt (index + 1)) .inProgress := by
  have namesFile : namesFile record.filepath = true := by
    rw [stored.filepath]
    exact namesFile_path
  have empties : openedContent (node.read host record.filepath)
      (decide (exchange.bytesAt index = 0)) = [] := by
    rw [first]
    rfl
  rw [Handling.program_chunk _ _ _ rfl,
    midway_chunkProgram sound readFileChunk_chunk stored.found namesFile, newTransferred_bytesAt,
    empties]

end Inside

end Exchange

namespace Reference

end Reference

end Shr
