/-
What one call of `handle_file_chunk` leaves.

The call returns before its first effect or acknowledges at its end.  In between
it looks at neither the stream it has written to nor the result of the update.
-/

import Shr.Reference

namespace Shr

/-! ### Outcomes -/

def FileChunk.bytes (vendor : Vendor) (chunk : FileChunk) : Bytes :=
  vendor.base64Decode chunk.b64data

def FileChunk.progress (vendor : Vendor) (chunk : FileChunk) : UInt64 :=
  newTransferred chunk.offset (chunk.bytes vendor)

def FileChunk.base (previous : Option Bytes) (chunk : FileChunk) : Bytes :=
  if chunk.offset = 0 then [] else previous.getD []

/-- The whole chunk is in the file, its progress is recorded and acknowledged. -/
structure AppliedWhole (vendor : Vendor) (host : Host) (payload : Bytes) (before : Node)
    (after : Handled) (chunk : FileChunk) (record : TransferRecord) : Prop where
  decoded : readFileChunk vendor payload = some chunk
  found : before.transfers.getTransfer chunk.xferId = some record
  written : after.node.read host record.filepath =
    some (chunk.base (before.read host record.filepath) ++ chunk.bytes vendor)
  recorded : ∃ stored, after.node.transfers.getTransfer chunk.xferId = some stored ∧
    stored.transferredBytes = chunk.progress vendor ∧ stored.state = .inProgress
  acknowledged : after.replies = [ackPacket vendor chunk.xferId (chunk.progress vendor)]

/-- Files and records are as they were, and nothing is acknowledged. -/
structure Untouched (before : Node) (after : Handled) : Prop where
  files : after.node.files = before.files
  transfers : after.node.transfers = before.transfers
  silent : ∀ reply ∈ after.replies, reply.type ≠ .fileChunkAck

def AppliedOrUntouched (vendor : Vendor) (host : Host) (payload : Bytes) (before : Node)
    (after : Handled) : Prop :=
  (∃ chunk record, AppliedWhole vendor host payload before after chunk record) ∨
    Untouched before after

/-- The write and the update of a chunk take effect: every byte is written, and
the record gets the progress or has it already. -/
structure TakesEffect (vendor : Vendor) (arrival : Arrival) (chunk : FileChunk)
    (record : TransferRecord) : Prop where
  written : chunk.bytes vendor = [] ∨ (¬chunk.offset.toInt64 < 0 ∧
    (chunk.bytes vendor).length ≤ arrival.wrote.getD (chunk.bytes vendor).length)
  recorded : arrival.stores = true ∨
    (record.transferredBytes = chunk.progress vendor ∧ record.state = .inProgress)

section Outcomes

variable {vendor : Vendor} {host : Host} {arrival : Arrival} {payload : Bytes} {node : Node}
variable {chunk : FileChunk} {record : TransferRecord}

/-- The whole chunk is written exactly when the position is in the signed range
and no byte is left out, or there is none. -/
theorem chunkedContent_whole_iff (previous : Option Bytes) (offset : UInt64) (data : Bytes)
    (count : Nat) :
    chunkedContent previous offset (data.take count) =
        (if offset = 0 then [] else previous.getD []) ++ data ↔
      data = [] ∨ (¬offset.toInt64 < 0 ∧ data.length ≤ count) := by
  have taken : data.take count = data ↔ data.length ≤ count := by
    constructor
    · intro whole
      have length := congrArg List.length whole
      rw [List.length_take] at length
      omega
    · exact List.take_of_length_le
  unfold chunkedContent
  by_cases negative : offset.toInt64 < 0
  · simp [negative]
  · simp only [negative, if_false, List.append_cancel_left_eq, taken, not_false_iff, true_and]
    constructor
    · exact .inr
    · intro fits
      rcases fits with empty | inside
      · rw [empty]
        exact Nat.zero_le count
      · exact inside

theorem recorded_iff (found : node.transfers.getTransfer chunk.xferId = some record)
    (content : Bytes) (transferred : UInt64) :
    (∃ stored, ((node.write host record.filepath content).update arrival chunk.xferId transferred
        .inProgress).transfers.getTransfer chunk.xferId = some stored ∧
          stored.transferredBytes = transferred ∧ stored.state = .inProgress) ↔
      arrival.stores = true ∨
        (record.transferredBytes = transferred ∧ record.state = .inProgress) := by
  cases stores : arrival.stores with
  | true =>
      rw [Node.getTransfer_update_self _ _ _ _ stores rfl, Node.write_transfers, found]
      exact iff_of_true ⟨_, rfl, rfl, rfl⟩ (.inl rfl)
  | false =>
      have unstored : ((node.write host record.filepath content).update arrival chunk.xferId
          transferred .inProgress).transfers = node.transfers := by
        simp [Node.update, stores]
      rw [unstored, found]
      simp

theorem appliedWhole_iff (applies : ChunkApplies vendor arrival payload node chunk record) :
    AppliedWhole vendor host payload node (appliedChunk vendor host arrival node chunk record)
        chunk record ↔
      TakesEffect vendor arrival chunk record := by
  have written : (appliedChunk vendor host arrival node chunk record).node.read host
        record.filepath =
      some (chunkedContent (node.read host record.filepath) chunk.offset
        ((chunk.bytes vendor).take (arrival.wrote.getD (chunk.bytes vendor).length))) :=
    @Node.read_write_same host node _ _ _ rfl
  have whole := chunkedContent_whole_iff (node.read host record.filepath) chunk.offset
    (chunk.bytes vendor) (arrival.wrote.getD (chunk.bytes vendor).length)
  have recorded := @recorded_iff host arrival node chunk record applies.found
  constructor
  · intro applied
    refine ⟨whole.mp ?_, (recorded _ _).mp applied.recorded⟩
    exact Option.some.inj (written.symm.trans applied.written)
  · intro effect
    refine ⟨applies.decoded, applies.found, ?_, (recorded _ _).mpr effect.recorded, rfl⟩
    rw [written, whole.mpr effect.written]
    rfl

theorem appliedChunk_touches :
    ¬Untouched node (appliedChunk vendor host arrival node chunk record) := by
  intro untouched
  exact untouched.silent _ (List.mem_singleton_self _) rfl

theorem chunk_unique {other : FileChunk} {stored : TransferRecord}
    (decoded : readFileChunk vendor payload = some chunk)
    (found : node.transfers.getTransfer chunk.xferId = some record)
    (otherDecoded : readFileChunk vendor payload = some other)
    (otherFound : node.transfers.getTransfer other.xferId = some stored) :
    other = chunk ∧ stored = record := by
  have sameChunk : other = chunk := Option.some.inj (otherDecoded.symm.trans decoded)
  rw [sameChunk] at otherFound
  exact ⟨sameChunk, Option.some.inj (otherFound.symm.trans found)⟩

theorem takesEffect_of_outcome (applies : ChunkApplies vendor arrival payload node chunk record)
    (outcome : AppliedOrUntouched vendor host payload node
      (handleFileChunk vendor host arrival payload node)) :
    TakesEffect vendor arrival chunk record := by
  rw [handleFileChunk_applied applies] at outcome
  rcases outcome with ⟨other, stored, applied⟩ | untouched
  · obtain ⟨sameChunk, sameRecord⟩ :=
      chunk_unique applies.decoded applies.found applied.decoded applied.found
    subst sameChunk sameRecord
    exact (appliedWhole_iff applies).mp applied
  · exact absurd untouched appliedChunk_touches

end Outcomes

/-- A chunk is applied and acknowledged or leaves no trace exactly when, once it
is acted on, its write and its update take effect. -/
theorem applied_or_untouched_iff (vendor : Vendor) (host : Host) (arrival : Arrival)
    (payload : Bytes) (node : Node) :
    AppliedOrUntouched vendor host payload node
        (handleFileChunk vendor host arrival payload node) ↔
      ∀ chunk record, ChunkApplies vendor arrival payload node chunk record →
        TakesEffect vendor arrival chunk record := by
  constructor
  · intro outcome chunk record applies
    exact takesEffect_of_outcome applies outcome
  · intro effective
    rcases handleFileChunk_cases arrival payload node with
      ⟨_ignored, handled⟩ | ⟨chunk, record, applies, handled⟩
    · rw [handled]
      refine .inr ⟨rfl, rfl, ?_⟩
      intro reply member
      cases member
    · rw [handled]
      exact .inl ⟨chunk, record, (appliedWhole_iff applies).mpr (effective chunk record applies)⟩

namespace Reference

def fullDisk : Arrival :=
  { arrival with wrote := some 0 }

def letterPayload : Bytes :=
  vendor.toCbor (chunkFields (chunkOf vendor receivedOffer.xferId 0 (ascii "x")) 0 1)

/-- The only byte of a file is lost, and the chunk is acknowledged. -/
theorem lost_byte_acknowledged :
    ¬∀ (vendor : Vendor) (host : Host) (arrival : Arrival) (payload : Bytes) (node : Node),
      AppliedOrUntouched vendor host payload node
        (handleFileChunk vendor host arrival payload node) := by
  intro always
  have applies : ChunkApplies vendor fullDisk letterPayload offeredState.node
      (chunkOf vendor receivedOffer.xferId 0 (ascii "x"))
      (offeredRecord host arrival receivedOffer).stored := by
    constructor
    · exact readFileChunk_toCbor vendor _ _ _
    · exact congrArg (sha256Bytes vendor) (vendor.base64Decode_encode (ascii "x"))
    · exact offeredState_record
    · rfl
    · decide
  have effect := takesEffect_of_outcome applies
    (always vendor host fullDisk letterPayload offeredState.node)
  have bytes : (chunkOf vendor receivedOffer.xferId 0 (ascii "x")).bytes vendor = ascii "x" :=
    vendor.base64Decode_encode (ascii "x")
  have written := effect.written
  rw [bytes] at written
  rcases written with empty | ⟨_inRange, whole⟩
  · cases empty
  · exact absurd whole (Nat.not_succ_le_zero 0)

end Reference

end Shr
