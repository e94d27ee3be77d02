/-
The chunks of a call and the file they are cut from.

Where every chunk goes out and every reply comes in, the loop is left at the end
of the file alone.  The chunks up to there are the pages of what the stream
delivers from the offset the peer asked for.
-/

import Shr.Library.Paging
import Shr.Transfer.Acknowledged

namespace Shr

/-! ### Pieces -/

/-- The packets carry the pieces of the file from `start` on, cut behind every
`SHR_CHUNK_SIZE` bytes. -/
structure Partition (vendor : Vendor) (inputs : SendInputs) (contents : Bytes) (start : Nat)
    (packets : List Packet) (pieces : List Bytes) : Prop where
  carried : packets = pieces.mapIdx fun index data =>
    chunkPacket vendor inputs (UInt64.ofNat (start + index * shrChunkSize))
      (UInt64.ofNat ((start + index * shrChunkSize) / shrChunkSize)) data
  sizes : ∀ piece ∈ pieces, 1 ≤ piece.length ∧ piece.length ≤ shrChunkSize
  placed : ∀ index (inside : index < pieces.length),
    start + index * shrChunkSize + pieces[index].length ≤ contents.length ∧
      pieces[index] =
        (contents.drop (start + index * shrChunkSize)).take pieces[index].length
  onlyLastShort : ∀ index (inside : index < pieces.length),
    pieces[index].length < shrChunkSize → index + 1 = pieces.length
  joined : pieces.flatten = contents.drop start
  count : pieces.length = (contents.length - start + shrChunkSize - 1) / shrChunkSize

section Chunks

variable {contents : Bytes} {start : UInt64} {chunk : Nat}

theorem remainingFrom_eq_drop (bounded : contents.length < 2 ^ 63) :
    remainingFrom contents start = contents.drop start.toNat := by
  by_cases negative : 2 ^ 63 ≤ start.toNat
  · rw [remainingFrom_of_negative negative, List.drop_eq_nil_of_le (by omega)]
  · exact remainingFrom_eq (by omega)

theorem more_iff_length (bounded : contents.length < 2 ^ 63) :
    More contents start chunk ↔ start.toNat + chunk * shrChunkSize < contents.length := by
  unfold More
  rw [remainingFrom_eq_drop bounded, List.length_drop]
  omega

theorem chunkData_eq_page :
    chunkData contents start = Paging.page (remainingFrom contents start) shrChunkSize := by
  funext chunk
  rw [chunkData, Paging.page, Nat.mul_comm]

theorem chunkData_eq_drop (bounded : contents.length < 2 ^ 63) :
    chunkData contents start chunk =
      (contents.drop (start.toNat + chunk * shrChunkSize)).take shrChunkSize := by
  rw [chunkData, remainingFrom_eq_drop bounded, List.drop_drop]

theorem position_of_more (more : More contents start chunk) :
    position contents start chunk = UInt64.ofNat (start.toNat + chunk * shrChunkSize) := by
  rw [position, bytesBefore_of_more more, UInt64.ofNat_add, UInt64.ofNat_toNat]

/-- The index of a chunk is its offset in chunks, also where the start is no
multiple of the size. -/
theorem index_eq_div (start : UInt64) (chunk : Nat) :
    start / UInt64.ofNat shrChunkSize + UInt64.ofNat chunk =
      UInt64.ofNat ((start.toNat + chunk * shrChunkSize) / shrChunkSize) := by
  have positive := shrChunkSize_pos
  have size : (UInt64.ofNat shrChunkSize).toNat = shrChunkSize := by decide
  apply UInt64.toNat_inj.mp
  rw [Nat.add_mul_div_right _ _ positive, UInt64.ofNat_add, UInt64.toNat_add, UInt64.toNat_add,
    UInt64.toNat_div, size, UInt64.toNat_ofNat', UInt64.toNat_ofNat', Nat.mod_add_mod,
    Nat.add_mod_mod]

theorem pageCount_of_end (before : ∀ earlier < chunk, More contents start earlier)
    (finished : ¬More contents start chunk) :
    chunk = Paging.pageCount shrChunkSize (remainingFrom contents start).length := by
  have positive := shrChunkSize_pos
  rcases Nat.lt_trichotomy chunk
    (Paging.pageCount shrChunkSize (remainingFrom contents start).length) with
    fewer | same | further
  · have inside := Paging.le_of_lt_pageCount positive fewer
    rw [Nat.mul_comm] at inside
    exact absurd inside finished
  · exact same
  · have inside := before _ further
    have whole := Paging.length_le_pageCount positive (remainingFrom contents start).length
    unfold More at inside
    rw [Nat.mul_comm] at inside
    omega

theorem partition_of_end (vendor : Vendor) {call : SendCall}
    (bounded : call.contents.length < 2 ^ 63)
    (before : ∀ earlier < chunk, More call.contents start earlier)
    (finished : ¬More call.contents start chunk) :
    Partition vendor call.inputs call.contents start.toNat
      ((List.range chunk).map (nthChunk vendor call start))
      ((List.range chunk).map (chunkData call.contents start)) := by
  have remaining := @remainingFrom_eq_drop _ start bounded
  have count := pageCount_of_end before finished
  have length : ∀ index, (chunkData call.contents start index).length =
      min shrChunkSize (call.contents.length - (start.toNat + index * shrChunkSize)) := by
    intro index
    rw [chunkData_eq_drop bounded, List.length_take, List.length_drop]
  have inside : ∀ index, index < chunk →
      start.toNat + index * shrChunkSize < call.contents.length := by
    intro index earlier
    exact (more_iff_length bounded).mp (before index earlier)
  constructor
  case carried =>
    apply List.ext_getElem
    · rw [List.length_mapIdx, List.length_map, List.length_map]
    · intro index earlier _inPieces
      rw [List.length_map, List.length_range] at earlier
      rw [List.getElem_mapIdx, List.getElem_map, List.getElem_map, List.getElem_range, nthChunk,
        position_of_more (before index earlier), index_eq_div]
  case sizes =>
    intro piece member
    obtain ⟨index, earlier, rfl⟩ := List.mem_map.mp member
    have below := inside index (List.mem_range.mp earlier)
    have positive := shrChunkSize_pos
    rw [length]
    omega
  case placed =>
    intro index earlier
    rw [List.length_map, List.length_range] at earlier
    have below := inside index earlier
    rw [List.getElem_map, List.getElem_range]
    refine ⟨?_, ?_⟩
    · rw [length]
      omega
    · rw [chunkData_eq_drop bounded, List.length_take, List.take_eq_take_iff, List.length_drop]
      omega
  case onlyLastShort =>
    intro index earlier short
    rw [List.length_map, List.length_range] at earlier ⊢
    rw [List.getElem_map, List.getElem_range, length] at short
    -- A further chunk would begin behind the end.
    by_contra notLast
    have next := inside (index + 1) (by omega)
    rw [Nat.succ_mul] at next
    omega
  case joined =>
    have whole := Paging.length_le_pageCount shrChunkSize_pos
      (remainingFrom call.contents start).length
    rw [chunkData_eq_page, ← List.flatMap_def, Paging.flatMap_page, count, ← remaining]
    exact List.take_of_length_le whole
  case count =>
    rw [List.length_map, List.length_range, count, remaining, List.length_drop]
    rfl

end Chunks

/-- Where every chunk is sent and every reply arrives, the chunks partition the
file from the offset the peer asked for, and the call comes to its end. -/
theorem send_loop_partitions {vendor : Vendor} {call : SendCall} {node : Node} {fate : Fate}
    {resp : Packet} (answered : Answered call.inputs call.absPath call.peer node fate resp)
    (unrejected : resp.type ≠ .fileReject) (bounded : call.contents.length < 2 ^ 63)
    (smooth : ∀ chunk, More call.contents (answerOffset vendor resp) chunk →
      fate.Sends chunk ∧ fate.ack chunk ≠ none) :
    (fate.sendFile vendor call.inputs node).1 = call.inputs.xferId ∧
      ∃ pieces, Partition vendor call.inputs call.contents (answerOffset vendor resp).toNat
        (fate.sendFile vendor call.inputs node).2.chunksSent pieces := by
  rcases answered.ends unrejected vendor with
    ⟨chunk, gives, _failed⟩ | ⟨acked, sent, completes, succeeded, chunksSent⟩
  · exact absurd (smooth chunk gives.1).1 gives.2.1
  · refine ⟨succeeded, ?_⟩
    obtain ⟨passed, ⟨rfl, finished⟩ | ⟨_sent, more, _sends, silent⟩⟩ := completes
    · rw [chunksSent]
      exact ⟨_, partition_of_end vendor bounded (fun earlier before => (passed earlier before).1)
        finished⟩
    · exact absurd silent (smooth acked more).2

namespace Reference

def twoChunkCall : SendCall :=
  sendCall (List.replicate (shrChunkSize + 1) 0) fun _index => 0

theorem twoChunk_length : twoChunkCall.contents.length = shrChunkSize + 1 :=
  List.length_replicate

theorem twoChunk_answers :
    Answered twoChunkCall.inputs twoChunkCall.absPath twoChunkCall.peer freshNode
      acknowledgingFate { type := .fileAccept, payload := [] } where
  sendable := twoChunkCall.sendable
  free := by decide
  connected := rfl
  answered := rfl

theorem two_chunks_partitioned :
    ∃ pieces, Partition vendor twoChunkCall.inputs twoChunkCall.contents 0
        (acknowledgingFate.sendFile vendor twoChunkCall.inputs freshNode).2.chunksSent pieces ∧
      pieces.length = 2 := by
  have bounded : twoChunkCall.contents.length < 2 ^ 63 := by
    rw [twoChunk_length]
    decide
  obtain ⟨_returned, pieces, partition⟩ :=
    @send_loop_partitions vendor _ _ _ _ twoChunk_answers nofun bounded
      fun _chunk _more => ⟨⟨0, by decide, rfl⟩, Option.some_ne_none _⟩
  refine ⟨pieces, partition, ?_⟩
  have count := partition.count
  rw [twoChunk_length] at count
  exact count

end Reference

end Shr
