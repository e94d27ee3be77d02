/-
Chunks out of order.

A chunk of offset 0 truncates the file, and every other chunk is written to its
end: the stream is opened with `app`, for which the position the handler seeks
to does not count.  What chunks leave is therefore the data of those since the
last one of offset 0, in the order in which they came.
-/

import Shr.Reference

namespace Shr

/-! ### Pieces of a file -/

structure Piece (contents : Bytes) where
  offset : Nat
  size : Nat
  positive : 0 < size
  inside : offset + size ≤ contents.length

section Pieces

variable {contents : Bytes}

def Piece.data (piece : Piece contents) : Bytes :=
  (contents.drop piece.offset).take piece.size

def Covers (pieces : List (Piece contents)) : Prop :=
  ∀ index < contents.length, ∃ piece ∈ pieces,
    piece.offset ≤ index ∧ index < piece.offset + piece.size

def restarts (pieces : List (Piece contents)) : Bool :=
  pieces.any fun piece => piece.offset = 0

/-- The pieces from the last one of offset 0 on; all of them without one. -/
def sinceStart : List (Piece contents) → List (Piece contents)
  | [] => []
  | piece :: rest => if restarts rest then sinceStart rest else piece :: rest

/-- What writing a piece at the end, or over all if it is the first, leaves. -/
def writePiece (previous : Option Bytes) (piece : Piece contents) : Option Bytes :=
  some ((if piece.offset = 0 then [] else previous.getD []) ++ piece.data)

theorem sinceStart_of_not_restarts {pieces : List (Piece contents)}
    (append : restarts pieces = false) : sinceStart pieces = pieces := by
  cases pieces with
  | nil => rfl
  | cons piece rest =>
      have appendRest : restarts rest = false := by
        simp only [restarts, List.any_cons, Bool.or_eq_false_iff] at append
        exact append.2
      rw [sinceStart, appendRest, if_neg Bool.false_ne_true]

/-- Writing pieces one after the other joins those since the last start. -/
theorem foldl_writePiece (previous : Option Bytes) {pieces : List (Piece contents)}
    (some_piece : pieces ≠ []) :
    pieces.foldl writePiece previous =
      some ((if restarts pieces then [] else previous.getD []) ++
        (sinceStart pieces).flatMap Piece.data) := by
  induction pieces generalizing previous with
  | nil => exact absurd rfl some_piece
  | cons piece rest ih =>
      by_cases last : rest = []
      · subst last
        simp [writePiece, restarts, sinceStart]
      · rw [List.foldl_cons, ih (writePiece previous piece) last]
        have restartsCons : restarts (piece :: rest) =
            (decide (piece.offset = 0) || restarts rest) := rfl
        cases again : restarts rest with
        | true =>
            rw [restartsCons, again, Bool.or_true, sinceStart, again]
            rfl
        | false =>
            rw [sinceStart_of_not_restarts again, restartsCons, again, Bool.or_false,
              sinceStart, again, if_neg Bool.false_ne_true, if_neg Bool.false_ne_true]
            simp only [writePiece, Option.getD_some, List.flatMap_cons, List.append_assoc,
              decide_eq_true_eq]

end Pieces

/-! ### Chunks that carry them -/

/-- An intact chunk of the transfer, in a call whose operations succeed. -/
def CarriesPiece (vendor : Vendor) (id : Bytes) {contents : Bytes} (piece : Piece contents) :
    NodeEvent → Prop
  | .packet arrival packet =>
      arrival.Sound ∧ packet.type = .fileChunk ∧ ∃ chunk,
        readFileChunk vendor packet.payload = some chunk ∧
          cstr id = cstr chunk.xferId ∧
          chunk.offset = UInt64.ofNat piece.offset ∧
          vendor.base64Decode chunk.b64data = piece.data ∧
          chunk.checksum = sha256Bytes vendor piece.data
  | _ => False

def RecordAt (id path : Bytes) (state : NodeState) : Prop :=
  ∃ record, state.node.transfers.getTransfer id = some record ∧ record.filepath = path

section Chunks

variable {vendor : Vendor} {host : Host} {id path contents : Bytes}

theorem RecordAt.step {state : NodeState} (recordAt : RecordAt id path state)
    {arrival : Arrival} {packet : Packet} (type : packet.type = .fileChunk) :
    RecordAt id path (state.step vendor host (.packet arrival packet)) := by
  obtain ⟨record, found, here⟩ := recordAt
  rcases @step_record vendor host state (.packet arrival packet) id with
    ⟨write, writes, written⟩ | ⟨_unwritten, unchanged⟩
  · cases writes with
    | chunk _type applies stores same =>
        rw [found] at written
        exact ⟨_, written, here⟩
    | offer otherType decoded notPaused stores same => simp [type] at otherType
    | complete otherType decoded foundOther verified stores same => simp [type] at otherType
    | mismatch otherType decoded foundOther differs stores same => simp [type] at otherType
  · exact ⟨record, unchanged.trans found, here⟩

theorem file_after_piece {state : NodeState} (recordAt : RecordAt id path state)
    (file : namesFile path = true) (bounded : contents.length < 2 ^ 63)
    {piece : Piece contents} {arrival : Arrival} {packet : Packet}
    (carries : CarriesPiece vendor id piece (.packet arrival packet)) :
    (state.step vendor host (.packet arrival packet)).node.read host path =
      writePiece (state.node.read host path) piece := by
  obtain ⟨record, found, rfl⟩ := recordAt
  obtain ⟨sound, type, chunk, decoded, own, offset, data, checksum⟩ := carries
  have applies : ChunkApplies vendor arrival packet.payload state.node chunk record := by
    constructor
    · exact decoded
    · rw [data, checksum]
    · rw [← TransferTable.getTransfer_cstr _ own]
      exact found
    · exact sound.opens
    · exact file
  have inside := piece.inside
  simp only [NodeState.step]
  rw [handleTransferPacket_chunk type, handleFileChunk_applied applies]
  simp only [appliedChunk, Node.read_update, data, sound.wrote, Option.getD_none,
    List.take_length, offset]
  rw [Node.read_write_same host state.node _ rfl, chunkedContent_ofNat _ (by omega)]
  rfl

theorem no_file_after_piece {state : NodeState} (recordAt : RecordAt id path state)
    (noFile : namesFile path = false) {piece : Piece contents} {arrival : Arrival}
    {packet : Packet} (carries : CarriesPiece vendor id piece (.packet arrival packet)) :
    (state.step vendor host (.packet arrival packet)).node.read host path =
      state.node.read host path := by
  apply step_file
  rintro ⟨_type, chunk, record, applies, _shared⟩
  obtain ⟨own, found, here⟩ := recordAt
  obtain ⟨_sound, _type, carried, decoded, same, _fields⟩ := carries
  have sameChunk : chunk = carried := Option.some.inj (applies.decoded.symm.trans decoded)
  subst sameChunk
  rw [TransferTable.getTransfer_cstr _ same, applies.found] at found
  cases found
  have opened := applies.namesFile
  rw [here, noFile] at opened
  cases opened

theorem CarriesPiece.type {piece : Piece contents} {arrival : Arrival} {packet : Packet}
    (carries : CarriesPiece vendor id piece (.packet arrival packet)) :
    packet.type = .fileChunk :=
  carries.2.1

theorem file_after_pieces (file : namesFile path = true) (bounded : contents.length < 2 ^ 63)
    {pieces : List (Piece contents)} {events : List NodeEvent}
    (carried : List.Forall₂ (CarriesPiece vendor id) pieces events) {state : NodeState}
    (recordAt : RecordAt id path state) :
    (state.run vendor host events).node.read host path =
      pieces.foldl writePiece (state.node.read host path) := by
  induction carried generalizing state with
  | nil => rfl
  | @cons piece event pieces events carries _rest ih =>
      cases event with
      | packet arrival packet =>
          rw [List.foldl_cons, ← file_after_piece recordAt file bounded carries]
          exact ih (recordAt.step carries.type)
      | cancel cancelled now => exact absurd carries not_false
      | launch inputs => exact absurd carries not_false
      | advance index answer => exact absurd carries not_false

theorem no_file_after_pieces (noFile : namesFile path = false)
    {pieces : List (Piece contents)} {events : List NodeEvent}
    (carried : List.Forall₂ (CarriesPiece vendor id) pieces events) {state : NodeState}
    (recordAt : RecordAt id path state) :
    (state.run vendor host events).node.read host path = state.node.read host path := by
  induction carried generalizing state with
  | nil => rfl
  | @cons piece event pieces events carries _rest ih =>
      cases event with
      | packet arrival packet =>
          rw [← @no_file_after_piece vendor host id path contents state recordAt noFile piece
            arrival packet carries]
          exact ih (recordAt.step carries.type)
      | cancel cancelled now => exact absurd carries not_false
      | launch inputs => exact absurd carries not_false
      | advance index answer => exact absurd carries not_false

end Chunks

/-- The chunks of a file, in any order and with any repetitions, leave that
file in a destination that was empty exactly when the chunks since the last one
of offset 0 follow each other as the file does. -/
theorem chunks_leave_file_iff (vendor : Vendor) (host : Host) {state : NodeState} {id : Bytes}
    {record : TransferRecord} (found : state.node.transfers.getTransfer id = some record)
    (absent : state.node.read host record.filepath = none)
    {contents : Bytes} (bounded : contents.length < 2 ^ 63)
    {pieces : List (Piece contents)} {events : List NodeEvent}
    (carried : List.Forall₂ (CarriesPiece vendor id) pieces events) :
    (state.run vendor host events).node.read host record.filepath = some contents ↔
      namesFile record.filepath = true ∧ pieces ≠ [] ∧
        (sinceStart pieces).flatMap Piece.data = contents := by
  have recordAt : RecordAt id record.filepath state := ⟨record, found, rfl⟩
  cases file : namesFile record.filepath with
  | false =>
      rw [no_file_after_pieces file carried recordAt, absent]
      simp
  | true =>
      rw [file_after_pieces file bounded carried recordAt, absent]
      by_cases none_carried : pieces = []
      · simp [none_carried]
      · rw [foldl_writePiece none none_carried]
        simp [none_carried]

namespace Reference

def letters : Bytes :=
  ascii "ab"

def firstLetter : Piece letters :=
  { offset := 0
    size := 1
    positive := by decide
    inside := by decide }

def secondLetter : Piece letters :=
  { offset := 1
    size := 1
    positive := by decide
    inside := by decide }

def letterArrives (piece : Piece letters) : NodeEvent :=
  chunkArrives receivedOffer.xferId (UInt64.ofNat piece.offset) piece.data

theorem letterArrives_carries (piece : Piece letters) :
    CarriesPiece vendor receivedOffer.xferId piece (letterArrives piece) := by
  refine ⟨arrival_sound, rfl, _, readFileChunk_toCbor vendor _ _ _, rfl, rfl, ?_, rfl⟩
  exact vendor.base64Decode_encode piece.data

theorem letters_carried (pieces : List (Piece letters)) :
    List.Forall₂ (CarriesPiece vendor receivedOffer.xferId) pieces
      (pieces.map letterArrives) := by
  induction pieces with
  | nil => exact .nil
  | cons piece rest ih => exact .cons (letterArrives_carries piece) ih

/-- The second chunk of a file of two bytes is repeated, and the file has
three. -/
theorem repeated_chunk_appended :
    Covers [firstLetter, secondLetter, secondLetter] ∧
      List.Forall₂ (CarriesPiece vendor receivedOffer.xferId)
        [firstLetter, secondLetter, secondLetter]
        ([firstLetter, secondLetter, secondLetter].map letterArrives) ∧
      offeredState.node.read host (offeredRecord host arrival receivedOffer).stored.filepath =
        none ∧
      (offeredState.run vendor host
          ([firstLetter, secondLetter, secondLetter].map letterArrives)).node.read host
            (offeredRecord host arrival receivedOffer).stored.filepath ≠ some letters := by
  refine ⟨?_, letters_carried _, ?_, ?_⟩
  · intro index inside
    have shape : index = 0 ∨ index = 1 := by
      have length : letters.length = 2 := rfl
      omega
    rcases shape with rfl | rfl
    · exact ⟨firstLetter, by simp, by decide, by decide⟩
    · exact ⟨secondLetter, by simp, by decide, by decide⟩
  · rw [offeredState, step_file]
    · rfl
    · rintro ⟨impossible, _chunk⟩
      cases impossible
  · rw [file_after_pieces (by decide) (by decide) (letters_carried _)
      ⟨_, offeredState_record, rfl⟩]
    intro same
    cases same

/-- In their order the chunks leave the file. -/
theorem letters_in_order :
    (offeredState.run vendor host ([firstLetter, secondLetter].map letterArrives)).node.read
      host (offeredRecord host arrival receivedOffer).stored.filepath = some letters := by
  refine (chunks_leave_file_iff vendor host offeredState_record ?_ ?_
    (letters_carried [firstLetter, secondLetter])).mpr ⟨by decide, by simp, rfl⟩
  · rw [offeredState, step_file]
    · rfl
    · rintro ⟨impossible, _chunk⟩
      cases impossible
  · decide

end Reference

end Shr
