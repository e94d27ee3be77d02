/-
The receiving side of a transfer, after the handlers of `transfer.cxx`.

A handler is a function of the node and of what the world answers while it
runs: the clock, fresh randomness and the outcomes of its file and database
calls.  It yields the node it leaves, the path it opened for writing, and the
packets it sent back.  One inversion theorem per handler lists everything the
handler can do; no later proof unfolds a handler.
-/

import Shr.Database
import Shr.Transfer.Payloads

namespace Shr

/-- The part of a machine that stays fixed while the node runs.  `resolve`
identifies the paths that name one file. -/
structure Host where
  configDir : Bytes
  receivedDir : Bytes
  receivedDir_nulFree : NulFree receivedDir
  resolve : Bytes → Bytes

/-- The state transfers work on; `files` is indexed by resolved paths. -/
structure Node where
  transfers : TransferTable
  files : Bytes → Option Bytes
  activeCount : Int

/-- What the world answers to one handler call.  `wrote` is the number of
bytes a failing write still stores. -/
structure Arrival where
  random : Random
  createdAt : Int64
  updatedAt : Int64
  opens : Bool
  wrote : Option Nat
  stores : Bool

def Arrival.sound (random : Random) (createdAt updatedAt : Int64) : Arrival :=
  { random := random
    createdAt := createdAt
    updatedAt := updatedAt
    opens := true
    wrote := none
    stores := true }

structure Arrival.Sound (arrival : Arrival) : Prop where
  opens : arrival.opens = true
  wrote : arrival.wrote = none
  stores : arrival.stores = true

structure Handled where
  node : Node
  opened : Option Bytes
  replies : List Packet

def Handled.quiet (node : Node) : Handled :=
  { node := node
    opened := none
    replies := [] }

section Handlers

variable (vendor : Vendor) (host : Host)

def Node.read (node : Node) (path : Bytes) : Option Bytes :=
  node.files (host.resolve path)

def Node.write (node : Node) (path : Bytes) (content : Bytes) : Node :=
  { node with
    files := fun file => if file = host.resolve path then some content else node.files file }

def Node.update (node : Node) (arrival : Arrival) (id : Bytes) (transferred : UInt64)
    (state : TransferState) : Node :=
  { node with
    transfers :=
      if arrival.stores then
        node.transfers.updateTransferProgress id transferred state arrival.updatedAt
      else node.transfers }

/-! ### File offers -/

def receivedPath (filename : Bytes) : Bytes :=
  joinPath host.receivedDir (sanitizeFilename filename)

/-- The file an offered name is received in, as its stored record names it. -/
def destination (filename : Bytes) : Bytes :=
  cstr (receivedPath host filename)

def offeredRecord (arrival : Arrival) (offer : FileOffer) : TransferRecord :=
  { id := offer.xferId
    peerId := offer.senderId
    filename := sanitizeFilename offer.filename
    filepath := receivedPath host offer.filename
    totalBytes := offer.fileSize
    transferredBytes := 0
    state := .pending
    checksum := offer.checksum
    createdAt := arrival.createdAt
    updatedAt := arrival.updatedAt
    outbound := false }

def resumePacket (offset : UInt64) : Packet :=
  { type := .fileResume
    payload := vendor.toCbor (resumeFields offset) }

def acceptPacket (xferId : Bytes) : Packet :=
  { type := .fileAccept
    payload := vendor.toCbor (acceptFields xferId) }

/-- The record an offer finds, when it is one the handler resumes. -/
def pausedRecord (node : Node) (xferId : Bytes) : Option TransferRecord :=
  (node.transfers.getTransfer xferId).filter fun record => record.state = .paused

def handleFileOffer (arrival : Arrival) (payload : Bytes) (node : Node) : Handled :=
  match readFileOffer vendor arrival.random payload with
  | none => Handled.quiet node
  | some offer =>
      match pausedRecord node offer.xferId with
      | some existing =>
          { node := node
            opened := none
            replies := [resumePacket vendor existing.transferredBytes] }
      | none =>
          { node :=
              { node with
                transfers :=
                  if arrival.stores then
                    node.transfers.upsertTransfer (offeredRecord host arrival offer)
                  else node.transfers }
            opened := none
            replies := [acceptPacket vendor offer.xferId] }

/-! ### File chunks -/

/-- What a chunk leaves in a file it could open.  Offset 0 opens with `trunc`;
any other offset opens with `app`, where every write goes to the end whatever
the position.  An offset beyond the signed range fails the seek, and nothing
is written to a failed stream. -/
def chunkedContent (previous : Option Bytes) (offset : UInt64) (written : Bytes) : Bytes :=
  let base := if offset = 0 then [] else previous.getD []
  if offset.toInt64 < 0 then base else base ++ written

def ackPacket (xferId : Bytes) (offset : UInt64) : Packet :=
  { type := .fileChunkAck
    payload := vendor.toCbor (ackFields xferId offset) }

def newTransferred (offset : UInt64) (chunkData : Bytes) : UInt64 :=
  offset + UInt64.ofNat chunkData.length

def handleFileChunk (arrival : Arrival) (payload : Bytes) (node : Node) : Handled :=
  match readFileChunk vendor payload with
  | none => Handled.quiet node
  | some chunk =>
      let chunkData := vendor.base64Decode chunk.b64data
      if sha256Bytes vendor chunkData ≠ chunk.checksum then Handled.quiet node
      else
        match node.transfers.getTransfer chunk.xferId with
        | none => Handled.quiet node
        | some record =>
            if (arrival.opens && namesFile record.filepath) = false then Handled.quiet node
            else
              let written := chunkData.take (arrival.wrote.getD chunkData.length)
              let content :=
                chunkedContent (node.read host record.filepath) chunk.offset written
              let transferred := newTransferred chunk.offset chunkData
              { node :=
                  (node.write host record.filepath content).update arrival chunk.xferId
                    transferred .inProgress
                opened := some record.filepath
                replies := [ackPacket vendor chunk.xferId transferred] }

/-! ### Completion, cancellation and dispatch -/

def handleFileComplete (arrival : Arrival) (payload : Bytes) (node : Node) : Handled :=
  match readFileComplete vendor payload with
  | none => Handled.quiet node
  | some complete =>
      match node.transfers.getTransfer complete.xferId with
      | none => Handled.quiet node
      | some record =>
          let actual := sha256File vendor (node.read host record.filepath)
          if actual ≠ complete.checksum then
            Handled.quiet
              (node.update arrival complete.xferId record.transferredBytes .failed)
          else
            Handled.quiet (node.update arrival complete.xferId record.totalBytes .completed)

/-- The handlers registered for the packets of a transfer; `FileAccept` and
`FileResume` have handlers that do nothing. -/
def handleTransferPacket (arrival : Arrival) (packet : Packet) (node : Node) : Handled :=
  match packet.type with
  | .fileOffer => handleFileOffer vendor host arrival packet.payload node
  | .fileChunk => handleFileChunk vendor host arrival packet.payload node
  | .fileComplete => handleFileComplete vendor host arrival packet.payload node
  | _ => Handled.quiet node

end Handlers

def cancelTransfer (id : Bytes) (now : Int64) (node : Node) : Bool × Node :=
  match node.transfers.getTransfer id with
  | none => (false, node)
  | some record =>
      (true,
        { node with
          transfers :=
            node.transfers.updateTransferProgress id record.transferredBytes .cancelled now })

/-! ### What each handler can do -/

section Inversions

variable {vendor : Vendor} {host : Host}

theorem chunkedContent_ofNat (previous : Option Bytes) {offset : Nat} (bounded : offset < 2 ^ 63)
    (written : Bytes) :
    chunkedContent previous (UInt64.ofNat offset) written =
      (if offset = 0 then [] else previous.getD []) ++ written := by
  have seekable : ¬(UInt64.ofNat offset).toInt64 < 0 := by
    rw [UInt64.toInt64_ofNat', Int64.lt_iff_toInt_lt, Int64.toInt_ofNat_of_lt bounded,
      Int64.toInt_zero]
    omega
  have fits : offset < UInt64.size := Nat.lt_trans bounded (by decide)
  have start : UInt64.ofNat offset = 0 ↔ offset = 0 := by
    rw [← UInt64.toNat_inj, UInt64.toNat_ofNat_of_lt' fits, UInt64.toNat_zero]
  simp only [chunkedContent, if_neg seekable, start]

theorem handleTransferPacket_offer {arrival : Arrival} {packet : Packet} {node : Node}
    (type : packet.type = .fileOffer) :
    handleTransferPacket vendor host arrival packet node =
      handleFileOffer vendor host arrival packet.payload node := by
  unfold handleTransferPacket
  rw [type]

theorem handleTransferPacket_chunk {arrival : Arrival} {packet : Packet} {node : Node}
    (type : packet.type = .fileChunk) :
    handleTransferPacket vendor host arrival packet node =
      handleFileChunk vendor host arrival packet.payload node := by
  unfold handleTransferPacket
  rw [type]

theorem handleTransferPacket_complete {arrival : Arrival} {packet : Packet} {node : Node}
    (type : packet.type = .fileComplete) :
    handleTransferPacket vendor host arrival packet node =
      handleFileComplete vendor host arrival packet.payload node := by
  unfold handleTransferPacket
  rw [type]

theorem pausedRecord_eq_some {node : Node} {xferId : Bytes} {record : TransferRecord} :
    pausedRecord node xferId = some record ↔
      node.transfers.getTransfer xferId = some record ∧ record.state = .paused := by
  simp [pausedRecord, Option.filter_eq_some_iff]

theorem pausedRecord_eq_none {node : Node} {xferId : Bytes} :
    pausedRecord node xferId = none ↔
      ∀ record, node.transfers.getTransfer xferId = some record → record.state ≠ .paused := by
  simp [pausedRecord, Option.filter_eq_none_iff]

/-- An offer is malformed, or resumes a paused record, or stores its record. -/
theorem handleFileOffer_cases (arrival : Arrival) (payload : Bytes) (node : Node) :
    (readFileOffer vendor arrival.random payload = none ∧
      handleFileOffer vendor host arrival payload node = Handled.quiet node) ∨
    (∃ offer existing,
      readFileOffer vendor arrival.random payload = some offer ∧
      pausedRecord node offer.xferId = some existing ∧
      handleFileOffer vendor host arrival payload node =
        { node := node
          opened := none
          replies := [resumePacket vendor existing.transferredBytes] }) ∨
    (∃ offer,
      readFileOffer vendor arrival.random payload = some offer ∧
      pausedRecord node offer.xferId = none ∧
      handleFileOffer vendor host arrival payload node =
        { node :=
            { node with
              transfers :=
                if arrival.stores then
                  node.transfers.upsertTransfer (offeredRecord host arrival offer)
                else node.transfers }
          opened := none
          replies := [acceptPacket vendor offer.xferId] }) := by
  unfold handleFileOffer
  cases decoded : readFileOffer vendor arrival.random payload with
  | none => exact Or.inl ⟨rfl, rfl⟩
  | some offer =>
      cases found : pausedRecord node offer.xferId with
      | some existing => exact Or.inr (Or.inl ⟨offer, existing, rfl, found, by simp [found]⟩)
      | none => exact Or.inr (Or.inr ⟨offer, rfl, found, by simp [found]⟩)

theorem handleFileOffer_stored {arrival : Arrival} {payload : Bytes} {node : Node}
    {offer : FileOffer} (stores : arrival.stores = true)
    (decoded : readFileOffer vendor arrival.random payload = some offer)
    (notPaused : pausedRecord node offer.xferId = none) :
    handleFileOffer vendor host arrival payload node =
      { node :=
          { node with
            transfers := node.transfers.upsertTransfer (offeredRecord host arrival offer) }
        opened := none
        replies := [acceptPacket vendor offer.xferId] } := by
  simp only [handleFileOffer, decoded, notPaused, stores, if_true]

theorem handleFileOffer_resumed {arrival : Arrival} {payload : Bytes} {node : Node}
    {offer : FileOffer} {existing : TransferRecord}
    (decoded : readFileOffer vendor arrival.random payload = some offer)
    (paused : pausedRecord node offer.xferId = some existing) :
    handleFileOffer vendor host arrival payload node =
      { node := node
        opened := none
        replies := [resumePacket vendor existing.transferredBytes] } := by
  simp only [handleFileOffer, decoded, paused]

/-- The chunks a node acts on: decoded, intact, for a stored record whose file
opens. -/
structure ChunkApplies (vendor : Vendor) (arrival : Arrival) (payload : Bytes) (node : Node)
    (chunk : FileChunk) (record : TransferRecord) : Prop where
  decoded : readFileChunk vendor payload = some chunk
  intact : sha256Bytes vendor (vendor.base64Decode chunk.b64data) = chunk.checksum
  found : node.transfers.getTransfer chunk.xferId = some record
  opens : arrival.opens = true
  namesFile : namesFile record.filepath = true

def appliedChunk (vendor : Vendor) (host : Host) (arrival : Arrival) (node : Node)
    (chunk : FileChunk) (record : TransferRecord) : Handled :=
  let chunkData := vendor.base64Decode chunk.b64data
  let written := chunkData.take (arrival.wrote.getD chunkData.length)
  let content := chunkedContent (node.read host record.filepath) chunk.offset written
  let transferred := newTransferred chunk.offset chunkData
  { node :=
      (node.write host record.filepath content).update arrival chunk.xferId transferred
        .inProgress
    opened := some record.filepath
    replies := [ackPacket vendor chunk.xferId transferred] }

theorem handleFileChunk_applied {arrival : Arrival} {payload : Bytes} {node : Node}
    {chunk : FileChunk} {record : TransferRecord}
    (applies : ChunkApplies vendor arrival payload node chunk record) :
    handleFileChunk vendor host arrival payload node =
      appliedChunk vendor host arrival node chunk record := by
  unfold handleFileChunk appliedChunk
  simp [applies.decoded, applies.intact, applies.found, applies.opens, applies.namesFile]

theorem handleFileChunk_cases (arrival : Arrival) (payload : Bytes) (node : Node) :
    ((∀ chunk record, ¬ChunkApplies vendor arrival payload node chunk record) ∧
      handleFileChunk vendor host arrival payload node = Handled.quiet node) ∨
    (∃ chunk record, ChunkApplies vendor arrival payload node chunk record ∧
      handleFileChunk vendor host arrival payload node =
        appliedChunk vendor host arrival node chunk record) := by
  by_cases applied : ∃ chunk record, ChunkApplies vendor arrival payload node chunk record
  · obtain ⟨chunk, record, applies⟩ := applied
    exact Or.inr ⟨chunk, record, applies, handleFileChunk_applied applies⟩
  · simp only [not_exists] at applied
    refine Or.inl ⟨applied, ?_⟩
    unfold handleFileChunk
    cases decoded : readFileChunk vendor payload with
    | none => rfl
    | some chunk =>
        by_cases intact : sha256Bytes vendor (vendor.base64Decode chunk.b64data) = chunk.checksum
        · cases found : node.transfers.getTransfer chunk.xferId with
          | none => simp [intact, found]
          | some record =>
              have closed : (arrival.opens && namesFile record.filepath) = false := by
                rw [Bool.eq_false_iff]
                intro opened
                rw [Bool.and_eq_true] at opened
                exact applied chunk record ⟨decoded, intact, found, opened.1, opened.2⟩
              simp [intact, found, closed]
        · simp [intact]

theorem handleFileComplete_cases (arrival : Arrival) (payload : Bytes) (node : Node) :
    ((∀ complete record, readFileComplete vendor payload = some complete →
        node.transfers.getTransfer complete.xferId ≠ some record) ∧
      handleFileComplete vendor host arrival payload node = Handled.quiet node) ∨
    (∃ complete record, readFileComplete vendor payload = some complete ∧
      node.transfers.getTransfer complete.xferId = some record ∧
      sha256File vendor (node.read host record.filepath) ≠ complete.checksum ∧
      handleFileComplete vendor host arrival payload node =
        Handled.quiet
          (node.update arrival complete.xferId record.transferredBytes .failed)) ∨
    (∃ complete record, readFileComplete vendor payload = some complete ∧
      node.transfers.getTransfer complete.xferId = some record ∧
      sha256File vendor (node.read host record.filepath) = complete.checksum ∧
      handleFileComplete vendor host arrival payload node =
        Handled.quiet (node.update arrival complete.xferId record.totalBytes .completed)) := by
  unfold handleFileComplete
  cases decoded : readFileComplete vendor payload with
  | none => exact Or.inl ⟨fun _complete _record impossible => (by cases impossible), rfl⟩
  | some complete =>
      cases found : node.transfers.getTransfer complete.xferId with
      | none =>
          refine Or.inl ⟨?_, by simp [found]⟩
          intro other record same present
          cases same
          rw [found] at present
          cases present
      | some record =>
          by_cases verified :
              sha256File vendor (node.read host record.filepath) = complete.checksum
          · exact Or.inr (Or.inr ⟨complete, record, rfl, found, verified, by
              simp [found, verified]⟩)
          · exact Or.inr (Or.inl ⟨complete, record, rfl, found, verified, by
              simp [found, verified]⟩)

def chunkOf (vendor : Vendor) (xferId : Bytes) (offset : UInt64) (data : Bytes) : FileChunk :=
  { xferId := xferId
    offset := offset
    b64data := vendor.base64Encode data
    checksum := sha256Bytes vendor data }

def Arrival.written (arrival : Arrival) (data : Bytes) : Bytes :=
  data.take (arrival.wrote.getD data.length)

theorem Arrival.Sound.written {arrival : Arrival} (sound : arrival.Sound) (data : Bytes) :
    arrival.written data = data := by
  unfold Arrival.written
  rw [sound.wrote, Option.getD_none, List.take_length]

theorem handleFileChunk_whole {arrival : Arrival} (opens : arrival.opens = true) {payload : Bytes}
    {node : Node} {xferId : Bytes} {offset : UInt64} {data : Bytes} {record : TransferRecord}
    (whole : arrival.written data = data)
    (decoded : readFileChunk vendor payload = some (chunkOf vendor xferId offset data))
    (found : node.transfers.getTransfer xferId = some record)
    (file : namesFile record.filepath = true) :
    handleFileChunk vendor host arrival payload node =
      { node :=
          (node.write host record.filepath
            (chunkedContent (node.read host record.filepath) offset data)).update arrival xferId
              (newTransferred offset data) .inProgress
        opened := some record.filepath
        replies := [ackPacket vendor xferId (newTransferred offset data)] } := by
  have sameData : vendor.base64Decode (chunkOf vendor xferId offset data).b64data = data :=
    vendor.base64Decode_encode data
  have applies : ChunkApplies vendor arrival payload node (chunkOf vendor xferId offset data)
      record := by
    constructor
    · exact decoded
    · rw [sameData]
      rfl
    · exact found
    · exact opens
    · exact file
  unfold Arrival.written at whole
  rw [handleFileChunk_applied applies]
  simp only [appliedChunk, sameData, whole]
  rfl

theorem handleFileComplete_verified {arrival : Arrival} {payload : Bytes} {node : Node}
    {complete : FileComplete} {record : TransferRecord}
    (decoded : readFileComplete vendor payload = some complete)
    (found : node.transfers.getTransfer complete.xferId = some record)
    (verified : sha256File vendor (node.read host record.filepath) = complete.checksum) :
    handleFileComplete vendor host arrival payload node =
      Handled.quiet (node.update arrival complete.xferId record.totalBytes .completed) := by
  simp [handleFileComplete, decoded, found, verified]

theorem handleFileComplete_mismatch {arrival : Arrival} {payload : Bytes} {node : Node}
    {complete : FileComplete} {record : TransferRecord}
    (decoded : readFileComplete vendor payload = some complete)
    (found : node.transfers.getTransfer complete.xferId = some record)
    (mismatch : sha256File vendor (node.read host record.filepath) ≠ complete.checksum) :
    handleFileComplete vendor host arrival payload node =
      Handled.quiet (node.update arrival complete.xferId record.transferredBytes .failed) := by
  simp [handleFileComplete, decoded, found, mismatch]

theorem read_handleFileOffer (arrival : Arrival) (payload : Bytes) (node : Node)
    (path : Bytes) :
    (handleFileOffer vendor host arrival payload node).node.read host path =
      node.read host path := by
  rcases @handleFileOffer_cases vendor host arrival payload node with
    ⟨_malformed, handled⟩ | ⟨_offer, _existing, _decoded, _found, handled⟩ |
    ⟨_offer, _decoded, _notPaused, handled⟩
  all_goals simp only [handled, Handled.quiet, Node.read]

theorem read_handleFileComplete (arrival : Arrival) (payload : Bytes) (node : Node)
    (path : Bytes) :
    (handleFileComplete vendor host arrival payload node).node.read host path =
      node.read host path := by
  rcases handleFileComplete_cases arrival payload node with
    ⟨_ignored, handled⟩ | ⟨_complete, _record, _decoded, _found, _mismatch, handled⟩ |
    ⟨_complete, _record, _decoded, _found, _verified, handled⟩
  all_goals
    rw [handled]
    rfl

end Inversions

/-! ### What the node operations change -/

section Frames

variable (host : Host)

@[simp] theorem Node.write_transfers (node : Node) (path content : Bytes) :
    (node.write host path content).transfers = node.transfers :=
  rfl

@[simp] theorem Node.read_update (node : Node) (arrival : Arrival) (id : Bytes)
    (transferred : UInt64) (state : TransferState) (path : Bytes) :
    (node.update arrival id transferred state).read host path = node.read host path :=
  rfl

theorem Node.read_write_same (node : Node) {path other : Bytes} (content : Bytes)
    (same : host.resolve other = host.resolve path) :
    (node.write host path content).read host other = some content := by
  simp [Node.read, Node.write, same]

theorem Node.read_write_of_ne (node : Node) {path other : Bytes} (content : Bytes)
    (different : host.resolve other ≠ host.resolve path) :
    (node.write host path content).read host other = node.read host other := by
  simp [Node.read, Node.write, different]

theorem Node.getTransfer_update_self (node : Node) (arrival : Arrival) {id wanted : Bytes}
    (transferred : UInt64) (state : TransferState) (stores : arrival.stores = true)
    (same : cstr wanted = cstr id) :
    (node.update arrival id transferred state).transfers.getTransfer wanted =
      (node.transfers.getTransfer wanted).map fun record =>
        record.progressed transferred state arrival.updatedAt := by
  simp only [Node.update, stores, if_true]
  exact TransferTable.getTransfer_update_self _ _ _ _ same

theorem Node.getTransfer_update_of_ne (node : Node) (arrival : Arrival) {id wanted : Bytes}
    (transferred : UInt64) (state : TransferState) (different : cstr wanted ≠ cstr id) :
    (node.update arrival id transferred state).transfers.getTransfer wanted =
      node.transfers.getTransfer wanted := by
  unfold Node.update
  split
  · exact TransferTable.getTransfer_update_of_ne _ _ _ _ different
  · rfl

end Frames

end Shr
