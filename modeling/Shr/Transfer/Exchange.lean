/-
One transfer, as the packets of its two sides.

An `Exchange` fixes a call of `send_file`, the two machines before it and what
the call may rely on.  The packets of the sender and the replies of the receiver
are then the same in every run; a `Progress` says how many of them there have
been.  `Received` is the receiver after some of the packets, and every packet
takes it to the next.
-/

import Shr.Library.Fifo
import Shr.Reference
import Shr.Transfer.Link

namespace Shr

/-! ### Beginnings of a file -/

section Beginnings

variable {contents : Bytes} {start : UInt64}

def lengthBefore (contents : Bytes) (start : UInt64) (chunk : Nat) : Nat :=
  start.toNat + bytesBefore contents start chunk

theorem remainingFrom_eq (bounded : start.toNat < 2 ^ 63) :
    remainingFrom contents start = contents.drop start.toNat := by
  unfold remainingFrom resumedStream
  by_cases resumes : 0 < start
  · have asInt : start.toInt64.toInt = start.toNat := by
      have small : start.toNat ≤ 2 ^ 63 - 1 := by omega
      have signed := Int64.toInt_ofNat_of_lt (n := start.toNat) bounded
      rw [← UInt64.toInt64_ofNat', UInt64.ofNat_toNat] at signed
      exact signed
    rw [if_pos resumes, InputStream.seek, asInt]
    simp [InputStream.remaining, InputStream.start]
  · have zero : start = 0 := by
      have notLess : ¬(0 : UInt64).toNat < start.toNat := resumes
      rw [UInt64.toNat_zero] at notLess
      apply UInt64.toNat_inj.mp
      rw [UInt64.toNat_zero]
      omega
    rw [if_neg resumes, zero, InputStream.remaining_start]
    rfl

variable (inside : start.toNat ≤ contents.length) (bounded : contents.length < 2 ^ 63)

include inside bounded

theorem length_remainingFrom :
    (remainingFrom contents start).length = contents.length - start.toNat := by
  rw [remainingFrom_eq (by omega), List.length_drop]

theorem lengthBefore_le (chunk : Nat) : lengthBefore contents start chunk ≤ contents.length := by
  have remaining := length_remainingFrom inside bounded
  unfold lengthBefore bytesBefore
  omega

theorem lengthBefore_of_end {chunk : Nat} (finished : ¬More contents start chunk) :
    lengthBefore contents start chunk = contents.length := by
  have remaining := length_remainingFrom inside bounded
  unfold lengthBefore
  rw [bytesBefore_of_end finished]
  omega

theorem toNat_position (chunk : Nat) :
    (position contents start chunk).toNat = lengthBefore contents start chunk := by
  have below := lengthBefore_le inside bounded chunk
  unfold lengthBefore at below
  have fits : start.toNat + bytesBefore contents start chunk < 2 ^ 64 := by omega
  unfold position lengthBefore
  rw [UInt64.toNat_add, UInt64.toNat_ofNat', Nat.add_mod_mod, Nat.mod_eq_of_lt fits]

theorem position_eq (chunk : Nat) :
    position contents start chunk = UInt64.ofNat (lengthBefore contents start chunk) := by
  rw [← toNat_position inside bounded chunk, UInt64.ofNat_toNat]

theorem take_append_chunkData {chunk : Nat} (more : More contents start chunk) :
    contents.take (lengthBefore contents start chunk) ++ chunkData contents start chunk =
      contents.take (lengthBefore contents start (chunk + 1)) := by
  have next : lengthBefore contents start (chunk + 1) =
      lengthBefore contents start chunk + (chunkData contents start chunk).length := by
    unfold lengthBefore
    rw [bytesBefore_succ, Nat.add_assoc]
  have piece : chunkData contents start chunk =
      (contents.drop (lengthBefore contents start chunk)).take shrChunkSize := by
    unfold chunkData lengthBefore
    rw [remainingFrom_eq (by omega), List.drop_drop, bytesBefore_of_more more]
  have whole : (contents.drop (lengthBefore contents start chunk)).take
      (chunkData contents start chunk).length = chunkData contents start chunk := by
    rw [piece, List.length_take, List.take_eq_take_iff]
    omega
  rw [next, List.take_add, whole]

end Beginnings

/-! ### Exchanges -/

/-- A paused record whose file is the beginning of the call's file. -/
structure Resumable (host : Host) (call : SendCall) (receiver : Node)
    (record : TransferRecord) : Prop where
  inside : record.transferredBytes.toNat ≤ call.contents.length
  totalBytes : record.totalBytes = call.inputs.fileSize
  namesFile : namesFile record.filepath = true
  file : receiver.read host record.filepath =
    some (call.contents.take record.transferredBytes.toNat)

/-- A call and the two machines before it.  The file is the one that was
measured and hashed; a file system knows no name with a zero byte and no file
beyond the signed range. -/
structure Exchange (vendor : Vendor) (host : Host) where
  call : SendCall
  sender : Node
  receiver : Node
  name : NulFree (pathFilename call.absPath)
  bounded : call.contents.length < 2 ^ 63
  size : call.inputs.fileSize = UInt64.ofNat call.contents.length
  checksum : call.inputs.checksum = sha256Bytes vendor call.contents
  resumable : ∀ record, pausedRecord receiver call.inputs.xferId = some record →
    Resumable host call receiver record

inductive Progress where
  | nothing
  | offered (chunks : Nat)
  | finished (chunks : Nat)

def Progress.chunks : Progress → Nat
  | .nothing => 0
  | .offered chunks => chunks
  | .finished chunks => chunks

def Progress.Within : Progress → Progress → Prop
  | .nothing, _ => True
  | .offered few, .offered many => few ≤ many
  | .offered few, .finished many => few ≤ many
  | .finished few, .finished many => few = many
  | _, _ => False

@[simp] theorem Progress.within_refl (progress : Progress) : progress.Within progress := by
  cases progress <;> simp [Progress.Within]

namespace Exchange

section Packets

variable {vendor : Vendor} {host : Host} (exchange : Exchange vendor host)

def id : Bytes :=
  exchange.call.inputs.xferId

def contents : Bytes :=
  exchange.call.contents

def paused : Option TransferRecord :=
  pausedRecord exchange.receiver exchange.id

/-- Where the file is sent from. -/
def offset : UInt64 :=
  exchange.paused.elim 0 TransferRecord.transferredBytes

/-- Where the receiver keeps the file. -/
def path : Bytes :=
  exchange.paused.elim (destination host (pathFilename exchange.call.absPath))
    TransferRecord.filepath

def offer : Packet :=
  offerPacket vendor exchange.call.inputs exchange.call.absPath

def chunk (index : Nat) : Packet :=
  nthChunk vendor exchange.call exchange.offset index

def complete : Packet :=
  completePacket vendor exchange.call.inputs

def answer : Packet :=
  exchange.paused.elim (acceptPacket vendor exchange.id) fun record =>
    resumePacket vendor record.transferredBytes

def lengthAt (chunks : Nat) : Nat :=
  lengthBefore exchange.contents exchange.offset chunks

def bytesAt (chunks : Nat) : UInt64 :=
  position exchange.contents exchange.offset chunks

def ack (index : Nat) : Packet :=
  ackPacket vendor exchange.id (exchange.bytesAt (index + 1))

def More (chunks : Nat) : Prop :=
  Shr.More exchange.contents exchange.offset chunks

/-- Every packet of the sender up to some progress. -/
def packets : Progress → List Packet
  | .nothing => []
  | .offered chunks => exchange.offer :: (List.range chunks).map exchange.chunk
  | .finished chunks =>
      exchange.offer :: (List.range chunks).map exchange.chunk ++ [exchange.complete]

/-- Every reply to these packets; completion has none. -/
def replies : Progress → List Packet
  | .nothing => []
  | .offered chunks => exchange.answer :: (List.range chunks).map exchange.ack
  | .finished chunks => exchange.answer :: (List.range chunks).map exchange.ack

/-- What the receiver's file holds behind a number of chunks. -/
def fileAt (chunks : Nat) : Option Bytes :=
  if chunks = 0 then exchange.receiver.read host exchange.path
  else some (exchange.contents.take (exchange.lengthAt chunks))

/-- The receiver's file is the file of the call, as far as its digest tells. -/
def Verified (chunks : Nat) : Prop :=
  sha256File vendor (exchange.fileAt chunks) = exchange.call.inputs.checksum

inductive Sends : Progress → Packet → Progress → Prop where
  | offer : Sends .nothing exchange.offer (.offered 0)
  | chunk (index : Nat) (more : exchange.More index) :
      Sends (.offered index) (exchange.chunk index) (.offered (index + 1))
  | complete (chunks : Nat) : Sends (.offered chunks) exchange.complete (.finished chunks)

end Packets

section PacketFacts

variable {vendor : Vendor} {host : Host} {exchange : Exchange vendor host}

theorem paused_resumable {record : TransferRecord} (paused : exchange.paused = some record) :
    Resumable host exchange.call exchange.receiver record :=
  exchange.resumable record paused

theorem offset_inside : exchange.offset.toNat ≤ exchange.contents.length := by
  unfold offset
  cases paused : exchange.paused with
  | none => exact Nat.zero_le _
  | some record => exact (paused_resumable paused).inside

theorem file_of_resumed (resumed : exchange.offset ≠ 0) :
    exchange.receiver.read host exchange.path =
      some (exchange.contents.take exchange.offset.toNat) := by
  unfold offset path at *
  cases paused : exchange.paused with
  | none =>
      rw [paused] at resumed
      exact absurd rfl resumed
  | some record => exact (paused_resumable paused).file

theorem receivedPath_nulFree {filename : Bytes} (nulFree : NulFree filename) :
    destination host filename = receivedPath host filename := by
  unfold destination receivedPath
  rw [cstr_joinPath host.receivedDir_nulFree (sanitizeFilename_noSlash filename),
    cstr_of_nulFree (sanitizeFilename_nulFree nulFree)]

theorem namesFile_path : namesFile exchange.path = true := by
  unfold path
  cases paused : exchange.paused with
  | none =>
      rw [Option.elim_none, receivedPath_nulFree exchange.name]
      exact namesFile_joinPath _ (fileComponent_sanitizeFilename _)
  | some record => exact (paused_resumable paused).namesFile

theorem lengthAt_le (chunks : Nat) : exchange.lengthAt chunks ≤ exchange.contents.length :=
  lengthBefore_le offset_inside exchange.bounded chunks

theorem bytesAt_eq (chunks : Nat) :
    exchange.bytesAt chunks = UInt64.ofNat (exchange.lengthAt chunks) :=
  position_eq offset_inside exchange.bounded chunks

theorem toNat_bytesAt (chunks : Nat) :
    (exchange.bytesAt chunks).toNat = exchange.lengthAt chunks :=
  toNat_position offset_inside exchange.bounded chunks

theorem bytesAt_of_end {chunks : Nat} (finished : ¬exchange.More chunks) :
    exchange.bytesAt chunks = exchange.call.inputs.fileSize := by
  rw [bytesAt_eq, exchange.size]
  unfold lengthAt
  rw [lengthBefore_of_end offset_inside exchange.bounded finished]
  rfl

theorem More.earlier {few many : Nat} (more : exchange.More many) (fewer : few ≤ many) :
    exchange.More few :=
  Shr.More.earlier more fewer

theorem fileAt_succ {chunks : Nat} :
    exchange.fileAt (chunks + 1) =
      some (exchange.contents.take (exchange.lengthAt (chunks + 1))) :=
  if_neg (Nat.succ_ne_zero chunks)

theorem chunkedContent_fileAt {index : Nat} (more : exchange.More index) :
    chunkedContent (exchange.fileAt index) (exchange.bytesAt index)
        (chunkData exchange.contents exchange.offset index) =
      exchange.contents.take (exchange.lengthAt (index + 1)) := by
  have inside := exchange.lengthAt_le index
  have bounded := exchange.bounded
  have base : (if exchange.lengthAt index = 0 then [] else (exchange.fileAt index).getD []) =
      exchange.contents.take (exchange.lengthAt index) := by
    by_cases start : exchange.lengthAt index = 0
    · rw [if_pos start, start, List.take_zero]
    · rw [if_neg start]
      unfold fileAt
      by_cases first : index = 0
      · have behind : exchange.lengthAt index = exchange.offset.toNat := by
          rw [first]
          simp [lengthAt, lengthBefore]
        have resumed : exchange.offset ≠ 0 := by
          intro zero
          rw [behind, zero, UInt64.toNat_zero] at start
          exact start rfl
        rw [if_pos first, file_of_resumed resumed, behind, Option.getD_some]
      · rw [if_neg first, Option.getD_some]
  rw [bytesAt_eq, chunkedContent_ofNat _ (Nat.lt_of_le_of_lt inside bounded), base]
  exact take_append_chunkData offset_inside exchange.bounded more

/-! ### The order of the packets -/

theorem length_packets_offered (chunks : Nat) :
    (exchange.packets (.offered chunks)).length = chunks + 1 := by
  simp [packets]

theorem length_packets_finished (chunks : Nat) :
    (exchange.packets (.finished chunks)).length = chunks + 2 := by
  simp [packets]

theorem Sends.packets {before after : Progress} {packet : Packet}
    (sends : exchange.Sends before packet after) :
    exchange.packets after = exchange.packets before ++ [packet] := by
  cases sends with
  | offer => rfl
  | chunk index more => simp [Exchange.packets, List.range_succ]
  | complete chunks => rfl

/-- The packets of a progress are the beginning of those of a later one, and
the one that follows takes it further. -/
theorem sends_next {received sent : Progress}
    (more : ∀ index < sent.chunks, exchange.More index) (behind : received.Within sent)
    {packet : Packet}
    (next : (exchange.packets sent)[(exchange.packets received).length]? = some packet) :
    ∃ after, exchange.Sends received packet after ∧ after.Within sent := by
  cases received with
  | nothing =>
      cases sent with
      | nothing => cases next
      | offered many =>
          cases next
          exact ⟨_, .offer, Nat.zero_le many⟩
      | finished many =>
          cases next
          exact ⟨_, .offer, Nat.zero_le many⟩
  | offered few =>
      rw [length_packets_offered] at next
      cases sent with
      | nothing => cases behind
      | offered many =>
          rw [Exchange.packets, List.getElem?_cons_succ, List.getElem?_map,
            Option.map_eq_some_iff] at next
          obtain ⟨index, present, rfl⟩ := next
          obtain ⟨inside, rfl⟩ := List.getElem?_eq_some_iff.mp present
          rw [List.length_range] at inside
          rw [List.getElem_range]
          exact ⟨_, .chunk few (more few inside), inside⟩
      | finished many =>
          by_cases inside : few < many
          · have present : (exchange.packets (.finished many))[few + 1]? =
                some (exchange.chunk few) := by
              rw [Exchange.packets, List.cons_append, List.getElem?_cons_succ,
                List.getElem?_append_left (by simpa using inside)]
              simp [inside]
            rw [present] at next
            cases next
            exact ⟨_, .chunk few (more few inside), inside⟩
          · have all : few = many := Nat.le_antisymm behind (Nat.not_lt.mp inside)
            have present : (exchange.packets (.finished many))[few + 1]? =
                some exchange.complete := by
              simp [Exchange.packets, all]
            rw [present] at next
            cases next
            exact ⟨_, .complete few, all⟩
  | finished few =>
      cases sent with
      | nothing => cases behind
      | offered many => cases behind
      | finished many =>
          have all : few = many := behind
          rw [all, List.getElem?_length] at next
          cases next

end PacketFacts

/-! ### The receiver -/

section Receiver

variable {vendor : Vendor} {host : Host} (exchange : Exchange vendor host)

/-- The receiver's record of the transfer, whatever its progress. -/
structure Stored (node : Node) (record : TransferRecord) : Prop where
  found : node.transfers.getTransfer exchange.id = some record
  filepath : record.filepath = exchange.path
  totalBytes : record.totalBytes = exchange.call.inputs.fileSize

/-- What the record says after the packets of some progress, apart from the number of
bytes of an unfinished transfer. -/
def Recorded (node : Node) : Progress → Prop
  | .nothing =>
      node.transfers.getTransfer exchange.id =
        exchange.receiver.transfers.getTransfer exchange.id
  | .offered _chunks =>
      ∃ record, exchange.Stored node record ∧ record.state ≠ .completed
  | .finished chunks =>
      ∃ record, exchange.Stored node record ∧
        ((exchange.Verified chunks ∧ record.state = .completed ∧
            record.transferredBytes = exchange.call.inputs.fileSize) ∨
          (¬exchange.Verified chunks ∧ record.state = .failed))

/-- The calls succeed on which the file and the last state rest: an offer that resumes
nothing is stored, a chunk is written whole, and the last state is stored. -/
def Takes (arrival : Arrival) (packet : Packet) : Prop :=
  match packet.type with
  | .fileOffer => exchange.paused = none → arrival.stores = true
  | .fileChunk => arrival.opens = true ∧
      ∀ chunk, readFileChunk vendor packet.payload = some chunk →
        arrival.written (vendor.base64Decode chunk.b64data) = vendor.base64Decode chunk.b64data
  | .fileComplete => arrival.stores = true
  | _ => True

structure Received (progress : Progress) (node : Node) : Prop where
  record : exchange.Recorded node progress
  file : node.read host exchange.path = exchange.fileAt progress.chunks

end Receiver

section ReceiverFacts

variable {vendor : Vendor} {host : Host} {exchange : Exchange vendor host} {node : Node}

theorem Stored.write {record : TransferRecord} (stored : exchange.Stored node record)
    (path content : Bytes) : exchange.Stored (node.write host path content) record where
  found := stored.found
  filepath := stored.filepath
  totalBytes := stored.totalBytes

theorem Stored.update {record : TransferRecord} (stored : exchange.Stored node record)
    {arrival : Arrival} (stores : arrival.stores = true) (transferred : UInt64)
    (state : TransferState) :
    exchange.Stored (node.update arrival exchange.id transferred state)
      (record.progressed transferred state arrival.updatedAt) where
  found := by
    rw [node.getTransfer_update_self _ _ _ stores rfl, stored.found, Option.map_some]
  filepath := stored.filepath
  totalBytes := stored.totalBytes

theorem Stored.attempt {record : TransferRecord} (stored : exchange.Stored node record)
    (unfinished : record.state ≠ .completed) (arrival : Arrival) (transferred : UInt64)
    {state : TransferState} (notCompleted : state ≠ .completed) :
    ∃ kept, exchange.Stored (node.update arrival exchange.id transferred state) kept ∧
      kept.state ≠ .completed := by
  cases stores : arrival.stores with
  | true => exact ⟨_, stored.update stores transferred state, notCompleted⟩
  | false =>
      have untouched : node.update arrival exchange.id transferred state = node := by
        unfold Node.update
        rw [stores, if_neg Bool.false_ne_true]
      rw [untouched]
      exact ⟨record, stored, unfinished⟩

theorem takes_of_sound {arrival : Arrival} (sound : arrival.Sound) (packet : Packet) :
    exchange.Takes arrival packet := by
  unfold Takes
  split
  · exact fun _unpaused => sound.stores
  · exact ⟨sound.opens, fun chunk _decoded => sound.written _⟩
  · exact sound.stores
  · trivial

theorem received_nothing : exchange.Received .nothing exchange.receiver where
  record := rfl
  file := rfl

theorem Received.elsewhere {progress : Progress} (received : exchange.Received progress node)
    {after : Node} (elsewhere : Elsewhere host exchange.id exchange.path node after) :
    exchange.Received progress after where
  record := by
    have record := received.record
    cases progress with
    | nothing => exact elsewhere.record.trans record
    | offered chunks =>
        obtain ⟨kept, stored, same⟩ := record
        exact ⟨kept, ⟨elsewhere.record.trans stored.found, stored.filepath, stored.totalBytes⟩,
          same⟩
    | finished chunks =>
        obtain ⟨kept, stored, same⟩ := record
        exact ⟨kept, ⟨elsewhere.record.trans stored.found, stored.filepath, stored.totalBytes⟩,
          same⟩
  file := elsewhere.file.trans received.file

structure Handles (exchange : Exchange vendor host) (before after : Progress)
    (handled : Handled) : Prop where
  replies : exchange.replies after = exchange.replies before ++ handled.replies
  received : exchange.Received after handled.node

theorem readFileOffer_offer (exchange : Exchange vendor host) (arrival : Arrival) :
    readFileOffer vendor arrival.random exchange.offer.payload =
      some
        { xferId := exchange.id
          filename := pathFilename exchange.call.absPath
          fileSize := exchange.call.inputs.fileSize
          checksum := exchange.call.inputs.checksum
          senderId := exchange.call.inputs.ownId } :=
  readFileOffer_toCbor vendor _ _

theorem readFileComplete_complete (exchange : Exchange vendor host) :
    readFileComplete vendor exchange.complete.payload =
      some
        { xferId := exchange.id
          checksum := exchange.call.inputs.checksum } :=
  readFileComplete_toCbor vendor _

theorem paused_of_nothing (received : exchange.Received .nothing node) :
    pausedRecord node exchange.id = exchange.paused := by
  have unchanged : node.transfers.getTransfer exchange.id =
      exchange.receiver.transfers.getTransfer exchange.id := received.record
  unfold paused pausedRecord
  rw [unchanged]

theorem handles_offer (arrival : Arrival)
    (stores : exchange.paused = none → arrival.stores = true)
    (received : exchange.Received .nothing node) :
    exchange.Handles .nothing (.offered 0)
      (handleTransferPacket vendor host arrival exchange.offer node) := by
  have decoded := readFileOffer_offer exchange arrival
  have same := paused_of_nothing received
  rw [handleTransferPacket_offer rfl]
  cases paused : exchange.paused with
  | none =>
      rw [handleFileOffer_stored (stores paused) decoded (same.trans paused)]
      constructor
      · simp [Exchange.replies, answer, paused]
      · constructor
        · refine ⟨_, ⟨TransferTable.getTransfer_upsert_self _ _ rfl, ?_, rfl⟩, ?_⟩
          · simp only [path, paused, Option.elim_none]
            rfl
          · intro impossible
            cases impossible
        · exact received.file
  | some record =>
      have resumable := paused_resumable paused
      obtain ⟨found, isPaused⟩ := pausedRecord_eq_some.mp (same.trans paused)
      rw [handleFileOffer_resumed decoded (same.trans paused)]
      constructor
      · simp [Exchange.replies, answer, paused]
      · constructor
        · refine ⟨record, ⟨found, ?_, resumable.totalBytes⟩, ?_⟩
          · simp only [path, paused, Option.elim_some]
          · rw [isPaused]
            intro impossible
            cases impossible
        · exact received.file

theorem readFileChunk_chunk {index : Nat} :
    readFileChunk vendor (exchange.chunk index).payload =
      some (chunkOf vendor exchange.id (exchange.bytesAt index)
        (chunkData exchange.contents exchange.offset index)) := by
  unfold chunk nthChunk chunkPacket chunkOf
  simp only
  rw [readFileChunk_toCbor]
  rfl

theorem newTransferred_bytesAt {index : Nat} :
    newTransferred (exchange.bytesAt index)
      (chunkData exchange.contents exchange.offset index) = exchange.bytesAt (index + 1) := by
  unfold newTransferred bytesAt
  rw [position_succ]

theorem handles_chunk {arrival : Arrival} {index : Nat} (opens : arrival.opens = true)
    (whole : arrival.written (chunkData exchange.contents exchange.offset index) =
      chunkData exchange.contents exchange.offset index)
    (more : exchange.More index) (received : exchange.Received (.offered index) node) :
    exchange.Handles (.offered index) (.offered (index + 1))
      (handleTransferPacket vendor host arrival (exchange.chunk index) node) := by
  obtain ⟨record, stored, unfinished⟩ := received.record
  have file : node.read host record.filepath = exchange.fileAt index := by
    rw [stored.filepath]
    exact received.file
  have namesFile : namesFile record.filepath = true := by
    rw [stored.filepath]
    exact namesFile_path
  rw [handleTransferPacket_chunk rfl,
    handleFileChunk_whole opens whole readFileChunk_chunk stored.found namesFile, file,
    chunkedContent_fileAt more, newTransferred_bytesAt]
  constructor
  · simp [Exchange.replies, List.range_succ, ack]
  · constructor
    · apply (stored.write _ _).attempt unfinished
      intro impossible
      cases impossible
    · rw [Node.read_update, stored.filepath, Node.read_write_same _ _ _ rfl]
      exact fileAt_succ.symm

theorem handles_complete {arrival : Arrival} (stores : arrival.stores = true) {chunks : Nat}
    (received : exchange.Received (.offered chunks) node) :
    exchange.Handles (.offered chunks) (.finished chunks)
      (handleTransferPacket vendor host arrival exchange.complete node) := by
  obtain ⟨record, stored, _unfinished⟩ := received.record
  have file : node.read host record.filepath = exchange.fileAt chunks := by
    rw [stored.filepath]
    exact received.file
  have decoded := readFileComplete_complete exchange
  rw [handleTransferPacket_complete rfl]
  by_cases verified : exchange.Verified chunks
  · rw [handleFileComplete_verified decoded stored.found (by rw [file]; exact verified)]
    constructor
    · simp [Exchange.replies, Handled.quiet]
    · constructor
      · exact ⟨_, stored.update stores _ _,
          Or.inl ⟨verified, rfl, stored.totalBytes⟩⟩
      · exact received.file
  · rw [handleFileComplete_mismatch decoded stored.found (by rw [file]; exact verified)]
    constructor
    · simp [Exchange.replies, Handled.quiet]
    · constructor
      · exact ⟨_, stored.update stores _ _,
          Or.inr ⟨verified, rfl⟩⟩
      · exact received.file

theorem Sends.handles {before after : Progress} {packet : Packet}
    (sends : exchange.Sends before packet after) {arrival : Arrival}
    (takes : exchange.Takes arrival packet) (received : exchange.Received before node) :
    exchange.Handles before after
      (handleTransferPacket vendor host arrival packet node) := by
  cases sends with
  | offer => exact handles_offer arrival takes received
  | chunk index more =>
      have whole := takes.2 _ readFileChunk_chunk
      simp only [chunkOf, vendor.base64Decode_encode] at whole
      exact handles_chunk takes.1 whole more received
  | complete chunks => exact handles_complete takes received

end ReceiverFacts

end Exchange

namespace Reference

def sendCall (contents : Bytes) (random : Random) : SendCall :=
  { inputs := sendInputs contents random
    absPath := sentPath
    peer := peer
    contents := contents
    sendable := sendInputs_sendable contents random
    readable := rfl }

theorem sentPath_name : NulFree (pathFilename sentPath) := by
  decide

def idleNode (transfers : TransferTable) (files : Bytes → Option Bytes) : Node :=
  { transfers := transfers
    files := files
    activeCount := 0 }

def exchange (contents : Bytes) (bounded : contents.length < 2 ^ 63) (random : Random)
    (sender receiver : Node)
    (resumable : ∀ record, pausedRecord receiver (generateUuid random) = some record →
      Resumable host (sendCall contents random) receiver record) : Exchange vendor host :=
  { call := sendCall contents random
    sender := sender
    receiver := receiver
    name := sentPath_name
    bounded := bounded
    size := rfl
    checksum := rfl
    resumable := resumable }

end Reference

end Shr
