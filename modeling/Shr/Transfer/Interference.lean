/-
Two transfers at one receiver.

A packet reads and writes the record of the id it carries and the file that
record names, and nothing else of the node.  Two transfers whose ids the store
keeps apart and whose files are different therefore take no notice of each
other, however their packets are interleaved.  Names that the sanitizer maps to
one share a file, and then the later transfer overwrites the earlier one.
-/

import Shr.Reference

namespace Shr

/-- The packets of the transfer of an id that is offered under a name. -/
def PacketOf (vendor : Vendor) (id filename : Bytes) : NodeEvent → Prop
  | .packet arrival packet =>
      carriedId vendor arrival packet = some id ∧
        (packet.type = .fileOffer → ∀ offer,
          readFileOffer vendor arrival.random packet.payload = some offer →
          offer.filename = filename)
  | _ => False

def Names (host : Host) (id filename : Bytes) (state : NodeState) : Prop :=
  ∀ record, state.node.transfers.getTransfer id = some record →
    record.filepath = destination host filename

structure Agree (host : Host) (id filename : Bytes) (left right : NodeState) : Prop where
  record : left.node.transfers.getTransfer id = right.node.transfers.getTransfer id
  file : left.node.read host (destination host filename) =
    right.node.read host (destination host filename)

section Interference

variable {vendor : Vendor} {host : Host} {id filename : Bytes}

/-! ### The packets of a transfer read nothing of any other -/

theorem Agree.symm {left right : NodeState} (agree : Agree host id filename left right) :
    Agree host id filename right left where
  record := agree.record.symm
  file := agree.file.symm

theorem Agree.chunkApplies {left right : NodeState} (agree : Agree host id filename left right)
    {arrival : Arrival} {payload : Bytes} {chunk : FileChunk} {record : TransferRecord}
    (same : cstr id = cstr chunk.xferId)
    (applies : ChunkApplies vendor arrival payload left.node chunk record) :
    ChunkApplies vendor arrival payload right.node chunk record where
  decoded := applies.decoded
  intact := applies.intact
  found := by
    rw [← TransferTable.getTransfer_cstr _ same, ← agree.record,
      TransferTable.getTransfer_cstr _ same]
    exact applies.found
  opens := applies.opens
  namesFile := applies.namesFile

theorem Agree.found {left right : NodeState} (agree : Agree host id filename left right)
    {other : Bytes} (same : cstr id = cstr other) :
    right.node.transfers.getTransfer other = left.node.transfers.getTransfer other := by
  rw [← TransferTable.getTransfer_cstr _ same, ← agree.record,
    TransferTable.getTransfer_cstr _ same]

theorem Agree.writes {left right : NodeState} (agree : Agree host id filename left right)
    (names : Names host id filename left) {arrival : Arrival} {packet : Packet}
    {write : RecordWrite} (writes : Writes vendor host left id (.packet arrival packet) write) :
    Writes vendor host right id (.packet arrival packet) write := by
  have sameFile {other : Bytes} (same : cstr id = cstr other) {record : TransferRecord}
      (found : left.node.transfers.getTransfer other = some record) :
      right.node.read host record.filepath = left.node.read host record.filepath := by
    rw [← TransferTable.getTransfer_cstr _ same] at found
    rw [names record found]
    exact agree.file.symm
  cases writes with
  | offer type decoded notPaused stores same =>
      refine .offer type decoded ?_ stores same
      rw [pausedRecord, agree.found same]
      exact notPaused
  | chunk type applies stores same =>
      exact .chunk type (agree.chunkApplies same applies) stores same
  | complete type decoded found verified stores same =>
      refine .complete type decoded ((agree.found same).trans found) ?_ stores same
      rw [sameFile same found]
      exact verified
  | mismatch type decoded found differs stores same =>
      refine .mismatch type decoded ((agree.found same).trans found) ?_ stores same
      rw [sameFile same found]
      exact differs

theorem Agree.record_step {left right : NodeState} (agree : Agree host id filename left right)
    (namesLeft : Names host id filename left) (namesRight : Names host id filename right)
    (arrival : Arrival) (packet : Packet) :
    (left.step vendor host (.packet arrival packet)).node.transfers.getTransfer id =
      (right.step vendor host (.packet arrival packet)).node.transfers.getTransfer id := by
  rcases @step_record vendor host left (.packet arrival packet) id with
    ⟨write, writes, written⟩ | ⟨unwritten, unchanged⟩
  · rw [written, step_written (agree.writes namesLeft writes), agree.record]
  · rw [unchanged, agree.record]
    symm
    apply step_unwritten
    intro write writes
    exact unwritten write (agree.symm.writes namesRight writes)

theorem file_after_chunk {state : NodeState} {arrival : Arrival} {packet : Packet}
    {chunk : FileChunk} {record : TransferRecord} (type : packet.type = .fileChunk)
    (applies : ChunkApplies vendor arrival packet.payload state.node chunk record)
    {path : Bytes} (shared : host.resolve path = host.resolve record.filepath) :
    (state.step vendor host (.packet arrival packet)).node.read host path =
      some (chunkedContent (state.node.read host record.filepath) chunk.offset
        ((vendor.base64Decode chunk.b64data).take
          (arrival.wrote.getD (vendor.base64Decode chunk.b64data).length))) := by
  simp only [NodeState.step]
  rw [handleTransferPacket_chunk type, handleFileChunk_applied applies]
  exact Node.read_write_same host state.node _ shared

theorem Agree.writesFile {left right : NodeState} (agree : Agree host id filename left right)
    {arrival : Arrival} {packet : Packet}
    (carried : carriedId vendor arrival packet = some id) {path : Bytes}
    (written : WritesFile vendor host left path (.packet arrival packet)) :
    WritesFile vendor host right path (.packet arrival packet) := by
  obtain ⟨type, chunk, record, applies, shared⟩ := written
  have own : id = chunk.xferId :=
    Option.some.inj (carried.symm.trans (carriedId_chunk type applies))
  exact ⟨type, chunk, record, agree.chunkApplies (by rw [own]) applies, shared⟩

theorem Agree.file_step {left right : NodeState} (agree : Agree host id filename left right)
    (names : Names host id filename left) {arrival : Arrival} {packet : Packet}
    (carried : carriedId vendor arrival packet = some id) :
    (left.step vendor host (.packet arrival packet)).node.read host
        (destination host filename) =
      (right.step vendor host (.packet arrival packet)).node.read host
        (destination host filename) := by
  by_cases written : WritesFile vendor host left (destination host filename)
      (.packet arrival packet)
  · obtain ⟨type, chunk, record, applies, shared⟩ := written
    have own : id = chunk.xferId :=
      Option.some.inj (carried.symm.trans (carriedId_chunk type applies))
    subst own
    have path : record.filepath = destination host filename := names record applies.found
    rw [file_after_chunk type applies shared,
      file_after_chunk type (agree.chunkApplies rfl applies) shared, path, agree.file]
  · have unwritten : ¬WritesFile vendor host right (destination host filename)
        (.packet arrival packet) := fun other =>
      written (agree.symm.writesFile carried other)
    rw [step_file written, step_file unwritten]
    exact agree.file

theorem Names.step {state : NodeState} (names : Names host id filename state)
    {event : NodeEvent} (packetOf : PacketOf vendor id filename event) :
    Names host id filename (state.step vendor host event) := by
  intro record present
  rcases @step_record vendor host state event id with
    ⟨write, writes, written⟩ | ⟨_unwritten, unchanged⟩
  · rw [written] at present
    cases write with
    | progress transferred progress now =>
        obtain ⟨earlier, found, rfl⟩ := Option.map_eq_some_iff.mp present
        exact names earlier found
    | store stored =>
        cases present
        cases writes with
        | offer type decoded notPaused stores same =>
            rw [← packetOf.2 type _ decoded]
            rfl
        | sendStores sending same => exact absurd packetOf not_false
  · rw [unchanged] at present
    exact names record present

theorem Agree.step {left right : NodeState} (agree : Agree host id filename left right)
    (namesLeft : Names host id filename left) (namesRight : Names host id filename right)
    {event : NodeEvent} (packetOf : PacketOf vendor id filename event) :
    Agree host id filename (left.step vendor host event) (right.step vendor host event) := by
  cases event with
  | packet arrival packet =>
      constructor
      · exact agree.record_step namesLeft namesRight arrival packet
      · exact agree.file_step namesLeft packetOf.1
  | cancel cancelled now => exact absurd packetOf not_false
  | launch inputs => exact absurd packetOf not_false
  | advance index answer => exact absurd packetOf not_false

/-! ### The packets of another transfer change nothing of it -/

theorem record_step_other {state : NodeState} {event : NodeEvent} {other name : Bytes}
    (different : cstr id ≠ cstr other) (packetOf : PacketOf vendor other name event) :
    (state.step vendor host event).node.transfers.getTransfer id =
      state.node.transfers.getTransfer id := by
  cases event with
  | packet arrival packet =>
      apply step_unwritten
      intro write writes
      obtain ⟨carried, carries, same⟩ := writes.carried
      rw [packetOf.1] at carries
      cases carries
      exact different same
  | cancel cancelled now => exact absurd packetOf not_false
  | launch inputs => exact absurd packetOf not_false
  | advance index answer => exact absurd packetOf not_false

theorem file_step_other {state : NodeState} {event : NodeEvent} {other name path : Bytes}
    (names : Names host other name state)
    (different : host.resolve path ≠ host.resolve (destination host name))
    (packetOf : PacketOf vendor other name event) :
    (state.step vendor host event).node.read host path = state.node.read host path := by
  apply step_file
  intro written
  cases event with
  | packet arrival packet =>
      obtain ⟨type, chunk, record, applies, shared⟩ := written
      have own : other = chunk.xferId :=
        Option.some.inj (packetOf.1.symm.trans (carriedId_chunk type applies))
      subst own
      rw [names record applies.found] at shared
      exact different shared
  | cancel cancelled now => exact written
  | launch inputs => exact written
  | advance index answer => exact written

end Interference

/-! ### Interleaved runs -/

/-- Two transfers, the whole run of their packets, and the run of the first
alone. -/
structure Apart (host : Host) (own ownName other otherName : Bytes)
    (whole alone : NodeState) : Prop where
  agree : Agree host own ownName whole alone
  namesOwn : Names host own ownName whole
  namesOther : Names host other otherName whole

/-- Transfers whose ids differ before their first zero byte and whose files are
different do not interfere: the record and the file of the first are what they
are without the second, for every interleaving of their packets. -/
theorem transfers_apart (vendor : Vendor) (host : Host) {state : NodeState}
    {own ownName other otherName : Bytes} (differentIds : cstr own ≠ cstr other)
    (differentFiles : host.resolve (destination host ownName) ≠
      host.resolve (destination host otherName))
    (namesOwn : Names host own ownName state) (namesOther : Names host other otherName state)
    {packets others whole : List NodeEvent}
    (interleaves : EventRun.Interleaves packets others whole)
    (ofOwn : ∀ event ∈ packets, PacketOf vendor own ownName event)
    (ofOther : ∀ event ∈ others, PacketOf vendor other otherName event) :
    (state.run vendor host whole).node.transfers.getTransfer own =
        (state.run vendor host packets).node.transfers.getTransfer own ∧
      (state.run vendor host whole).node.read host (destination host ownName) =
        (state.run vendor host packets).node.read host (destination host ownName) := by
  have both (left right : NodeState) (event : NodeEvent)
      (packetOf : PacketOf vendor own ownName event)
      (apart : Apart host own ownName other otherName left right) :
      Apart host own ownName other otherName (left.step vendor host event)
        (right.step vendor host event) := by
    have namesRight : Names host own ownName right := by
      intro record found
      rw [← apart.agree.record] at found
      exact apart.namesOwn record found
    constructor
    · exact apart.agree.step apart.namesOwn namesRight packetOf
    · exact apart.namesOwn.step packetOf
    · intro record found
      rw [record_step_other (Ne.symm differentIds) packetOf] at found
      exact apart.namesOther record found
  have skipped (left right : NodeState) (event : NodeEvent)
      (packetOf : PacketOf vendor other otherName event)
      (apart : Apart host own ownName other otherName left right) :
      Apart host own ownName other otherName (left.step vendor host event) right := by
    have sameRecord := @record_step_other vendor host own left event other otherName
      differentIds packetOf
    constructor
    · constructor
      · exact sameRecord.trans apart.agree.record
      · rw [file_step_other apart.namesOther differentFiles packetOf]
        exact apart.agree.file
    · intro record found
      rw [sameRecord] at found
      exact apart.namesOwn record found
    · exact apart.namesOther.step packetOf
  have start : Apart host own ownName other otherName state state :=
    ⟨⟨rfl, rfl⟩, namesOwn, namesOther⟩
  have finish := interleaves.related both skipped ofOwn ofOther start
  exact ⟨finish.agree.record, finish.agree.file⟩

namespace Reference

def sameNameOffer : FileOffer :=
  { xferId := ascii "c3d4e5f6-0000-4000-8000-000000000001"
    filename := ascii "notes.txt"
    fileSize := 1
    checksum := sha256Bytes vendor (ascii "y")
    senderId := ascii "someone" }

def firstPackets : List NodeEvent :=
  [ offerArrives receivedOffer,
    chunkArrives receivedOffer.xferId 0 (ascii "x"),
    completeArrives receivedOffer.xferId receivedOffer.checksum ]

def secondPackets (offer : FileOffer) : List NodeEvent :=
  [offerArrives offer, chunkArrives offer.xferId 0 (ascii "y")]

theorem packetOf_offerArrives (offer : FileOffer) :
    PacketOf vendor offer.xferId offer.filename (offerArrives offer) := by
  constructor
  · simp [carriedId]
  · intro _type read decoded
    rw [readFileOffer_toCbor] at decoded
    cases decoded
    rfl

theorem packetOf_chunkArrives (id filename : Bytes) (offset : UInt64) (data : Bytes) :
    PacketOf vendor id filename (chunkArrives id offset data) := by
  constructor
  · simp [carriedId, chunkOf]
  · intro impossible
    cases impossible

theorem packetOf_completeArrives (id filename checksum : Bytes) :
    PacketOf vendor id filename (completeArrives id checksum) := by
  constructor
  · simp [carriedId]
  · intro impossible
    cases impossible

theorem packetOf_firstPackets : ∀ event ∈ firstPackets,
    PacketOf vendor receivedOffer.xferId receivedOffer.filename event := by
  simp only [firstPackets, List.forall_mem_cons]
  refine ⟨packetOf_offerArrives _, packetOf_chunkArrives _ _ _ _,
    packetOf_completeArrives _ _ _, ?_⟩
  intro event impossible
  cases impossible

theorem packetOf_secondPackets (offer : FileOffer) : ∀ event ∈ secondPackets offer,
    PacketOf vendor offer.xferId offer.filename event := by
  simp only [secondPackets, List.forall_mem_cons]
  refine ⟨packetOf_offerArrives offer, packetOf_chunkArrives _ _ _ _, ?_⟩
  intro event impossible
  cases impossible

theorem file_after_first_chunk {state : NodeState} (reachable : state.Reachable vendor host)
    (offer : FileOffer) (data : Bytes)
    (file : namesFile (offeredRecord host arrival offer).stored.filepath = true) :
    ((state.step vendor host (offerArrives offer)).step vendor host
      (chunkArrives offer.xferId 0 data)).node.read host (destination host offer.filename) =
        some data := by
  have found : (state.step vendor host (offerArrives offer)).node.transfers.getTransfer
      offer.xferId = some (offeredRecord host arrival offer).stored := by
    rw [node_after_offer (pausedRecord_of_reachable reachable _)]
    exact TransferTable.getTransfer_upsert_self _ _ rfl
  rw [node_after_chunk found file, Node.read_update]
  exact Node.read_write_same host _ _ rfl

theorem file_after_completion (state : NodeState) (id checksum path : Bytes) :
    (state.step vendor host (completeArrives id checksum)).node.read host path =
      state.node.read host path := by
  apply step_file
  rintro ⟨impossible, _chunk⟩
  cases impossible

/-- The file of a transfer that has been received is overwritten by the next
transfer of a file of the same name. -/
theorem same_name_overwritten :
    receivedOffer.xferId ≠ sameNameOffer.xferId ∧
      EventRun.Interleaves firstPackets (secondPackets sameNameOffer)
        (firstPackets ++ secondPackets sameNameOffer) ∧
      (∀ event ∈ firstPackets,
        PacketOf vendor receivedOffer.xferId receivedOffer.filename event) ∧
      (∀ event ∈ secondPackets sameNameOffer,
        PacketOf vendor sameNameOffer.xferId sameNameOffer.filename event) ∧
      ((NodeState.initial fun _path => none).run vendor host
        (firstPackets ++ secondPackets sameNameOffer)).node.read host
          (destination host receivedOffer.filename) ≠
        ((NodeState.initial fun _path => none).run vendor host firstPackets).node.read host
          (destination host receivedOffer.filename) := by
  refine ⟨by decide, EventRun.Interleaves.append _ _, packetOf_firstPackets,
    packetOf_secondPackets _, ?_⟩
  have start := NodeState.reachable_initial vendor host fun _path => none
  have alone : ((NodeState.initial fun _path => none).run vendor host firstPackets).node.read
      host (destination host receivedOffer.filename) = some (ascii "x") := by
    simp only [NodeState.run, firstPackets, EventRun.run_cons, EventRun.run_nil]
    rw [file_after_completion]
    exact file_after_first_chunk start receivedOffer (ascii "x") (by decide)
  have overwritten : ((NodeState.initial fun _path => none).run vendor host
      (firstPackets ++ secondPackets sameNameOffer)).node.read host
        (destination host sameNameOffer.filename) = some (ascii "y") := by
    rw [NodeState.run, EventRun.run_append]
    simp only [secondPackets, EventRun.run_cons, EventRun.run_nil]
    exact file_after_first_chunk (start.run vendor host firstPackets) sameNameOffer (ascii "y")
      (by decide)
  rw [alone]
  intro same
  have different := overwritten.symm.trans same
  cases different

def otherNameOffer : FileOffer :=
  { sameNameOffer with
    filename := ascii "letter.txt" }

/-- A transfer of a file of another name leaves the first one as it is. -/
theorem other_name_apart :
    ((NodeState.initial fun _path => none).run vendor host
        (firstPackets ++ secondPackets otherNameOffer)).node.transfers.getTransfer
          receivedOffer.xferId =
        ((NodeState.initial fun _path => none).run vendor host
          firstPackets).node.transfers.getTransfer receivedOffer.xferId ∧
      ((NodeState.initial fun _path => none).run vendor host
          (firstPackets ++ secondPackets otherNameOffer)).node.read host
            (destination host receivedOffer.filename) =
        ((NodeState.initial fun _path => none).run vendor host firstPackets).node.read host
            (destination host receivedOffer.filename) := by
  apply @transfers_apart vendor host (NodeState.initial fun _path => none)
    receivedOffer.xferId receivedOffer.filename otherNameOffer.xferId otherNameOffer.filename
  · decide
  · decide
  · intro record impossible
    cases impossible
  · intro record impossible
    cases impossible
  · exact EventRun.Interleaves.append firstPackets (secondPackets otherNameOffer)
  · exact packetOf_firstPackets
  · exact packetOf_secondPackets otherNameOffer

end Reference

end Shr
