/-
The transfers of a network.

A record of a machine describes a file that a call of one of the machines
offers: its own call, or one that reaches it.  Where no two calls draw the same
id, a received file consists of pieces of the files offered under its name, and
is completed only with the digest its sender has offered.
-/

import Shr.Fleet.Sound
import Shr.Transfer.Identity

namespace Shr
namespace Fleet

variable {ι : Type}

/-! ### Where a record comes from -/

/-- The columns an offer fills in on the machine that receives it. -/
structure CopyOf (host : Host) (inputs : SendInputs) (absPath : Bytes)
    (record : TransferRecord) : Prop where
  peerId : record.peerId = cstr inputs.ownId
  filename : record.filename = cstr (sanitizeFilename (pathFilename absPath))
  filepath : record.filepath = destination host (pathFilename absPath)
  totalBytes : record.totalBytes = inputs.fileSize
  checksum : record.checksum = cstr inputs.checksum
  outbound : record.outbound = false

section Origins

variable (world : World ι) (happened : Event ι → Prop)

structure Receives (sender : ι) (inputs : SendInputs) (absPath : Bytes) (receiver : ι) :
    Prop where
  offered : Offered happened sender world inputs
  known : inputs.canonical = some absPath
  reaches : Reaches world happened sender inputs.recipientId receiver

inductive RecordTraced (me : ι) (id : Bytes) (record : TransferRecord) : Prop where
  | sent {inputs : SendInputs} {absPath : Bytes} (offered : Offered happened me world inputs)
      (known : inputs.canonical = some absPath) (key : cstr id = cstr inputs.xferId)
      (same : SameIdentity (sentRecord inputs absPath).stored record) :
      RecordTraced me id record
  | received {sender : ι} {inputs : SendInputs} {absPath : Bytes}
      (receives : Receives world happened sender inputs absPath me)
      (key : cstr id = cstr inputs.xferId)
      (copy : CopyOf (world.sites me).host inputs absPath record) :
      RecordTraced me id record

def RecordsTraced (state : State ι) : Prop :=
  ∀ me id record, (state.machines me).files.node.transfers.getTransfer id = some record →
    RecordTraced world happened me id record

end Origins

section Traces

variable {world : World ι} {happened : Event ι → Prop}

theorem CopyOf.progressed {host : Host} {inputs : SendInputs} {absPath : Bytes}
    {record : TransferRecord} (copy : CopyOf host inputs absPath record)
    (transferred : UInt64) (state : TransferState) (now : Int64) :
    CopyOf host inputs absPath (record.progressed transferred state now) where
  peerId := copy.peerId
  filename := copy.filename
  filepath := copy.filepath
  totalBytes := copy.totalBytes
  checksum := copy.checksum
  outbound := copy.outbound

theorem RecordTraced.progressed {me : ι} {id : Bytes} {record : TransferRecord}
    (traced : RecordTraced world happened me id record) (transferred : UInt64)
    (state : TransferState) (now : Int64) :
    RecordTraced world happened me id (record.progressed transferred state now) := by
  cases traced with
  | sent offered known key same =>
      exact .sent offered known key (same.progressed transferred state now)
  | received receives key copy =>
      exact .received receives key (copy.progressed transferred state now)

theorem arriving_of_onFiles {state : State ι} (sound : Sound world happened state)
    {event : Event ι} (admitted : state.Admits world event) {arrival : Arrival} {packet : Packet}
    (happens : event.happening.onFiles = some (.packet arrival packet)) :
    ∃ caller, Arriving world happened event.machine caller packet := by
  obtain ⟨me, happening⟩ := event
  cases happening with
  | handle caller arrived other received =>
      cases happens
      exact ⟨caller, sound.arriving admitted⟩
  | files event =>
      cases happens
      exact admitted.elim
  | mail event => cases happens
  | peers event => cases happens

theorem Arriving.offer {me : ι} {caller : Caller ι} {packet : Packet}
    (arriving : Arriving world happened me caller packet) (type : packet.type = .fileOffer) :
    ∃ sender inputs absPath, Receives world happened sender inputs absPath me ∧
      packet = offerPacket world.vendor inputs absPath := by
  cases arriving with
  | @file sender call inputs packet offered own reaches =>
      cases own with
      | offer known => exact ⟨sender, inputs, _, ⟨offered, known, reaches⟩, rfl⟩
      | chunk readable more => cases type
      | complete => cases type
  | message wrote reaches => cases type
  | ping sender call ts => cases type

theorem Arriving.chunk {me : ι} {caller : Caller ι} {packet : Packet}
    (arriving : Arriving world happened me caller packet) (type : packet.type = .fileChunk) :
    ∃ sender inputs contents index, Offered happened sender world inputs ∧
      Reaches world happened sender inputs.recipientId me ∧ inputs.contents = some contents ∧
      index * shrChunkSize < contents.length ∧
      packet = chunkPacket world.vendor inputs (UInt64.ofNat (index * shrChunkSize))
        (UInt64.ofNat index) (piece contents index) := by
  cases arriving with
  | @file sender call inputs packet offered own reaches =>
      cases own with
      | offer known => cases type
      | chunk readable more =>
          exact ⟨sender, inputs, _, _, offered, reaches, readable, more, rfl⟩
      | complete => cases type
  | message wrote reaches => cases type
  | ping sender call ts => cases type

theorem Arriving.complete {me : ι} {caller : Caller ι} {packet : Packet}
    (arriving : Arriving world happened me caller packet) (type : packet.type = .fileComplete) :
    ∃ sender inputs, Offered happened sender world inputs ∧
      Reaches world happened sender inputs.recipientId me ∧
      packet = completePacket world.vendor inputs := by
  cases arriving with
  | @file sender call inputs packet offered own reaches =>
      cases own with
      | offer known => cases type
      | chunk readable more => cases type
      | complete => exact ⟨sender, inputs, offered, reaches, rfl⟩
  | message wrote reaches => cases type
  | ping sender call ts => cases type

theorem offered_traced {me : ι} {sender : ι} {inputs : SendInputs} {absPath : Bytes}
    (receives : Receives world happened sender inputs absPath me) {arrival : Arrival}
    {offer : FileOffer} (decoded : readFileOffer world.vendor arrival.random
      (offerPacket world.vendor inputs absPath).payload = some offer)
    {id : Bytes} (key : cstr id = cstr offer.xferId) :
    RecordTraced world happened me id
      (offeredRecord (world.sites me).host arrival offer).stored := by
  rw [offerPacket, readFileOffer_toCbor, Option.some.injEq] at decoded
  rw [← decoded] at key ⊢
  refine .received receives key ?_
  constructor <;> rfl

theorem write_traced {state : State ι} (sound : Sound world happened state) {event : Event ι}
    (admitted : state.Admits world event) {nodeEvent : NodeEvent}
    (happens : event.happening.onFiles = some nodeEvent) {id : Bytes} {write : RecordWrite}
    (writes : Writes world.vendor (world.sites event.machine).host
      (state.machines event.machine).files id nodeEvent write)
    (traced : ∀ record,
      (state.machines event.machine).files.node.transfers.getTransfer id = some record →
        RecordTraced world happened event.machine id record) :
    ∀ record, write.apply
        ((state.machines event.machine).files.node.transfers.getTransfer id) = some record →
      RecordTraced world happened event.machine id record := by
  have progresses (transferred : UInt64) (progress : TransferState) (now : Int64) :
      ∀ record, RecordWrite.apply
          ((state.machines event.machine).files.node.transfers.getTransfer id)
          (.progress transferred progress now) = some record →
        RecordTraced world happened event.machine id record := by
    intro record present
    obtain ⟨earlier, found, same⟩ := Option.map_eq_some_iff.mp present
    rw [← same]
    exact (traced earlier found).progressed transferred progress now
  cases writes with
  | offer type decoded notPaused stores same =>
      intro record stored
      cases stored
      obtain ⟨caller, arriving⟩ := arriving_of_onFiles sound admitted happens
      obtain ⟨sender, inputs, absPath, receives, own⟩ := arriving.offer type
      rw [own] at decoded
      exact offered_traced receives decoded same
  | chunk type applies stores same => exact progresses _ _ _
  | complete type decoded found verified stores same => exact progresses _ _ _
  | mismatch type decoded found differs stores same => exact progresses _ _ _
  | cancel found same => exact progresses _ _ _
  | sendStores present same =>
      intro record stored
      cases stored
      obtain ⟨inputs, found, asked, _stays⟩ := (sound.machines event.machine).files.advance present
      have offered := (sound.machines event.machine).offers inputs (List.mem_of_getElem? found)
      cases asked.asked with
      | upsertTransfer absPath known => exact .sent offered known same (.refl _)
  | sendProgresses present same => exact progresses _ _ _

variable [DecidableEq ι]

theorem RecordsTraced.step {state : State ι} (traced : RecordsTraced world happened state)
    (sound : Sound world happened state) {event : Event ι}
    (admitted : state.Admits world event) :
    RecordsTraced world happened (state.step world event) := by
  intro me id record found
  by_cases here : event.machine = me
  · rw [← here] at found ⊢
    rw [State.step_machine_self] at found
    simp only [Machine.step] at found
    cases happens : event.happening.onFiles with
    | none =>
        rw [happens] at found
        exact traced _ id record found
    | some nodeEvent =>
        rw [happens, EventRun.optionally_some] at found
        rcases @step_record world.vendor (world.sites event.machine).host
          (state.machines event.machine).files nodeEvent id with
          ⟨write, writes, written⟩ | ⟨_unwritten, same⟩
        · rw [written] at found
          exact write_traced sound admitted happens writes (traced _ id) record found
        · rw [same] at found
          exact traced _ id record found
  · rw [state.step_machine_of_ne here] at found
    exact traced me id record found

end Traces

/-! ### Ids -/

/-- No two calls of `send_file` draw the same id. -/
def DistinctOffers (happened : Event ι → Prop) : Prop :=
  ∀ (one other : ι) (inputs others : SendInputs),
    happened
        { machine := one
          happening := .files (.launch inputs) } →
      happened
          { machine := other
            happening := .files (.launch others) } →
        inputs.xferId = others.xferId → one = other ∧ inputs = others

section Ids

variable {world : World ι} {happened : Event ι → Prop}

theorem DistinctOffers.same (distinct : DistinctOffers happened) {one other : ι}
    {inputs others : SendInputs} (offered : Offered happened one world inputs)
    (offeredToo : Offered happened other world others)
    (key : cstr inputs.xferId = cstr others.xferId) : one = other ∧ inputs = others := by
  have text (inputs : SendInputs) : cstr inputs.xferId = inputs.xferId :=
    cstr_of_nulFree (generateUuid_nulFree inputs.random)
  rw [text, text] at key
  exact distinct one other inputs others offered.launched offeredToo.launched key

/-- The record a packet of a call finds describes the file of this call, on the
machine of the call or on one that receives it. -/
theorem found_record {me : ι} {id : Bytes} {record : TransferRecord}
    (distinct : DistinctOffers happened) (traced : RecordTraced world happened me id record)
    {sender : ι} {inputs : SendInputs} (offered : Offered happened sender world inputs)
    (key : cstr id = cstr inputs.xferId) :
    (sender = me ∧ ∃ absPath, SameIdentity (sentRecord inputs absPath).stored record) ∨
      ∃ absPath, Receives world happened sender inputs absPath me ∧
        CopyOf (world.sites me).host inputs absPath record := by
  cases traced with
  | sent offeredToo _known keyToo same =>
      obtain ⟨sameSender, sameInputs⟩ := distinct.same offered offeredToo (key.symm.trans keyToo)
      rw [← sameInputs] at same
      exact .inl ⟨sameSender, _, same⟩
  | received receives keyToo copy =>
      obtain ⟨sameSender, sameInputs⟩ :=
        distinct.same offered receives.offered (key.symm.trans keyToo)
      rw [← sameSender, ← sameInputs] at receives
      rw [← sameInputs] at copy
      exact .inr ⟨_, receives, copy⟩

structure Describes (inputs : SendInputs) (absPath : Bytes) (record : TransferRecord) : Prop where
  totalBytes : record.totalBytes = inputs.fileSize
  checksum : record.checksum = cstr inputs.checksum
  peerId : record.peerId = cstr (if record.outbound then inputs.recipientId else inputs.ownId)
  filename : record.filename = cstr
    (if record.outbound then pathFilename absPath else sanitizeFilename (pathFilename absPath))

theorem RecordTraced.describes {me : ι} {id : Bytes} {record : TransferRecord}
    (traced : RecordTraced world happened me id record) :
    ∃ sender inputs absPath, Offered happened sender world inputs ∧
      inputs.canonical = some absPath ∧ cstr id = cstr inputs.xferId ∧
      Describes inputs absPath record := by
  cases traced with
  | @sent inputs absPath offered known key same =>
      have outbound : record.outbound = true := same.outbound
      refine ⟨me, inputs, absPath, offered, known, key, same.totalBytes, same.checksum, ?_, ?_⟩
      · rw [if_pos outbound]
        exact same.peerId
      · rw [if_pos outbound]
        exact same.filename
  | @received sender inputs absPath receives key copy =>
      have inbound : ¬record.outbound = true := by
        rw [copy.outbound]
        exact Bool.false_ne_true
      refine ⟨sender, inputs, absPath, receives.offered, receives.known, key, copy.totalBytes,
        copy.checksum, ?_, ?_⟩
      · rw [if_neg inbound]
        exact copy.peerId
      · rw [if_neg inbound]
        exact copy.filename

/-! ### Completion -/

/-- The file in which a machine keeps the pieces of a call: the file of the
offered name; or, when the call is one of its own, the file it sends. -/
def KeptIn (world : World ι) (me sender : ι) (inputs : SendInputs) (file : Bytes) : Prop :=
  ∃ absPath, file = (world.sites me).host.resolve
      (destination (world.sites me).host (pathFilename absPath)) ∧
        inputs.canonical = some absPath ∨
    sender = me ∧ file = (world.sites me).host.resolve (cstr absPath)

/-- A file that was on the disk, or is empty, and has grown by pieces of the files
of calls that reach the machine. -/
inductive Composed (world : World ι) (happened : Event ι → Prop) (me : ι)
    (onDisk : Bytes → Option Bytes) (file : Bytes) : Bytes → Prop where
  | found {content : Bytes} (present : onDisk file = some content) :
      Composed world happened me onDisk file content
  | empty : Composed world happened me onDisk file []
  | extended {content : Bytes} (earlier : Composed world happened me onDisk file content)
      {sender : ι} {inputs : SendInputs} (offered : Offered happened sender world inputs)
      (reaches : Reaches world happened sender inputs.recipientId me)
      (keptIn : KeptIn world me sender inputs file)
      {contents : Bytes} (readable : inputs.contents = some contents) (chunk count : Nat) :
      Composed world happened me onDisk file (content ++ (piece contents chunk).take count)

def FilesComposed (world : World ι) (happened : Event ι → Prop)
    (files : ι → Bytes → Option Bytes) (state : State ι) : Prop :=
  ∀ me path content,
    (state.machines me).files.node.read (world.sites me).host path = some content →
      Composed world happened me (files me) ((world.sites me).host.resolve path) content

theorem keptIn_of_record {me sender : ι} {inputs : SendInputs} {id : Bytes}
    {record : TransferRecord} (distinct : DistinctOffers happened)
    (traced : RecordTraced world happened me id record)
    (offered : Offered happened sender world inputs) (key : cstr id = cstr inputs.xferId) :
    KeptIn world me sender inputs ((world.sites me).host.resolve record.filepath) := by
  rcases found_record distinct traced offered key with
    ⟨own, absPath, same⟩ | ⟨absPath, receives, copy⟩
  · refine ⟨absPath, .inr ⟨own, ?_⟩⟩
    rw [same.filepath]
    rfl
  · refine ⟨absPath, .inl ⟨?_, receives.known⟩⟩
    rw [copy.filepath]

theorem composed_chunk {me sender : ι} {onDisk : Bytes → Option Bytes} {file : Bytes}
    {inputs : SendInputs} (offered : Offered happened sender world inputs)
    (reaches : Reaches world happened sender inputs.recipientId me)
    (keptIn : KeptIn world me sender inputs file) {contents : Bytes}
    (readable : inputs.contents = some contents) {previous : Option Bytes}
    (composed : ∀ content, previous = some content →
      Composed world happened me onDisk file content) (offset : UInt64) (chunk count : Nat) :
    Composed world happened me onDisk file
      (chunkedContent previous offset ((piece contents chunk).take count)) := by
  have base : Composed world happened me onDisk file
      (if offset = 0 then [] else previous.getD []) := by
    split
    · exact .empty
    · cases previous with
      | none => exact .empty
      | some content => exact composed content rfl
  unfold chunkedContent
  simp only
  split
  · exact base
  · exact .extended base offered reaches keptIn readable chunk count

theorem written_composed {state : State ι} (sound : Sound world happened state)
    (traced : RecordsTraced world happened state) (distinct : DistinctOffers happened)
    {event : Event ι} (admitted : state.Admits world event) {nodeEvent : NodeEvent}
    (happens : event.happening.onFiles = some nodeEvent) {onDisk : Bytes → Option Bytes}
    {path : Bytes}
    (writes : WritesFile world.vendor (world.sites event.machine).host
      (state.machines event.machine).files path nodeEvent)
    (composed : ∀ content,
      (state.machines event.machine).files.node.read (world.sites event.machine).host path =
        some content → Composed world happened event.machine onDisk
          ((world.sites event.machine).host.resolve path) content) :
    ∀ content, ((state.machines event.machine).files.step world.vendor
        (world.sites event.machine).host nodeEvent).node.read (world.sites event.machine).host
          path = some content →
      Composed world happened event.machine onDisk
        ((world.sites event.machine).host.resolve path) content := by
  intro content found
  cases nodeEvent with
  | packet arrival packet =>
      obtain ⟨type, chunk, record, applies, named⟩ := writes
      obtain ⟨caller, arriving⟩ := arriving_of_onFiles sound admitted happens
      obtain ⟨sender, inputs, contents, index, offered, reaches, readable, _more, own⟩ :=
        arriving.chunk type
      have decoded := applies.decoded
      rw [own, chunkPacket, readFileChunk_toCbor, Option.some.injEq] at decoded
      have data : world.vendor.base64Decode chunk.b64data = piece contents index := by
        rw [← decoded]
        exact world.vendor.base64Decode_encode _
      have key : cstr chunk.xferId = cstr inputs.xferId := by
        rw [← decoded]
      have keptIn := keptIn_of_record distinct (traced _ _ _ applies.found) offered key
      simp only [NodeState.step] at found
      rw [handleTransferPacket_chunk type, handleFileChunk_applied applies] at found
      simp only [appliedChunk] at found
      rw [Node.read_update, Node.read_write_same _ _ _ named, Option.some.injEq, data] at found
      rw [← found]
      have same : (state.machines event.machine).files.node.read
            (world.sites event.machine).host record.filepath =
          (state.machines event.machine).files.node.read (world.sites event.machine).host path :=
        congrArg (state.machines event.machine).files.node.files named.symm
      rw [same]
      rw [← named] at keptIn
      exact composed_chunk offered reaches keptIn readable composed _ _ _
  | cancel id now => exact writes.elim
  | launch inputs => exact writes.elim
  | advance index answer => exact writes.elim

variable [DecidableEq ι] {files : ι → Bytes → Option Bytes}

theorem FilesComposed.step {state : State ι}
    (composed : FilesComposed world happened files state) (sound : Sound world happened state)
    (traced : RecordsTraced world happened state) (distinct : DistinctOffers happened)
    {event : Event ι} (admitted : state.Admits world event) :
    FilesComposed world happened files (state.step world event) := by
  intro me path content found
  by_cases here : event.machine = me
  · rw [← here] at found ⊢
    rw [State.step_machine_self] at found
    simp only [Machine.step] at found
    cases happens : event.happening.onFiles with
    | none =>
        rw [happens] at found
        exact composed _ path content found
    | some nodeEvent =>
        rw [happens, EventRun.optionally_some] at found
        by_cases writes : WritesFile world.vendor (world.sites event.machine).host
            (state.machines event.machine).files path nodeEvent
        · exact written_composed sound traced distinct admitted happens writes
            (composed _ path) content found
        · rw [step_file writes] at found
          exact composed _ path content found
  · rw [state.step_machine_of_ne here] at found
    exact composed me path content found

end Ids

/-! ### Two bytes -/

namespace Reference

def heard : Messaging.Arrival :=
  { random := fun _index => 0
    now := 0
    stores := true }

abbrev handling (packet : Packet) : Event Bool :=
  { machine := true
    happening := .handle (.sendFile false 0) packet Shr.Reference.arrival heard }

abbrev reading (packet : Packet) : Event Bool :=
  answering false 0 { ready with packet := some packet }

def accept : Packet :=
  acceptPacket world.vendor (inputs sentFile).xferId

def chunk : Packet :=
  nthChunk world.vendor (call sentFile) 0 0

def ack : Packet :=
  ackPacket world.vendor (inputs sentFile).xferId 2

def completion : Packet :=
  completePacket world.vendor (inputs sentFile)

/-- The second machine takes the offer, and the first one sends its bytes. -/
def sending : List (Event Bool) :=
  offering ++ handling offer :: reading accept :: List.replicate 3 (answering false 0 ready)

def completing : List (Event Bool) :=
  sending ++ handling chunk :: reading ack :: List.replicate 2 (answering false 0 ready)

def offerOf : FileOffer :=
  { xferId := (inputs sentFile).xferId
    filename := pathFilename Shr.Reference.sentPath
    fileSize := 2
    checksum := (inputs sentFile).checksum
    senderId := Shr.Reference.ownId }

def offered : TransferRecord :=
  offeredRecord (world.sites true).host Shr.Reference.arrival offerOf

theorem offered_filepath :
    offered.stored.filepath = ascii "/home/user/shr_received/notes.txt" := by
  decide

theorem offer_handled {node : Node}
    (fresh : pausedRecord node (inputs sentFile).xferId = none) :
    handleTransferPacket world.vendor (world.sites true).host Shr.Reference.arrival offer node =
      { node := { node with transfers := node.transfers.upsertTransfer offered }
        opened := none
        replies := [accept] } := by
  rw [handleTransferPacket_offer rfl]
  exact handleFileOffer_stored rfl (readFileOffer_toCbor world.vendor _ offerOf) fresh

theorem chunk_handled {node : Node} {record : TransferRecord}
    (found : node.transfers.getTransfer (inputs sentFile).xferId = some record)
    (file : namesFile record.filepath = true) :
    handleTransferPacket world.vendor (world.sites true).host Shr.Reference.arrival chunk node =
      { node :=
          (node.write (world.sites true).host record.filepath sentFile).update
            Shr.Reference.arrival (inputs sentFile).xferId 2 .inProgress
        opened := some record.filepath
        replies := [ack] } := by
  have decoded : readFileChunk world.vendor chunk.payload =
      some (chunkOf world.vendor (inputs sentFile).xferId 0 sentFile) :=
    readFileChunk_toCbor world.vendor
      (chunkOf world.vendor (inputs sentFile).xferId 0 sentFile) _ _
  have content (previous : Option Bytes) : chunkedContent previous 0 sentFile = sentFile :=
    @chunkedContent_ofNat previous 0 (by decide) sentFile
  rw [handleTransferPacket_chunk rfl,
    handleFileChunk_whole rfl (Shr.Reference.arrival_sound.written _) decoded found file, content]
  rfl

def offeredNode : Node :=
  { (NodeState.initial (disks true)).node with
    transfers := (NodeState.initial (disks true)).node.transfers.upsertTransfer offered }

def receivedNode : Node :=
  (offeredNode.write (world.sites true).host offered.stored.filepath sentFile).update
    Shr.Reference.arrival (inputs sentFile).xferId 2 .inProgress

theorem offeredNode_record :
    offeredNode.transfers.getTransfer (inputs sentFile).xferId = some offered.stored :=
  TransferTable.getTransfer_upsert_self _ _ rfl

theorem offered_namesFile : namesFile offered.stored.filepath = true := by
  rw [offered_filepath]
  decide

theorem files_after_offer : ((after sending).machines true).files.node = offeredNode := by
  have happens : (sending.filterMap fun event => (event.at true).bind Happening.onFiles) =
      [.packet Shr.Reference.arrival offer] := rfl
  have fresh : pausedRecord (NodeState.initial (disks true)).node (inputs sentFile).xferId =
      none := rfl
  rw [files_run, happens]
  simp only [NodeState.run, EventRun.run_cons, EventRun.run_nil, NodeState.step, State.initial,
    Machine.initial]
  rw [offer_handled fresh]
  rfl

theorem files_after_chunk : ((after completing).machines true).files.node = receivedNode := by
  have happens : (completing.filterMap fun event => (event.at true).bind Happening.onFiles) =
      [.packet Shr.Reference.arrival offer, .packet Shr.Reference.arrival chunk] := rfl
  have fresh : pausedRecord (NodeState.initial (disks true)).node (inputs sentFile).xferId =
      none := rfl
  rw [files_run, happens]
  simp only [NodeState.run, EventRun.run_cons, EventRun.run_nil, NodeState.step, State.initial,
    Machine.initial]
  rw [offer_handled fresh]
  change (handleTransferPacket world.vendor (world.sites true).host Shr.Reference.arrival chunk
    offeredNode).node = receivedNode
  rw [chunk_handled offeredNode_record offered_namesFile]
  rfl

/-! What the first machine does. -/

theorem after_handling (events : List (Event Bool)) (packet : Packet) :
    after (events ++ [handling packet]) = (after events).step world (handling packet) :=
  EventRun.run_append _ _ _

theorem sender_after_handling (events : List (Event Bool)) (packet : Packet) :
    (after (events ++ [handling packet])).machines false = (after events).machines false := by
  rw [after_handling]
  exact State.step_machine_of_ne _ (by decide : true ≠ false)

theorem offer_traffic :
    (after (offering ++ [handling offer])).traffic =
      [ .dialled (.sendFile false 0) added.ip added.port,
        .sent (.sendFile false 0) offer,
        .answered (.sendFile false 0) accept ] := by
  have emitted : ((after offering).machines (handling offer).machine).emits world.vendor
      (world.sites (handling offer).machine) (handling offer).machine
      (handling offer).happening = [.answered (.sendFile false 0) accept] := by
    have fresh : pausedRecord ((after offering).machines true).files.node
        (inputs sentFile).xferId = none := rfl
    simp only [Machine.emits, Machine.replies]
    rw [offer_handled fresh]
    rfl
  rw [after_handling, State.step, emitted, offering_stands.2.1]
  rfl

theorem sending_stands :
    Stands world (call sentFile) false 0 (.awaitAck 0 0) (after sending) ∧
      (after sending).traffic =
        [ .dialled (.sendFile false 0) added.ip added.port,
          .sent (.sendFile false 0) offer,
          .answered (.sendFile false 0) accept,
          .sent (.sendFile false 0) chunk ] ∧
      ((after sending).machines false).files.node.transfers.getTransfer (inputs sentFile).xferId =
        some ((sentRecord (inputs sentFile) Shr.Reference.sentPath).stored.progressed 0
          .inProgress 0) := by
  have handled : Stands world (call sentFile) false 0 .awaitAnswer
      (after (offering ++ [handling offer])) := offering_stands.1
  have recorded := offering_stands.2.2
  obtain ⟨first, firstNode, _, firstTraffic⟩ :=
    handled.advance rfl { ready with packet := some accept }
  obtain ⟨second, secondNode, _, secondTraffic⟩ := first.advance (by rfl) ready
  obtain ⟨third, thirdNode, _, thirdTraffic⟩ := second.advance (by rfl) ready
  obtain ⟨fourth, fourthNode, _, fourthTraffic⟩ := third.advance (by rfl) ready
  refine ⟨fourth, ?_, ?_⟩
  · refine fourthTraffic.trans ?_
    rw [thirdTraffic, secondTraffic, firstTraffic, offer_traffic]
    rfl
  · have ended : ((after sending).machines false).files.node = _ := fourthNode
    rw [ended]
    simp only [SendOp.effect, thirdNode, secondNode, firstNode]
    exact (TransferTable.getTransfer_update_self _ _ _ _ rfl).trans (congrArg _ recorded)

theorem chunk_traffic :
    (after (sending ++ [handling chunk])).traffic =
      [ .dialled (.sendFile false 0) added.ip added.port,
        .sent (.sendFile false 0) offer,
        .answered (.sendFile false 0) accept,
        .sent (.sendFile false 0) chunk,
        .answered (.sendFile false 0) ack ] := by
  have emitted : ((after sending).machines (handling chunk).machine).emits world.vendor
      (world.sites (handling chunk).machine) (handling chunk).machine
      (handling chunk).happening = [.answered (.sendFile false 0) ack] := by
    simp only [Machine.emits, Machine.replies]
    rw [files_after_offer, chunk_handled offeredNode_record offered_namesFile]
    rfl
  rw [after_handling, State.step, emitted, sending_stands.2.1]
  rfl

theorem completing_stands :
    Stands world (call sentFile) false 0 (.completeClose 0 1 1) (after completing) ∧
      (after completing).traffic =
        [ .dialled (.sendFile false 0) added.ip added.port,
          .sent (.sendFile false 0) offer,
          .answered (.sendFile false 0) accept,
          .sent (.sendFile false 0) chunk,
          .answered (.sendFile false 0) ack,
          .sent (.sendFile false 0) completion ] ∧
      ∃ record, ((after completing).machines false).files.node.transfers.getTransfer
          (inputs sentFile).xferId = some record ∧ record.totalBytes = 2 := by
  have unmoved := sender_after_handling sending chunk
  have handled : Stands world (call sentFile) false 0 (.awaitAck 0 0)
      (after (sending ++ [handling chunk])) := by
    unfold Stands
    rw [unmoved]
    exact sending_stands.1
  have recorded := sending_stands.2.2
  rw [← unmoved] at recorded
  obtain ⟨first, firstNode, _, firstTraffic⟩ :=
    handled.advance rfl { ready with packet := some ack }
  obtain ⟨second, secondNode, _, secondTraffic⟩ := first.advance (by rfl) ready
  have ended : loopPoint sentFile 0 1 = .complete 0 1 1 := if_neg (by decide)
  have leaving : Stands world (call sentFile) false 0 (.complete 0 1 1) _ := ended ▸ second
  obtain ⟨third, thirdNode, _, thirdTraffic⟩ := leaving.advance rfl ready
  refine ⟨third, ?_, ?_⟩
  · refine thirdTraffic.trans ?_
    rw [secondTraffic, firstTraffic, chunk_traffic]
    rfl
  · have last : ((after completing).machines false).files.node = _ := thirdNode
    rw [last]
    simp only [SendOp.effect, secondNode, firstNode]
    exact ⟨_, (TransferTable.getTransfer_update_self _ _ _ _ rfl).trans (congrArg _ recorded), rfl⟩

/-! The run can happen. -/

theorem reading_admitted {state : State Bool} {packet : Packet}
    (answered : .answered (.sendFile false 0) packet ∈ state.traffic) :
    state.Admits world (reading packet) := by
  intro next other _present same
  cases same
  exact answered

theorem handling_admitted {state : State Bool} {packet : Packet}
    (dialled : .dialled (.sendFile false 0) added.ip added.port ∈ state.traffic)
    (sent : .sent (.sendFile false 0) packet ∈ state.traffic) :
    state.Admits world (handling packet) :=
  ⟨sent, added.ip, added.port, dialled,
    (by decide : world.listener added.ip added.port = some true)⟩

theorem sending_admissible : Admissible world (State.initial disks) sending := by
  have offers : (after offering).Admits world (handling offer) := by
    apply handling_admitted
    · simp [offering_stands.2.1]
    · simp [offering_stands.2.1]
  have accepts : (after (offering ++ [handling offer])).Admits world (reading accept) := by
    apply reading_admitted
    simp [offer_traffic]
  exact (EventRun.along_append _ _ _ _).mpr ⟨offering_admissible, offers, accepts,
    quiet_admitted _, quiet_admitted _, quiet_admitted _, trivial⟩

theorem completing_admissible : Admissible world (State.initial disks) completing := by
  have arrives : (after sending).Admits world (handling chunk) := by
    apply handling_admitted
    · simp [sending_stands.2.1]
    · simp [sending_stands.2.1]
  have acks : (after (sending ++ [handling chunk])).Admits world (reading ack) := by
    apply reading_admitted
    simp [chunk_traffic]
  refine (EventRun.along_append _ _ _ _).mpr ⟨sending_admissible, arrives, ?_, quiet_admitted _,
    quiet_admitted _, trivial⟩
  rw [after_handling] at acks
  exact acks

theorem launched_once {machine : Bool} {launched : SendInputs}
    (member : { machine := machine, happening := .files (.launch launched) } ∈ completing) :
    machine = false ∧ launched = inputs sentFile := by
  simpa [completing, sending, offering, addition, launching, answering, handling, call] using
    member

theorem completing_distinct : DistinctOffers (· ∈ completing) := by
  intro one other inputs others member memberToo _sameId
  obtain ⟨isFirst, isCall⟩ := launched_once member
  obtain ⟨isFirstToo, isCallToo⟩ := launched_once memberToo
  rw [isFirst, isFirstToo, isCall, isCallToo]
  exact ⟨rfl, rfl⟩

/-! What the second machine has received. -/

theorem chunk_recorded :
    ((after completing).machines true).files.node.transfers.getTransfer (inputs sentFile).xferId =
      some (offered.stored.progressed 2 .inProgress 0) := by
  rw [files_after_chunk]
  exact (TransferTable.getTransfer_update_self _ _ _ _ rfl).trans
    (congrArg _ offeredNode_record)

end Reference

/-! ### Every run -/

section Runs

variable [DecidableEq ι] (world : World ι) (files : ι → Bytes → Option Bytes)

theorem recordsTraced_of_admissible {events : List (Event ι)}
    (admissible : Admissible world (State.initial files) events) :
    RecordsTraced world (· ∈ events) ((State.initial files).run world events) := by
  refine (admissible.invariant (RecordsTraced world (· ∈ events)) (Sound.initial world _ files)
    ?_ ?_).2
  · intro before event sound _member admitted traced
    exact traced.step sound admitted
  · intro me id record impossible
    cases impossible

/-- In every run of any number of machines, each record of a transfer describes
the file of a call that some user has made.  An outbound record stands on the
machine of the call, an inbound one on a machine that listens at an address the
caller had added for the recipient; there it names the caller, and a file of the
received directory. -/
theorem recorded_transfers_were_offered {events : List (Event ι)}
    (admissible : Admissible world (State.initial files) events) (me : ι) (id : Bytes)
    (record : TransferRecord)
    (stored : (((State.initial files).run world events).machines
      me).files.node.transfers.getTransfer id = some record) :
    ∃ (sender : ι) (inputs : SendInputs) (absPath : Bytes),
      { machine := sender
        happening := .files (.launch inputs) } ∈ events ∧
      inputs.ownId = (world.sites sender).ownId ∧ inputs.canonical = some absPath ∧
      cstr id = inputs.xferId ∧ record.totalBytes = inputs.fileSize ∧
      record.checksum = cstr inputs.checksum ∧
      (record.outbound = true ∧ sender = me ∧ record.peerId = cstr inputs.recipientId ∧
          record.filepath = cstr absPath ∨
        record.outbound = false ∧ record.peerId = cstr (world.sites sender).ownId ∧
          record.filename = cstr (sanitizeFilename (pathFilename absPath)) ∧
          record.filepath = destination (world.sites me).host (pathFilename absPath) ∧
          ∃ ip port,
            { machine := sender
              happening := .peers (.addPeer true inputs.recipientId ip port) } ∈ events ∧
            world.listener (cstr ip) port = some me) := by
  have text (inputs : SendInputs) : cstr inputs.xferId = inputs.xferId :=
    cstr_of_nulFree (generateUuid_nulFree inputs.random)
  cases recordsTraced_of_admissible world files admissible me id record stored with
  | @sent inputs absPath offered known key same =>
      exact ⟨me, inputs, absPath, offered.launched, offered.ownId, known, key.trans (text inputs),
        same.totalBytes, same.checksum,
        .inl ⟨same.outbound, rfl, same.peerId, same.filepath⟩⟩
  | @received sender inputs absPath receives key copy =>
      have named := copy.peerId
      rw [receives.offered.ownId] at named
      exact ⟨sender, inputs, absPath, receives.offered.launched, receives.offered.ownId,
        receives.known, key.trans (text inputs), copy.totalBytes, copy.checksum,
        .inr ⟨copy.outbound, named, copy.filename, copy.filepath, receives.reaches⟩⟩

/-- The record of the second machine describes the file of the first. -/
theorem offer_was_made : ∃ (sender : Bool) (inputs : SendInputs),
    { machine := sender
      happening := .files (.launch inputs) } ∈ Reference.completing ∧
    Reference.offered.stored.totalBytes = inputs.fileSize := by
  obtain ⟨sender, inputs, _absPath, launched, _ownId, _known, _key, size, _rest⟩ :=
    recorded_transfers_were_offered Reference.world Reference.disks
      Reference.completing_admissible true _ _ Reference.chunk_recorded
  exact ⟨sender, inputs, launched, size⟩

/-- If no two calls draw the same id, the machines of a network agree on every
transfer: two records under one id give the same size and digest, and two
inbound ones the same sender and the same name. -/
theorem machines_agree_on_transfers {events : List (Event ι)}
    (admissible : Admissible world (State.initial files) events)
    (distinct : DistinctOffers (· ∈ events)) (one other : ι) (id : Bytes)
    (record copy : TransferRecord)
    (stored : (((State.initial files).run world events).machines
      one).files.node.transfers.getTransfer id = some record)
    (copied : (((State.initial files).run world events).machines
      other).files.node.transfers.getTransfer id = some copy) :
    record.totalBytes = copy.totalBytes ∧ record.checksum = copy.checksum ∧
      (record.outbound = copy.outbound →
        record.peerId = copy.peerId ∧ record.filename = copy.filename) := by
  have traced := recordsTraced_of_admissible world files admissible
  obtain ⟨sender, inputs, absPath, offered, known, key, describes⟩ :=
    (traced one id record stored).describes
  obtain ⟨writer, others, otherPath, offeredToo, knownToo, keyToo, describesToo⟩ :=
    (traced other id copy copied).describes
  have sameInputs := (distinct.same offered offeredToo (key.symm.trans keyToo)).2
  rw [← sameInputs] at knownToo describesToo
  rw [known, Option.some.injEq] at knownToo
  rw [← knownToo] at describesToo
  refine ⟨?_, ?_, ?_⟩
  · rw [describes.totalBytes, describesToo.totalBytes]
  · rw [describes.checksum, describesToo.checksum]
  · intro sameSide
    rw [describes.peerId, describesToo.peerId, describes.filename, describesToo.filename, sameSide]
    exact ⟨rfl, rfl⟩

/-- Both machines have recorded the same size. -/
theorem offer_agreed :
    ∃ record, ((Reference.after Reference.completing).machines
        false).files.node.transfers.getTransfer (Reference.inputs Reference.sentFile).xferId =
          some record ∧
      record.totalBytes = Reference.offered.stored.totalBytes := by
  obtain ⟨record, found, _two⟩ := Reference.completing_stands.2.2
  exact ⟨record, found, (machines_agree_on_transfers Reference.world Reference.disks
    Reference.completing_admissible Reference.completing_distinct false true _ _ _ found
    Reference.chunk_recorded).1⟩

end Runs

end Fleet
end Shr
