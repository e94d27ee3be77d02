/-
Handlers that run at once.

Every connection has a thread of its own, and a handler is not one step of the
node: it reads the record, opens the file, writes to it and updates the record
in separate calls, between which other threads go on.  `handlePacket` is a
handler in these calls.  Run alone it does what the handler of one step does;
and connections whose transfers have different ids and different files do
together what they do one after the other.
-/

import Shr.Library.Locality
import Shr.Transfer.Interference

namespace Shr

/-! ### The calls of a handler -/

/-- The calls with which a handler reads or changes the node.  A call that fails
leaves the node as it is and is not made here. -/
inductive HandlerOp where
  | getTransfer (id : Bytes)
  | upsertTransfer (record : TransferRecord)
  | updateTransferProgress (id : Bytes) (transferred : UInt64) (state : TransferState)
      (now : Int64)
  | openFile (path : Bytes) (truncates : Bool)
  | appendFile (path data : Bytes)
  | readFile (path : Bytes)

def HandlerOp.Reply : HandlerOp → Type
  | .getTransfer _ => Option TransferRecord
  | .readFile _ => Option Bytes
  | _ => Unit

def handlerSignature : Signature :=
  { Op := HandlerOp
    Reply := HandlerOp.Reply }

abbrev HandlerProgram := Program handlerSignature

/-- `ofstream` with `trunc` empties the file, with `app` it makes one if there is
none. -/
def openedContent (previous : Option Bytes) (truncates : Bool) : Bytes :=
  if truncates then [] else previous.getD []

def HandlerOp.effect (host : Host) : (op : HandlerOp) → Node → op.Reply × Node
  | .getTransfer id, node => (node.transfers.getTransfer id, node)
  | .upsertTransfer record, node =>
      ((), { node with transfers := node.transfers.upsertTransfer record })
  | .updateTransferProgress id transferred state now, node =>
      ((), { node with
        transfers := node.transfers.updateTransferProgress id transferred state now })
  | .openFile path truncates, node =>
      ((), node.write host path (openedContent (node.read host path) truncates))
  | .appendFile path data, node =>
      ((), node.write host path ((node.read host path).getD [] ++ data))
  | .readFile path, node => (node.read host path, node)

def answerHandler (host : Host) (op : handlerSignature.Op) (node : Node) :
    handlerSignature.Reply op × Node :=
  HandlerOp.effect host op node

section Programs

variable (vendor : Vendor) (host : Host)

def askHandler (op : HandlerOp) : HandlerProgram op.Reply :=
  @Program.perform handlerSignature op

def getTransfer (id : Bytes) : HandlerProgram (Option TransferRecord) :=
  askHandler (.getTransfer id)

def openFile (path : Bytes) (truncates : Bool) : HandlerProgram Unit :=
  askHandler (.openFile path truncates)

def readFile (path : Bytes) : HandlerProgram (Option Bytes) :=
  askHandler (.readFile path)

def askIf (condition : Bool) (op : HandlerOp) : HandlerProgram Unit :=
  if condition then do
    let _done ← askHandler op
    return ()
  else return ()

/-- The packets that a handler sends back are its result. -/
def offerProgram (arrival : Arrival) (payload : Bytes) : HandlerProgram (List Packet) :=
  match readFileOffer vendor arrival.random payload with
  | none => return []
  | some offer => do
      let existing ← getTransfer offer.xferId
      match existing.filter fun record => record.state = .paused with
      | some existing => return [resumePacket vendor existing.transferredBytes]
      | none =>
          askIf arrival.stores (.upsertTransfer (offeredRecord host arrival offer))
          return [acceptPacket vendor offer.xferId]

/-- The stream passes its bytes on when they are written, or late: when it is
closed at the end of the handler. -/
def chunkProgram (arrival : Arrival) (late : Bool) (payload : Bytes) :
    HandlerProgram (List Packet) :=
  match readFileChunk vendor payload with
  | none => return []
  | some chunk =>
      let chunkData := vendor.base64Decode chunk.b64data
      if sha256Bytes vendor chunkData ≠ chunk.checksum then return []
      else do
        match ← getTransfer chunk.xferId with
        | none => return []
        | some record =>
            if (arrival.opens && namesFile record.filepath) = false then return []
            else
              let written := chunkData.take (arrival.wrote.getD chunkData.length)
              let seeks := decide ¬chunk.offset.toInt64 < 0
              let transferred := newTransferred chunk.offset chunkData
              openFile record.filepath (chunk.offset = 0)
              askIf (seeks && !late) (.appendFile record.filepath written)
              askIf arrival.stores (.updateTransferProgress chunk.xferId transferred .inProgress
                arrival.updatedAt)
              askIf (seeks && late) (.appendFile record.filepath written)
              return [ackPacket vendor chunk.xferId transferred]

def completeProgram (arrival : Arrival) (payload : Bytes) : HandlerProgram (List Packet) :=
  match readFileComplete vendor payload with
  | none => return []
  | some complete => do
      match ← getTransfer complete.xferId with
      | none => return []
      | some record =>
          let content ← readFile record.filepath
          if sha256File vendor content ≠ complete.checksum then
            askIf arrival.stores (.updateTransferProgress complete.xferId record.transferredBytes
              .failed arrival.updatedAt)
          else
            askIf arrival.stores (.updateTransferProgress complete.xferId record.totalBytes
              .completed arrival.updatedAt)
          return []

structure Handling where
  arrival : Arrival
  late : Bool
  packet : Packet

def Handling.program (handling : Handling) : HandlerProgram (List Packet) :=
  match handling.packet.type with
  | .fileOffer => offerProgram vendor host handling.arrival handling.packet.payload
  | .fileChunk => chunkProgram vendor handling.arrival handling.late handling.packet.payload
  | .fileComplete => completeProgram vendor handling.arrival handling.packet.payload
  | _ => return []

theorem Handling.program_chunk (handling : Handling) (type : handling.packet.type = .fileChunk) :
    handling.program vendor host =
      chunkProgram vendor handling.arrival handling.late handling.packet.payload := by
  unfold Handling.program
  rw [type]

def servePackets : List Handling → HandlerProgram (List Packet)
  | [] => return []
  | handling :: rest => do
      let replies ← handling.program vendor host
      let later ← servePackets rest
      return replies ++ later

def handlePackets : List Handling → Node → List Packet × Node
  | [], node => ([], node)
  | handling :: rest, node =>
      let handled := handleTransferPacket vendor host handling.arrival handling.packet node
      let later := handlePackets rest handled.node
      (handled.replies ++ later.1, later.2)

end Programs

/-! ### A handler that runs alone -/

section Alone

variable {vendor : Vendor} {host : Host}

theorem run_getTransfer {α : Type} (id : Bytes)
    (next : Option TransferRecord → HandlerProgram α) (node : Node) :
    (getTransfer id >>= next).run (answerHandler host) node =
      (next (node.transfers.getTransfer id)).run (answerHandler host) node :=
  rfl

theorem run_openFile {α : Type} (path : Bytes) (truncates : Bool)
    (next : Unit → HandlerProgram α) (node : Node) :
    (openFile path truncates >>= next).run (answerHandler host) node =
      (next ()).run (answerHandler host)
        (node.write host path (openedContent (node.read host path) truncates)) :=
  rfl

theorem run_readFile {α : Type} (path : Bytes) (next : Option Bytes → HandlerProgram α)
    (node : Node) :
    (readFile path >>= next).run (answerHandler host) node =
      (next (node.read host path)).run (answerHandler host) node :=
  rfl

theorem run_askIf {α : Type} (condition : Bool) (op : HandlerOp) (next : Unit → HandlerProgram α)
    (node : Node) :
    (askIf condition op >>= next).run (answerHandler host) node =
      (next ()).run (answerHandler host)
        (if condition then (op.effect host node).2 else node) := by
  cases condition <;> rfl

theorem run_offerProgram (arrival : Arrival) (payload : Bytes) (node : Node) :
    (offerProgram vendor host arrival payload).run (answerHandler host) node =
      ((handleFileOffer vendor host arrival payload node).replies,
        (handleFileOffer vendor host arrival payload node).node) := by
  unfold offerProgram handleFileOffer
  cases readFileOffer vendor arrival.random payload with
  | none => rfl
  | some offer =>
      simp only
      rw [run_getTransfer, pausedRecord]
      cases (node.transfers.getTransfer offer.xferId).filter
          fun record => record.state = .paused with
      | some existing => rfl
      | none =>
          simp only
          rw [run_askIf]
          cases arrival.stores <;> rfl

theorem write_opened (node : Node) (path : Bytes) (offset : UInt64) (written : Bytes) :
    (if decide ¬offset.toInt64 < 0 then
        ((HandlerOp.appendFile path written).effect host
          (node.write host path (openedContent (node.read host path) (offset = 0)))).2
      else node.write host path (openedContent (node.read host path) (offset = 0))) =
      node.write host path (chunkedContent (node.read host path) offset written) := by
  have twice (first second : Bytes) :
      (node.write host path first).write host path second = node.write host path second := by
    unfold Node.write
    congr 1
    funext file
    simp only
    split <;> rfl
  have opened (content : Bytes) : (node.write host path content).read host path = some content :=
    if_pos rfl
  unfold chunkedContent
  by_cases seeks : offset.toInt64 < 0
  · simp only [openedContent, seeks, not_true_eq_false, decide_false, if_true,
      Bool.false_eq_true, if_false, decide_eq_true_eq]
  · simp only [HandlerOp.effect, openedContent, seeks, not_false_eq_true, decide_true, if_true,
      if_false, opened, Option.getD_some, twice, decide_eq_true_eq]

theorem update_append (arrival : Arrival) (id path data : Bytes) (transferred : UInt64)
    (state : TransferState) (node : Node) :
    ((HandlerOp.appendFile path data).effect host (node.update arrival id transferred state)).2 =
      ((HandlerOp.appendFile path data).effect host node).2.update arrival id transferred state :=
  rfl

theorem run_update {α : Type} (arrival : Arrival) (id : Bytes) (transferred : UInt64)
    (state : TransferState) (next : Unit → HandlerProgram α) (node : Node) :
    (askIf arrival.stores (.updateTransferProgress id transferred state arrival.updatedAt) >>=
        next).run (answerHandler host) node =
      (next ()).run (answerHandler host) (node.update arrival id transferred state) := by
  rw [run_askIf]
  unfold Node.update
  cases arrival.stores <;> rfl

/-- It does not matter when the stream passes its bytes on. -/
theorem run_chunkProgram (arrival : Arrival) (late : Bool) (payload : Bytes) (node : Node) :
    (chunkProgram vendor arrival late payload).run (answerHandler host) node =
      ((handleFileChunk vendor host arrival payload node).replies,
        (handleFileChunk vendor host arrival payload node).node) := by
  unfold chunkProgram handleFileChunk
  cases readFileChunk vendor payload with
  | none => rfl
  | some chunk =>
      simp only
      by_cases differs : sha256Bytes vendor (vendor.base64Decode chunk.b64data) ≠ chunk.checksum
      · rw [if_pos differs, if_pos differs]
        rfl
      · rw [if_neg differs, if_neg differs, run_getTransfer]
        cases node.transfers.getTransfer chunk.xferId with
        | none => rfl
        | some record =>
            simp only
            by_cases closed : (arrival.opens && namesFile record.filepath) = false
            · rw [if_pos closed, if_pos closed]
              rfl
            · rw [if_neg closed, if_neg closed, run_openFile, run_askIf, run_update, run_askIf,
                ← write_opened]
              cases late with
              | false =>
                  simp only [Bool.not_false, Bool.and_true, Bool.and_false, Bool.false_eq_true,
                    if_false]
                  rfl
              | true =>
                  simp only [Bool.not_true, Bool.and_true, Bool.and_false, Bool.false_eq_true,
                    if_false, update_append]
                  split <;> rfl

theorem midway_getTransfer {α : Type} (id : Bytes)
    (next : Option TransferRecord → HandlerProgram α) (count : Nat) (node : Node) :
    (getTransfer id >>= next).midway (answerHandler host) (count + 1) node =
      (next (node.transfers.getTransfer id)).midway (answerHandler host) count node :=
  rfl

/-- When the stream passes its bytes on late, there is a moment at which the record has
been updated and the file has only been opened. -/
theorem midway_chunkProgram {arrival : Arrival} (sound : arrival.Sound) {payload : Bytes}
    {node : Node} {xferId : Bytes} {offset : UInt64} {data : Bytes} {record : TransferRecord}
    (decoded : readFileChunk vendor payload = some (chunkOf vendor xferId offset data))
    (found : node.transfers.getTransfer xferId = some record)
    (file : namesFile record.filepath = true) :
    (chunkProgram vendor arrival true payload).midway (answerHandler host) 3 node =
      (node.write host record.filepath
        (openedContent (node.read host record.filepath) (offset = 0))).update arrival xferId
          (newTransferred offset data) .inProgress := by
  have same : vendor.base64Decode (chunkOf vendor xferId offset data).b64data = data :=
    vendor.base64Decode_encode data
  have intact : ¬sha256Bytes vendor data ≠ (chunkOf vendor xferId offset data).checksum :=
    fun differs => differs rfl
  have opens : ¬(arrival.opens && namesFile record.filepath) = false := by
    rw [sound.opens, file]
    decide
  have wanted : node.transfers.getTransfer (chunkOf vendor xferId offset data).xferId =
      some record := found
  unfold chunkProgram
  rw [decoded]
  simp only [same, if_neg intact]
  rw [midway_getTransfer, wanted]
  simp only [if_neg opens, Bool.not_true, Bool.and_false]
  unfold Node.update
  rw [sound.stores]
  rfl

theorem run_completeProgram (arrival : Arrival) (payload : Bytes) (node : Node) :
    (completeProgram vendor arrival payload).run (answerHandler host) node =
      ((handleFileComplete vendor host arrival payload node).replies,
        (handleFileComplete vendor host arrival payload node).node) := by
  unfold completeProgram handleFileComplete
  cases readFileComplete vendor payload with
  | none => rfl
  | some complete =>
      simp only
      rw [run_getTransfer]
      cases node.transfers.getTransfer complete.xferId with
      | none => rfl
      | some record =>
          simp only
          rw [run_readFile]
          by_cases differs : sha256File vendor (node.read host record.filepath) ≠ complete.checksum
          · rw [if_pos differs, if_pos differs, run_update]
            rfl
          · rw [if_neg differs, if_neg differs, run_update]
            rfl

theorem Handling.run_program (handling : Handling) (node : Node) :
    (handling.program vendor host).run (answerHandler host) node =
      ((handleTransferPacket vendor host handling.arrival handling.packet node).replies,
        (handleTransferPacket vendor host handling.arrival handling.packet node).node) := by
  unfold Handling.program handleTransferPacket
  cases handling.packet.type with
  | fileOffer => exact run_offerProgram _ _ _
  | fileChunk => exact run_chunkProgram _ _ _ _
  | fileComplete => exact run_completeProgram _ _ _
  | _ => rfl

theorem run_servePackets (handlings : List Handling) (node : Node) :
    (servePackets vendor host handlings).run (answerHandler host) node =
      handlePackets vendor host handlings node := by
  induction handlings generalizing node with
  | nil => rfl
  | cons handling rest ih =>
      unfold servePackets handlePackets
      rw [Program.run_bind, handling.run_program, Program.run_bind, ih]
      rfl

end Alone

/-! ### Halfway through a handler -/

section Halfway

variable {vendor : Vendor} {host : Host} {α : Type}

end Halfway

/-! ### The part of a connection -/

structure Footprint where
  id : Bytes
  files : Set Bytes

namespace Footprint

variable (host : Host) (footprint : Footprint)

structure Agrees (left right : Node) : Prop where
  record : left.transfers.getTransfer footprint.id = right.transfers.getTransfer footprint.id
  files : ∀ file ∈ footprint.files, left.files file = right.files file

def Owns : HandlerOp → Prop
  | .getTransfer id => cstr footprint.id = cstr id
  | .upsertTransfer record =>
      cstr footprint.id = cstr record.id ∧ host.resolve (cstr record.filepath) ∈ footprint.files
  | .updateTransferProgress id _transferred _state _now => cstr footprint.id = cstr id
  | .openFile path _truncates => host.resolve path ∈ footprint.files
  | .appendFile path _data => host.resolve path ∈ footprint.files
  | .readFile path => host.resolve path ∈ footprint.files

def Good (node : Node) : Prop :=
  ∀ record, node.transfers.getTransfer footprint.id = some record →
    host.resolve record.filepath ∈ footprint.files

variable {host footprint} {left right node : Node} {op : HandlerOp}

theorem agrees_equivalence : Equivalence footprint.Agrees where
  refl _node := ⟨rfl, fun _file _member => rfl⟩
  symm agrees := ⟨agrees.record.symm, fun file member => (agrees.files file member).symm⟩
  trans first second := ⟨first.record.trans second.record,
    fun file member => (first.files file member).trans (second.files file member)⟩

theorem Agrees.good (agrees : footprint.Agrees left right) (good : footprint.Good host left) :
    footprint.Good host right := by
  intro record found
  exact good record (agrees.record.trans found)

theorem Agrees.read (agrees : footprint.Agrees left right) {path : Bytes}
    (inside : host.resolve path ∈ footprint.files) : left.read host path = right.read host path :=
  agrees.files _ inside

theorem Agrees.write (agrees : footprint.Agrees left right) (path content : Bytes) :
    footprint.Agrees (left.write host path content) (right.write host path content) where
  record := agrees.record
  files file member := by
    simp only [Node.write]
    rw [agrees.files file member]

theorem agrees_write {path : Bytes} (outside : host.resolve path ∉ footprint.files)
    (content : Bytes) : footprint.Agrees node (node.write host path content) where
  record := rfl
  files file member := by
    have different : file ≠ host.resolve path := fun same => outside (same ▸ member)
    simp only [Node.write, if_neg different]

theorem Good.kept (owns : footprint.Owns host op) (good : footprint.Good host node) :
    footprint.Good host (op.effect host node).2 := by
  intro record found
  cases op with
  | getTransfer id => exact good record found
  | upsertTransfer stored =>
      simp only [HandlerOp.effect] at found
      rw [TransferTable.getTransfer_upsert_self _ _ owns.1, Option.some.injEq] at found
      rw [← found]
      exact owns.2
  | updateTransferProgress id transferred state now =>
      simp only [HandlerOp.effect] at found
      rw [TransferTable.getTransfer_update_self _ _ _ _ owns] at found
      obtain ⟨earlier, present, same⟩ := Option.map_eq_some_iff.mp found
      rw [← same]
      exact good earlier present
  | openFile path truncates => exact good record found
  | appendFile path data => exact good record found
  | readFile path => exact good record found

theorem Agrees.own_step (owns : footprint.Owns host op) (agrees : footprint.Agrees left right) :
    (op.effect host left).1 = (op.effect host right).1 ∧
      footprint.Agrees (op.effect host left).2 (op.effect host right).2 := by
  cases op with
  | getTransfer id =>
      refine ⟨?_, agrees⟩
      simp only [HandlerOp.effect]
      rw [← TransferTable.getTransfer_cstr _ owns, ← TransferTable.getTransfer_cstr _ owns]
      exact agrees.record
  | upsertTransfer record =>
      refine ⟨rfl, ?_, agrees.files⟩
      simp only [HandlerOp.effect]
      rw [TransferTable.getTransfer_upsert_self _ _ owns.1,
        TransferTable.getTransfer_upsert_self _ _ owns.1]
  | updateTransferProgress id transferred state now =>
      refine ⟨rfl, ?_, agrees.files⟩
      simp only [HandlerOp.effect]
      rw [TransferTable.getTransfer_update_self _ _ _ _ owns,
        TransferTable.getTransfer_update_self _ _ _ _ owns, agrees.record]
  | openFile path truncates =>
      simp only [HandlerOp.effect]
      rw [agrees.read owns]
      exact ⟨rfl, agrees.write _ _⟩
  | appendFile path data =>
      simp only [HandlerOp.effect]
      rw [agrees.read owns]
      exact ⟨rfl, agrees.write _ _⟩
  | readFile path => exact ⟨agrees.read owns, agrees⟩

structure Apart (footprint other : Footprint) : Prop where
  id : cstr footprint.id ≠ cstr other.id
  files : ∀ file ∈ footprint.files, file ∉ other.files

theorem agrees_other {other : Footprint} (apart : footprint.Apart other)
    (owns : other.Owns host op) (node : Node) :
    footprint.Agrees node (op.effect host node).2 := by
  have outside {path : Bytes} (inside : host.resolve path ∈ other.files) :
      host.resolve path ∉ footprint.files := fun member =>
    apart.files _ member inside
  cases op with
  | getTransfer id => exact agrees_equivalence.refl node
  | upsertTransfer record =>
      refine ⟨?_, fun _file _member => rfl⟩
      have different : cstr footprint.id ≠ cstr record.id := fun same =>
        apart.id (same.trans owns.1.symm)
      exact (TransferTable.getTransfer_upsert_of_ne _ _ different).symm
  | updateTransferProgress id transferred state now =>
      refine ⟨?_, fun _file _member => rfl⟩
      have different : cstr footprint.id ≠ cstr id := fun same => apart.id (same.trans owns.symm)
      exact (TransferTable.getTransfer_update_of_ne _ _ _ _ different).symm
  | openFile path truncates => exact agrees_write (outside owns) _
  | appendFile path data => exact agrees_write (outside owns) _
  | readFile path => exact agrees_equivalence.refl node

end Footprint

def footprintParts (host : Host) {ι : Type} (footprints : ι → Footprint)
    (apart : ∀ part other, part ≠ other → (footprints part).Apart (footprints other)) :
    Parts (answerHandler host) ι where
  agrees part := (footprints part).Agrees
  equivalence _part := Footprint.agrees_equivalence
  owns part := (footprints part).Owns host
  good part := (footprints part).Good host
  good_of_agrees agrees good := agrees.good good
  good_kept owns good := good.kept owns
  own_step owns agrees := agrees.own_step owns
  other_step node different owns := Footprint.agrees_other (apart _ _ different) owns node

/-! ### Handlers keep to their part -/

/-- A packet of the transfer of a footprint: it carries its id, and if it is an
offer, the received file is one of its files. -/
structure Handling.Within (vendor : Vendor) (host : Host) (footprint : Footprint)
    (handling : Handling) : Prop where
  id : ∀ id, carriedId vendor handling.arrival handling.packet = some id →
    cstr footprint.id = cstr id
  file : handling.packet.type = .fileOffer → ∀ offer,
    readFileOffer vendor handling.arrival.random handling.packet.payload = some offer →
      host.resolve (destination host offer.filename) ∈ footprint.files

section Within

variable {vendor : Vendor} {host : Host} {ι : Type} {footprints : ι → Footprint}
variable {apart : ∀ part other, part ≠ other → (footprints part).Apart (footprints other)}
variable {part : ι} {α : Type}

theorem owned_getTransfer {id : Bytes} (own : cstr (footprints part).id = cstr id)
    {next : Option TransferRecord → HandlerProgram α}
    (rest : ∀ found, (∀ record, found = some record →
        host.resolve record.filepath ∈ (footprints part).files) →
      (footprintParts host footprints apart).Owned part (next found)) :
    (footprintParts host footprints apart).Owned part (getTransfer id >>= next) := by
  refine ⟨own, ?_⟩
  rintro reply ⟨node, good, same⟩
  refine rest reply ?_
  intro record found
  apply good record
  rw [TransferTable.getTransfer_cstr _ own]
  exact same.symm.trans found

theorem owned_readFile {path : Bytes} (inside : host.resolve path ∈ (footprints part).files)
    {next : Option Bytes → HandlerProgram α}
    (rest : ∀ content, (footprintParts host footprints apart).Owned part (next content)) :
    (footprintParts host footprints apart).Owned part (readFile path >>= next) :=
  ⟨inside, fun content _possible => rest content⟩

theorem owned_openFile {path : Bytes} (inside : host.resolve path ∈ (footprints part).files)
    (truncates : Bool) {next : Unit → HandlerProgram α}
    (rest : (footprintParts host footprints apart).Owned part (next ())) :
    (footprintParts host footprints apart).Owned part (openFile path truncates >>= next) :=
  ⟨inside, fun _opened _possible => rest⟩

theorem owned_askIf {op : HandlerOp} (owns : (footprints part).Owns host op) (condition : Bool)
    {next : Unit → HandlerProgram α}
    (rest : (footprintParts host footprints apart).Owned part (next ())) :
    (footprintParts host footprints apart).Owned part (askIf condition op >>= next) := by
  cases condition with
  | false => exact rest
  | true => exact ⟨owns, fun _reply _possible => rest⟩

theorem owned_return (result : α) :
    (footprintParts host footprints apart).Owned part
      (pure result : HandlerProgram α) :=
  trivial

theorem Handling.Within.owned {handling : Handling}
    (within : handling.Within vendor host (footprints part)) :
    (footprintParts host footprints apart).Owned part (handling.program vendor host) := by
  have carries := within.id
  unfold carriedId at carries
  unfold Handling.program
  cases type : handling.packet.type with
  | fileOffer =>
      rw [type] at carries
      simp only [offerProgram]
      cases decoded : readFileOffer vendor handling.arrival.random handling.packet.payload with
      | none => exact owned_return []
      | some offer =>
          have own : cstr (footprints part).id = cstr offer.xferId := by
            apply carries
            simp only [decoded, Option.map_some]
          refine owned_getTransfer own fun found _inside => ?_
          cases found.filter fun record => record.state = .paused with
          | some existing => exact owned_return _
          | none =>
              refine owned_askIf ?_ _ (owned_return _)
              exact ⟨own, within.file type offer decoded⟩
  | fileChunk =>
      rw [type] at carries
      simp only [chunkProgram]
      cases decoded : readFileChunk vendor handling.packet.payload with
      | none => exact owned_return []
      | some chunk =>
          have own : cstr (footprints part).id = cstr chunk.xferId := by
            apply carries
            simp only [decoded, Option.map_some]
          simp only
          split
          · exact owned_return []
          · refine owned_getTransfer own fun found inside => ?_
            cases found with
            | none => exact owned_return []
            | some record =>
                have named := inside record rfl
                simp only
                split
                · exact owned_return []
                · refine owned_openFile named _ ?_
                  refine owned_askIf ?_ _ (owned_askIf ?_ _ (owned_askIf ?_ _ (owned_return _)))
                  · exact named
                  · exact own
                  · exact named
  | fileComplete =>
      rw [type] at carries
      simp only [completeProgram]
      cases decoded : readFileComplete vendor handling.packet.payload with
      | none => exact owned_return []
      | some complete =>
          have own : cstr (footprints part).id = cstr complete.xferId := by
            apply carries
            simp only [decoded, Option.map_some]
          refine owned_getTransfer own fun found inside => ?_
          cases found with
          | none => exact owned_return []
          | some record =>
              refine owned_readFile (inside record rfl) fun content => ?_
              split
              · refine owned_askIf ?_ _ (owned_return _)
                exact own
              · refine owned_askIf ?_ _ (owned_return _)
                exact own
  | _ => exact owned_return []

theorem owned_servePackets {handlings : List Handling}
    (within : ∀ handling ∈ handlings, handling.Within vendor host (footprints part)) :
    (footprintParts host footprints apart).Owned part (servePackets vendor host handlings) := by
  induction handlings with
  | nil => exact owned_return []
  | cons handling rest ih =>
      have first := @Handling.Within.owned vendor host ι footprints apart part handling
        (within handling List.mem_cons_self)
      refine Program.Meets.bind first fun _known _replies _met => ?_
      have later := ih fun other member => within other (List.mem_cons_of_mem handling member)
      exact Program.Meets.bind later fun _known _later _met => owned_return _

end Within

/-! ### Two offers -/

def Footprint.ofName (host : Host) (id filename : Bytes) : Footprint :=
  { id := id
    files := {host.resolve (destination host filename)} }

theorem within_of_packetOf {vendor : Vendor} {host : Host} {id filename : Bytes}
    {handling : Handling}
    (packetOf : PacketOf vendor id filename (.packet handling.arrival handling.packet)) :
    handling.Within vendor host (Footprint.ofName host id filename) where
  id carried found := by
    rw [packetOf.1, Option.some.injEq] at found
    rw [← found]
    rfl
  file type offer decoded := by
    rw [packetOf.2 type offer decoded]
    exact Set.mem_singleton _

namespace Reference

def offerHandling (offer : FileOffer) : Handling :=
  { arrival := arrival
    late := true
    packet :=
      { type := .fileOffer
        payload := vendor.toCbor (offerFields offer) } }

def offers (second : Bool) : FileOffer :=
  if second then otherNameOffer else receivedOffer

def offerFootprints (second : Bool) : Footprint :=
  Footprint.ofName host (offers second).xferId (offers second).filename

theorem offers_apart (part other : Bool) (different : part ≠ other) :
    (offerFootprints part).Apart (offerFootprints other) := by
  have ids : cstr (offers false).xferId ≠ cstr (offers true).xferId := by
    decide
  have files : host.resolve (destination host (offers false).filename) ≠
      host.resolve (destination host (offers true).filename) := by
    decide
  cases part with
  | false =>
      cases other with
      | false => exact absurd rfl different
      | true => exact ⟨ids, fun _file first second => files (first.symm.trans second)⟩
  | true =>
      cases other with
      | false => exact ⟨Ne.symm ids, fun _file first second => files (second.symm.trans first)⟩
      | true => exact absurd rfl different

theorem offers_within (part : Bool) :
    ∀ handling ∈ [offerHandling (offers part)],
      handling.Within vendor host (offerFootprints part) := by
  intro handling member
  rw [List.mem_singleton.mp member]
  exact within_of_packetOf (packetOf_offerArrives (offers part))

end Reference

/-! ### Connections together -/

/-- Connections whose transfers have different ids and different files do together
what they do one after the other: in whatever order the calls of their handlers
take turns, a connection that has handled its packets has sent the replies of
handlers that are one step each, and has left its record and its files as these
leave them, whichever connection comes first. -/
theorem concurrent_handlers_are_serializable {ι : Type} [DecidableEq ι] (vendor : Vendor)
    (host : Host) (footprints : ι → Footprint) (handlings : ι → List Handling)
    (apart : ∀ part other, part ≠ other → (footprints part).Apart (footprints other))
    (within : ∀ part, ∀ handling ∈ handlings part,
      handling.Within vendor host (footprints part))
    (node : Node) (good : ∀ part, (footprints part).Good host node) (schedule : List ι)
    (part : ι) (replies : List Packet)
    (done : (EventRun.run (Threads.step (answerHandler host))
      { programs := fun part => servePackets vendor host (handlings part)
        state := node } schedule).programs part = .done replies) :
    replies = (handlePackets vendor host (handlings part) node).1 ∧
      ∀ order : List ι, order.Nodup → part ∈ order →
        (footprints part).Agrees
          (order.foldl (fun node part => (handlePackets vendor host (handlings part) node).2) node)
          (EventRun.run (Threads.step (answerHandler host))
            { programs := fun part => servePackets vendor host (handlings part)
              state := node } schedule).state := by
  let threads : Threads handlerSignature Node ι (List Packet) :=
    { programs := fun part => servePackets vendor host (handlings part)
      state := node }
  have set : Threads.Apart (footprintParts host footprints apart) threads :=
    ⟨fun part => owned_servePackets (within part), good⟩
  obtain ⟨result, agrees⟩ := set.finished done
  constructor
  · rw [← result, run_servePackets]
  · intro order once present
    have serial := set.serially_agrees once present good
    have same : Threads.serially (answerHandler host) threads.programs node order =
        order.foldl (fun node part => (handlePackets vendor host (handlings part) node).2)
          node := by
      unfold Threads.serially
      simp only [threads, run_servePackets]
    rw [same] at serial
    exact Footprint.agrees_equivalence.trans (Footprint.agrees_equivalence.symm serial) agrees

/-- The first of two connections, after any number of steps that let it finish. -/
theorem offers_together :
    ∃ schedule : List Bool, ∃ replies,
      (EventRun.run (Threads.step (answerHandler Reference.host))
        { programs := fun part => servePackets Reference.vendor Reference.host
            [Reference.offerHandling (Reference.offers part)]
          state := (NodeState.initial fun _path => none).node } schedule).programs false =
            .done replies ∧
      replies = (handlePackets Reference.vendor Reference.host
        [Reference.offerHandling (Reference.offers false)]
          (NodeState.initial fun _path => none).node).1 := by
  obtain ⟨schedule, replies, done⟩ :=
    @Threads.can_finish handlerSignature Node Bool (List Packet) (answerHandler Reference.host) _
      { programs := fun part => servePackets Reference.vendor Reference.host
          [Reference.offerHandling (Reference.offers part)]
        state := (NodeState.initial fun _path => none).node } false
  refine ⟨schedule, replies, done, ?_⟩
  refine (concurrent_handlers_are_serializable Reference.vendor Reference.host
    Reference.offerFootprints (fun part => [Reference.offerHandling (Reference.offers part)])
    Reference.offers_apart Reference.offers_within _ ?_ schedule false replies done).1
  intro part record impossible
  cases impossible

end Shr
