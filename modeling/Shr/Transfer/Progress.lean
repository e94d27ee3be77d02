/-
Progress figures and the sizes they are measured against.

`transferred_bytes` is whatever the last write said: the end of a chunk as the
peer numbers it, or an offset a resuming peer asks for.  Nothing compares it
with `total_bytes`, which a later offer may replace.  The condition below is on
what arrives and on the calls that are launched; the inputs of the calls are
kept next to the state for it.
-/

import Shr.Reference
import Shr.Transfer.Exchange

namespace Shr

/-! ### Figures -/

/-- The percentage `cmd_status` prints for a transfer. -/
def statusPercent (record : TransferRecord) : Int :=
  if 0 < record.totalBytes then
    castInt (record.transferredBytes * 100 / record.totalBytes).toNat
  else 0

def TransferRecord.Active (record : TransferRecord) : Prop :=
  record.state = .pending ∨ record.state = .inProgress ∨ record.state = .paused

/-- The progress is within the size, and small enough for the percentage while
the transfer is listed. -/
structure ProgressFits (record : TransferRecord) : Prop where
  within : record.transferredBytes.toNat ≤ record.totalBytes.toNat
  small : record.Active → record.transferredBytes.toNat * 100 < 2 ^ 64

theorem statusPercent_eq {record : TransferRecord} (fits : ProgressFits record)
    (active : record.Active) :
    statusPercent record =
        (100 * record.transferredBytes.toNat / record.totalBytes.toNat : Nat) ∧
      0 ≤ statusPercent record ∧ statusPercent record ≤ 100 := by
  have within := fits.within
  have small := fits.small active
  have zero : (0 : UInt64).toNat = 0 := rfl
  have product : (record.transferredBytes * 100).toNat = 100 * record.transferredBytes.toNat := by
    rw [UInt64.toNat_mul, Nat.mul_comm 100]
    exact Nat.mod_eq_of_lt small
  have quotient : 100 * record.transferredBytes.toNat / record.totalBytes.toNat ≤ 100 := by
    rcases Nat.eq_zero_or_pos record.totalBytes.toNat with empty | positive
    · rw [empty, Nat.div_zero]
      exact Nat.zero_le _
    · apply Nat.div_le_of_le_mul
      rw [Nat.mul_comm record.totalBytes.toNat]
      exact Nat.mul_le_mul_left 100 within
  have value : statusPercent record =
      (100 * record.transferredBytes.toNat / record.totalBytes.toNat : Nat) := by
    unfold statusPercent
    split
    next =>
        rw [UInt64.toNat_div, product]
        exact castInt_of_lt (by omega)
    next empty =>
        have none_total : record.totalBytes.toNat = 0 := by
          rw [UInt64.lt_iff_toNat_lt, zero] at empty
          omega
        rw [none_total, Nat.div_zero]
        rfl
  refine ⟨value, ?_, ?_⟩
  · rw [value]
    exact Int.natCast_nonneg _
  · rw [value]
    exact_mod_cast quotient

/-! ### The phases of a call -/

section Phases

variable (vendor : Vendor) (inputs : SendInputs)

/-- A call that neither stores a record nor writes a progress beyond the size of
its file. -/
inductive BoundedOp : SendOp → Prop where
  | progress (transferred : UInt64) (state : TransferState)
      (within : transferred.toNat ≤ inputs.fileSize.toNat) :
      BoundedOp (.updateTransferProgress inputs.xferId transferred state)
  | other (op : SendOp) (stores : ∀ record, op ≠ .upsertTransfer record)
      (progresses : ∀ id transferred state, op ≠ .updateTransferProgress id transferred state) :
      BoundedOp op

inductive Fresh : SendProgram Bytes → Prop where
  | counting {absPath : Bytes} {peer : PeerInfo} (sendable : Sendable inputs absPath peer) :
      Fresh (sendFile vendor inputs)
  | storing {absPath : Bytes} {peer : PeerInfo} (sendable : Sendable inputs absPath peer) :
      Fresh (offerFile vendor inputs absPath peer)

inductive Recorded : SendProgram Bytes → Prop where
  | connecting {absPath : Bytes} {peer : PeerInfo} (sendable : Sendable inputs absPath peer) :
      Recorded (connectPeer vendor inputs absPath peer)
  | offering {absPath : Bytes} {peer : PeerInfo} (sendable : Sendable inputs absPath peer) :
      Recorded (sendOffer vendor inputs absPath)
  | awaiting {absPath : Bytes} {peer : PeerInfo} (sendable : Sendable inputs absPath peer) :
      Recorded (awaitAnswer vendor inputs)
  | bounded {program : SendProgram Bytes} (asks : program.Asks (BoundedOp inputs)) :
      Recorded program

end Phases

/-! ### A call behind the answer to its offer -/

def Point.StartedAt (start : UInt64) : Point → Prop
  | .begin other => other = start
  | .enter other => other = start
  | .pause other _chunk _left => other = start
  | .sendChunk other _chunk _left => other = start
  | .awaitAck other _chunk => other = start
  | .recordAck other _chunk => other = start
  | .failClose other _chunk => other = start
  | .failRecord other _chunk => other = start
  | .failLeave other _chunk => other = start
  | .complete other _acked _sent => other = start
  | .completeClose other _acked _sent => other = start
  | .completeRecord other _acked _sent => other = start
  | .completeLeave other _acked _sent => other = start
  | .failed other _chunk => other = start
  | .completed other _acked _sent => other = start
  | _ => False

theorem position_toNat_le {contents : Bytes} {start : UInt64} {limit : Nat}
    (startInside : start.toNat ≤ limit) (sizeInside : contents.length ≤ limit)
    (small : limit < 2 ^ 63) (chunk : Nat) :
    (position contents start chunk).toNat ≤ limit := by
  have remaining : (remainingFrom contents start).length = contents.length - start.toNat := by
    rw [remainingFrom_eq (by omega), List.length_drop]
  have before : bytesBefore contents start chunk ≤ contents.length - start.toNat := by
    unfold bytesBefore
    omega
  unfold position
  rw [UInt64.toNat_add, UInt64.toNat_ofNat']
  omega

section Started

variable {vendor : Vendor} {call : SendCall}

private theorem records_bounded {start transferred : UInt64} {state : TransferState}
    {later : Point} (within : transferred.toNat ≤ call.inputs.fileSize.toNat)
    (stays : later.StartedAt start) {op : SendOp} {after : op.Reply → Point}
    (moves : Point.records call transferred state later = .ask op after) :
    BoundedOp call.inputs op ∧ ∀ reply, (after reply).StartedAt start := by
  cases moves
  exact ⟨.progress _ _ within, fun _reply => stays⟩

theorem loopPoint_startedAt (contents : Bytes) (start : UInt64) (chunk : Nat) :
    (loopPoint contents start chunk).StartedAt start := by
  unfold loopPoint
  split <;> rfl

theorem afterAttempt_startedAt (start : UInt64) (chunk left : Nat) (sent : Bool) :
    (afterAttempt start chunk left sent).StartedAt start := by
  cases sent with
  | true => rfl
  | false => cases left <;> rfl

theorem afterAck_startedAt (start : UInt64) (chunk : Nat) (ack : Option Packet) :
    (afterAck start chunk ack).StartedAt start := by
  cases ack <;> rfl

/-- Behind the answer a call writes no progress beyond the size of its file, as
long as the peer has not asked for more and the file has not grown. -/
theorem startedAt_closed {start : UInt64}
    (startInside : start.toNat ≤ call.inputs.fileSize.toNat)
    (sizeInside : call.contents.length ≤ call.inputs.fileSize.toNat)
    (small : call.inputs.fileSize.toNat < 2 ^ 63) {point : Point} {op : SendOp}
    {after : op.Reply → Point} (inside : point.StartedAt start)
    (moves : point.move vendor call = .ask op after) :
    BoundedOp call.inputs op ∧ ∀ reply, (after reply).StartedAt start := by
  have position_le := position_toNat_le startInside sizeInside small
  cases point with
  | begin other =>
      cases inside
      exact records_bounded startInside (by exact rfl) moves
  | enter other =>
      cases inside
      cases moves
      exact ⟨.other _ nofun nofun, fun _reply => loopPoint_startedAt _ _ _⟩
  | pause other chunk left =>
      cases inside
      cases moves
      exact ⟨.other _ nofun nofun, fun _reply => rfl⟩
  | sendChunk other chunk left =>
      cases inside
      cases moves
      exact ⟨.other _ nofun nofun, fun reply => afterAttempt_startedAt _ _ _ reply⟩
  | awaitAck other chunk =>
      cases inside
      cases moves
      exact ⟨.other _ nofun nofun, fun reply => afterAck_startedAt _ _ reply⟩
  | recordAck other chunk =>
      cases inside
      exact records_bounded (position_le _) (loopPoint_startedAt _ _ _) moves
  | failClose other chunk =>
      cases inside
      cases moves
      exact ⟨.other _ nofun nofun, fun _reply => rfl⟩
  | failRecord other chunk =>
      cases inside
      exact records_bounded (position_le _) (by exact rfl) moves
  | failLeave other chunk =>
      cases inside
      cases moves
      exact ⟨.other _ nofun nofun, fun _reply => rfl⟩
  | complete other acked sent =>
      cases inside
      cases moves
      exact ⟨.other _ nofun nofun, fun _reply => rfl⟩
  | completeClose other acked sent =>
      cases inside
      cases moves
      exact ⟨.other _ nofun nofun, fun _reply => rfl⟩
  | completeRecord other acked sent =>
      cases inside
      exact records_bounded (position_le _) (by exact rfl) moves
  | completeLeave other acked sent =>
      cases inside
      cases moves
      exact ⟨.other _ nofun nofun, fun _reply => rfl⟩
  | failed other chunk => cases moves
  | completed other acked sent => cases moves
  | _ => exact inside.elim

structure SizesFit (inputs : SendInputs) : Prop where
  contents : ∀ contents, inputs.contents = some contents →
    contents.length ≤ inputs.fileSize.toNat
  small : inputs.fileSize.toNat * 100 < 2 ^ 64

theorem abandonOffer_bounded (inputs : SendInputs) :
    (abandonOffer inputs).Asks (BoundedOp inputs) := by
  have closes : BoundedOp inputs .closeConn := .other _ nofun nofun
  have fails : BoundedOp inputs (.updateTransferProgress inputs.xferId 0 .failed) :=
    .progress _ _ (Nat.zero_le _)
  exact ⟨closes, fun _closed => ⟨fails, fun _updated => trivial⟩⟩

theorem answerOffer_bounded {inputs : SendInputs} {absPath : Bytes} {peer : PeerInfo}
    (sendable : Sendable inputs absPath peer) (fit : SizesFit inputs) {resp : Packet}
    (within : inputs.contents.isSome → resp.type = .fileResume →
      (readFileResume vendor resp.payload).toNat ≤ inputs.fileSize.toNat) :
    (answerOffer vendor inputs resp).Asks (BoundedOp inputs) := by
  unfold answerOffer
  by_cases rejected : resp.type = .fileReject
  · rw [if_pos rejected]
    exact abandonOffer_bounded inputs
  · rw [if_neg rejected]
    cases readable : inputs.contents with
    | none => exact abandonOffer_bounded inputs
    | some contents =>
        let call : SendCall :=
          { inputs := inputs
            absPath := absPath
            peer := peer
            contents := contents
            sendable := sendable
            readable := readable }
        have small := fit.small
        have startInside : (if resp.type = .fileResume then
            readFileResume vendor resp.payload else 0).toNat ≤ inputs.fileSize.toNat := by
          split
          next resumes =>
              exact within (by rw [readable]; rfl) resumes
          next => exact Nat.zero_le _
        exact (@streamFile_at vendor call _).asks_of_closed
          (fun inside moves => startedAt_closed startInside (fit.contents contents readable)
            (by change inputs.fileSize.toNat < 2 ^ 63; omega) inside moves) rfl

end Started

/-! ### One step of a call -/

def UnderWay : SendProgram Bytes → Prop
  | .done _result => False
  | .call _op _next => True

section Steps

variable {vendor : Vendor} {inputs : SendInputs}

theorem sendFile_phase (vendor : Vendor) (inputs : SendInputs) :
    Fresh vendor inputs (sendFile vendor inputs) ∨ sendFile vendor inputs = .done [] := by
  by_cases sends : ∃ absPath peer, Sendable inputs absPath peer
  · obtain ⟨absPath, peer, sendable⟩ := sends
    exact .inl (.counting sendable)
  · right
    unfold sendFile
    split
    next => rfl
    next valid =>
        split
        next => rfl
        next absPath known =>
            split
            next => rfl
            next regular =>
                split
                next => rfl
                next peer registered =>
                    split
                    next => rfl
                    next addressed =>
                        rw [Bool.not_eq_false] at valid regular
                        exact absurd ⟨absPath, peer, ⟨valid, known, regular, registered,
                          addressed⟩⟩ sends

theorem Fresh.advance {program : SendProgram Bytes} (fresh : Fresh vendor inputs program)
    (answer : Answer) (node : Node) :
    (Fresh vendor inputs (advance answer node program).1 ∨
        (advance answer node program).1 = .done []) ∧
        (advance answer node program).2.transfers = node.transfers ∨
      ∃ absPath, Recorded vendor inputs (advance answer node program).1 ∧
        (advance answer node program).2.transfers =
          node.transfers.upsertTransfer (sentRecord inputs absPath) := by
  cases fresh with
  | counting sendable =>
      left
      rw [sendable.sendFile_eq vendor]
      refine ⟨?_, rfl⟩
      change Fresh vendor inputs (if shrMaxConcurrent ≤ node.activeCount then .done []
          else offerFile vendor inputs _ _) ∨
        (if shrMaxConcurrent ≤ node.activeCount then .done []
          else offerFile vendor inputs _ _) = .done []
      split
      next => exact .inr rfl
      next => exact .inl (.storing sendable)
  | @storing absPath peer sendable =>
      right
      exact ⟨absPath, .connecting sendable, rfl⟩

/-- The next program of a call that has stored its record, when the answer to
its offer asks for no more than the size of its file. -/
theorem Recorded.advance {program : SendProgram Bytes} (recorded : Recorded vendor inputs program)
    (fit : SizesFit inputs) (answer : Answer) (node : Node)
    (within : program = awaitAnswer vendor inputs → inputs.contents.isSome →
      ∀ resp, answer.packet = some resp → resp.type = .fileResume →
        (readFileResume vendor resp.payload).toNat ≤ inputs.fileSize.toNat) :
    Recorded vendor inputs (advance answer node program).1 := by
  cases recorded with
  | @connecting absPath peer sendable =>
      change Recorded vendor inputs (if answer.ok = false then do
          updateTransferProgress inputs.xferId 0 .failed
          return []
        else sendOffer vendor inputs absPath)
      split
      next =>
          have fails : BoundedOp inputs (.updateTransferProgress inputs.xferId 0 .failed) :=
            .progress _ _ (Nat.zero_le _)
          exact .bounded ⟨fails, fun _updated => trivial⟩
      next => exact .offering sendable
  | offering sendable => exact .awaiting sendable
  | awaiting sendable =>
      obtain ⟨ok, packet, now⟩ := answer
      cases packet with
      | none => exact .bounded (abandonOffer_bounded inputs)
      | some resp =>
          exact .bounded (answerOffer_bounded sendable fit fun readable resumes =>
            within rfl readable resp rfl resumes)
  | bounded asks =>
      cases program with
      | done result => exact .bounded trivial
      | call op next => exact .bounded (asks.2 _)

/-! ### What a phase can ask of the table -/

theorem Fresh.stored {record : TransferRecord} {next : Unit → SendProgram Bytes}
    (fresh : Fresh vendor inputs (.call (.upsertTransfer record) next)) :
    ∃ absPath, record = sentRecord inputs absPath := by
  generalize same : (Program.call (σ := sendSignature) (.upsertTransfer record) next :
    SendProgram Bytes) = program at fresh
  cases fresh with
  | counting sendable =>
      rw [sendable.sendFile_eq vendor] at same
      cases same
  | @storing absPath peer sendable =>
      rw [offerFile_eq] at same
      cases same
      exact ⟨absPath, rfl⟩

theorem Fresh.not_progress {id : Bytes} {transferred : UInt64} {state : TransferState}
    {next : Unit → SendProgram Bytes} :
    ¬Fresh vendor inputs (.call (.updateTransferProgress id transferred state) next) := by
  intro fresh
  generalize same : (Program.call (σ := sendSignature)
    (.updateTransferProgress id transferred state) next : SendProgram Bytes) = program at fresh
  cases fresh with
  | counting sendable =>
      rw [sendable.sendFile_eq vendor] at same
      cases same
  | storing sendable =>
      rw [offerFile_eq] at same
      cases same

theorem Recorded.asked {op : SendOp} {next : op.Reply → SendProgram Bytes}
    (recorded : Recorded vendor inputs (.call op next)) : BoundedOp inputs op := by
  generalize same : (Program.call (σ := sendSignature) op next : SendProgram Bytes) =
    program at recorded
  cases recorded with
  | connecting sendable =>
      unfold connectPeer connectTo ask at same
      cases same
      exact .other _ nofun nofun
  | offering sendable =>
      unfold sendOffer sendPacket ask at same
      cases same
      exact .other _ nofun nofun
  | awaiting sendable =>
      unfold awaitAnswer readPacket ask at same
      cases same
      exact .other _ nofun nofun
  | bounded asks =>
      subst same
      exact asks.1

end Steps

/-! ### Runs with the inputs of their calls -/

/-- A state of the node with the inputs of the calls launched so far. -/
structure Tracked where
  state : NodeState
  calls : List SendInputs

structure Tracked.Call (tracked : Tracked) (index : Nat) (inputs : SendInputs)
    (program : SendProgram Bytes) : Prop where
  launched : tracked.calls[index]? = some inputs
  present : tracked.state.sends[index]? = some program

section TrackedRuns

variable (vendor : Vendor) (host : Host)

def Tracked.step (tracked : Tracked) (event : NodeEvent) : Tracked :=
  { state := tracked.state.step vendor host event
    calls :=
      match event with
      | .launch inputs => tracked.calls ++ [inputs]
      | _ => tracked.calls }

def Tracked.initial (files : Bytes → Option Bytes) : Tracked :=
  { state := NodeState.initial files
    calls := [] }

/-- Every chunk stays inside the file of its record, no offer shrinks the file
of a call under way, a launched call has an id of its own and a file no longer
than its size, and no peer asks a call to resume behind the end. -/
def StaysInside (tracked : Tracked) : NodeEvent → Prop
  | .packet arrival packet =>
      (packet.type = .fileChunk → ∀ chunk record,
        ChunkApplies vendor arrival packet.payload tracked.state.node chunk record →
        chunk.offset.toNat + (vendor.base64Decode chunk.b64data).length < 2 ^ 64 ∧
        (arrival.stores = true →
          chunk.offset.toNat + (vendor.base64Decode chunk.b64data).length ≤
              record.totalBytes.toNat ∧
            (chunk.offset.toNat + (vendor.base64Decode chunk.b64data).length) * 100 <
              2 ^ 64)) ∧
      (packet.type = .fileOffer → ∀ offer,
        readFileOffer vendor arrival.random packet.payload = some offer →
        ∀ index inputs program, tracked.Call index inputs program → UnderWay program →
          cstr offer.xferId = inputs.xferId → inputs.fileSize.toNat ≤ offer.fileSize.toNat)
  | .cancel _id _now => True
  | .launch inputs =>
      SizesFit inputs ∧ ∀ index other program, tracked.Call index other program →
        UnderWay program → inputs.xferId ≠ other.xferId
  | .advance index answer => ∀ inputs, tracked.Call index inputs (awaitAnswer vendor inputs) →
      inputs.contents.isSome → ∀ resp, answer.packet = some resp → resp.type = .fileResume →
        (readFileResume vendor resp.payload).toNat ≤ inputs.fileSize.toNat

def SumFits (state : NodeState) : NodeEvent → Prop
  | .packet arrival packet => packet.type = .fileChunk → ∀ chunk record,
      ChunkApplies vendor arrival packet.payload state.node chunk record →
      chunk.offset.toNat + (vendor.base64Decode chunk.b64data).length < 2 ^ 64
  | _ => True

end TrackedRuns

/-! ### What such a run keeps -/

/-- Where a call stands, and how large the file of its record is from then on. -/
def CallHolds (vendor : Vendor) (table : TransferTable) (inputs : SendInputs)
    (program : SendProgram Bytes) : Prop :=
  Fresh vendor inputs program ∨
    Recorded vendor inputs program ∧ (UnderWay program → ∀ record,
      table.getTransfer inputs.xferId = some record →
        inputs.fileSize.toNat ≤ record.totalBytes.toNat)

structure TrackedInvariant (vendor : Vendor) (tracked : Tracked) : Prop where
  aligned : tracked.calls.length = tracked.state.sends.length
  sizes : ∀ inputs ∈ tracked.calls, SizesFit inputs
  apart : ∀ first second inputs other program otherProgram,
    tracked.Call first inputs program → tracked.Call second other otherProgram →
    first ≠ second → UnderWay program → UnderWay otherProgram → inputs.xferId ≠ other.xferId
  phases : ∀ index inputs program, tracked.Call index inputs program →
    CallHolds vendor tracked.state.node.transfers inputs program
  records : ∀ id record, tracked.state.node.transfers.getTransfer id = some record →
    ProgressFits record
  text : tracked.state.node.transfers.TextKeys

section Kept

variable {vendor : Vendor} {host : Host} {tracked : Tracked}

theorem cstr_xferId (inputs : SendInputs) : cstr inputs.xferId = inputs.xferId :=
  cstr_of_nulFree (generateUuid_nulFree inputs.random)

theorem TrackedInvariant.call_of_send (holds : TrackedInvariant vendor tracked) {index : Nat}
    {program : SendProgram Bytes} (present : tracked.state.sends[index]? = some program) :
    ∃ inputs, tracked.Call index inputs program ∧ SizesFit inputs := by
  have inside : index < tracked.calls.length := by
    rw [holds.aligned]
    exact (List.getElem?_eq_some_iff.mp present).1
  have launched := List.getElem?_eq_getElem inside
  exact ⟨_, ⟨launched, present⟩, holds.sizes _ (List.getElem_mem inside)⟩

theorem progressFits_start {record : TransferRecord} (start : record.transferredBytes = 0) :
    ProgressFits record := by
  have zero : (0 : UInt64).toNat = 0 := rfl
  constructor
  · rw [start, zero]
    exact Nat.zero_le _
  · intro _active
    rw [start, zero]
    decide

theorem progressFits_progressed {record : TransferRecord} {transferred : UInt64}
    {state : TransferState} {now : Int64}
    (within : transferred.toNat ≤ record.totalBytes.toNat)
    (small : (state = .pending ∨ state = .inProgress ∨ state = .paused) →
      transferred.toNat * 100 < 2 ^ 64) :
    ProgressFits (record.progressed transferred state now) where
  within := within
  small := small

theorem Writes.fits {event : NodeEvent} {id : Bytes} {write : RecordWrite}
    (holds : TrackedInvariant vendor tracked) (inside : StaysInside vendor tracked event)
    (writes : Writes vendor host tracked.state id event write) :
    ∀ record, write.apply (tracked.state.node.transfers.getTransfer id) = some record →
      ProgressFits record := by
  intro record present
  cases writes with
  | offer type decoded notPaused stores same =>
      cases present
      exact progressFits_start rfl
  | @chunk arrival packet chunk found type applies stores same =>
      obtain ⟨earlier, before, rfl⟩ := Option.map_eq_some_iff.mp present
      obtain ⟨fits, within⟩ := inside.1 type chunk found applies
      obtain ⟨within, small⟩ := within stores
      have sameRow := applies.found
      rw [← TransferTable.getTransfer_cstr _ same, before] at sameRow
      cases sameRow
      have sum : (newTransferred chunk.offset (vendor.base64Decode chunk.b64data)).toNat =
          chunk.offset.toNat + (vendor.base64Decode chunk.b64data).length := by
        unfold newTransferred
        rw [UInt64.toNat_add, UInt64.toNat_ofNat', Nat.add_mod_mod, Nat.mod_eq_of_lt fits]
      apply progressFits_progressed
      · rw [sum]
        exact within
      · intro _active
        rw [sum]
        exact small
  | complete type decoded found verified stores same =>
      obtain ⟨earlier, before, rfl⟩ := Option.map_eq_some_iff.mp present
      rw [← TransferTable.getTransfer_cstr _ same, before] at found
      cases found
      exact progressFits_progressed (Nat.le_refl _) (by simp)
  | mismatch type decoded found differs stores same =>
      obtain ⟨earlier, before, rfl⟩ := Option.map_eq_some_iff.mp present
      rw [← TransferTable.getTransfer_cstr _ same, before] at found
      cases found
      exact progressFits_progressed (holds.records id _ before).within (by simp)
  | cancel found same =>
      obtain ⟨earlier, before, rfl⟩ := Option.map_eq_some_iff.mp present
      rw [← TransferTable.getTransfer_cstr _ same, before] at found
      cases found
      exact progressFits_progressed (holds.records id _ before).within (by simp)
  | sendStores sending same =>
      cases present
      obtain ⟨inputs, call, _fit⟩ := holds.call_of_send sending
      rcases holds.phases _ _ _ call with fresh | ⟨recorded, _sizes⟩
      · obtain ⟨absPath, rfl⟩ := fresh.stored
        exact progressFits_start rfl
      · cases recorded.asked with
        | other _ stores _ => exact absurd rfl (stores _)
  | sendProgresses sending same =>
      obtain ⟨earlier, before, rfl⟩ := Option.map_eq_some_iff.mp present
      obtain ⟨inputs, call, fit⟩ := holds.call_of_send sending
      rcases holds.phases _ _ _ call with fresh | ⟨recorded, sizes⟩
      · exact absurd fresh Fresh.not_progress
      · cases recorded.asked with
        | progress transferred state within =>
            rw [TransferTable.getTransfer_cstr _ same] at before
            have total := sizes trivial _ before
            have small := fit.small
            apply progressFits_progressed
            · omega
            · intro _active
              omega
        | other _ _ progresses => exact absurd rfl (progresses _ _ _)

/-- What an event leaves of a size that all stores under an id keep. -/
theorem totals_step {state : NodeState} {event : NodeEvent} {id : Bytes} {size : Nat}
    (before : ∀ record, state.node.transfers.getTransfer id = some record →
      size ≤ record.totalBytes.toNat)
    (stores : ∀ record, Writes vendor host state id event (.store record) →
      size ≤ record.totalBytes.toNat) :
    ∀ record, (state.step vendor host event).node.transfers.getTransfer id = some record →
      size ≤ record.totalBytes.toNat := by
  intro record present
  rcases @step_record vendor host state event id with
    ⟨write, writes, written⟩ | ⟨_unwritten, same⟩
  · rw [written] at present
    cases write with
    | store stored =>
        cases present
        exact stores stored writes
    | progress transferred progress now =>
        obtain ⟨earlier, found, rfl⟩ := Option.map_eq_some_iff.mp present
        exact before earlier found
  · rw [same] at present
    exact before record present

theorem TrackedInvariant.stores (holds : TrackedInvariant vendor tracked) {event : NodeEvent}
    (inside : StaysInside vendor tracked event) {index : Nat} {inputs : SendInputs}
    {program : SendProgram Bytes} (call : tracked.Call index inputs program)
    (underWay : UnderWay program) (record : TransferRecord)
    (writes : Writes vendor host tracked.state inputs.xferId event (.store record)) :
    inputs.fileSize.toNat ≤ record.totalBytes.toNat := by
  cases writes with
  | offer type decoded notPaused stores same =>
      rw [cstr_xferId] at same
      exact inside.2 type _ decoded index inputs program call underWay same.symm
  | @sendStores other answer _ next sending same =>
      obtain ⟨otherInputs, otherCall, _fit⟩ := holds.call_of_send sending
      rcases holds.phases _ _ _ otherCall with fresh | ⟨recorded, _sizes⟩
      · obtain ⟨absPath, rfl⟩ := fresh.stored
        have ids : inputs.xferId = otherInputs.xferId := by
          rw [← cstr_xferId inputs, same]
          exact cstr_xferId otherInputs
        by_cases own : index = other
        · subst own
          have sameInputs := call.launched.symm.trans otherCall.launched
          cases sameInputs
          exact Nat.le_refl _
        · exact absurd ids (holds.apart _ _ _ _ _ _ call otherCall own underWay trivial)
      · cases recorded.asked with
        | other _ noStore _ => exact absurd rfl (noStore _)

theorem TrackedInvariant.phase_kept (host : Host) (holds : TrackedInvariant vendor tracked)
    {event : NodeEvent} (inside : StaysInside vendor tracked event) {index : Nat}
    {inputs : SendInputs} {program : SendProgram Bytes}
    (call : tracked.Call index inputs program) :
    CallHolds vendor (tracked.state.step vendor host event).node.transfers inputs program := by
  rcases holds.phases _ _ _ call with fresh | ⟨recorded, sizes⟩
  · exact .inl fresh
  · refine .inr ⟨recorded, fun underWay => ?_⟩
    exact totals_step (sizes underWay) fun record writes =>
      holds.stores inside call underWay record writes

theorem underWay_of_advance {answer : Answer} {node : Node} {program : SendProgram Bytes}
    (underWay : UnderWay (advance answer node program).1) : UnderWay program := by
  cases program with
  | done result => exact underWay
  | call op next => trivial

theorem Tracked.Call.of_advance {index other : Nat} {answer : Answer} {inputs : SendInputs}
    {program : SendProgram Bytes}
    (call : (tracked.step vendor host (.advance index answer)).Call other inputs program) :
    ∃ earlier, tracked.Call other inputs earlier ∧
      (other ≠ index ∧ program = earlier ∨
        other = index ∧ program = (advance answer tracked.state.node earlier).1) := by
  have present := call.present
  simp only [Tracked.step, NodeState.step] at present
  cases sending : tracked.state.sends[index]? with
  | none =>
      rw [sending] at present
      refine ⟨program, ⟨call.launched, present⟩, .inl ⟨?_, rfl⟩⟩
      intro same
      rw [same, sending] at present
      cases present
  | some earlier =>
      rw [sending] at present
      simp only at present
      by_cases same : other = index
      · subst same
        have bound := (List.getElem?_eq_some_iff.mp sending).1
        rw [List.getElem?_set_self bound] at present
        cases present
        exact ⟨earlier, ⟨call.launched, sending⟩, .inr ⟨rfl, rfl⟩⟩
      · rw [List.getElem?_set_ne (Ne.symm same)] at present
        exact ⟨program, ⟨call.launched, present⟩, .inl ⟨same, rfl⟩⟩

theorem Tracked.Call.of_launch (aligned : tracked.calls.length = tracked.state.sends.length)
    {index : Nat} {launched inputs : SendInputs} {program : SendProgram Bytes}
    (call : (tracked.step vendor host (.launch launched)).Call index inputs program) :
    tracked.Call index inputs program ∨
      index = tracked.calls.length ∧ inputs = launched ∧ program = sendFile vendor launched := by
  have present := call.present
  have started := call.launched
  simp only [Tracked.step, NodeState.step] at present started
  rcases Nat.lt_trichotomy index tracked.calls.length with earlier | last | beyond
  · rw [List.getElem?_append_left earlier] at started
    rw [List.getElem?_append_left (aligned ▸ earlier)] at present
    exact .inl ⟨started, present⟩
  · right
    rw [last, List.getElem?_concat_length] at started
    rw [last, aligned, List.getElem?_concat_length] at present
    cases started
    cases present
    exact ⟨last, rfl, rfl⟩
  · rw [List.getElem?_eq_none (by rw [List.length_append, List.length_singleton]; omega)]
      at started
    cases started

theorem TrackedInvariant.phase_advanced (host : Host) (holds : TrackedInvariant vendor tracked)
    {index : Nat} {answer : Answer} (inside : StaysInside vendor tracked (.advance index answer))
    {inputs : SendInputs} {program : SendProgram Bytes}
    (call : tracked.Call index inputs program) :
    CallHolds vendor (tracked.state.step vendor host (.advance index answer)).node.transfers
      inputs (advance answer tracked.state.node program).1 := by
  have fit := holds.sizes inputs (List.mem_of_getElem? call.launched)
  rcases holds.phases _ _ _ call with fresh | ⟨recorded, sizes⟩
  · rcases fresh.advance answer tracked.state.node with
      ⟨next | ended, _table⟩ | ⟨absPath, recorded, table⟩
    · exact .inl next
    · right
      rw [ended]
      exact ⟨.bounded trivial, fun impossible => impossible.elim⟩
    · refine .inr ⟨recorded, fun _underWay record present => ?_⟩
      have after : (tracked.state.step vendor host (.advance index answer)).node.transfers =
          tracked.state.node.transfers.upsertTransfer (sentRecord inputs absPath) := by
        simp only [NodeState.step, call.present]
        exact table
      have stored := TransferTable.getTransfer_upsert_self tracked.state.node.transfers
        (sentRecord inputs absPath) (rfl : cstr inputs.xferId = cstr inputs.xferId)
      rw [after, stored] at present
      cases present
      exact Nat.le_refl _
  · refine .inr ⟨recorded.advance fit answer tracked.state.node ?_, fun underWay => ?_⟩
    · intro awaiting
      rw [awaiting] at call
      exact inside inputs call
    · have before := underWay_of_advance underWay
      exact totals_step (sizes before) fun record writes =>
        holds.stores inside call before record writes

theorem TrackedInvariant.step (holds : TrackedInvariant vendor tracked) {event : NodeEvent}
    (inside : StaysInside vendor tracked event) :
    TrackedInvariant vendor (tracked.step vendor host event) where
  aligned := by
    have aligned := holds.aligned
    cases event with
    | packet arrival packet => exact aligned
    | cancel id now => exact aligned
    | launch inputs =>
        simp only [Tracked.step, NodeState.step, List.length_append, List.length_singleton]
        rw [aligned]
    | advance index answer =>
        simp only [Tracked.step, NodeState.step]
        cases tracked.state.sends[index]? with
        | none => exact aligned
        | some program =>
            rw [List.length_set]
            exact aligned
  sizes := by
    intro inputs member
    cases event with
    | launch launched =>
        rcases List.mem_append.mp member with earlier | last
        · exact holds.sizes inputs earlier
        · rw [List.mem_singleton.mp last]
          exact inside.1
    | packet arrival packet => exact holds.sizes inputs member
    | cancel id now => exact holds.sizes inputs member
    | advance index answer => exact holds.sizes inputs member
  apart := by
    intro first second inputs other program otherProgram call otherCall different underWay
      otherUnderWay
    cases event with
    | packet arrival packet =>
        exact holds.apart _ _ _ _ _ _ ⟨call.launched, call.present⟩
          ⟨otherCall.launched, otherCall.present⟩ different underWay otherUnderWay
    | cancel id now =>
        exact holds.apart _ _ _ _ _ _ ⟨call.launched, call.present⟩
          ⟨otherCall.launched, otherCall.present⟩ different underWay otherUnderWay
    | launch launched =>
        rcases call.of_launch holds.aligned with before | ⟨last, sameInputs, _program⟩
        · rcases otherCall.of_launch holds.aligned with otherBefore | ⟨_last, sameOther, _program⟩
          · exact holds.apart _ _ _ _ _ _ before otherBefore different underWay otherUnderWay
          · rw [sameOther]
            exact fun same => inside.2 _ _ _ before underWay same.symm
        · rcases otherCall.of_launch holds.aligned with otherBefore | ⟨otherLast, _same, _program⟩
          · rw [sameInputs]
            exact inside.2 _ _ _ otherBefore otherUnderWay
          · exact absurd (last.trans otherLast.symm) different
    | advance index answer =>
        obtain ⟨earlier, before, moved⟩ := call.of_advance
        obtain ⟨otherEarlier, otherBefore, otherMoved⟩ := otherCall.of_advance
        apply holds.apart _ _ _ _ _ _ before otherBefore different
        · rcases moved with ⟨_different, same⟩ | ⟨_own, advanced⟩
          · exact same ▸ underWay
          · exact underWay_of_advance (advanced ▸ underWay)
        · rcases otherMoved with ⟨_different, same⟩ | ⟨_own, advanced⟩
          · exact same ▸ otherUnderWay
          · exact underWay_of_advance (advanced ▸ otherUnderWay)
  phases := by
    intro index inputs program call
    cases event with
    | packet arrival packet => exact holds.phase_kept host inside ⟨call.launched, call.present⟩
    | cancel id now => exact holds.phase_kept host inside ⟨call.launched, call.present⟩
    | launch launched =>
        rcases call.of_launch holds.aligned with before | ⟨_last, rfl, rfl⟩
        · exact holds.phase_kept host inside before
        · rcases sendFile_phase vendor inputs with fresh | ended
          · exact .inl fresh
          · right
            rw [ended]
            exact ⟨.bounded trivial, fun impossible => impossible.elim⟩
    | advance advanced answer =>
        obtain ⟨earlier, before, moved⟩ := call.of_advance
        rcases moved with ⟨_different, rfl⟩ | ⟨rfl, rfl⟩
        · exact holds.phase_kept host inside before
        · exact holds.phase_advanced host inside before
  records := by
    intro id record present
    rcases @step_record vendor host tracked.state event id with
      ⟨write, writes, written⟩ | ⟨_unwritten, same⟩
    · exact writes.fits holds inside record (written ▸ present)
    · exact holds.records id record (same ▸ present)
  text := textKeys_step holds.text event

end Kept

/-- Every record keeps within its size, and every listed transfer is shown with
its true percentage. -/
structure ProgressSound (table : TransferTable) : Prop where
  within : ∀ row ∈ table.rows,
    (rowToTransfer row).transferredBytes.toNat ≤ (rowToTransfer row).totalBytes.toNat
  percent : ∀ record ∈ table.activeTransfers,
    statusPercent record =
        (100 * record.transferredBytes.toNat / record.totalBytes.toNat : Nat) ∧
      0 ≤ statusPercent record ∧ statusPercent record ≤ 100

theorem ProgressSound.of_found {table : TransferTable} (sound : ProgressSound table)
    {id : Bytes} {record : TransferRecord} (found : table.getTransfer id = some record) :
    record.transferredBytes.toNat ≤ record.totalBytes.toNat := by
  obtain ⟨row, rowFound, rfl⟩ := Option.map_eq_some_iff.mp found
  exact sound.within row (List.mem_of_find?_eq_some rowFound)

theorem TrackedInvariant.sound {vendor : Vendor} {tracked : Tracked}
    (holds : TrackedInvariant vendor tracked) : ProgressSound tracked.state.node.transfers where
  within := by
    intro row member
    have found := TransferTable.getTransfer_of_mem member (holds.text row member)
    exact (holds.records row.id _ found).within
  percent := by
    intro record listed
    obtain ⟨⟨row, member, rfl⟩, active⟩ := TransferTable.mem_activeTransfers listed
    have found := TransferTable.getTransfer_of_mem member (holds.text row member)
    exact statusPercent_eq (holds.records row.id _ found) active

theorem trackedInvariant_initial (vendor : Vendor) (files : Bytes → Option Bytes) :
    TrackedInvariant vendor (Tracked.initial files) where
  aligned := rfl
  sizes := by
    intro inputs impossible
    cases impossible
  apart := by
    intro first second inputs other program otherProgram call
    cases call.launched
  phases := by
    intro index inputs program call
    cases call.launched
  records := by
    intro id record impossible
    cases impossible
  text := TransferTable.textKeys_empty

theorem tracked_run (vendor : Vendor) (host : Host) (tracked : Tracked)
    (events : List NodeEvent) :
    (EventRun.run (Tracked.step vendor host) tracked events).state =
      tracked.state.run vendor host events := by
  induction events generalizing tracked with
  | nil => rfl
  | cons event rest ih => exact ih (tracked.step vendor host event)

theorem sumFits_along {vendor : Vendor} {host : Host} {tracked : Tracked}
    {events : List NodeEvent}
    (inside : EventRun.Along (Tracked.step vendor host) (StaysInside vendor) tracked events) :
    EventRun.Along (NodeState.step vendor host) (SumFits vendor) tracked.state events := by
  induction events generalizing tracked with
  | nil => trivial
  | cons event rest ih =>
      refine ⟨?_, ih inside.2⟩
      cases event with
      | packet arrival packet =>
          intro type chunk record applies
          exact (inside.1.1 type chunk record applies).1
      | _ => trivial

/-- In every run that stays inside, no sum wraps, every progress is within the
size of its file and every percentage shown is the true one. -/
theorem progress_within_size (vendor : Vendor) (host : Host) (files : Bytes → Option Bytes)
    {events : List NodeEvent}
    (inside : EventRun.Along (Tracked.step vendor host) (StaysInside vendor)
      (Tracked.initial files) events) :
    EventRun.Along (NodeState.step vendor host) (SumFits vendor)
        (NodeState.initial files) events ∧
      ProgressSound ((NodeState.initial files).run vendor host events).node.transfers := by
  have kept (tracked : Tracked) (event : NodeEvent) (holds : TrackedInvariant vendor tracked)
      (stays : StaysInside vendor tracked event) :
      TrackedInvariant vendor (tracked.step vendor host event) := holds.step stays
  have holds := EventRun.Along.invariant kept inside (trackedInvariant_initial vendor files)
  refine ⟨sumFits_along inside, ?_⟩
  have sound := holds.sound
  rw [tracked_run vendor host (Tracked.initial files) events] at sound
  exact sound

/-! ### A chunk inside its file and one behind it -/

namespace Reference

theorem received_progress_within :
    ProgressSound ((NodeState.initial fun _path => none).run vendor host
      [offerArrives receivedOffer,
        chunkArrives receivedOffer.xferId 0 (ascii "x")]).node.transfers := by
  apply (progress_within_size vendor host (fun _path => none) ?_).2
  rw [EventRun.along_cons, EventRun.along_cons]
  refine ⟨⟨?_, ?_⟩, ⟨?_, ?_⟩, trivial⟩
  · intro impossible
    cases impossible
  · intro _isOffer offer _decoded index inputs program call
    cases call.launched
  · intro _isChunk chunk record applies
    have here : (Tracked.step vendor host (Tracked.initial fun _path => none)
        (offerArrives receivedOffer)).state.node = offeredState.node := rfl
    rw [here] at applies
    have decoded := applies.decoded
    rw [readFileChunk_toCbor] at decoded
    cases decoded
    cases offeredState_record.symm.trans applies.found
    have data : vendor.base64Decode (chunkOf vendor receivedOffer.xferId 0 (ascii "x")).b64data =
        ascii "x" := vendor.base64Decode_encode _
    have length : (ascii "x").length = 1 := rfl
    have offset : (chunkOf vendor receivedOffer.xferId 0 (ascii "x")).offset.toNat = 0 := rfl
    have total : (offeredRecord host arrival receivedOffer).stored.totalBytes.toNat = 1 := rfl
    rw [data, length, offset, total]
    exact ⟨by decide, fun _stores => ⟨by decide, by decide⟩⟩
  · intro impossible
    cases impossible

/-- A chunk of one byte at offset 500, for a file of one byte. -/
theorem chunk_behind_the_end :
    ¬∀ events, ProgressSound
      ((NodeState.initial fun _path => none).run vendor host events).node.transfers := by
  intro always
  have sound := always [offerArrives receivedOffer,
    chunkArrives receivedOffer.xferId 500 (ascii "x")]
  have chunked : ((NodeState.initial fun _path => none).run vendor host
      [offerArrives receivedOffer, chunkArrives receivedOffer.xferId 500 (ascii "x")]).node =
      (offeredState.step vendor host
        (chunkArrives receivedOffer.xferId 500 (ascii "x"))).node := rfl
  rw [chunked, node_after_chunk offeredState_record (by decide)] at sound
  have within := @ProgressSound.of_found _ sound receivedOffer.xferId
  rw [Node.getTransfer_update_self _ arrival _ _ rfl rfl, Node.write_transfers,
    offeredState_record] at within
  have impossible := within rfl
  rw [TransferRecord.progressed_transferredBytes] at impossible
  have sum : (newTransferred 500 (ascii "x")).toNat = 501 := rfl
  have total : ((offeredRecord host arrival receivedOffer).stored.progressed
      (newTransferred 500 (ascii "x")) .inProgress arrival.updatedAt).totalBytes.toNat = 1 := rfl
  rw [sum, total] at impossible
  omega

end Reference

end Shr
