/-
The sending side of a transfer, after `Transfer::send_file`.

`sendFile` is a program: it asks for one shared operation at a time, a call of
the database, of the connection or of the counter of active transfers, and goes
on with the reply.  What it only reads before its first effect (the recipient,
the file, the clock, fresh randomness) is a record of inputs.  Progress output
is left out.
-/

import Shr.Library.Interaction
import Shr.Transfer.Payloads

namespace Shr

/-! ### Operations -/

inductive SendOp where
  | loadActive
  | upsertTransfer (record : TransferRecord)
  | connectTo (ip : Bytes) (port : UInt16)
  | sendPacket (packet : Packet)
  | readPacket
  | closeConn
  | updateTransferProgress (id : Bytes) (transferred : UInt64) (state : TransferState)
  | incrementActive
  | decrementActive
  | sleep (milliseconds : Int)

def SendOp.Reply : SendOp → Type
  | .loadActive => Int
  | .connectTo _ _ => Bool
  | .sendPacket _ => Bool
  | .readPacket => Option Packet
  | _ => Unit

def sendSignature : Signature :=
  { Op := SendOp
    Reply := SendOp.Reply }

abbrev SendProgram := Program sendSignature

def ask (op : SendOp) : SendProgram op.Reply :=
  @Program.perform sendSignature op

def loadActive : SendProgram Int :=
  ask .loadActive

def upsertTransfer (record : TransferRecord) : SendProgram Unit :=
  ask (.upsertTransfer record)

def connectTo (ip : Bytes) (port : UInt16) : SendProgram Bool :=
  ask (.connectTo ip port)

def sendPacket (packet : Packet) : SendProgram Bool :=
  ask (.sendPacket packet)

def readPacket : SendProgram (Option Packet) :=
  ask .readPacket

def closeConn : SendProgram Unit :=
  ask .closeConn

def updateTransferProgress (id : Bytes) (transferred : UInt64) (state : TransferState) :
    SendProgram Unit :=
  ask (.updateTransferProgress id transferred state)

def incrementActive : SendProgram Unit :=
  ask .incrementActive

def decrementActive : SendProgram Unit :=
  ask .decrementActive

def sleep (milliseconds : Int) : SendProgram Unit :=
  ask (.sleep milliseconds)

/-! ### Inputs -/

/-- What one call reads from its surroundings.  `canonical` is `none` when
resolving the path throws, `contents` when the file cannot be opened, and the
contents are those the stream delivers from its start to its end. -/
structure SendInputs where
  recipientId : Bytes
  canonical : Option Bytes
  isRegular : Bool
  peer : Option PeerInfo
  fileSize : UInt64
  checksum : Bytes
  random : Random
  createdAt : Int64
  updatedAt : Int64
  ownId : Bytes
  contents : Option Bytes
  retryDelayMs : Int

def SendInputs.xferId (inputs : SendInputs) : Bytes :=
  generateUuid inputs.random

def sentRecord (inputs : SendInputs) (absPath : Bytes) : TransferRecord :=
  { id := inputs.xferId
    peerId := inputs.recipientId
    filename := pathFilename absPath
    filepath := absPath
    totalBytes := inputs.fileSize
    transferredBytes := 0
    state := .pending
    checksum := inputs.checksum
    createdAt := inputs.createdAt
    updatedAt := inputs.updatedAt
    outbound := true }

section SendFile

variable (vendor : Vendor) (inputs : SendInputs)

/-! ### Packets -/

def offerPacket (absPath : Bytes) : Packet :=
  { type := .fileOffer
    payload := vendor.toCbor (offerFields
      { xferId := inputs.xferId
        filename := pathFilename absPath
        fileSize := inputs.fileSize
        checksum := inputs.checksum
        senderId := inputs.ownId }) }

def chunkPacket (offset index : UInt64) (data : Bytes) : Packet :=
  { type := .fileChunk
    payload := vendor.toCbor (chunkFields
      { xferId := inputs.xferId
        offset := offset
        b64data := vendor.base64Encode data
        checksum := sha256Bytes vendor data }
      index (UInt64.ofNat data.length)) }

def completePacket : Packet :=
  { type := .fileComplete
    payload := vendor.toCbor (completeFields
      { xferId := inputs.xferId
        checksum := inputs.checksum }) }

/-! ### The chunk loop -/

/-- `for (attempt; attempt < SHR_RETRY_LIMIT && !sent; ++attempt)`, with the
number of attempts that are left. -/
def sendAttempts (packet : Packet) (attempt : Nat) : Nat → SendProgram Bool
  | 0 => return false
  | left + 1 => do
      if 0 < attempt then
        sleep inputs.retryDelayMs
      let sent ← sendPacket packet
      if sent then
        return true
      else
        sendAttempts packet (attempt + 1) left

/-- `while (file)`.  The result is the number of bytes transferred when the
loop is left towards completion, and `none` when the call has already failed. -/
def sendLoop (file : InputStream UInt8) (transferred chunkIndex : UInt64) :
    SendProgram (Option UInt64) :=
  if file.good = false then
    return some transferred
  else if _ended : file.delivered shrChunkSize = [] then
    return some transferred
  else do
    let data := file.delivered shrChunkSize
    let sent ← sendAttempts inputs (chunkPacket vendor inputs transferred chunkIndex data) 0
      shrRetryLimit
    if sent = false then
      closeConn
      updateTransferProgress inputs.xferId transferred .failed
      decrementActive
      return none
    else
      match ← readPacket with
      | none => return some transferred
      | some _ack =>
          updateTransferProgress inputs.xferId
            (transferred + UInt64.ofNat data.length) .inProgress
          sendLoop (file.afterRead shrChunkSize) (transferred + UInt64.ofNat data.length)
            (chunkIndex + 1)
termination_by file.remaining.length
decreasing_by exact InputStream.remaining_length_afterRead_lt file _ended

/-! ### The call -/

/-- The exits between the connection and the first chunk. -/
def abandonOffer : SendProgram Bytes := do
  closeConn
  updateTransferProgress inputs.xferId 0 .failed
  return []

def completeFile (transferred : UInt64) : SendProgram Bytes := do
  let _ ← sendPacket (completePacket vendor inputs)
  closeConn
  updateTransferProgress inputs.xferId transferred .completed
  decrementActive
  return inputs.xferId

def resumedStream (contents : Bytes) (resumeOffset : UInt64) : InputStream UInt8 :=
  if 0 < resumeOffset then (InputStream.start contents).seek resumeOffset.toInt64.toInt
  else InputStream.start contents

def streamFile (contents : Bytes) (resumeOffset : UInt64) : SendProgram Bytes := do
  updateTransferProgress inputs.xferId resumeOffset .inProgress
  incrementActive
  match ← sendLoop vendor inputs (resumedStream contents resumeOffset) resumeOffset
      (resumeOffset / UInt64.ofNat shrChunkSize) with
  | none => return []
  | some transferred => completeFile vendor inputs transferred

def answerOffer (resp : Packet) : SendProgram Bytes :=
  if resp.type = .fileReject then
    abandonOffer inputs
  else
    let resumeOffset :=
      if resp.type = .fileResume then readFileResume vendor resp.payload else 0
    match inputs.contents with
    | none => abandonOffer inputs
    | some contents => streamFile vendor inputs contents resumeOffset

def offerFile (absPath : Bytes) (peer : PeerInfo) : SendProgram Bytes := do
  upsertTransfer (sentRecord inputs absPath)
  let connected ← connectTo peer.ip peer.port
  if connected = false then
    updateTransferProgress inputs.xferId 0 .failed
    return []
  else
    let _ ← sendPacket (offerPacket vendor inputs absPath)
    match ← readPacket with
    | none => abandonOffer inputs
    | some resp => answerOffer vendor inputs resp

def sendFile : SendProgram Bytes :=
  if isValidUuid inputs.recipientId = false then
    return []
  else
    match inputs.canonical with
    | none => return []
    | some absPath =>
        if inputs.isRegular = false then
          return []
        else
          match inputs.peer with
          | none => return []
          | some peer =>
              if peer.ip = [] then
                return []
              else do
                let active ← loadActive
                if shrMaxConcurrent ≤ active then
                  return []
                else
                  offerFile vendor inputs absPath peer

end SendFile

/-! ### Calls that come to send -/

/-- The inputs pass every check that comes before the first effect. -/
structure Sendable (inputs : SendInputs) (absPath : Bytes) (peer : PeerInfo) : Prop where
  recipient : isValidUuid inputs.recipientId = true
  known : inputs.canonical = some absPath
  regular : inputs.isRegular = true
  registered : inputs.peer = some peer
  addressed : peer.ip ≠ []

theorem Sendable.sendFile_eq {inputs : SendInputs} {absPath : Bytes} {peer : PeerInfo}
    (sendable : Sendable inputs absPath peer) (vendor : Vendor) :
    sendFile vendor inputs =
      @Program.call sendSignature Bytes .loadActive fun (active : Int) =>
        if shrMaxConcurrent ≤ active then .done []
        else offerFile vendor inputs absPath peer := by
  unfold sendFile
  simp only [sendable.recipient, sendable.known, sendable.regular, sendable.registered,
    sendable.addressed, if_false, Bool.true_eq_false]
  rfl

/-! ### The phases of a call -/

section Phases

variable (vendor : Vendor) (inputs : SendInputs)

def awaitAnswer : SendProgram Bytes := do
  match ← readPacket with
  | none => abandonOffer inputs
  | some resp => answerOffer vendor inputs resp

def sendOffer (absPath : Bytes) : SendProgram Bytes := do
  let _ ← sendPacket (offerPacket vendor inputs absPath)
  awaitAnswer vendor inputs

def connectPeer (absPath : Bytes) (peer : PeerInfo) : SendProgram Bytes := do
  let connected ← connectTo peer.ip peer.port
  if connected = false then
    updateTransferProgress inputs.xferId 0 .failed
    return []
  else
    sendOffer vendor inputs absPath

theorem offerFile_eq (absPath : Bytes) (peer : PeerInfo) :
    offerFile vendor inputs absPath peer =
      @Program.call sendSignature Bytes (.upsertTransfer (sentRecord inputs absPath))
        fun _stored => connectPeer vendor inputs absPath peer :=
  rfl

end Phases

/-! ### What a call can ask -/

inductive SendFileOp (inputs : SendInputs) : SendOp → Prop where
  | loadActive : SendFileOp inputs .loadActive
  | upsertTransfer (absPath : Bytes) (known : inputs.canonical = some absPath) :
      SendFileOp inputs (.upsertTransfer (sentRecord inputs absPath))
  | connectTo (ip : Bytes) (port : UInt16) : SendFileOp inputs (.connectTo ip port)
  | sendPacket (packet : Packet) : SendFileOp inputs (.sendPacket packet)
  | readPacket : SendFileOp inputs .readPacket
  | closeConn : SendFileOp inputs .closeConn
  | inProgress (transferred : UInt64) :
      SendFileOp inputs (.updateTransferProgress inputs.xferId transferred .inProgress)
  | completed (transferred : UInt64) :
      SendFileOp inputs (.updateTransferProgress inputs.xferId transferred .completed)
  | failed (transferred : UInt64) :
      SendFileOp inputs (.updateTransferProgress inputs.xferId transferred .failed)
  | incrementActive : SendFileOp inputs .incrementActive
  | decrementActive : SendFileOp inputs .decrementActive
  | sleep (milliseconds : Int) : SendFileOp inputs (.sleep milliseconds)

section Asks

variable {vendor : Vendor} {inputs : SendInputs}

private theorem asks_of {op : SendOp} (permitted : SendFileOp inputs op) :
    (ask op).Asks (SendFileOp inputs) :=
  Program.asks_perform permitted

theorem sendAttempts_asks (packet : Packet) (attempt left : Nat) :
    (sendAttempts inputs packet attempt left).Asks (SendFileOp inputs) := by
  induction left generalizing attempt with
  | zero => exact Program.asks_done _ _
  | succ left ih =>
      have sends : (do
          let sent ← sendPacket packet
          if sent then return true else sendAttempts inputs packet (attempt + 1) left :
            SendProgram Bool).Asks (SendFileOp inputs) := by
        refine Program.Asks.bind (asks_of (.sendPacket packet)) fun sent => ?_
        cases sent with
        | true => exact Program.asks_done _ _
        | false => exact ih (attempt + 1)
      unfold sendAttempts
      split
      · exact Program.Asks.bind (asks_of (.sleep _)) fun _reply => sends
      · exact sends

theorem sendLoop_asks (file : InputStream UInt8) (transferred chunkIndex : UInt64) :
    (sendLoop vendor inputs file transferred chunkIndex).Asks (SendFileOp inputs) := by
  induction file, transferred, chunkIndex using sendLoop.induct with
  | case1 file transferred chunkIndex failed =>
      rw [sendLoop, if_pos failed]
      exact Program.asks_done _ _
  | case2 file transferred chunkIndex good ended =>
      rw [sendLoop, if_neg good, dif_pos ended]
      exact Program.asks_done _ _
  | case3 file transferred chunkIndex good more data ih =>
      rw [sendLoop, if_neg good, dif_neg more]
      refine Program.Asks.bind (sendAttempts_asks _ _ _) fun sent => ?_
      cases sent with
      | false =>
          exact Program.Asks.bind (asks_of .closeConn) fun _closed =>
            Program.Asks.bind (asks_of (.failed _)) fun _updated =>
              Program.Asks.bind (asks_of .decrementActive) fun _decremented =>
                Program.asks_done _ _
      | true =>
          refine Program.Asks.bind (asks_of .readPacket) fun ack => ?_
          cases ack with
          | none => exact Program.asks_done _ _
          | some ack => exact Program.Asks.bind (asks_of (.inProgress _)) fun _updated => ih

theorem abandonOffer_asks : (abandonOffer inputs).Asks (SendFileOp inputs) :=
  Program.Asks.bind (asks_of .closeConn) fun _closed =>
    Program.Asks.bind (asks_of (.failed _)) fun _updated => Program.asks_done _ _

theorem completeFile_asks (transferred : UInt64) :
    (completeFile vendor inputs transferred).Asks (SendFileOp inputs) :=
  Program.Asks.bind (asks_of (.sendPacket _)) fun _sent =>
    Program.Asks.bind (asks_of .closeConn) fun _closed =>
      Program.Asks.bind (asks_of (.completed _)) fun _updated =>
        Program.Asks.bind (asks_of .decrementActive) fun _decremented =>
          Program.asks_done _ _

theorem streamFile_asks (contents : Bytes) (resumeOffset : UInt64) :
    (streamFile vendor inputs contents resumeOffset).Asks (SendFileOp inputs) := by
  refine Program.Asks.bind (asks_of (.inProgress _)) fun _updated => ?_
  refine Program.Asks.bind (asks_of .incrementActive) fun _incremented => ?_
  refine Program.Asks.bind (sendLoop_asks _ _ _) fun left => ?_
  cases left with
  | none => exact Program.asks_done _ _
  | some transferred => exact completeFile_asks transferred

theorem answerOffer_asks (resp : Packet) :
    (answerOffer vendor inputs resp).Asks (SendFileOp inputs) := by
  unfold answerOffer
  split
  · exact abandonOffer_asks
  · cases inputs.contents with
    | none => exact abandonOffer_asks
    | some contents => exact streamFile_asks contents _

theorem offerFile_asks {absPath : Bytes} (known : inputs.canonical = some absPath)
    (peer : PeerInfo) :
    (offerFile vendor inputs absPath peer).Asks (SendFileOp inputs) := by
  refine Program.Asks.bind (asks_of (.upsertTransfer absPath known)) fun _stored => ?_
  refine Program.Asks.bind (asks_of (.connectTo _ _)) fun connected => ?_
  cases connected with
  | false =>
      exact Program.Asks.bind (asks_of (.failed _)) fun _updated => Program.asks_done _ _
  | true =>
      refine Program.Asks.bind (asks_of (.sendPacket _)) fun _sent => ?_
      refine Program.Asks.bind (asks_of .readPacket) fun resp => ?_
      cases resp with
      | none => exact abandonOffer_asks
      | some resp => exact answerOffer_asks resp

theorem sendFile_asks : (sendFile vendor inputs).Asks (SendFileOp inputs) := by
  unfold sendFile
  split
  · exact Program.asks_done _ _
  · split
    · exact Program.asks_done _ _
    · rename_i absPath known
      split
      · exact Program.asks_done _ _
      · split
        · exact Program.asks_done _ _
        · rename_i peer _registered
          split
          · exact Program.asks_done _ _
          · refine Program.Asks.bind (asks_of .loadActive) fun active => ?_
            by_cases full : shrMaxConcurrent ≤ active
            · simp only [full, if_true]
              exact Program.asks_done _ _
            · simp only [full, if_false]
              exact offerFile_asks known peer

end Asks

end Shr
