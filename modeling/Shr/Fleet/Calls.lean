/-
What a call puts on its connections.

A call of `send_file` that is not asked to resume sends the offer of its file,
the pieces of the file from its start, and the completion; a call of `send_msg`
sends its message; the peers send liveness packets.  Each call dials no address
but that of its peer.  The first of these holds under a contract: it depends on
what the call is answered.
-/

import Shr.Fleet.Machine
import Shr.Library.Contracts
import Shr.Peers.WriteBack
import Shr.Transfer.Progress

namespace Shr
namespace Fleet

/-! ### Files -/

def piece (contents : Bytes) (chunk : Nat) : Bytes :=
  (contents.drop (chunk * shrChunkSize)).take shrChunkSize

inductive FilePacket (vendor : Vendor) (inputs : SendInputs) : Packet → Prop where
  | offer {absPath : Bytes} (known : inputs.canonical = some absPath) :
      FilePacket vendor inputs (offerPacket vendor inputs absPath)
  | chunk {contents : Bytes} (readable : inputs.contents = some contents) {chunk : Nat}
      (more : chunk * shrChunkSize < contents.length) :
      FilePacket vendor inputs
        (chunkPacket vendor inputs (UInt64.ofNat (chunk * shrChunkSize)) (UInt64.ofNat chunk)
          (piece contents chunk))
  | complete : FilePacket vendor inputs (completePacket vendor inputs)

inductive FileOp (vendor : Vendor) (inputs : SendInputs) : SendOp → Prop where
  | connectTo {peer : PeerInfo} (valid : isValidUuid inputs.recipientId = true)
      (registered : inputs.peer = some peer) :
      FileOp vendor inputs (.connectTo peer.ip peer.port)
  | sendPacket {packet : Packet} (own : FilePacket vendor inputs packet) :
      FileOp vendor inputs (.sendPacket packet)
  | other {op : SendOp} (asked : SendFileOp inputs op)
      (dials : ∀ ip port, op ≠ .connectTo ip port) (sends : ∀ packet, op ≠ .sendPacket packet) :
      FileOp vendor inputs op

theorem FileOp.asked {vendor : Vendor} {inputs : SendInputs} {op : SendOp}
    (fileOp : FileOp vendor inputs op) : SendFileOp inputs op := by
  cases fileOp with
  | connectTo valid registered => exact .connectTo _ _
  | sendPacket own => exact .sendPacket _
  | other asked dials sends => exact asked

def Unresumed : (op : SendOp) → op.Reply → Prop
  | .readPacket, reply => ∀ packet : Packet, reply = some packet → packet.type ≠ .fileResume
  | _, _ => True

def unresumed (vendor : Vendor) (inputs : SendInputs) : Contract sendSignature Unit :=
  { allowed := fun _known op => FileOp vendor inputs op
    possible := fun _known op reply => Unresumed op reply
    learned := fun _known _op _reply => () }

def AtStart (contents : Bytes) : Point → Prop
  | .begin start => start = 0
  | .enter start => start = 0
  | .pause start chunk _left => start = 0 ∧ More contents 0 chunk
  | .sendChunk start chunk _left => start = 0 ∧ More contents 0 chunk
  | .awaitAck start _chunk => start = 0
  | .recordAck start _chunk => start = 0
  | _ => True

section Files

variable {vendor : Vendor}

theorem remainingFrom_zero (contents : Bytes) : remainingFrom contents 0 = contents := by
  rw [remainingFrom_eq (by decide)]
  exact List.drop_zero

theorem more_zero_iff {contents : Bytes} {chunk : Nat} :
    More contents 0 chunk ↔ chunk * shrChunkSize < contents.length := by
  unfold More
  rw [remainingFrom_zero]

theorem nthChunk_zero (call : SendCall) {chunk : Nat} (more : More call.contents 0 chunk) :
    nthChunk vendor call 0 chunk =
      chunkPacket vendor call.inputs (UInt64.ofNat (chunk * shrChunkSize)) (UInt64.ofNat chunk)
        (piece call.contents chunk) := by
  have place : position call.contents 0 chunk = UInt64.ofNat (chunk * shrChunkSize) := by
    unfold position
    rw [bytesBefore_of_more more, UInt64.zero_add]
  have index : (0 : UInt64) / UInt64.ofNat shrChunkSize + UInt64.ofNat chunk =
      UInt64.ofNat chunk := by
    rw [UInt64.zero_div, UInt64.zero_add]
  have data : chunkData call.contents 0 chunk = piece call.contents chunk := by
    unfold chunkData piece
    rw [remainingFrom_zero]
  rw [nthChunk, place, index, data]

theorem loopPoint_atStart (contents : Bytes) (chunk : Nat) :
    AtStart contents (loopPoint contents 0 chunk) := by
  unfold loopPoint
  split
  next more => exact ⟨rfl, more⟩
  next => trivial

theorem afterAttempt_atStart {contents : Bytes} {chunk : Nat} (more : More contents 0 chunk)
    (left : Nat) (sent : Bool) : AtStart contents (afterAttempt 0 chunk left sent) := by
  cases sent with
  | true => rfl
  | false =>
      cases left with
      | zero => trivial
      | succ left => exact ⟨rfl, more⟩

theorem afterAnswer_atStart (contents : Bytes) {answer : Option Packet}
    (unresumed : ∀ packet, answer = some packet → packet.type ≠ .fileResume) :
    AtStart contents (afterAnswer vendor answer) := by
  cases answer with
  | none => trivial
  | some resp =>
      simp only [afterAnswer]
      split
      next => trivial
      next => simp only [AtStart, answerOffset, if_neg (unresumed resp rfl)]

theorem afterAck_atStart (contents : Bytes) (chunk : Nat) (ack : Option Packet) :
    AtStart contents (afterAck 0 chunk ack) := by
  cases ack with
  | none => trivial
  | some ack => rfl

private theorem records_fileOp {call : SendCall} {transferred : UInt64} {state : TransferState}
    {later : Point} (asked : SendFileOp call.inputs
      (.updateTransferProgress call.inputs.xferId transferred state))
    (stays : AtStart call.contents later) {op : SendOp} {after : op.Reply → Point}
    (moves : Point.records call transferred state later = .ask op after) :
    FileOp vendor call.inputs op ∧ ∀ reply, Unresumed op reply → AtStart call.contents
      (after reply) := by
  cases moves
  exact ⟨.other asked nofun nofun, fun _reply _possible => stays⟩

theorem atStart_closed {call : SendCall} {point : Point} {op : SendOp}
    {after : op.Reply → Point} (inside : AtStart call.contents point)
    (moves : point.move vendor call = .ask op after) :
    FileOp vendor call.inputs op ∧
      ∀ reply, Unresumed op reply → AtStart call.contents (after reply) := by
  cases point with
  | checkActive =>
      cases moves
      refine ⟨.other .loadActive nofun nofun, fun active _possible => ?_⟩
      unfold afterActive
      split <;> trivial
  | store =>
      cases moves
      exact ⟨.other (.upsertTransfer _ call.sendable.known) nofun nofun,
        fun _stored _possible => trivial⟩
  | connect =>
      cases moves
      refine ⟨.connectTo call.sendable.recipient call.sendable.registered, ?_⟩
      intro connected _possible
      cases (connected : Bool) <;> trivial
  | connectFailed => exact records_fileOp (.failed _) (by exact trivial) moves
  | offer =>
      cases moves
      exact ⟨.sendPacket (.offer call.sendable.known), fun _sent _possible => trivial⟩
  | awaitAnswer =>
      cases moves
      exact ⟨.other .readPacket nofun nofun,
        fun _answer possible => afterAnswer_atStart call.contents possible⟩
  | abandonClose =>
      cases moves
      exact ⟨.other .closeConn nofun nofun, fun _closed _possible => trivial⟩
  | abandonRecord => exact records_fileOp (.failed _) (by exact trivial) moves
  | begin start => exact records_fileOp (.inProgress _) (by exact inside) moves
  | enter start =>
      cases inside
      cases moves
      exact ⟨.other .incrementActive nofun nofun,
        fun _incremented _possible => loopPoint_atStart _ _⟩
  | pause start chunk left =>
      cases moves
      exact ⟨.other (.sleep _) nofun nofun, fun _slept _possible => inside⟩
  | sendChunk start chunk left =>
      obtain ⟨isStart, more⟩ := inside
      cases isStart
      cases moves
      refine ⟨.sendPacket ?_, fun sent _possible => afterAttempt_atStart more left sent⟩
      rw [nthChunk_zero call more]
      exact .chunk call.readable (more_zero_iff.mp more)
  | awaitAck start chunk =>
      cases inside
      cases moves
      exact ⟨.other .readPacket nofun nofun,
        fun ack _possible => afterAck_atStart call.contents chunk ack⟩
  | recordAck start chunk =>
      cases inside
      exact records_fileOp (.inProgress _) (loopPoint_atStart _ _) moves
  | failClose start chunk =>
      cases moves
      exact ⟨.other .closeConn nofun nofun, fun _closed _possible => trivial⟩
  | failRecord start chunk => exact records_fileOp (.failed _) (by exact trivial) moves
  | failLeave start chunk =>
      cases moves
      exact ⟨.other .decrementActive nofun nofun, fun _decremented _possible => trivial⟩
  | complete start acked sent =>
      cases moves
      exact ⟨.sendPacket .complete, fun _sent _possible => trivial⟩
  | completeClose start acked sent =>
      cases moves
      exact ⟨.other .closeConn nofun nofun, fun _closed _possible => trivial⟩
  | completeRecord start acked sent =>
      exact records_fileOp (.completed _) (by exact trivial) moves
  | completeLeave start acked sent =>
      cases moves
      exact ⟨.other .decrementActive nofun nofun, fun _decremented _possible => trivial⟩
  | turnedAway => cases moves
  | unconnected => cases moves
  | abandoned => cases moves
  | failed start chunk => cases moves
  | completed start acked sent => cases moves

theorem sendable_of_fresh {inputs : SendInputs} {program : SendProgram Bytes}
    (fresh : Fresh vendor inputs program) : ∃ absPath peer, Sendable inputs absPath peer := by
  cases fresh with
  | counting sendable => exact ⟨_, _, sendable⟩
  | storing sendable => exact ⟨_, _, sendable⟩

private theorem asks_file {inputs : SendInputs} {op : SendOp}
    (permitted : FileOp vendor inputs op) : (ask op).Asks (FileOp vendor inputs) :=
  Program.asks_perform permitted

theorem unreadable_asks {inputs : SendInputs} {absPath : Bytes} {peer : PeerInfo}
    (sendable : Sendable inputs absPath peer) (unreadable : inputs.contents = none) :
    (sendFile vendor inputs).Asks (FileOp vendor inputs) := by
  have abandons : (abandonOffer inputs).Asks (FileOp vendor inputs) := by
    refine Program.Asks.bind (asks_file (.other .closeConn nofun nofun)) fun _closed => ?_
    exact Program.Asks.bind (asks_file (.other (.failed _) nofun nofun))
      fun _updated => Program.asks_done _ _
  have offers : (offerFile vendor inputs absPath peer).Asks (FileOp vendor inputs) := by
    refine Program.Asks.bind
      (asks_file (.other (.upsertTransfer absPath sendable.known) nofun nofun)) fun _stored => ?_
    refine Program.Asks.bind
      (asks_file (.connectTo sendable.recipient sendable.registered)) fun connected => ?_
    cases (connected : Bool) with
    | false =>
        exact Program.Asks.bind (asks_file (.other (.failed _) nofun nofun))
          fun _updated => Program.asks_done _ _
    | true =>
        refine Program.Asks.bind (asks_file (.sendPacket (.offer sendable.known)))
          fun _sent => ?_
        refine Program.Asks.bind (asks_file (.other .readPacket nofun nofun)) fun answer => ?_
        cases (answer : Option Packet) with
        | none => exact abandons
        | some resp =>
            simp only [answerOffer, unreadable]
            split <;> exact abandons
  rw [sendable.sendFile_eq vendor]
  refine ⟨.other .loadActive nofun nofun, fun (active : Int) => ?_⟩
  by_cases full : shrMaxConcurrent ≤ active
  · simp only [if_pos full]
    exact Program.asks_done _ _
  · simp only [if_neg full]
    exact offers

/-- As long as no reply asks to resume, a call sends nothing but its offer, the
pieces of its file and its completion, to its peer. -/
theorem sendFile_meets (vendor : Vendor) (inputs : SendInputs) :
    (sendFile vendor inputs).Meets (unresumed vendor inputs) (fun _known _result => True) () := by
  rcases sendFile_phase vendor inputs with fresh | finished
  · obtain ⟨absPath, peer, sendable⟩ := sendable_of_fresh fresh
    cases readable : inputs.contents with
    | none =>
        exact (unreadable_asks sendable readable).meets (fun _known _op fileOp => fileOp) ()
    | some contents =>
        let call : SendCall :=
          { inputs := inputs
            absPath := absPath
            peer := peer
            contents := contents
            sendable := sendable
            readable := readable }
        have closed {point : Point} {op : SendOp} {after : op.Reply → Point}
            (inside : AtStart contents point) (moves : point.move vendor call = .ask op after) :=
          atStart_closed inside moves
        exact @Program.Follows.meets sendSignature Unit Bytes (unresumed vendor inputs) Point
          (Point.move vendor call) (fun _known point => AtStart contents point) closed _ _
          (sendFile_at vendor call) () trivial
  · rw [finished]
    trivial

end Files

/-! ### Messages -/

inductive MailOp (vendor : Vendor) (inputs : Messaging.Inputs) : Messaging.Op → Prop where
  | sendPacket {peer : PeerInfo} (valid : isValidUuid inputs.recipientId = true)
      (registered : inputs.peer = some peer) :
      MailOp vendor inputs
        (.sendPacket peer.ip peer.port (Messaging.messagePacket vendor inputs))
  | sleep (milliseconds : Int) : MailOp vendor inputs (.sleep milliseconds)
  | insertMessage : MailOp vendor inputs (.insertMessage (Messaging.sentMessage inputs))

section Messages

variable {vendor : Vendor} {inputs : Messaging.Inputs}

theorem mailAttempts_asks {peer : PeerInfo} (sendable : Messaging.Sendable inputs peer)
    (attempt left : Nat) :
    (Messaging.sendAttempts vendor inputs peer attempt left).Asks (MailOp vendor inputs) := by
  induction left generalizing attempt with
  | zero => exact Program.asks_done _ _
  | succ left ih =>
      have sends : (do
          let ok ← Messaging.sendPacket peer.ip peer.port (Messaging.messagePacket vendor inputs)
          if ok then return true
          else Messaging.sendAttempts vendor inputs peer (attempt + 1) left :
            Messaging.MsgProgram Bool).Asks (MailOp vendor inputs) := by
        refine Program.Asks.bind
          (Program.asks_perform (.sendPacket sendable.recipient sendable.registered))
          fun ok => ?_
        cases (ok : Bool) with
        | true => exact Program.asks_done _ _
        | false => exact ih (attempt + 1)
      unfold Messaging.sendAttempts
      split
      · exact Program.Asks.bind (Program.asks_perform (.sleep _)) fun _slept => sends
      · exact sends

theorem sendMsg_asks (vendor : Vendor) (inputs : Messaging.Inputs) :
    (Messaging.sendMsg vendor inputs).Asks (MailOp vendor inputs) := by
  rcases Messaging.sendMsg_cases vendor inputs with refused | ⟨peer, sendable⟩
  · rw [refused]
    exact Program.asks_done _ _
  · rw [sendable.sendMsg_eq vendor]
    refine Program.Asks.bind (mailAttempts_asks sendable 0 shrRetryLimit) fun ok => ?_
    cases ok with
    | false => exact Program.asks_done _ _
    | true =>
        exact Program.Asks.bind (Program.asks_perform .insertMessage)
          fun _stored => Program.asks_done _ _

end Messages

end Fleet
end Shr
