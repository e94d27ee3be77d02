/-
Sending and receiving a message, after `messaging.cxx`.

`sendMsg` is a program over its connections, its waits and its own table.  What
it only reads before its first effect is a record of inputs.  A packet is sent
over a connection of its own, and nothing is read from that connection.
-/

import Shr.Library.Interaction
import Shr.Messaging.Table
import Shr.Utils

namespace Shr
namespace Messaging

/-! ### Operations -/

inductive Op where
  | sendPacket (ip : Bytes) (port : UInt16) (packet : Packet)
  | sleep (milliseconds : Int)
  | insertMessage (message : Message)

def Op.Reply : Op → Type
  | .sendPacket _ _ _ => Bool
  | .sleep _ => Unit
  | .insertMessage _ => Bool

def signature : Signature :=
  { Op := Op
    Reply := Op.Reply }

abbrev MsgProgram := Program signature

def ask (op : Op) : MsgProgram op.Reply :=
  @Program.perform signature op

def sendPacket (ip : Bytes) (port : UInt16) (packet : Packet) : MsgProgram Bool :=
  ask (.sendPacket ip port packet)

def sleep (milliseconds : Int) : MsgProgram Unit :=
  ask (.sleep milliseconds)

def insertMessage (message : Message) : MsgProgram Bool :=
  ask (.insertMessage message)

/-! ### Payloads -/

/-- The keys are sorted; the `read` flag is not sent. -/
def messageFields (message : Message) : List (Bytes × JsonValue) :=
  [ (ascii "content", .string message.content),
    (ascii "id", .string message.id),
    (ascii "recipient_id", .string message.recipientId),
    (ascii "sender_id", .string message.senderId),
    (ascii "timestamp", .number message.timestamp.toInt) ]

structure Arrival where
  random : Random
  now : Int64
  stores : Bool

section Payloads

variable (vendor : Vendor)

/-- The message of a payload; `none` where the source throws. -/
def readMessage (ownId : Bytes) (arrival : Arrival) (payload : Bytes) : Option Message := do
  let json ← vendor.fromCbor payload
  let id ← json.value "id" JsonValue.asString (generateUuid arrival.random)
  let senderId ← json.value "sender_id" JsonValue.asString (ascii "unknown")
  let recipientId ← json.value "recipient_id" JsonValue.asString ownId
  let content ← json.value "content" JsonValue.asString []
  let timestamp ← json.value "timestamp" JsonValue.asInt64 arrival.now
  return { id, senderId, recipientId, content, timestamp, read := false }

theorem readMessage_unread {ownId : Bytes} {arrival : Arrival} {payload : Bytes}
    {message : Message} (decoded : readMessage vendor ownId arrival payload = some message) :
    message.read = false := by
  simp only [readMessage, Option.bind_eq_bind, Option.bind_eq_some_iff] at decoded
  obtain ⟨_json, _parsed, _id, _isId, _sender, _isSender, _recipient, _isRecipient, _content,
    _isContent, _timestamp, _isTimestamp, same⟩ := decoded
  cases same
  rfl

theorem messageFields_transmissible (message : Message) :
    Transmissible (messageFields message) where
  sorted := by
    change List.Pairwise _ [ascii "content", ascii "id", ascii "recipient_id",
      ascii "sender_id", ascii "timestamp"]
    decide
  values := by
    simp only [messageFields, List.mem_cons, List.not_mem_nil, or_false]
    rintro field (rfl | rfl | rfl | rfl | rfl)
    case inr.inr.inr.inr => exact JsonValue.transmissible_int64 message.timestamp
    all_goals trivial

theorem readMessage_toCbor (ownId : Bytes) (arrival : Arrival) (message : Message) :
    readMessage vendor ownId arrival (vendor.toCbor (messageFields message)) =
      some { message with read := false } := by
  unfold readMessage
  rw [vendor.fromCbor_toCbor _ (messageFields_transmissible message)]
  have timestamp := JsonValue.asInt64_toInt message.timestamp
  change ((JsonValue.number message.timestamp.toInt).asInt64).bind
    (fun timestamp => some { message with timestamp := timestamp, read := false }) = _
  rw [timestamp, Option.bind_some]

end Payloads

/-! ### Sending -/

structure Inputs where
  recipientId : Bytes
  content : Bytes
  peer : Option PeerInfo
  random : Random
  timestamp : Int64
  ownId : Bytes
  retryDelayMs : Int

def sentMessage (inputs : Inputs) : Message :=
  { id := generateUuid inputs.random
    senderId := inputs.ownId
    recipientId := inputs.recipientId
    content := inputs.content
    timestamp := inputs.timestamp
    read := true }

section SendMsg

variable (vendor : Vendor) (inputs : Inputs)

def messagePacket : Packet :=
  { type := .msgSend
    payload := vendor.toCbor (messageFields (sentMessage inputs)) }

/-- `for (attempt; attempt < SHR_RETRY_LIMIT && !ok; ++attempt)`, with the
number of attempts that are left. -/
def sendAttempts (peer : PeerInfo) (attempt : Nat) : Nat → MsgProgram Bool
  | 0 => return false
  | left + 1 => do
      if 0 < attempt then
        sleep inputs.retryDelayMs
      let ok ← sendPacket peer.ip peer.port (messagePacket vendor inputs)
      if ok then
        return true
      else
        sendAttempts peer (attempt + 1) left

def sendMsg : MsgProgram Bool :=
  if isValidUuid inputs.recipientId = false then
    return false
  else if inputs.content = [] then
    return false
  else
    match inputs.peer with
    | none => return false
    | some peer =>
        if peer.ip = [] then
          return false
        else do
          let ok ← sendAttempts vendor inputs peer 0 shrRetryLimit
          if ok = false then
            return false
          else
            let _stored ← insertMessage (sentMessage inputs)
            return true

end SendMsg

/-- The inputs pass every check that comes before the first attempt. -/
structure Sendable (inputs : Inputs) (peer : PeerInfo) : Prop where
  recipient : isValidUuid inputs.recipientId = true
  nonempty : inputs.content ≠ []
  registered : inputs.peer = some peer
  addressed : peer.ip ≠ []

theorem Sendable.sendMsg_eq {inputs : Inputs} {peer : PeerInfo} (sendable : Sendable inputs peer)
    (vendor : Vendor) :
    sendMsg vendor inputs = do
      let ok ← sendAttempts vendor inputs peer 0 shrRetryLimit
      if ok = false then
        return false
      else
        let _stored ← insertMessage (sentMessage inputs)
        return true := by
  unfold sendMsg
  simp only [sendable.recipient, sendable.nonempty, sendable.registered, sendable.addressed,
    if_false, Bool.true_eq_false]

theorem sendMsg_cases (vendor : Vendor) (inputs : Inputs) :
    sendMsg vendor inputs = .done false ∨ ∃ peer, Sendable inputs peer := by
  unfold sendMsg
  split
  next => exact .inl rfl
  next recipient =>
      split
      next => exact .inl rfl
      next nonempty =>
          cases registered : inputs.peer with
          | none => exact .inl rfl
          | some peer =>
              simp only
              split
              next => exact .inl rfl
              next addressed =>
                  exact .inr ⟨peer, Bool.not_eq_false _ ▸ recipient, nonempty, registered,
                    addressed⟩

/-! ### Receiving -/

section Receiving

variable (vendor : Vendor) (ownId : Bytes) (arrival : Arrival) (payload : Bytes)

def handleMsgReceive (table : MessageTable) : MessageTable :=
  match readMessage vendor ownId arrival payload with
  | none => table
  | some message => if arrival.stores then table.insertMessage message else table

def ackPacket : Packet :=
  { type := .msgAck
    payload := vendor.toCbor [(ascii "ok", .boolean true)] }

structure Inbox where
  table : MessageTable
  replies : List Packet

/-- The handler registered for `MsgSend`: every payload is acknowledged. -/
def handleMsgSend (inbox : Inbox) : Inbox :=
  { table := handleMsgReceive vendor ownId arrival payload inbox.table
    replies := inbox.replies ++ [ackPacket vendor] }

end Receiving

end Messaging
end Shr
