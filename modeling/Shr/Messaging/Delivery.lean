/-
What a successful `send_msg` says about the recipient.

The sender learns only that its connection has taken the frame.  What happens to
the bytes afterwards is the fate of the attempt: how many of them the recipient
still reads, and whether its insert succeeds.
-/

import Mathlib.Data.Nat.Find
import Shr.Messaging.Operations
import Shr.Network.Authentication
import Shr.Reference

namespace Shr
namespace Messaging

open Transmission (Source Sink Accepts Breaks)

/-! ### Two parties -/

/-- What becomes of one attempt.  The connection may be refused, may break while
the frame is written, and may be lost after `arrives` bytes have been read. -/
structure Fate where
  connected : Bool
  outcomes : Nat → Option Nat
  arrives : Nat
  wishes : Nat → Nat
  arrival : Arrival

def Fate.conn (fate : Fate) : Sink UInt8 :=
  { accepted := []
    outcomes := fate.outcomes
    calls := 0 }

/-- The sender's table, the recipient's, and the number of attempts made. -/
structure World where
  attempts : Nat
  sent : MessageTable
  inbox : Inbox

/-- The parts of the two nodes that stay fixed: the recipient's id and its
handlers for packets that are no messages, and the address it sees. -/
structure Parties where
  hmac : Hmac
  recipientId : Bytes
  others : Handlers Inbox
  peerIp : Bytes

section Delivery

variable (vendor : Vendor) (parties : Parties) (fates : Nat → Fate) (ownStores : Bool)

def handlers (arrival : Arrival) : Handlers Inbox := fun type =>
  if type = .msgSend then
    some fun packet inbox =>
      handleMsgSend vendor parties.recipientId arrival packet.payload inbox
  else parties.others type

/-- The recipient serves a connection on which `stream` was sent. -/
def deliver (fate : Fate) (stream : Bytes) (inbox : Inbox) : Inbox :=
  (Network.handleConn (handlers vendor parties fate.arrival)
    (arriving (stream.take fate.arrives) fate.wishes) parties.peerIp inbox).2

/-- `send_packet` connects, sends one packet and closes; the next operation of
the sender does not wait for anything the recipient sends. -/
def Op.overConns : (op : Op) → World → op.Reply × World
  | .sendPacket _ip _port packet, world =>
      let fate := fates world.attempts
      if fate.connected = false then
        (false, { world with attempts := world.attempts + 1 })
      else
        let (ok, conn) := Network.sendPacketConn parties.hmac fate.conn packet
        (ok,
          { world with
            attempts := world.attempts + 1
            inbox := deliver vendor parties fate conn.accepted world.inbox })
  | .sleep _milliseconds, world => ((), world)
  | .insertMessage message, world =>
      (ownStores,
        { world with
          sent := if ownStores then world.sent.insertMessage message else world.sent })

/-! ### Fates -/

def Fate.Through (size : Nat) (fate : Fate) : Prop :=
  fate.connected = true ∧ ∃ next, Accepts fate.outcomes requestLength size 0 next

structure FirstThrough (size attempt : Nat) : Prop where
  inside : attempt < shrRetryLimit
  through : (fates attempt).Through size
  first : ∀ earlier < attempt, ¬(fates earlier).Through size

end Delivery

section Attempts

variable {vendor : Vendor} {parties : Parties} {fates : Nat → Fate} {ownStores : Bool}
variable {inputs : Inputs}

def messageFrame (hmac : Hmac) (vendor : Vendor) (inputs : Inputs)
    (fits : (messagePacket vendor inputs).payload.length < 2 ^ 32) : Frame :=
  { type := PacketType.msgSend.code
    hmac := packetTag hmac (messagePacket vendor inputs).payload none
    payload := (messagePacket vendor inputs).payload
    fits := fits }

theorem messageFrame_length (hmac : Hmac)
    (fits : (messagePacket vendor inputs).payload.length < 2 ^ 32) :
    (messageFrame hmac vendor inputs fits).bytes.length =
      headerSize + (messagePacket vendor inputs).payload.length :=
  Frame.bytes_length _

theorem serializePacket_message (hmac : Hmac)
    (fits : (messagePacket vendor inputs).payload.length < 2 ^ 32) :
    serializePacket hmac (messagePacket vendor inputs).type
        (messagePacket vendor inputs).payload none =
      (messageFrame hmac vendor inputs fits).bytes :=
  serializePacket_eq hmac PacketType.msgSend.code _ none fits

theorem deliver_cut_off {frame : Frame} {count : Nat} (short : count < frame.bytes.length)
    (fate : Fate) (inbox : Inbox) :
    deliver vendor parties fate (frame.bytes.take count) inbox = inbox := by
  unfold deliver Network.handleConn
  rw [Network.serve_stuck]
  intro other after
  simp only [arriving]
  rw [List.take_take]
  exact frame.cut_off (Nat.lt_of_le_of_lt (Nat.min_le_right _ _) short) other after

theorem deliver_frame (fits : (messagePacket vendor inputs).payload.length < 2 ^ 32)
    (fate : Fate) (inbox : Inbox) :
    deliver vendor parties fate (messageFrame parties.hmac vendor inputs fits).bytes inbox =
      if (messageFrame parties.hmac vendor inputs fits).bytes.length ≤ fate.arrives then
        handleMsgSend vendor parties.recipientId fate.arrival
          (messagePacket vendor inputs).payload inbox
      else inbox := by
  split
  next whole =>
      unfold deliver Network.handleConn
      rw [List.take_of_length_le whole]
      simp only
      have arrived : (arriving (messageFrame parties.hmac vendor inputs fits).bytes
          fate.wishes).incoming = (messageFrame parties.hmac vendor inputs fits).bytes := rfl
      rw [Network.serve_single _ _ arrived]
      rfl
  next cut =>
      have short := Nat.lt_of_not_le cut
      unfold deliver Network.handleConn
      rw [Network.serve_stuck]
      intro other after
      exact (messageFrame parties.hmac vendor inputs fits).cut_off short other after

theorem sendPacket_through (fits : (messagePacket vendor inputs).payload.length < 2 ^ 32)
    {world : World} (ip : Bytes) (port : UInt16)
    (through : (fates world.attempts).Through
      (messageFrame parties.hmac vendor inputs fits).bytes.length) :
    Op.overConns vendor parties fates ownStores
        (.sendPacket ip port (messagePacket vendor inputs)) world =
      (true,
        { world with
          attempts := world.attempts + 1
          inbox := deliver vendor parties (fates world.attempts)
            (messageFrame parties.hmac vendor inputs fits).bytes world.inbox }) := by
  have accepted : ((fates world.attempts).conn.push requestLength
      (messageFrame parties.hmac vendor inputs fits).bytes).1 = true :=
    Sink.push_ok_iff.mpr through.2
  have whole := Sink.push_of_ok _ _ accepted
  have open_conn : ¬(fates world.attempts).connected = false := by
    rw [through.1]
    exact Bool.noConfusion
  simp only [Op.overConns, Network.sendPacketConn, Network.writeRaw,
    serializePacket_message parties.hmac fits]
  rw [if_neg open_conn, accepted, whole]
  rfl

theorem sendPacket_fails (fits : (messagePacket vendor inputs).payload.length < 2 ^ 32)
    {world : World} (ip : Bytes) (port : UInt16)
    (fails : ¬(fates world.attempts).Through
      (messageFrame parties.hmac vendor inputs fits).bytes.length) :
    Op.overConns vendor parties fates ownStores
        (.sendPacket ip port (messagePacket vendor inputs)) world =
      (false, { world with attempts := world.attempts + 1 }) := by
  simp only [Op.overConns, Network.sendPacketConn, Network.writeRaw,
    serializePacket_message parties.hmac fits]
  split
  next => rfl
  next open_conn =>
      have failed : ((fates world.attempts).conn.push requestLength
          (messageFrame parties.hmac vendor inputs fits).bytes).1 = false := by
        by_contra accepted
        rw [Bool.not_eq_false] at accepted
        exact fails ⟨Bool.not_eq_false _ ▸ open_conn, Sink.push_ok_iff.mp accepted⟩
      obtain ⟨count, short, cut⟩ := Sink.push_of_failed _ _ failed
      have begun : ((fates world.attempts).conn.push requestLength
          (messageFrame parties.hmac vendor inputs fits).bytes).2.accepted =
            (messageFrame parties.hmac vendor inputs fits).bytes.take count := cut
      rw [failed, begun, deliver_cut_off short]
      rfl

theorem sendAttempts_run_succ (peer : PeerInfo) (attempt left : Nat) (world : World) :
    (sendAttempts vendor inputs peer attempt (left + 1)).run
        (Op.overConns vendor parties fates ownStores) world =
      let reply : Bool × World := Op.overConns vendor parties fates ownStores
        (.sendPacket peer.ip peer.port (messagePacket vendor inputs)) world
      (if reply.1 then return true
        else sendAttempts vendor inputs peer (attempt + 1) left : MsgProgram Bool).run
          (Op.overConns vendor parties fates ownStores) reply.2 := by
  conv_lhs => unfold sendAttempts
  split <;> rfl

theorem sendAttempts_run_through (ownStores : Bool)
    (fits : (messagePacket vendor inputs).payload.length < 2 ^ 32)
    (peer : PeerInfo) (attempt left : Nat) (world : World) {success : Nat}
    (later : world.attempts ≤ success) (inside : success < world.attempts + left)
    (through : (fates success).Through
      (messageFrame parties.hmac vendor inputs fits).bytes.length)
    (first : ∀ earlier, world.attempts ≤ earlier → earlier < success →
      ¬(fates earlier).Through (messageFrame parties.hmac vendor inputs fits).bytes.length) :
    (sendAttempts vendor inputs peer attempt left).run
        (Op.overConns vendor parties fates ownStores) world =
      (true,
        { world with
          attempts := success + 1
          inbox := deliver vendor parties (fates success)
            (messageFrame parties.hmac vendor inputs fits).bytes world.inbox }) := by
  induction left generalizing attempt world with
  | zero => omega
  | succ left ih =>
      rw [sendAttempts_run_succ]
      rcases Nat.eq_or_lt_of_le later with now | later
      · rw [← now] at through ⊢
        rw [sendPacket_through fits _ _ through]
        rfl
      · rw [sendPacket_fails fits _ _ (first _ (Nat.le_refl _) later)]
        exact ih (attempt + 1) { world with attempts := world.attempts + 1 } later
          (by simp only; omega) fun earlier after before =>
            first earlier (by simp only at after; omega) before

theorem sendAttempts_run_fails (ownStores : Bool)
    (fits : (messagePacket vendor inputs).payload.length < 2 ^ 32)
    (peer : PeerInfo) (attempt left : Nat) (world : World)
    (fails : ∀ earlier, world.attempts ≤ earlier → earlier < world.attempts + left →
      ¬(fates earlier).Through (messageFrame parties.hmac vendor inputs fits).bytes.length) :
    ((sendAttempts vendor inputs peer attempt left).run
        (Op.overConns vendor parties fates ownStores) world).1 = false := by
  induction left generalizing attempt world with
  | zero => rfl
  | succ left ih =>
      rw [sendAttempts_run_succ,
        sendPacket_fails fits _ _ (fails _ (Nat.le_refl _) (by omega))]
      exact ih (attempt + 1) { world with attempts := world.attempts + 1 }
        fun earlier after before =>
          fails earlier (by simp only at after; omega) (by simp only at before; omega)

end Attempts

/-! ### Success and delivery -/

section Success

variable (vendor : Vendor) (parties : Parties) (fates : Nat → Fate) (ownStores : Bool)
variable (sent : MessageTable) (inbox : Inbox) (inputs : Inputs)

/-- The recipient's table has a row with the id and the content of the message. -/
def Delivered (table : MessageTable) : Prop :=
  ∃ row ∈ table.rows, row.id.val = (sentMessage inputs).id ∧
    row.content.val = (sentMessage inputs).content

/-- A call that returns true, and has stored the message as sent, has delivered it. -/
def SuccessMeansDelivered : Prop :=
  let final := (sendMsg vendor inputs).run (Op.overConns vendor parties fates ownStores)
    { attempts := 0
      sent := sent
      inbox := inbox }
  final.1 = true →
    final.2.sent.message (sentMessage inputs).id = some (bindMessage (sentMessage inputs)) →
      Delivered inputs final.2.inbox.table

/-- The sender's table has the row already, or gets it when it is inserted. -/
def KeptAsSent : Prop :=
  sent.message (sentMessage inputs).id = some (bindMessage (sentMessage inputs)) ∨
    sent.message (sentMessage inputs).id = none ∧ ownStores = true

/-- The recipient's table has such a row already; or the id is new to it, the
whole frame is read, the insert succeeds and the content is a C string. -/
def Reaches (fate : Fate) : Prop :=
  Delivered inputs inbox.table ∨
    inbox.table.message (sentMessage inputs).id = none ∧
      headerSize + (messagePacket vendor inputs).payload.length ≤ fate.arrives ∧
      fate.arrival.stores = true ∧ NulFree inputs.content

end Success

section Success

variable {vendor : Vendor} {parties : Parties} {fates : Nat → Fate} {ownStores : Bool}
variable {inputs : Inputs}

theorem delivered_iff {table : MessageTable} :
    Delivered inputs table ↔ ∃ row, table.message (sentMessage inputs).id = some row ∧
      row.content.val = inputs.content := by
  have text : NulFree (sentMessage inputs).id := generateUuid_nulFree _
  constructor
  · rintro ⟨row, member, id, content⟩
    refine ⟨row, KeyedTable.find_eq_some_iff.mpr ⟨member, ?_⟩, content⟩
    rw [← id, bindText_val]
  · rintro ⟨row, found, content⟩
    obtain ⟨member, id⟩ := KeyedTable.find_eq_some_iff.mp found
    refine ⟨row, member, ?_, content⟩
    rw [id, bindText_val_eq_iff.mpr text]

theorem kept_iff {sent : MessageTable} :
    (if ownStores then sent.insertMessage (sentMessage inputs) else sent).message
          (sentMessage inputs).id = some (bindMessage (sentMessage inputs)) ↔
      KeptAsSent ownStores sent inputs := by
  unfold KeptAsSent
  cases ownStores with
  | false => simp
  | true =>
      rw [if_pos rfl, MessageTable.message_insert_self _ _ rfl]
      cases sent.message (sentMessage inputs).id <;> simp

theorem delivered_handled_iff {inbox : Inbox} {arrival : Arrival} :
    Delivered inputs (handleMsgSend vendor parties.recipientId arrival
        (messagePacket vendor inputs).payload inbox).table ↔
      Delivered inputs inbox.table ∨
        inbox.table.message (sentMessage inputs).id = none ∧ arrival.stores = true ∧
          NulFree inputs.content := by
  have read : readMessage vendor parties.recipientId arrival
      (messagePacket vendor inputs).payload = some { sentMessage inputs with read := false } :=
    readMessage_toCbor vendor _ arrival (sentMessage inputs)
  simp only [handleMsgSend, handleMsgReceive, read, delivered_iff]
  cases arrival.stores with
  | false => simp
  | true =>
      rw [if_pos rfl, MessageTable.message_insert_self _ _ rfl]
      cases inbox.table.message (sentMessage inputs).id with
      | some row => simp
      | none =>
          have content : (bindMessage { sentMessage inputs with read := false }).content =
              bindText inputs.content := rfl
          simp [content, bindText_val_eq_iff]

theorem delivered_deliver_iff (fits : (messagePacket vendor inputs).payload.length < 2 ^ 32)
    {inbox : Inbox} {fate : Fate} :
    Delivered inputs (deliver vendor parties fate
        (messageFrame parties.hmac vendor inputs fits).bytes inbox).table ↔
      Reaches vendor inbox inputs fate := by
  unfold Reaches
  rw [deliver_frame, messageFrame_length]
  split
  next whole => simp [delivered_handled_iff, whole]
  next cut => simp [cut]

/-- Only a call whose attempts have gone through touches the sender's table. -/
theorem sendMsg_run {peer : PeerInfo} (sendable : Sendable inputs peer) (world : World) :
    (sendMsg vendor inputs).run (Op.overConns vendor parties fates ownStores) world =
      let reply := (sendAttempts vendor inputs peer 0 shrRetryLimit).run
        (Op.overConns vendor parties fates ownStores) world
      if reply.1 = false then (false, reply.2)
      else (true,
        { reply.2 with
          sent := if ownStores then reply.2.sent.insertMessage (sentMessage inputs)
            else reply.2.sent }) := by
  rw [sendable.sendMsg_eq]
  refine (Program.run_bind (σ := signature)
    (Op.overConns vendor parties fates ownStores) _ _ world).trans ?_
  simp only
  split <;> rfl

theorem sendMsg_run_through (fits : (messagePacket vendor inputs).payload.length < 2 ^ 32)
    {peer : PeerInfo} (sendable : Sendable inputs peer) {attempt : Nat}
    (success : FirstThrough fates
      (headerSize + (messagePacket vendor inputs).payload.length) attempt)
    (ownStores : Bool) (sent : MessageTable) (inbox : Inbox) :
    (sendMsg vendor inputs).run (Op.overConns vendor parties fates ownStores)
        { attempts := 0
          sent := sent
          inbox := inbox } =
      (true,
        { attempts := attempt + 1
          sent := if ownStores then sent.insertMessage (sentMessage inputs) else sent
          inbox := deliver vendor parties (fates attempt)
            (messageFrame parties.hmac vendor inputs fits).bytes inbox }) := by
  rw [← messageFrame_length parties.hmac fits] at success
  rw [sendMsg_run sendable, sendAttempts_run_through ownStores fits peer 0 shrRetryLimit
    { attempts := 0
      sent := sent
      inbox := inbox } (Nat.zero_le attempt) (by simpa using success.inside) success.through
    fun earlier _after before => success.first earlier before]
  rfl

theorem firstThrough_or (fates : Nat → Fate) (size : Nat) :
    (∃ attempt, FirstThrough fates size attempt) ∨
      ∀ attempt < shrRetryLimit, ¬(fates attempt).Through size := by
  classical
  by_cases some_through : ∃ attempt, attempt < shrRetryLimit ∧ (fates attempt).Through size
  · have found := Nat.find_spec some_through
    refine .inl ⟨Nat.find some_through, found.1, found.2, ?_⟩
    intro earlier before through
    exact Nat.find_min some_through before ⟨Nat.lt_trans before found.1, through⟩
  · exact .inr fun attempt inside through => some_through ⟨attempt, inside, through⟩

/-- A successful call has delivered its message if and only if the recipient gets
the row from the first attempt that goes through: nothing but that attempt's
local write stands behind the success. -/
theorem success_means_delivered_iff (vendor : Vendor) (parties : Parties) (fates : Nat → Fate)
    (ownStores : Bool) (sent : MessageTable) (inbox : Inbox) (inputs : Inputs)
    (fits : (messagePacket vendor inputs).payload.length < 2 ^ 32) :
    SuccessMeansDelivered vendor parties fates ownStores sent inbox inputs ↔
      ∀ peer, Sendable inputs peer → KeptAsSent ownStores sent inputs →
        ∀ attempt, FirstThrough fates
          (headerSize + (messagePacket vendor inputs).payload.length) attempt →
          Reaches vendor inbox inputs (fates attempt) := by
  constructor
  · intro means peer sendable kept attempt success
    unfold SuccessMeansDelivered at means
    rw [sendMsg_run_through fits sendable success] at means
    exact (delivered_deliver_iff fits).mp (means rfl (kept_iff.mpr kept))
  · intro reaches
    unfold SuccessMeansDelivered
    rcases sendMsg_cases vendor inputs with stopped | ⟨peer, sendable⟩
    · rw [stopped]
      intro _final impossible
      cases impossible
    · rcases firstThrough_or fates (headerSize + (messagePacket vendor inputs).payload.length)
        with ⟨attempt, success⟩ | fails
      · rw [sendMsg_run_through fits sendable success]
        intro _final _true kept
        exact (delivered_deliver_iff fits).mpr
          (reaches peer sendable (kept_iff.mp kept) attempt success)
      · rw [← messageFrame_length parties.hmac fits] at fails
        have ran := sendAttempts_run_fails ownStores fits peer 0 shrRetryLimit
          { attempts := 0
            sent := sent
            inbox := inbox } fun earlier _after before => fails earlier (by simpa using before)
        rw [sendMsg_run sendable]
        simp only [ran, if_true]
        intro impossible
        cases impossible

end Success

/-! ### One message -/

namespace Reference

def messageInputs : Inputs :=
  { recipientId := Shr.Reference.peer.id
    content := ascii "meeting at 3pm?"
    peer := some Shr.Reference.peer
    random := fun _index => 0
    timestamp := 0
    ownId := Shr.Reference.ownId
    retryDelayMs := 2000 }

def parties : Parties :=
  { hmac := fun _key _length _data => zeroTag
    recipientId := Shr.Reference.peer.id
    others := fun _type => none
    peerIp := ascii "192.168.1.10" }

/-- Every byte is accepted at once, and the recipient reads the first `arrives`. -/
def acceptedFate (arrives : Nat) : Fate :=
  { connected := true
    outcomes := fun _call => some (2 ^ 31)
    arrives := arrives
    wishes := fun _call => 1
    arrival :=
      { random := fun _index => 0
        now := 0
        stores := true } }

def emptyInbox : Inbox :=
  { table := MessageTable.empty
    replies := [] }

theorem messageInputs_sendable : Sendable messageInputs Shr.Reference.peer where
  recipient := by
    change isValidUuid Shr.Reference.peer.id = true
    decide
  nonempty := by decide
  registered := rfl
  addressed := by decide

theorem message_short :
    (messagePacket Shr.Reference.vendor messageInputs).payload.length < 1000 := by
  decide +kernel

theorem acceptedFate_through {size : Nat} (some_left : 0 < size) (small : size < 2 ^ 31)
    (arrives : Nat) : (acceptedFate arrives).Through size :=
  ⟨rfl, _, Accepts.whole some_left rfl (Nat.le_of_lt small)
    (Nat.le_of_eq (requestLength_of_lt small).symm)⟩

/-- When everything arrives, the successful call has delivered its message. -/
theorem arrived_message_delivered :
    SuccessMeansDelivered Shr.Reference.vendor parties (fun _attempt => acceptedFate (2 ^ 31))
      true MessageTable.empty emptyInbox messageInputs := by
  have short := message_short
  apply (success_means_delivered_iff Shr.Reference.vendor parties
    (fun _attempt => acceptedFate (2 ^ 31)) true MessageTable.empty emptyInbox messageInputs
    (Nat.lt_trans short (by decide))).mpr
  intro peer _sendable _kept attempt _first
  refine .inr ⟨rfl, ?_, rfl, by decide⟩
  rw [headerSize]
  simp only [acceptedFate]
  omega

/-- When the connection is lost before anything is read, the call still succeeds,
and the recipient has no row. -/
theorem lost_message_not_delivered :
    ¬SuccessMeansDelivered Shr.Reference.vendor parties (fun _attempt => acceptedFate 0)
      true MessageTable.empty emptyInbox messageInputs := by
  intro means
  have short := message_short
  have fits : (messagePacket Shr.Reference.vendor messageInputs).payload.length < 2 ^ 32 := by
    omega
  have bounded : 0 < headerSize +
        (messagePacket Shr.Reference.vendor messageInputs).payload.length ∧
      headerSize + (messagePacket Shr.Reference.vendor messageInputs).payload.length <
        2 ^ 31 := by
    rw [headerSize]
    omega
  have success : FirstThrough (fun _attempt => acceptedFate 0)
      (headerSize + (messagePacket Shr.Reference.vendor messageInputs).payload.length) 0 :=
    ⟨by decide, acceptedFate_through bounded.1 bounded.2 0,
      fun earlier before => absurd before (Nat.not_lt_zero _)⟩
  unfold SuccessMeansDelivered at means
  rw [sendMsg_run_through fits messageInputs_sendable success] at means
  have delivered := means rfl (kept_iff.mpr (.inr ⟨rfl, rfl⟩))
  rcases (delivered_deliver_iff fits).mp delivered with
    ⟨row, member, _rest⟩ | ⟨_new, arrived, _rest⟩
  · cases member
  · exact absurd bounded.1 (Nat.not_lt_of_le arrived)

end Reference

end Messaging
end Shr
