/-
What a `MsgAck` confirms.

The registered handler of `MsgSend` sends its reply whatever became of the
message.  Decoding may have thrown, the insert may have failed, and an insert
under an id that is taken leaves the older row.
-/

import Shr.Messaging.Operations
import Shr.Reference

namespace Shr
namespace Messaging

section Confirmation

variable (vendor : Vendor) (ownId : Bytes) (arrival : Arrival) (payload : Bytes)

def Says (message : Message) (row : MessageRow) : Prop :=
  row.senderId.val = message.senderId ∧ row.content.val = message.content

instance (message : Message) (row : MessageRow) : Decidable (Says message row) :=
  inferInstanceAs (Decidable (_ ∧ _))

def Stored (table : MessageTable) : Prop :=
  ∃ message, readMessage vendor ownId arrival payload = some message ∧
    ∃ row ∈ table.rows, row.id.val = message.id ∧ Says message row

/-- A call that sends a `MsgAck` leaves the message in the table. -/
def ConfirmsStored (table : MessageTable) : Prop :=
  let after := handleMsgSend vendor ownId arrival payload
    { table := table
      replies := [] }
  (∃ reply ∈ after.replies, reply.type = .msgAck) → Stored vendor ownId arrival payload after.table

/-- The message goes into the table, or is the one stored there already. -/
def Storable (message : Message) (stores : Bool) (table : MessageTable) : Prop :=
  NulFree message.id ∧
    match table.message message.id with
    | none => stores = true ∧ NulFree message.senderId ∧ NulFree message.content
    | some row => Says message row

end Confirmation

section Lemmas

variable {vendor : Vendor} {ownId : Bytes} {arrival : Arrival} {payload : Bytes}
  {message : Message} {table : MessageTable}

theorem says_bindMessage_iff :
    Says message (bindMessage message) ↔
      NulFree message.senderId ∧ NulFree message.content :=
  and_congr bindText_val_eq_iff bindText_val_eq_iff

theorem message_row_iff {row : MessageRow} :
    (row ∈ table.rows ∧ row.id.val = message.id) ↔
      NulFree message.id ∧ table.message message.id = some row := by
  unfold MessageTable.message
  rw [KeyedTable.find_eq_some_iff]
  constructor
  · intro both
    obtain ⟨member, same⟩ := both
    refine ⟨same ▸ row.id.property, member, ?_⟩
    rw [← same, bindText_val]
  · intro both
    obtain ⟨nulFree, member, same⟩ := both
    exact ⟨member, same ▸ bindText_val_eq_iff.mpr nulFree⟩

theorem stored_iff_find (decoded : readMessage vendor ownId arrival payload = some message) :
    Stored vendor ownId arrival payload table ↔
      NulFree message.id ∧ ∃ row, table.message message.id = some row ∧ Says message row := by
  constructor
  · intro stored
    obtain ⟨carried, same, row, member, sameId, agrees⟩ := stored
    rw [decoded] at same
    cases same
    obtain ⟨nulFree, found⟩ := message_row_iff.mp ⟨member, sameId⟩
    exact ⟨nulFree, row, found, agrees⟩
  · intro both
    obtain ⟨nulFree, row, found, agrees⟩ := both
    obtain ⟨member, sameId⟩ := message_row_iff.mpr ⟨nulFree, found⟩
    exact ⟨message, decoded, row, member, sameId, agrees⟩

theorem message_handleMsgReceive
    (decoded : readMessage vendor ownId arrival payload = some message) :
    (handleMsgReceive vendor ownId arrival payload table).message message.id =
      (table.message message.id).or
        (if arrival.stores then some (bindMessage message) else none) := by
  unfold handleMsgReceive
  rw [decoded]
  cases stores : arrival.stores with
  | true =>
      simp only [if_true]
      rw [MessageTable.message_insert_self table message rfl]
      cases table.message message.id <;> rfl
  | false => simp

theorem stored_handled_iff
    (decoded : readMessage vendor ownId arrival payload = some message) :
    Stored vendor ownId arrival payload (handleMsgReceive vendor ownId arrival payload table) ↔
      Storable message arrival.stores table := by
  rw [stored_iff_find decoded, message_handleMsgReceive decoded]
  unfold Storable
  refine and_congr_right fun _nulFree => ?_
  cases table.message message.id with
  | some row => simp
  | none =>
      cases arrival.stores with
      | true => simp [says_bindMessage_iff]
      | false => simp

end Lemmas

end Messaging

open Messaging in
/-- A `MsgAck` is sent only for a stored message if and only if the payload
decodes to one that goes into the table or is there already. -/
theorem confirmed_stored_iff (vendor : Vendor) (ownId : Bytes) (arrival : Messaging.Arrival)
    (payload : Bytes) (table : MessageTable) :
    ConfirmsStored vendor ownId arrival payload table ↔
      ∃ message, readMessage vendor ownId arrival payload = some message ∧
        Storable message arrival.stores table := by
  have sends : ∃ reply ∈ [Messaging.ackPacket vendor], reply.type = PacketType.msgAck :=
    ⟨Messaging.ackPacket vendor, List.mem_singleton_self _, rfl⟩
  constructor
  · intro confirms
    obtain ⟨message, decoded, row⟩ := confirms sends
    exact ⟨message, decoded, (stored_handled_iff decoded).mp ⟨message, decoded, row⟩⟩
  · intro storable _sends
    obtain ⟨message, decoded, storable⟩ := storable
    exact (stored_handled_iff decoded).mpr storable

namespace Messaging
namespace Reference

/-- A payload that does not decode is acknowledged. -/
theorem malformed_confirmed :
    ¬∀ (vendor : Vendor) (ownId : Bytes) (arrival : Arrival) (payload : Bytes)
      (table : MessageTable), ConfirmsStored vendor ownId arrival payload table := by
  intro confirms
  have stored := confirms Shr.Reference.vendor Shr.Reference.ownId
    { random := fun _index => 0
      now := 0
      stores := true } [] MessageTable.empty
    ⟨ackPacket Shr.Reference.vendor, List.mem_singleton_self _, rfl⟩
  obtain ⟨message, decoded, _row⟩ := stored
  cases decoded

end Reference
end Messaging

end Shr
