/-
The messages table, after `database.cxx`.

A message is inserted once and never replaced; the only statement that changes
a row sets its `read` column.
-/

import Shr.Library.KeyedTable
import Shr.Types

namespace Shr

/-! ### Rows -/

structure MessageRow where
  id : Text
  senderId : Text
  recipientId : Text
  content : Text
  timestamp : Int64
  read : Int64
deriving DecidableEq

/-- The values `insert_message` binds; text is bound up to its first NUL. -/
def bindMessage (message : Message) : MessageRow :=
  { id := bindText message.id
    senderId := bindText message.senderId
    recipientId := bindText message.recipientId
    content := bindText message.content
    timestamp := message.timestamp
    read := if message.read then 1 else 0 }

def rowToMessage (row : MessageRow) : Message :=
  { id := row.id.val
    senderId := row.senderId.val
    recipientId := row.recipientId.val
    content := row.content.val
    timestamp := row.timestamp
    read := row.read.toInt32 ≠ 0 }

def Message.stored (message : Message) : Message :=
  { message with
    id := cstr message.id
    senderId := cstr message.senderId
    recipientId := cstr message.recipientId
    content := cstr message.content }

theorem rowToMessage_bindMessage (message : Message) :
    rowToMessage (bindMessage message) = message.stored := by
  cases message with
  | mk id senderId recipientId content timestamp read =>
      cases read <;> simp [rowToMessage, bindMessage, Message.stored, bindText]

theorem stored_rowToMessage (row : MessageRow) :
    (rowToMessage row).stored = rowToMessage row := by
  unfold Message.stored rowToMessage
  simp only [cstr_of_nulFree row.id.property, cstr_of_nulFree row.senderId.property,
    cstr_of_nulFree row.recipientId.property, cstr_of_nulFree row.content.property]

def MessageRow.letter (row : MessageRow) : MessageRow :=
  { row with read := 0 }

def Message.letter (message : Message) : MessageRow :=
  (bindMessage message).letter

/-! ### Statements -/

/-- The messages table, keyed by the text of the `id` column. -/
abbrev MessageTable := KeyedTable MessageRow.id

namespace MessageTable

def empty : MessageTable :=
  KeyedTable.empty

/-- `INSERT OR IGNORE` -/
def insertMessage (table : MessageTable) (message : Message) : MessageTable :=
  table.insertNew (bindMessage message)

/-- `UPDATE messages SET read=1 WHERE id=?` -/
def markMessageRead (table : MessageTable) (id : Bytes) : MessageTable :=
  table.modify (bindText id) (fun row => { row with read := 1 }) (fun _row => rfl)

/-- `ORDER BY timestamp DESC LIMIT page_size OFFSET (page - 1) * page_size`, on
32 bits.  No limit is taken from a negative number, and no offset. -/
def getInbox (table : MessageTable) (page pageSize : Int32) : List Message :=
  let sorted := table.rows.mergeSort fun one other => decide (other.timestamp ≤ one.timestamp)
  let behind := sorted.drop ((page - 1) * pageSize).toInt.toNat
  let shown := if pageSize < 0 then behind else behind.take pageSize.toInt.toNat
  shown.map rowToMessage

/-- `SELECT COUNT(*) FROM messages WHERE read=0`, read as an `int`. -/
def unreadCount (table : MessageTable) : Int :=
  castInt (table.rows.countP fun row => row.read = 0)

def message (table : MessageTable) (id : Bytes) : Option MessageRow :=
  table.find (bindText id)

def letter (table : MessageTable) (id : Bytes) : Option MessageRow :=
  (table.message id).map MessageRow.letter

theorem message_insert_self (table : MessageTable) (message : Message) {id : Bytes}
    (same : bindText id = bindText message.id) :
    (table.insertMessage message).message id =
      some ((table.message id).getD (bindMessage message)) := by
  unfold MessageTable.message insertMessage
  rw [same]
  exact KeyedTable.find_insertNew_self table (bindMessage message)

theorem message_insert_of_ne (table : MessageTable) (message : Message) {id : Bytes}
    (different : bindText id ≠ bindText message.id) :
    (table.insertMessage message).message id = table.message id :=
  KeyedTable.find_insertNew_of_ne table (bindMessage message) different

/-- The message is in the table, with its contents unchanged. -/
def Holds (table : MessageTable) (message : Message) : Prop :=
  ∃ row ∈ table.rows, rowToMessage row = message

theorem holds_iff {table : MessageTable} {message : Message} :
    table.Holds message ↔
      ∃ row, table.message message.id = some row ∧ rowToMessage row = message := by
  constructor
  · rintro ⟨row, member, rfl⟩
    have key : bindText (rowToMessage row).id = row.id := bindText_val row.id
    refine ⟨row, ?_, rfl⟩
    rw [MessageTable.message, key]
    exact KeyedTable.find_of_mem member
  · rintro ⟨row, found, same⟩
    exact ⟨row, (KeyedTable.find_eq_some_iff.mp found).1, same⟩

theorem message_markRead_self (table : MessageTable) {id marked : Bytes}
    (same : bindText id = bindText marked) :
    (table.markMessageRead marked).message id =
      (table.message id).map fun row => { row with read := 1 } := by
  unfold MessageTable.message markMessageRead
  rw [same, KeyedTable.find_modify_self]

theorem message_markRead_of_ne (table : MessageTable) {id marked : Bytes}
    (different : bindText id ≠ bindText marked) :
    (table.markMessageRead marked).message id = table.message id :=
  KeyedTable.find_modify_of_ne _ _ _ different

def under (id : Bytes) (message : Message) : Bool :=
  bindText id = bindText message.id

theorem letter_insert (table : MessageTable) (id : Bytes) (message : Message) :
    (table.insertMessage message).letter id =
      (table.letter id).or (((some message).filter (under id)).map Message.letter) := by
  unfold letter
  by_cases same : bindText id = bindText message.id
  · rw [message_insert_self table message same]
    cases table.message id <;> simp [under, Option.filter, same, Message.letter]
  · rw [message_insert_of_ne table message same]
    simp [under, Option.filter, same]

theorem letter_markRead (table : MessageTable) (id marked : Bytes) :
    (table.markMessageRead marked).letter id = table.letter id := by
  unfold letter
  by_cases same : bindText id = bindText marked
  · rw [message_markRead_self table same, Option.map_map]
    rfl
  · rw [message_markRead_of_ne table same]

end MessageTable

end Shr
