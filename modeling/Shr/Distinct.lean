/-
Distinct keys in the store.

Text is bound up to its first zero byte, and the keys of transfers and messages
are chosen by remote peers.  Two ids that differ behind a zero byte only are one
key, and a text with a zero byte comes back cut.
-/

import Shr.Database
import Shr.Messaging.Table

namespace Shr

/-! ### Transfers -/

structure TransferRecord.TextOnly (record : TransferRecord) : Prop where
  id : NulFree record.id
  peerId : NulFree record.peerId
  filename : NulFree record.filename
  filepath : NulFree record.filepath
  checksum : NulFree record.checksum

theorem TransferRecord.stored_eq_iff {record : TransferRecord} :
    record.stored = record ↔ record.TextOnly := by
  constructor
  · intro same
    rw [← same]
    exact ⟨cstr_nulFree _, cstr_nulFree _, cstr_nulFree _, cstr_nulFree _, cstr_nulFree _⟩
  · intro text
    unfold TransferRecord.stored
    rw [cstr_of_nulFree text.id, cstr_of_nulFree text.peerId, cstr_of_nulFree text.filename,
      cstr_of_nulFree text.filepath, cstr_of_nulFree text.checksum]

/-- Both records come back as they were stored, one after the other. -/
def TransferTable.Returns (table : TransferTable) (t u : TransferRecord) : Prop :=
  ((table.upsertTransfer t).upsertTransfer u).getTransfer t.id = some t ∧
    ((table.upsertTransfer t).upsertTransfer u).getTransfer u.id = some u

theorem TransferTable.returns_iff (table : TransferTable) {t u : TransferRecord}
    (distinct : t.id ≠ u.id) : table.Returns t u ↔ t.TextOnly ∧ u.TextOnly := by
  have second := TransferTable.getTransfer_upsert_self (table.upsertTransfer t) u rfl
  constructor
  · rintro ⟨first, last⟩
    rw [second, Option.some.injEq] at last
    by_cases same : cstr t.id = cstr u.id
    · rw [TransferTable.getTransfer_upsert_self _ u same, Option.some.injEq, last] at first
      exact absurd (congrArg TransferRecord.id first).symm distinct
    · rw [TransferTable.getTransfer_upsert_of_ne _ u same,
        TransferTable.getTransfer_upsert_self table t rfl, Option.some.injEq] at first
      exact ⟨TransferRecord.stored_eq_iff.mp first, TransferRecord.stored_eq_iff.mp last⟩
  · rintro ⟨tText, uText⟩
    have different : cstr t.id ≠ cstr u.id := by
      rwa [cstr_of_nulFree tText.id, cstr_of_nulFree uText.id]
    constructor
    · rw [TransferTable.getTransfer_upsert_of_ne _ u different,
        TransferTable.getTransfer_upsert_self table t rfl,
        TransferRecord.stored_eq_iff.mpr tText]
    · rw [second, TransferRecord.stored_eq_iff.mpr uText]

/-! ### Messages -/

structure Message.TextOnly (message : Message) : Prop where
  id : NulFree message.id
  senderId : NulFree message.senderId
  recipientId : NulFree message.recipientId
  content : NulFree message.content

theorem Message.stored_eq_iff {message : Message} :
    message.stored = message ↔ message.TextOnly := by
  constructor
  · intro same
    rw [← same]
    exact ⟨cstr_nulFree _, cstr_nulFree _, cstr_nulFree _, cstr_nulFree _⟩
  · intro text
    unfold Message.stored
    rw [cstr_of_nulFree text.id, cstr_of_nulFree text.senderId,
      cstr_of_nulFree text.recipientId, cstr_of_nulFree text.content]

/-- The row under the message's id, if there is one, is that message already. -/
def MessageTable.FreeFor (table : MessageTable) (message : Message) : Prop :=
  ∀ row, table.message message.id = some row → rowToMessage row = message

def MessageTable.Keeps (table : MessageTable) (m n : Message) : Prop :=
  ((table.insertMessage m).insertMessage n).Holds m ∧
    ((table.insertMessage m).insertMessage n).Holds n

theorem MessageTable.holds_insert_iff (table : MessageTable) (message : Message) :
    (table.insertMessage message).Holds message ↔
      message.TextOnly ∧ table.FreeFor message := by
  rw [MessageTable.holds_iff, MessageTable.message_insert_self table message rfl]
  constructor
  · rintro ⟨row, found, same⟩
    have text : message.TextOnly := by
      rw [← Message.stored_eq_iff, ← same]
      exact stored_rowToMessage row
    refine ⟨text, ?_⟩
    intro old taken
    rw [taken, Option.getD_some, Option.some.injEq] at found
    rw [found]
    exact same
  · rintro ⟨text, free⟩
    refine ⟨_, rfl, ?_⟩
    cases taken : table.message message.id with
    | none =>
        rw [Option.getD_none, rowToMessage_bindMessage]
        exact Message.stored_eq_iff.mpr text
    | some old => exact free old taken

theorem MessageTable.message_insert_present {table : MessageTable} {id : Bytes}
    {row : MessageRow} (present : table.message id = some row) (other : Message) :
    (table.insertMessage other).message id = some row := by
  by_cases same : bindText id = bindText other.id
  · rw [MessageTable.message_insert_self table other same, present, Option.getD_some]
  · rw [MessageTable.message_insert_of_ne table other same, present]

theorem MessageTable.holds_insert_insert_iff (table : MessageTable) (m n : Message) :
    ((table.insertMessage m).insertMessage n).Holds m ↔ m.TextOnly ∧ table.FreeFor m := by
  rw [← MessageTable.holds_insert_iff, MessageTable.holds_iff, MessageTable.holds_iff,
    MessageTable.message_insert_present (MessageTable.message_insert_self table m rfl) n,
    MessageTable.message_insert_self table m rfl]

theorem MessageTable.keeps_iff (table : MessageTable) {m n : Message} (distinct : m.id ≠ n.id) :
    table.Keeps m n ↔
      m.TextOnly ∧ n.TextOnly ∧ table.FreeFor m ∧ table.FreeFor n := by
  unfold MessageTable.Keeps
  rw [MessageTable.holds_insert_insert_iff, MessageTable.holds_insert_iff]
  have free_iff (mText : m.TextOnly) (nText : n.TextOnly) :
      (table.insertMessage m).FreeFor n ↔ table.FreeFor n := by
    have different : bindText n.id ≠ bindText m.id := by
      intro same
      have ids := congrArg Subtype.val same
      change cstr n.id = cstr m.id at ids
      rw [cstr_of_nulFree nText.id, cstr_of_nulFree mText.id] at ids
      exact distinct ids.symm
    unfold MessageTable.FreeFor
    rw [MessageTable.message_insert_of_ne table m different]
  constructor
  · rintro ⟨⟨mText, mFree⟩, nText, nFree⟩
    exact ⟨mText, nText, mFree, (free_iff mText nText).mp nFree⟩
  · rintro ⟨mText, nText, mFree, nFree⟩
    exact ⟨⟨mText, mFree⟩, nText, (free_iff mText nText).mpr nFree⟩

/-! ### The store -/

/-- Two transfers and two messages under different ids come back as they were
stored, if and only if none of their strings has a zero byte and no other
message had come first under the ids of the messages. -/
theorem store_returns_iff (transfers : TransferTable) (messages : MessageTable)
    (t u : TransferRecord) (m n : Message) (transferIds : t.id ≠ u.id)
    (messageIds : m.id ≠ n.id) :
    (transfers.Returns t u ↔ t.TextOnly ∧ u.TextOnly) ∧
      (messages.Keeps m n ↔
        m.TextOnly ∧ n.TextOnly ∧ messages.FreeFor m ∧ messages.FreeFor n) :=
  ⟨transfers.returns_iff transferIds, messages.keeps_iff messageIds⟩

namespace Reference

def storedTransfer (id : Bytes) : TransferRecord :=
  { id := id
    peerId := ascii "peer"
    filename := ascii "notes.txt"
    filepath := ascii "/inbox/notes.txt"
    totalBytes := 3
    transferredBytes := 0
    state := .pending
    checksum := ascii "00"
    createdAt := 5
    updatedAt := 5
    outbound := false }

def storedMessage (id : Bytes) : Message :=
  { id := id
    senderId := ascii "peer"
    recipientId := ascii "node"
    content := ascii "hello"
    timestamp := 5
    read := false }

theorem storedTransfer_textOnly {id : Bytes} (nulFree : NulFree id) :
    (storedTransfer id).TextOnly := by
  refine ⟨nulFree, ?_, ?_, ?_, ?_⟩ <;> (simp only [storedTransfer]; decide)

theorem storedMessage_textOnly {id : Bytes} (nulFree : NulFree id) :
    (storedMessage id).TextOnly := by
  refine ⟨nulFree, ?_, ?_, ?_⟩ <;> (simp only [storedMessage]; decide)

theorem freeFor_empty (message : Message) : MessageTable.empty.FreeFor message := by
  intro row impossible
  cases impossible

theorem plain_keys_returned :
    TransferTable.empty.Returns (storedTransfer (ascii "b")) (storedTransfer (ascii "c")) ∧
      MessageTable.empty.Keeps (storedMessage (ascii "b")) (storedMessage (ascii "c")) := by
  have first : NulFree (ascii "b") := by decide
  have second : NulFree (ascii "c") := by decide
  have returned := store_returns_iff TransferTable.empty MessageTable.empty
    (storedTransfer (ascii "b")) (storedTransfer (ascii "c")) (storedMessage (ascii "b"))
    (storedMessage (ascii "c")) (by decide) (by decide)
  constructor
  · exact returned.1.mpr ⟨storedTransfer_textOnly first, storedTransfer_textOnly second⟩
  · exact returned.2.mpr ⟨storedMessage_textOnly first, storedMessage_textOnly second,
      freeFor_empty _, freeFor_empty _⟩

def cutKey : Bytes :=
  [97, 0, 98]

def otherCutKey : Bytes :=
  [97, 0, 99]

theorem cut_keys_collide :
    ¬∀ (transfers : TransferTable) (messages : MessageTable) (t u : TransferRecord)
      (m n : Message), t.id ≠ u.id → m.id ≠ n.id →
        transfers.Returns t u ∧ messages.Keeps m n := by
  intro always
  have returned := (always TransferTable.empty MessageTable.empty (storedTransfer cutKey)
    (storedTransfer otherCutKey) (storedMessage cutKey) (storedMessage otherCutKey) (by decide)
    (by decide)).1.1
  rw [TransferTable.getTransfer_upsert_self _ _ (by decide), Option.some.injEq] at returned
  exact absurd (congrArg TransferRecord.id returned) (by decide)

end Reference

end Shr
