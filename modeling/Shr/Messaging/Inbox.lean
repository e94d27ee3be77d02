/-
What the inbox shows.

Sent and received messages share one table, and neither the page nor the count
asks which they are.  Next to the table stand the ids whose row was made by a
packet.
-/

import Shr.Messaging.Delivery
import Shr.Messaging.StoredOnce

namespace Shr
namespace Messaging

/-! ### Rows and where they come from -/

def Event.isReceipt : Event → Bool
  | .receive _ _ => true
  | _ => false

section Runs

variable (vendor : Vendor) (ownId : Bytes)

/-- The message that an event makes a row of: one whose id has no row yet. -/
def State.files (state : State) (event : Event) : Option Message :=
  (state.inserts vendor ownId event).filter fun message =>
    (state.table.message message.id).isNone

/-- A node and the ids under which it has stored a received message. -/
structure Mailbox where
  state : State
  received : List Text

def Mailbox.initial : Mailbox :=
  { state := State.initial
    received := [] }

def Mailbox.step (mailbox : Mailbox) (event : Event) : Mailbox :=
  { state := mailbox.state.step vendor ownId event
    received :=
      match mailbox.state.files vendor ownId event with
      | none => mailbox.received
      | some message =>
          if event.isReceipt then mailbox.received ++ [bindText message.id] else mailbox.received }

end Runs

/-! ### The inbox -/

def Mailbox.Genuine (ownId : Bytes) (mailbox : Mailbox) (message : Message) : Prop :=
  bindText message.id ∈ mailbox.received ∧ message.recipientId = ownId

instance (ownId : Bytes) (mailbox : Mailbox) (message : Message) :
    Decidable (mailbox.Genuine ownId message) :=
  inferInstanceAs (Decidable (_ ∧ _))

/-- Every page shows received messages only, and the count is that of the
received messages that have not been read. -/
structure Mailbox.Sound (ownId : Bytes) (mailbox : Mailbox) : Prop where
  shown : ∀ (page pageSize : Int32), ∀ message ∈ mailbox.state.table.getInbox page pageSize,
    mailbox.Genuine ownId message
  unread : mailbox.state.table.unreadCount = mailbox.state.table.rows.countP fun row =>
    row.read = 0 ∧ mailbox.Genuine ownId (rowToMessage row)

def Mailbox.Admits (vendor : Vendor) (ownId : Bytes) (mailbox : Mailbox) (event : Event) : Prop :=
  ∀ message, mailbox.state.files vendor ownId event = some message →
    event.isReceipt = true ∧ cstr message.recipientId = ownId ∧
      mailbox.state.table.rows.countP (fun row => row.read = 0) + 1 < 2 ^ 31

section Inbox

variable {vendor : Vendor} {ownId : Bytes} {mailbox : Mailbox}

theorem mem_of_mem_getInbox {table : MessageTable} {page pageSize : Int32} {message : Message}
    (member : message ∈ table.getInbox page pageSize) :
    ∃ row ∈ table.rows, rowToMessage row = message := by
  obtain ⟨row, shown, same⟩ := List.mem_map.mp member
  refine ⟨row, ?_, same⟩
  have behind : row ∈ (table.rows.mergeSort fun one other =>
      decide (other.timestamp ≤ one.timestamp)).drop ((page - 1) * pageSize).toInt.toNat := by
    split at shown
    · exact shown
    · exact List.mem_of_mem_take shown
  exact List.mem_mergeSort.mp (List.mem_of_mem_drop behind)

theorem getInbox_unlimited {table : MessageTable} {row : MessageRow} (member : row ∈ table.rows) :
    rowToMessage row ∈ table.getInbox 1 (-1) := by
  apply List.mem_map_of_mem
  rw [if_pos (by decide), show (((1 : Int32) - 1) * -1).toInt.toNat = 0 from by decide,
    List.drop_zero]
  exact List.mem_mergeSort.mpr member

def Mailbox.AllGenuine (ownId : Bytes) (mailbox : Mailbox) : Prop :=
  ∀ row ∈ mailbox.state.table.rows, mailbox.Genuine ownId (rowToMessage row)

theorem Mailbox.sound_iff :
    mailbox.Sound ownId ↔ mailbox.AllGenuine ownId ∧
      mailbox.state.table.rows.countP (fun row => row.read = 0) < 2 ^ 31 := by
  have counted : mailbox.AllGenuine ownId →
      mailbox.state.table.rows.countP (fun row => decide
        (row.read = 0 ∧ mailbox.Genuine ownId (rowToMessage row))) =
        mailbox.state.table.rows.countP (fun row => decide (row.read = 0)) := by
    intro genuine
    apply List.countP_congr
    intro row member
    simp [genuine row member]
  constructor
  · intro sound
    have genuine : mailbox.AllGenuine ownId := by
      intro row member
      exact sound.shown 1 (-1) _ (getInbox_unlimited member)
    have unread := sound.unread
    rw [counted genuine] at unread
    exact ⟨genuine, castInt_eq_iff.mp unread⟩
  · intro both
    obtain ⟨genuine, small⟩ := both
    refine ⟨?_, ?_⟩
    · intro page pageSize message member
      obtain ⟨row, stored, same⟩ := mem_of_mem_getInbox member
      rw [← same]
      exact genuine row stored
    · rw [counted genuine]
      exact castInt_of_lt small

/-! ### What an event does to the rows -/

/-- A change that at most marks a row as read. -/
structure Marks (change : MessageRow → MessageRow) : Prop where
  letter : ∀ row, (change row).letter = row.letter
  read : ∀ row, (change row).read = 0 → row.read = 0

theorem marks_id : Marks id where
  letter := fun _row => rfl
  read := fun _row unread => unread

theorem Marks.id_eq {change : MessageRow → MessageRow} (marks : Marks change) (row : MessageRow) :
    (change row).id = row.id := by
  have same := congrArg MessageRow.id (marks.letter row)
  exact same

theorem Marks.recipientId_eq {change : MessageRow → MessageRow} (marks : Marks change)
    (row : MessageRow) : (change row).recipientId = row.recipientId := by
  have same := congrArg MessageRow.recipientId (marks.letter row)
  exact same

theorem State.step_rows (state : State) (event : Event) :
    (∃ message, state.files vendor ownId event = some message ∧
        (state.step vendor ownId event).table.rows =
          state.table.rows ++ [bindMessage message]) ∨
      state.files vendor ownId event = none ∧ ∃ change, Marks change ∧
        (state.step vendor ownId event).table.rows = state.table.rows.map change := by
  rcases @State.step_table vendor ownId state event with
    ⟨message, inserts, table⟩ | ⟨inserts, ⟨id, table⟩ | same⟩
  · cases found : state.table.message message.id with
    | none =>
        refine .inl ⟨message, ?_, ?_⟩
        · simp [State.files, inserts, found]
        · rw [table]
          exact congrArg KeyedTable.rows (dif_pos found)
    | some row =>
        have taken : state.table.find (bindMessage message).id ≠ none := by
          rw [show state.table.find (bindMessage message).id = some row from found]
          exact Option.some_ne_none row
        refine .inr ⟨?_, id, marks_id, ?_⟩
        · simp [State.files, inserts, found]
        · rw [table, List.map_id]
          exact congrArg KeyedTable.rows (dif_neg taken)
  · refine .inr ⟨?_, _, ⟨?_, ?_⟩, congrArg KeyedTable.rows table⟩
    · simp [State.files, inserts]
    · intro row
      split <;> rfl
    · intro row unread
      split at unread
      next => exact absurd (show (1 : Int64) = 0 from unread) (by decide)
      next => exact unread
  · refine .inr ⟨?_, id, marks_id, ?_⟩
    · simp [State.files, inserts]
    · rw [same, List.map_id]

theorem Marks.genuine_iff {change : MessageRow → MessageRow} (marks : Marks change)
    (row : MessageRow) :
    mailbox.Genuine ownId (rowToMessage (change row)) ↔
      mailbox.Genuine ownId (rowToMessage row) := by
  simp only [Mailbox.Genuine, rowToMessage, marks.id_eq, marks.recipientId_eq]

def Mailbox.Kept (mailbox : Mailbox) : Prop :=
  ∀ id ∈ mailbox.received, id ∈ mailbox.state.table.rows.map MessageRow.id

theorem Mailbox.Kept.step (kept : mailbox.Kept) (event : Event) :
    (mailbox.step vendor ownId event).Kept := by
  intro id member
  rcases @State.step_rows vendor ownId mailbox.state event with
    ⟨message, files, rows⟩ | ⟨files, change, marks, rows⟩
  · simp only [Mailbox.step, files] at member ⊢
    rw [rows, List.map_append]
    split at member
    next =>
        rcases List.mem_append.mp member with earlier | last
        · exact List.mem_append_left _ (kept id earlier)
        · exact List.mem_append_right _ last
    next => exact List.mem_append_left _ (kept id member)
  · simp only [Mailbox.step, files] at member ⊢
    have sameIds : MessageRow.id ∘ change = MessageRow.id := by
      funext row
      exact marks.id_eq row
    rw [rows, List.map_map, sameIds]
    exact kept id member

theorem Mailbox.Sound.marked (sound : mailbox.Sound ownId) {event : Event}
    (files : mailbox.state.files vendor ownId event = none)
    {change : MessageRow → MessageRow} (marks : Marks change)
    (rows : (mailbox.state.step vendor ownId event).table.rows =
      mailbox.state.table.rows.map change) :
    (mailbox.step vendor ownId event).Sound ownId := by
  obtain ⟨genuine, small⟩ := Mailbox.sound_iff.mp sound
  have sameReceived : (mailbox.step vendor ownId event).received = mailbox.received := by
    simp only [Mailbox.step, files]
  have stepRows : (mailbox.step vendor ownId event).state.table.rows =
      mailbox.state.table.rows.map change := rows
  apply Mailbox.sound_iff.mpr
  rw [stepRows]
  refine ⟨?_, ?_⟩
  · intro row member
    rw [stepRows] at member
    obtain ⟨before, stored, same⟩ := List.mem_map.mp member
    have kept := (marks.genuine_iff before).mpr (genuine before stored)
    rw [← same, Mailbox.Genuine, sameReceived]
    exact kept
  · rw [List.countP_map]
    refine Nat.lt_of_le_of_lt (List.countP_mono_left ?_) small
    intro row _member unread
    exact decide_eq_true (marks.read row (of_decide_eq_true unread))

theorem State.unread_of_files {state : State} {event : Event} {message : Message}
    (files : state.files vendor ownId event = some message) (receipt : event.isReceipt = true) :
    (bindMessage message).read = 0 := by
  have inserts : state.inserts vendor ownId event = some message :=
    (Option.filter_eq_some_iff.mp files).1
  cases event with
  | receive arrival payload =>
      simp only [State.inserts] at inserts
      split at inserts
      next =>
          have unread := readMessage_unread vendor inserts
          simp [bindMessage, unread]
      next => cases inserts
  | _ => cases receipt

/-- The message of a new row is genuine when a packet made the row for the node. -/
theorem Mailbox.genuine_filed_iff (kept : mailbox.Kept) {event : Event} {message : Message}
    (files : mailbox.state.files vendor ownId event = some message) :
    (mailbox.step vendor ownId event).Genuine ownId (rowToMessage (bindMessage message)) ↔
      event.isReceipt = true ∧ cstr message.recipientId = ownId := by
  have received : (mailbox.step vendor ownId event).received =
      if event.isReceipt then mailbox.received ++ [bindText message.id] else mailbox.received := by
    simp only [Mailbox.step, files]
  have key : bindText (rowToMessage (bindMessage message)).id = bindText message.id :=
    bindText_val (bindText message.id)
  have isNew : bindText message.id ∉ mailbox.received := by
    intro member
    have absent := (Option.filter_eq_some_iff.mp files).2
    rw [Option.isNone_iff_eq_none] at absent
    exact KeyedTable.find_eq_none_iff.mp absent (kept _ member)
  rw [Mailbox.Genuine, key, received]
  refine and_congr_left fun _addressed => ?_
  cases event.isReceipt with
  | false => exact iff_of_false isNew nofun
  | true => exact iff_of_true (List.mem_append_right _ (List.mem_singleton_self _)) rfl

/-- The inbox stays sound with a new row exactly when the row is genuine and the
count has room. -/
theorem Mailbox.Sound.filed_iff (sound : mailbox.Sound ownId) (kept : mailbox.Kept)
    {event : Event} {message : Message}
    (files : mailbox.state.files vendor ownId event = some message)
    (rows : (mailbox.state.step vendor ownId event).table.rows =
      mailbox.state.table.rows ++ [bindMessage message]) :
    (mailbox.step vendor ownId event).Sound ownId ↔
      event.isReceipt = true ∧ cstr message.recipientId = ownId ∧
        mailbox.state.table.rows.countP (fun row => row.read = 0) + 1 < 2 ^ 31 := by
  have genuine := (Mailbox.sound_iff.mp sound).1
  have stepRows : (mailbox.step vendor ownId event).state.table.rows =
      mailbox.state.table.rows ++ [bindMessage message] := rows
  have newRow := @Mailbox.genuine_filed_iff vendor ownId mailbox kept event message files
  have counted : event.isReceipt = true →
      (mailbox.state.table.rows ++ [bindMessage message]).countP (fun row => row.read = 0) =
        mailbox.state.table.rows.countP (fun row => row.read = 0) + 1 := by
    intro receipt
    have unread := State.unread_of_files files receipt
    simp [List.countP_append, unread]
  have grows : mailbox.received ⊆ (mailbox.step vendor ownId event).received := by
    simp only [Mailbox.step, files]
    split
    · exact List.subset_append_left _ _
    · exact List.Subset.refl _
  rw [Mailbox.sound_iff, stepRows]
  constructor
  · intro after
    obtain ⟨allGenuine, small⟩ := after
    obtain ⟨receipt, addressed⟩ := newRow.mp (allGenuine _ (by
      rw [stepRows]
      exact List.mem_append_right _ (List.mem_singleton_self _)))
    rw [counted receipt] at small
    exact ⟨receipt, addressed, small⟩
  · intro condition
    obtain ⟨receipt, addressed, small⟩ := condition
    refine ⟨?_, (counted receipt).symm ▸ small⟩
    intro row member
    rw [stepRows] at member
    rcases List.mem_append.mp member with earlier | last
    · obtain ⟨member, addressed⟩ := genuine row earlier
      exact ⟨grows member, addressed⟩
    · rw [List.mem_singleton.mp last]
      exact newRow.mpr ⟨receipt, addressed⟩

theorem Mailbox.sound_step_iff (kept : mailbox.Kept) (sound : mailbox.Sound ownId)
    (event : Event) :
    (mailbox.step vendor ownId event).Sound ownId ↔ mailbox.Admits vendor ownId event := by
  unfold Mailbox.Admits
  rcases @State.step_rows vendor ownId mailbox.state event with
    ⟨message, files, rows⟩ | ⟨files, change, marks, rows⟩
  · rw [sound.filed_iff kept files rows, files]
    constructor
    · intro condition other same
      cases same
      exact condition
    · intro admits
      exact admits message rfl
  · rw [files]
    exact iff_of_true (sound.marked files marks rows) nofun

end Inbox

end Messaging

namespace Messaging
namespace Reference

def sending : List Event :=
  [.launch messageInputs, .advance 0 true, .advance 0 true]

end Reference
end Messaging

end Shr
