/-
Reading the inbox from the first page to the last, after `cmd_inbox`.

Every page is a query of its own, and what it shows unread is marked before the
next one.  Marking changes neither the order of the rows nor their number, so
the pages are those of the table at the start.
-/

import Shr.Messaging.Pages

namespace Shr
namespace Messaging

/-! ### What is printed -/

structure InboxLine where
  marker : Bytes
  timestamp : Int64
  senderId : Bytes
  content : Bytes
deriving DecidableEq

def inboxLine (message : Message) : InboxLine :=
  { marker := if message.read then ascii "  " else ascii "* "
    timestamp := message.timestamp
    senderId := message.senderId
    content := message.content }

structure InboxPage where
  page : Int32
  unread : Int
  lines : List InboxLine
  more : Option Int32
deriving DecidableEq

inductive InboxOutput where
  | empty
  | listing (page : InboxPage)
deriving DecidableEq

def InboxOutput.lines : InboxOutput → List InboxLine
  | .empty => []
  | .listing page => page.lines

def InboxOutput.more : InboxOutput → Option Int32
  | .empty => none
  | .listing page => page.more

/-! ### The command -/

def markShown (table : MessageTable) (message : Message) : MessageTable :=
  if message.read then table else table.markMessageRead message.id

def cmdInbox (table : MessageTable) (page : Int32) : InboxOutput × MessageTable :=
  let msgs := table.getInbox page 20
  if msgs = [] then
    (.empty, table)
  else
    let listing :=
      { page := page
        unread := table.unreadCount
        lines := msgs.map inboxLine
        more := if castInt msgs.length = 20 then some (page + 1) else none }
    (.listing listing, msgs.foldl markShown table)

/-- `shr inbox 1`, `shr inbox 2`, and so on: what is printed, and the table. -/
def readPages (table : MessageTable) : Nat → List InboxOutput × MessageTable
  | 0 => ([], table)
  | count + 1 =>
      let before := readPages table count
      let shown := cmdInbox before.2 (Int32.ofNat (count + 1))
      (before.1 ++ [shown.1], shown.2)

/-- Every message is shown once, the newest first, with the marker it had at the
start, and nothing but the `read` column changes. -/
structure ReadsAll (table : MessageTable) (run : List InboxOutput × MessageTable) : Prop where
  lines : ∃ rows, NewestFirst table rows ∧
    run.1.flatMap InboxOutput.lines = rows.map fun row => inboxLine (rowToMessage row)
  hints : ∀ index output, index + 1 < run.1.length → run.1[index]? = some output →
    output.more = some (Int32.ofNat (index + 2))
  letters : run.2.rows.map MessageRow.letter = table.rows.map MessageRow.letter
  unread : run.2.unreadCount = 0

section Command

variable (table : MessageTable) (page : Int32)

theorem cmdInbox_lines :
    (cmdInbox table page).1.lines = (table.getInbox page 20).map inboxLine := by
  unfold cmdInbox
  simp only
  split
  next nothing => rw [nothing]; rfl
  next => rfl

theorem cmdInbox_table :
    (cmdInbox table page).2 = (table.getInbox page 20).foldl markShown table := by
  unfold cmdInbox
  simp only
  split
  next nothing => rw [nothing]; rfl
  next => rfl

theorem cmdInbox_more (full : (table.getInbox page 20).length = 20) :
    (cmdInbox table page).1.more = some (page + 1) := by
  have nonempty : table.getInbox page 20 ≠ [] := by
    intro nothing
    rw [nothing] at full
    cases full
  unfold cmdInbox
  rw [if_neg nonempty, full]
  rfl

end Command

/-! ### Marking -/

def unreadIds (rows : List MessageRow) : List Text :=
  (rows.filter fun row => row.read.toInt32 = 0).map MessageRow.id

def markRow (shown : List MessageRow) (row : MessageRow) : MessageRow :=
  if row.id ∈ unreadIds shown then { row with read := 1 } else row

section Marking

variable (shown : List MessageRow) (row : MessageRow)

theorem markRow_timestamp : (markRow shown row).timestamp = row.timestamp := by
  unfold markRow
  split <;> rfl

theorem markRow_letter : (markRow shown row).letter = row.letter := by
  unfold markRow
  split <;> rfl

theorem markRow_append (front back : List MessageRow) :
    markRow back (markRow front row) = markRow (front ++ back) row := by
  have ids : unreadIds (front ++ back) = unreadIds front ++ unreadIds back := by
    simp [unreadIds]
  by_cases earlier : row.id ∈ unreadIds front
  · by_cases later : row.id ∈ unreadIds back <;> simp [markRow, ids, earlier, later]
  · by_cases later : row.id ∈ unreadIds back <;> simp [markRow, ids, earlier, later]

theorem markRow_of_notMem (absent : row.id ∉ shown.map MessageRow.id) :
    markRow shown row = row := by
  refine if_neg fun member => absent ?_
  exact (List.filter_sublist.map MessageRow.id).subset member

theorem markShown_rows (table : MessageTable) :
    (markShown table (rowToMessage row)).rows = table.rows.map (markRow [row]) := by
  unfold markShown
  by_cases unread : row.read.toInt32 = 0
  · rw [if_neg (by simp [rowToMessage, unread])]
    apply List.map_congr_left
    intro other _member
    have key : bindText (rowToMessage row).id = row.id := bindText_val row.id
    simp only [markRow, unreadIds, List.filter_cons, unread, decide_true, if_true, key,
      List.filter_nil, List.map_cons, List.map_nil, List.mem_singleton]
  · rw [if_pos (by simp [rowToMessage, unread])]
    symm
    rw [List.map_congr_left (g := id), List.map_id]
    intro other _member
    simp [markRow, unreadIds, unread]

theorem foldl_markShown_rows (table : MessageTable) :
    ((shown.map rowToMessage).foldl markShown table).rows = table.rows.map (markRow shown) := by
  induction shown generalizing table with
  | nil =>
      symm
      exact List.map_id table.rows
  | cons row rest ih =>
      rw [List.map_cons, List.foldl_cons, ih, markShown_rows, List.map_map]
      apply List.map_congr_left
      intro other _member
      exact markRow_append other [row] rest

end Marking

theorem newestFirst_marked {table marked : MessageTable} {shown : List MessageRow}
    (rows : marked.rows = table.rows.map (markRow shown)) :
    newestFirst marked = (newestFirst table).map (markRow shown) := by
  unfold newestFirst
  rw [rows]
  symm
  apply List.map_mergeSort
  intro one _oneMember other _otherMember
  rw [markRow_timestamp, markRow_timestamp]

/-! ### The sweep -/

section Sweep

variable {table : MessageTable} {count : Nat}

theorem offset_ofNat (small : 20 * count < 2 ^ 31) :
    offset (Int32.ofNat (count + 1)) = 20 * count := by
  have cast : (Int32.ofNat (count + 1)).toInt = count + 1 :=
    Int32.toInt_ofNat_of_lt (by omega)
  rw [offset, offset_toInt, cast, Int.add_sub_cancel, Int.bmod_eq_of_le (by omega) (by omega)]
  omega

theorem getInbox_marked (small : 20 * count < 2 ^ 31) {marked : MessageTable}
    (rows : marked.rows = table.rows.map (markRow ((newestFirst table).take (20 * count)))) :
    marked.getInbox (Int32.ofNat (count + 1)) 20 =
      (Paging.page (newestFirst table) 20 count).map rowToMessage := by
  rw [getInbox_eq, offset_ofNat small, newestFirst_marked rows, ← List.map_drop, ← List.map_take,
    ← List.map_drop, ← List.map_take]
  change ((Paging.page (newestFirst table) 20 count).map _).map rowToMessage = _
  rw [List.map_congr_left (g := id), List.map_id]
  intro row member
  apply markRow_of_notMem
  have distinct := newestFirst_ids_nodup table
  rw [← List.take_append_drop (20 * count) (newestFirst table), List.map_append,
    List.nodup_append] at distinct
  intro before
  exact distinct.2.2 _ before _ (List.mem_map_of_mem (List.mem_of_mem_take member)) rfl

theorem readPages_rows (small : 20 * count < 2 ^ 31 + 20) :
    (readPages table count).2.rows =
      table.rows.map (markRow ((newestFirst table).take (20 * count))) := by
  induction count with
  | zero =>
      symm
      exact List.map_id table.rows
  | succ count ih =>
      have before := ih (by omega)
      change (cmdInbox (readPages table count).2 _).2.rows = _
      rw [cmdInbox_table, getInbox_marked (by omega) before, foldl_markShown_rows, before,
        List.map_map, ← Paging.take_append_page]
      apply List.map_congr_left
      intro row _member
      exact markRow_append row _ _

theorem readPages_outputs (table : MessageTable) (count : Nat) :
    (readPages table count).1 = (List.range count).map fun index =>
      (cmdInbox (readPages table index).2 (Int32.ofNat (index + 1))).1 := by
  induction count with
  | zero => rfl
  | succ count ih =>
      rw [List.range_succ, List.map_append, ← ih]
      rfl

theorem getInbox_readPages (small : 20 * count < 2 ^ 31) :
    (readPages table count).2.getInbox (Int32.ofNat (count + 1)) 20 =
      (Paging.page (newestFirst table) 20 count).map rowToMessage :=
  getInbox_marked small (readPages_rows (by omega))

theorem readPages_lines (small : 20 * count < 2 ^ 31 + 20) :
    (readPages table count).1.flatMap InboxOutput.lines =
      ((newestFirst table).take (20 * count)).map fun row => inboxLine (rowToMessage row) := by
  rw [readPages_outputs, List.flatMap_map, ← Paging.flatMap_page, List.map_flatMap]
  apply List.flatMap_congr
  intro index member
  rw [List.mem_range] at member
  rw [cmdInbox_lines, getInbox_readPages (by omega), List.map_map]
  rfl

/-- A page in front of another one is full, and names it. -/
theorem readPages_more {index : Nat} (before : 20 * (index + 1) < table.rows.length)
    (small : 20 * index < 2 ^ 31) :
    (cmdInbox (readPages table index).2 (Int32.ofNat (index + 1))).1.more =
      some (Int32.ofNat (index + 2)) := by
  have next : Int32.ofNat (index + 2) = Int32.ofNat (index + 1) + 1 := Int32.ofNat_add (index + 1) 1
  rw [cmdInbox_more, next]
  rw [getInbox_readPages small, List.length_map, Paging.length_page, length_newestFirst]
  omega

theorem unread_marked (table : MessageTable) :
    (table.rows.map (markRow (newestFirst table))).countP (fun row => row.read = 0) = 0 := by
  rw [List.countP_map, List.countP_eq_zero]
  intro row member
  simp only [Function.comp_apply, decide_eq_true_eq]
  unfold markRow
  split
  next => simp
  next unmarked =>
      intro unread
      apply unmarked
      apply List.mem_map_of_mem
      rw [List.mem_filter, decide_eq_true_eq, unread]
      exact ⟨(newestFirst_spec table).perm.mem_iff.mpr member, rfl⟩

end Sweep

theorem readPages_readsAll {table : MessageTable} {count : Nat} (small : 20 * count < 2 ^ 31 + 20)
    (covers : table.rows.length ≤ 20 * count)
    (needed : ∀ index, index + 1 < count → 20 * (index + 1) < table.rows.length) :
    ReadsAll table (readPages table count) := by
  have all : (newestFirst table).take (20 * count) = newestFirst table :=
    List.take_of_length_le (length_newestFirst table ▸ covers)
  have rows := @readPages_rows table count small
  rw [all] at rows
  refine ⟨⟨newestFirst table, newestFirst_spec table, ?_⟩, ?_, ?_, ?_⟩
  · rw [readPages_lines small, all]
  · intro index output before shown
    rw [readPages_outputs, List.length_map, List.length_range] at before
    rw [readPages_outputs, List.getElem?_map, List.getElem?_range (by omega)] at shown
    cases shown
    exact readPages_more (needed index before) (by omega)
  · rw [rows, List.map_map]
    apply List.map_congr_left
    intro row _member
    exact markRow_letter _ row
  · rw [MessageTable.unreadCount, rows, unread_marked]
    rfl

end Messaging

open Messaging in
/-- Reading every page shows every message once, marks all of them read and
changes nothing else. -/
theorem inbox_read_all (table : MessageTable) (small : table.rows.length < 2 ^ 31 - 20) :
    ReadsAll table (readPages table (Paging.pageCount 20 table.rows.length)) := by
  have positive : 0 < 20 := by omega
  apply readPages_readsAll
  · unfold Paging.pageCount
    omega
  · exact Paging.length_le_pageCount positive table.rows.length
  · intro index before
    exact Paging.le_of_lt_pageCount positive before

namespace Messaging
namespace Reference

theorem twoPages_length : twoPages.rows.length = 21 := by
  decide +kernel

theorem two_pages_read : ReadsAll twoPages (readPages twoPages 2) := by
  have small : twoPages.rows.length < 2 ^ 31 - 20 := by
    rw [twoPages_length]
    decide
  have all := inbox_read_all twoPages small
  rw [twoPages_length] at all
  exact all

end Reference
end Messaging

end Shr
