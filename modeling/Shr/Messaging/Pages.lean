/-
The pages of the inbox, after `cmd_inbox`.

A page is one query over the table as the page before has left it.  The offset
of the query is a product on 32 bits.
-/

import Shr.Library.Paging
import Shr.Messaging.Table

namespace Shr
namespace Messaging

/-! ### The sorted table -/

structure NewestFirst (table : MessageTable) (rows : List MessageRow) : Prop where
  perm : rows.Perm table.rows
  sorted : rows.Pairwise fun one other => other.timestamp ≤ one.timestamp

/-- The rows in the one order in which every page is cut. -/
def newestFirst (table : MessageTable) : List MessageRow :=
  table.rows.mergeSort fun one other => decide (other.timestamp ≤ one.timestamp)

theorem newestFirst_spec (table : MessageTable) : NewestFirst table (newestFirst table) where
  perm := List.mergeSort_perm _ _
  sorted := by
    have ordered := @List.pairwise_mergeSort _
      (fun one other : MessageRow => decide (other.timestamp ≤ one.timestamp))
      (by
        intro first second third upper lower
        simp only [decide_eq_true_eq] at upper lower ⊢
        exact Int64.le_trans lower upper)
      (by
        intro first second
        simp only [Bool.or_eq_true, decide_eq_true_eq]
        exact (Int64.le_total first.timestamp second.timestamp).symm)
      table.rows
    exact ordered.imp of_decide_eq_true

theorem length_newestFirst (table : MessageTable) :
    (newestFirst table).length = table.rows.length :=
  List.length_mergeSort _

theorem newestFirst_ids_nodup (table : MessageTable) :
    ((newestFirst table).map MessageRow.id).Nodup :=
  ((newestFirst_spec table).perm.map MessageRow.id).nodup_iff.mpr table.distinct

theorem newestFirst_messages_nodup (table : MessageTable) :
    ((newestFirst table).map rowToMessage).Nodup := by
  apply List.Nodup.of_map fun message => bindText message.id
  rw [List.map_map]
  have sameIds : (fun message => bindText message.id) ∘ rowToMessage = MessageRow.id := by
    funext row
    exact bindText_val row.id
  rw [sameIds]
  exact newestFirst_ids_nodup table

/-! ### The offset -/

def ahead (page : Int32) : Nat :=
  20 * (page.toInt - 1).toNat

def offset (page : Int32) : Nat :=
  ((page - 1) * 20).toInt.toNat

theorem getInbox_eq (table : MessageTable) (page : Int32) :
    table.getInbox page 20 =
      (((newestFirst table).map rowToMessage).drop (offset page)).take 20 := by
  rw [← List.map_drop, ← List.map_take]
  rfl

theorem offset_toInt (page : Int32) :
    ((page - 1) * 20).toInt = (20 * (page.toInt - 1)).bmod (2 ^ 32) := by
  rw [Int32.toInt_mul, Int32.toInt_sub, Int.bmod_mul_bmod, Int.mul_comm]
  rfl

section Offset

variable {page : Int32}

theorem ahead_cast (first : 1 ≤ page) : (ahead page : Int) = 20 * (page.toInt - 1) := by
  have positive : (1 : Int32).toInt ≤ page.toInt := Int32.le_iff_toInt_le.mp first
  have one : (1 : Int32).toInt = 1 := rfl
  unfold ahead
  omega

theorem offset_lt (page : Int32) : offset page < 2 ^ 31 := by
  have bounded := ((page - 1) * 20).toInt_lt
  unfold offset
  omega

theorem offset_of_lt (first : 1 ≤ page) (small : ahead page < 2 ^ 31) :
    offset page = ahead page := by
  have cast := ahead_cast first
  rw [offset, offset_toInt, ← cast, Int.bmod_eq_of_le (by omega) (by omega), Int.toNat_natCast]

end Offset

/-! ### One page -/

/-- The page is the slice of the sorted table that its number names. -/
structure ShowsSlice (table : MessageTable) (page : Int32) : Prop where
  rows : table.getInbox page 20 =
    ((newestFirst table).extract (20 * (page.toInt.toNat - 1))
      (min (20 * page.toInt.toNat) table.rows.length)).map rowToMessage
  beyond : table.rows.length ≤ 20 * (page.toInt.toNat - 1) → table.getInbox page 20 = []

/-- The messages in front of the page fit an `int`, or there is nothing to show
where the wrapped number points. -/
def OffsetFits (table : MessageTable) (page : Int32) : Prop :=
  ahead page < 2 ^ 31 ∨ table.rows.length ≤ offset page

instance (table : MessageTable) (page : Int32) : Decidable (OffsetFits table page) :=
  inferInstanceAs (Decidable (_ ∨ _))

theorem extract_eq_drop_take (table : MessageTable) {page : Int32} (first : 1 ≤ page) :
    ((newestFirst table).extract (20 * (page.toInt.toNat - 1))
        (min (20 * page.toInt.toNat) table.rows.length)).map rowToMessage =
      (((newestFirst table).map rowToMessage).drop (ahead page)).take 20 := by
  have cast := ahead_cast first
  have start : 20 * (page.toInt.toNat - 1) = ahead page := by
    unfold ahead
    omega
  have stop : min (20 * page.toInt.toNat) table.rows.length - ahead page =
      min 20 (table.rows.length - ahead page) := by
    omega
  have all : ((newestFirst table).drop (ahead page)).length = table.rows.length - ahead page := by
    rw [List.length_drop, length_newestFirst]
  rw [start, List.extract_eq_take_drop, stop, ← all, List.take_eq_take_min.symm]
  rw [List.map_take, List.map_drop]

theorem showsSlice_iff (table : MessageTable) {page : Int32} (first : 1 ≤ page) :
    ShowsSlice table page ↔ OffsetFits table page := by
  have length : ((newestFirst table).map rowToMessage).length = table.rows.length := by
    rw [List.length_map, length_newestFirst]
  constructor
  · intro shows
    by_contra misses
    obtain ⟨large, inside⟩ := not_or.mp misses
    have bounded := offset_lt page
    have rows := shows.rows
    rw [extract_eq_drop_take table first, getInbox_eq] at rows
    exact Paging.take_drop_ne (newestFirst_messages_nodup table) (by decide)
      (show offset page < ahead page by omega) (by omega) rows
  · intro fits
    have same : table.getInbox page 20 =
        (((newestFirst table).map rowToMessage).drop (ahead page)).take 20 := by
      rw [getInbox_eq]
      rcases fits with small | past
      · rw [offset_of_lt first small]
      · by_cases small : ahead page < 2 ^ 31
        · rw [offset_of_lt first small]
        · have bounded := offset_lt page
          rw [List.drop_eq_nil_of_le (by omega), List.drop_eq_nil_of_le (by omega)]
    refine ⟨?_, ?_⟩
    · rw [same, extract_eq_drop_take table first]
    · intro past
      have cast := ahead_cast first
      rw [same, List.drop_eq_nil_of_le (by omega), List.take_nil]

end Messaging

open Messaging in
/-- A page of the inbox is its slice of the sorted table if and only if the
number of messages in front of it fits an `int`, or the table ends before the
place that the wrapped number points at. -/
theorem inbox_page_iff (table : MessageTable) (page : Int32) (first : 1 ≤ page) :
    NewestFirst table (newestFirst table) ∧
      (ShowsSlice table page ↔ OffsetFits table page) :=
  ⟨newestFirst_spec table, showsSlice_iff table first⟩

namespace Messaging
namespace Reference

def greeting : Message :=
  { id := ascii "7d9f6f0e-2a41-4c0c-8f53-0a4f1be2c9d7"
    senderId := ascii "a1b2c3d4-e5f6-7890-abcd-ef1234567890"
    recipientId := ascii "0f1e2d3c-4b5a-4978-8695-a4b3c2d1e0ff"
    content := ascii "hello"
    timestamp := 1700000000
    read := false }

def oneMessage : MessageTable :=
  MessageTable.empty.insertMessage greeting

def numbered (number : Nat) : Message :=
  { greeting with
    id := List.replicate (number + 1) 0x61
    timestamp := 1700000000 + Int64.ofNat number }

/-- One message more than fits on a page. -/
def twoPages : MessageTable :=
  (List.range 21).foldl (fun table number => table.insertMessage (numbered number))
    MessageTable.empty

/-- The last message stands alone on the second page. -/
theorem second_page_shown : ShowsSlice twoPages 2 :=
  (inbox_page_iff twoPages 2 (by decide)).2.mpr (.inl (by decide))

/-- A page far behind the only message shows it: the offset is negative. -/
theorem far_page_shown :
    ¬∀ (table : MessageTable) (page : Int32), 1 ≤ page → ShowsSlice table page := by
  intro shows
  have fits := (showsSlice_iff oneMessage (by decide)).mp (shows oneMessage 107374184 (by decide))
  revert fits
  decide

end Reference
end Messaging

end Shr
