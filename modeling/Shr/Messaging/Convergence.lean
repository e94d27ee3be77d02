/-
The inbox does not depend on the order of arrival.

The first message under an id is the one that stays.  Where messages under one
id say the same, what a node keeps is a function of the set of messages it has
stored: not of their order, nor of how often each of them came.
-/

import Shr.Messaging.Pages
import Shr.Messaging.StoredOnce
import Shr.Reference

namespace Shr
namespace Messaging

/-! ### What a table shows -/

/-- The rows of a table, read or not. -/
def letters (table : MessageTable) : List MessageRow :=
  table.rows.map MessageRow.letter

theorem letters_nodup (table : MessageTable) : (letters table).Nodup := by
  have ids : (letters table).map MessageRow.id = table.rows.map MessageRow.id := by
    unfold letters
    rw [List.map_map]
    rfl
  apply List.Nodup.of_map MessageRow.id
  rw [ids]
  exact table.distinct

theorem mem_letters_iff {table : MessageTable} {letter : MessageRow} :
    letter ∈ letters table ↔ table.letter letter.id.val = some letter := by
  unfold letters MessageTable.letter MessageTable.message
  rw [bindText_val, List.mem_map, Option.map_eq_some_iff]
  constructor
  · rintro ⟨row, member, rfl⟩
    exact ⟨row, KeyedTable.find_of_mem member, rfl⟩
  · rintro ⟨row, found, same⟩
    exact ⟨row, (KeyedTable.find_eq_some_iff.mp found).1, same⟩

def unmarked (message : Message) : Message :=
  { message with read := false }

theorem unmarked_rowToMessage (row : MessageRow) :
    unmarked (rowToMessage row) = rowToMessage row.letter :=
  rfl

/-- The newest letters first, of which the pages are slices. -/
theorem getInbox_unmarked (table : MessageTable) (page pageSize : Int32) :
    (table.getInbox page pageSize).map unmarked =
      (let behind := ((newestFirst table).map MessageRow.letter).drop
          ((page - 1) * pageSize).toInt.toNat
        if pageSize < 0 then behind else behind.take pageSize.toInt.toNat).map rowToMessage := by
  have both : unmarked ∘ rowToMessage = rowToMessage ∘ MessageRow.letter :=
    funext unmarked_rowToMessage
  unfold MessageTable.getInbox
  simp only
  rw [List.map_map, both, ← List.map_map, ← List.map_drop]
  split
  · rfl
  · rw [List.map_take]
    rfl

theorem sortedLetters_perm (table : MessageTable) :
    ((newestFirst table).map MessageRow.letter).Perm (letters table) :=
  (newestFirst_spec table).perm.map MessageRow.letter

theorem sortedLetters_sorted (table : MessageTable) :
    ((newestFirst table).map MessageRow.letter).Pairwise
      fun one other => other.timestamp ≤ one.timestamp :=
  List.pairwise_map.mpr (newestFirst_spec table).sorted

theorem sortedLetters_unique {left right : MessageTable}
    (perm : (letters left).Perm (letters right))
    (separate : ∀ one ∈ letters left, ∀ other ∈ letters right,
      one.timestamp = other.timestamp → one = other) :
    (newestFirst left).map MessageRow.letter = (newestFirst right).map MessageRow.letter := by
  refine List.Perm.eq_of_pairwise ?_ (sortedLetters_sorted left) (sortedLetters_sorted right)
    ((sortedLetters_perm left).trans (perm.trans (sortedLetters_perm right).symm))
  intro one other member copied later earlier
  exact separate one ((sortedLetters_perm left).subset member) other
    ((sortedLetters_perm right).subset copied) (Int64.le_antisymm earlier later)

/-! ### Messages that agree -/

/-- Messages under one id say the same. -/
def Consistent (messages : List Message) : Prop :=
  ∀ one ∈ messages, ∀ other ∈ messages, bindText one.id = bindText other.id →
    one.letter = other.letter

/-- Messages of one time are the same message. -/
def Separated (messages : List Message) : Prop :=
  ∀ one ∈ messages, ∀ other ∈ messages, one.timestamp = other.timestamp →
    one.letter = other.letter

/-- The two lists hold the same letters, in whatever order and however often. -/
def SameLetters (one other : List Message) : Prop :=
  ∀ letter, letter ∈ one.map Message.letter ↔ letter ∈ other.map Message.letter

section Runs

variable {vendor : Vendor} {ownId : Bytes}

theorem mem_letters_run_iff {events : List Event}
    (consistent : Consistent (State.initial.inserted vendor ownId events)) {letter : MessageRow} :
    letter ∈ letters (EventRun.run (State.step vendor ownId) State.initial events).table ↔
      letter ∈ (State.initial.inserted vendor ownId events).map Message.letter := by
  have empty : State.initial.table.letter letter.id.val = none := rfl
  rw [mem_letters_iff, State.run_letter, empty, Option.none_or, Option.map_eq_some_iff,
    List.mem_map]
  constructor
  · rintro ⟨message, found, same⟩
    exact ⟨message, List.mem_of_find?_eq_some found, same⟩
  · rintro ⟨message, member, same⟩
    have key : bindText letter.id.val = bindText message.id := by
      rw [bindText_val, ← same]
      rfl
    cases found : (State.initial.inserted vendor ownId events).find?
        (MessageTable.under letter.id.val) with
    | none =>
        have other := List.find?_eq_none.mp found message member
        exact absurd (decide_eq_true key) other
    | some first =>
        have chosen := List.find?_some found
        have under : bindText letter.id.val = bindText first.id := of_decide_eq_true chosen
        refine ⟨first, rfl, ?_⟩
        rw [← same]
        exact consistent first (List.mem_of_find?_eq_some found) message member
          (under.symm.trans key)

end Runs

end Messaging

namespace Reference

open Messaging

def early : Message :=
  { id := ascii "a"
    senderId := ascii "s"
    recipientId := ascii "r"
    content := ascii "one"
    timestamp := 1
    read := false }

def late : Message :=
  { early with
    id := ascii "b"
    content := ascii "two"
    timestamp := 2 }

def arrivals (messages : List Message) : List Event :=
  messages.map fun message =>
    .receive { random := fun _index => 0, now := 0, stores := true }
      (vendor.toCbor (messageFields message))

theorem inserted_arrivals (messages : List Message) (state : State) :
    state.inserted vendor [] (arrivals messages) = messages.map unmarked := by
  induction messages generalizing state with
  | nil => rfl
  | cons message rest ih =>
      have inserts : state.inserts vendor [] (.receive
          { random := fun _index => 0, now := 0, stores := true }
          (vendor.toCbor (messageFields message))) = some (unmarked message) := by
        simp only [State.inserts, if_true]
        exact readMessage_toCbor vendor [] _ message
      unfold State.inserted arrivals at ih ⊢
      rw [List.map_cons, EventRun.emitted, inserts, ih]
      rfl

end Reference

open Messaging in
/-- Two nodes that have stored the same messages show the same pages but for the
marks, in whatever order the messages came and however often each of them came,
if messages under one id say the same and no two are of one time. -/
theorem inbox_converges (vendor : Vendor) (oneId otherId : Bytes) (one other : List Event)
    (consistent : Consistent (State.initial.inserted vendor oneId one ++
      State.initial.inserted vendor otherId other))
    (separated : Separated (State.initial.inserted vendor oneId one ++
      State.initial.inserted vendor otherId other))
    (same : SameLetters (State.initial.inserted vendor oneId one)
      (State.initial.inserted vendor otherId other)) (page pageSize : Int32) :
    ((EventRun.run (State.step vendor oneId) State.initial one).table.getInbox page
        pageSize).map unmarked =
      ((EventRun.run (State.step vendor otherId) State.initial other).table.getInbox page
        pageSize).map unmarked := by
  have oneLetters (letter : MessageRow) := @mem_letters_run_iff vendor oneId one
    (fun message member another also => consistent message (List.mem_append_left _ member) another
      (List.mem_append_left _ also)) letter
  have otherLetters (letter : MessageRow) := @mem_letters_run_iff vendor otherId other
    (fun message member another also => consistent message (List.mem_append_right _ member) another
      (List.mem_append_right _ also)) letter
  generalize (EventRun.run (State.step vendor oneId) State.initial one).table = left at *
  generalize (EventRun.run (State.step vendor otherId) State.initial other).table = right at *
  have perm : (letters left).Perm (letters right) := by
    rw [List.perm_ext_iff_of_nodup (letters_nodup left) (letters_nodup right)]
    intro letter
    rw [oneLetters, otherLetters]
    exact same letter
  have sorted := sortedLetters_unique perm (by
    intro letter member copy copied sameTime
    obtain ⟨message, stored, rfl⟩ := List.mem_map.mp ((oneLetters letter).mp member)
    obtain ⟨another, also, rfl⟩ := List.mem_map.mp ((otherLetters copy).mp copied)
    exact separated message (List.mem_append_left _ stored) another
      (List.mem_append_right _ also) sameTime)
  rw [getInbox_unmarked, getInbox_unmarked, sorted]

/-- Two messages, one of them twice and the other way round. -/
theorem Reference.swapped_inbox_converges :
    ((EventRun.run (Messaging.State.step Reference.vendor []) Messaging.State.initial
        (Reference.arrivals [Reference.early, Reference.late])).table.getInbox 1 20).map
          Messaging.unmarked =
      ((EventRun.run (Messaging.State.step Reference.vendor []) Messaging.State.initial
        (Reference.arrivals [Reference.late, Reference.early, Reference.late])).table.getInbox 1
          20).map Messaging.unmarked := by
  have one := Reference.inserted_arrivals [Reference.early, Reference.late]
    Messaging.State.initial
  have other := Reference.inserted_arrivals [Reference.late, Reference.early, Reference.late]
    Messaging.State.initial
  refine inbox_converges Reference.vendor [] [] _ _ ?_ ?_ ?_ 1 20
  · rw [one, other]
    unfold Messaging.Consistent
    decide
  · rw [one, other]
    unfold Messaging.Separated
    decide
  · rw [one, other]
    intro letter
    simp [or_comm, or_left_comm]

end Shr
