/-
A message is stored once and stays as it was stored.

The table of a node is worked on by the packets it receives, by its own calls of
`send_msg`, and by the marks its user sets.  Calls advance one operation at a
time, so every interleaving is a run.
-/

import Shr.Library.Runs
import Shr.Messaging.Operations

namespace Shr
namespace Messaging

structure State where
  table : MessageTable
  calls : List (MsgProgram Bool)

def State.initial : State :=
  { table := MessageTable.empty
    calls := [] }

/-- `ok` is the reply to the operation a call waits for. -/
inductive Event where
  | receive (arrival : Arrival) (payload : Bytes)
  | launch (inputs : Inputs)
  | advance (index : Nat) (ok : Bool)
  | markRead (id : Bytes) (ok : Bool)

def Op.effect (ok : Bool) (table : MessageTable) : (op : Op) → op.Reply × MessageTable
  | .sendPacket _ _ _ => (ok, table)
  | .sleep _ => ((), table)
  | .insertMessage message => (ok, if ok then table.insertMessage message else table)

section Runs

variable (vendor : Vendor) (ownId : Bytes)

def State.step (state : State) : Event → State
  | .receive arrival payload =>
      { state with table := handleMsgReceive vendor ownId arrival payload state.table }
  | .launch inputs => { state with calls := state.calls ++ [sendMsg vendor inputs] }
  | .advance index ok =>
      match state.calls[index]? with
      | some (.call op next) =>
          { table := (op.effect ok state.table).2
            calls := state.calls.set index (next (op.effect ok state.table).1) }
      | _ => state
  | .markRead id ok =>
      { state with table := if ok then state.table.markMessageRead id else state.table }

/-- The message that an event inserts, if its statement succeeds. -/
def State.inserts (state : State) : Event → Option Message
  | .receive arrival payload =>
      if arrival.stores then readMessage vendor ownId arrival payload else none
  | .advance index ok =>
      match state.calls[index]? with
      | some (.call (.insertMessage message) _) => if ok then some message else none
      | _ => none
  | _ => none

def State.inserted (state : State) (events : List Event) : List Message :=
  EventRun.emitted (State.step vendor ownId) (State.inserts vendor ownId) state events

section Steps

variable {vendor : Vendor} {ownId : Bytes}

theorem State.step_table (state : State) (event : Event) :
    (∃ message, state.inserts vendor ownId event = some message ∧
        (state.step vendor ownId event).table = state.table.insertMessage message) ∨
      state.inserts vendor ownId event = none ∧
        ((∃ id, (state.step vendor ownId event).table = state.table.markMessageRead id) ∨
          (state.step vendor ownId event).table = state.table) := by
  cases event with
  | receive arrival payload =>
      simp only [State.step, State.inserts, handleMsgReceive]
      cases arrival.stores with
      | false =>
          refine .inr ⟨rfl, .inr ?_⟩
          cases readMessage vendor ownId arrival payload <;> rfl
      | true =>
          cases readMessage vendor ownId arrival payload with
          | none => exact .inr ⟨rfl, .inr rfl⟩
          | some message => exact .inl ⟨message, rfl, rfl⟩
  | launch inputs => exact .inr ⟨rfl, .inr rfl⟩
  | advance index ok =>
      simp only [State.step, State.inserts]
      cases state.calls[index]? with
      | none => exact .inr ⟨rfl, .inr rfl⟩
      | some program =>
          cases program with
          | done result => exact .inr ⟨rfl, .inr rfl⟩
          | call op next =>
              cases op with
              | sendPacket ip port packet => exact .inr ⟨rfl, .inr rfl⟩
              | sleep milliseconds => exact .inr ⟨rfl, .inr rfl⟩
              | insertMessage message =>
                  cases ok with
                  | false => exact .inr ⟨rfl, .inr rfl⟩
                  | true => exact .inl ⟨message, rfl, rfl⟩
  | markRead id ok =>
      cases ok with
      | false => exact .inr ⟨rfl, .inr rfl⟩
      | true => exact .inr ⟨rfl, .inl ⟨id, rfl⟩⟩

/-- An event fills an empty place with the message it inserts, and leaves the
letter in any other place alone. -/
theorem State.step_letter (id : Bytes) (state : State) (event : Event) :
    (state.step vendor ownId event).table.letter id =
      (state.table.letter id).or
        (((state.inserts vendor ownId event).filter (MessageTable.under id)).map
          Message.letter) := by
  rcases state.step_table event with ⟨message, inserts, table⟩ | ⟨inserts, marked | same⟩
  · rw [table, inserts, MessageTable.letter_insert]
  · obtain ⟨marked, table⟩ := marked
    rw [table, inserts, MessageTable.letter_markRead]
    simp
  · rw [same, inserts]
    simp

/-- The letter of a run is that of the first message inserted under the id. -/
theorem State.run_letter (id : Bytes) (state : State) (events : List Event) :
    (EventRun.run (State.step vendor ownId) state events).table.letter id =
      (state.table.letter id).or
        (((state.inserted vendor ownId events).find? (MessageTable.under id)).map
          Message.letter) :=
  EventRun.view_run (fun state => state.table.letter id) (State.step_letter id) state events

def ReadUnder (id : Bytes) (state : State) : Prop :=
  ∃ row, state.table.message id = some row ∧ row.read ≠ 0

theorem ReadUnder.step {id : Bytes} {state : State} (read : ReadUnder id state) (event : Event) :
    ReadUnder id (state.step vendor ownId event) := by
  obtain ⟨row, found, marked⟩ := read
  unfold ReadUnder
  rcases state.step_table event with ⟨message, _inserts, table⟩ | ⟨_inserts, ⟨other, table⟩ | same⟩
  · rw [table]
    by_cases same : bindText id = bindText message.id
    · rw [MessageTable.message_insert_self _ _ same, found]
      exact ⟨row, rfl, marked⟩
    · rw [MessageTable.message_insert_of_ne _ _ same]
      exact ⟨row, found, marked⟩
  · rw [table]
    by_cases same : bindText id = bindText other
    · rw [MessageTable.message_markRead_self _ same, found]
      refine ⟨{ row with read := 1 }, rfl, ?_⟩
      exact (by decide : (1 : Int64) ≠ 0)
    · rw [MessageTable.message_markRead_of_ne _ same]
      exact ⟨row, found, marked⟩
  · rw [same]
    exact ⟨row, found, marked⟩

end Steps

end Runs

end Messaging

open Messaging in
/-- In every run a message id has at most one row, which holds the columns of the
first message inserted under that id; later events change at most its `read`
column, and never back to unread. -/
theorem messages_stored_once (vendor : Vendor) (ownId : Bytes) (earlier later : List Event) :
    (EventRun.run (State.step vendor ownId) State.initial earlier).table.rows.Pairwise
        (fun one other => one.id ≠ other.id) ∧
      (∀ id : Bytes,
        ((EventRun.run (State.step vendor ownId) State.initial earlier).table.message id).map
            MessageRow.letter =
          ((State.initial.inserted vendor ownId earlier).find? (MessageTable.under id)).map
            Message.letter) ∧
      ∀ (id : Bytes) (row : MessageRow),
        (EventRun.run (State.step vendor ownId) State.initial earlier).table.message id =
          some row →
        ∃ after,
          (EventRun.run (State.step vendor ownId) State.initial (earlier ++ later)).table.message
            id = some after ∧
          after.letter = row.letter ∧ (row.read ≠ 0 → after.read ≠ 0) := by
  refine ⟨?_, ?_, ?_⟩
  · exact List.pairwise_map.mp (KeyedTable.distinct _)
  · intro id
    exact State.run_letter id State.initial earlier
  · intro id row found
    rw [EventRun.run_append]
    generalize EventRun.run (State.step vendor ownId) State.initial earlier = between at found
    have letters := @State.run_letter vendor ownId id between later
    have here : between.table.letter id = some row.letter := by
      rw [MessageTable.letter, found, Option.map_some]
    rw [here, Option.some_or] at letters
    obtain ⟨after, present, letter⟩ := Option.map_eq_some_iff.mp letters
    refine ⟨after, present, letter, ?_⟩
    intro marked
    have read : ReadUnder id (EventRun.run (State.step vendor ownId) between later) :=
      EventRun.run_invariant (fun _state event holds => holds.step event)
        ⟨row, found, marked⟩ later
    obtain ⟨same, sameFound, sameMarked⟩ := read
    rw [present] at sameFound
    cases sameFound
    exact sameMarked

end Shr
