/-
What a network can always do with a message.

From any state a user can write to a machine whose address is known, and the
message can get into both tables; once there, nothing that happens afterwards
takes it out or rewrites it.
-/

import Shr.Fleet.Letters

namespace Shr
namespace Fleet

/-! ### The two operations of a call -/

theorem sendMsg_sends {inputs : Messaging.Inputs} {peer : PeerInfo}
    (sendable : Messaging.Sendable inputs peer) (vendor : Vendor) :
    ∃ next, Messaging.sendMsg vendor inputs =
        .call (.sendPacket peer.ip peer.port (Messaging.messagePacket vendor inputs)) next ∧
      ∃ last, next true = .call (.insertMessage (Messaging.sentMessage inputs)) last := by
  rw [sendable.sendMsg_eq]
  exact ⟨_, rfl, _, rfl⟩

section Events

variable {ι : Type}

def writing (me : ι) (inputs : Messaging.Inputs) : Event ι :=
  { machine := me
    happening := .mail (.launch inputs) }

def mailing (me : ι) (index : Nat) : Event ι :=
  { machine := me
    happening := .mail (.advance index true) }

def receiving (me other : ι) (index : Nat) (packet : Packet) (arrival : Arrival)
    (received : Messaging.Arrival) : Event ι :=
  { machine := other
    happening := .handle (.sendMsg me index) packet arrival { received with stores := true } }

end Events

section Calls

variable {ι : Type} [DecidableEq ι] {world : World ι} {me other : ι}

theorem mail_at_step (world : World ι) (state : State ι) (event : Event ι) :
    ((state.step world event).machines event.machine).mail =
      EventRun.optionally
        (Messaging.State.step world.vendor (world.sites event.machine).ownId)
        (state.machines event.machine).mail event.happening.onMail := by
  rw [State.step_machine_self]
  rfl

theorem letter_stays {state : State ι} {id : Bytes} {letter : MessageRow}
    (stored : (state.machines me).mail.table.letter id = some letter) (further : List (Event ι)) :
    ((state.run world further).machines me).mail.table.letter id = some letter := by
  rw [mail_run, Messaging.State.run_letter, stored, Option.some_or]

theorem letter_inserted {table : MessageTable} {message : Message} {id : Bytes}
    (absent : table.letter id = none) (same : message.id = id) :
    (table.insertMessage message).letter id = some message.letter := by
  rw [MessageTable.letter_insert, absent, Option.none_or, ← same]
  simp [MessageTable.under, Option.filter]

structure Arrived (world : World ι) (me other : ι) (inputs : Messaging.Inputs) (state : State ι) :
    Prop where
  kept : (state.machines me).mail.table.letter (generateUuid inputs.random) =
    some (Messaging.sentMessage inputs).letter
  received : (state.machines other).mail.table.letter (generateUuid inputs.random) =
    some (Messaging.sentMessage inputs).letter

theorem Arrived.stays {inputs : Messaging.Inputs} {state : State ι}
    (arrived : Arrived world me other inputs state) (further : List (Event ι)) :
    Arrived world me other inputs (state.run world further) :=
  ⟨letter_stays arrived.kept further, letter_stays arrived.received further⟩

def crossing (world : World ι) (me other : ι) (index : Nat) (inputs : Messaging.Inputs)
    (arrival : Arrival) (received : Messaging.Arrival) : List (Event ι) :=
  [ mailing me index,
    receiving me other index (Messaging.messagePacket world.vendor inputs) arrival received,
    mailing me index ]

theorem crossing_arrives (state : State ι) (different : me ≠ other) {inputs : Messaging.Inputs}
    {peer : PeerInfo} (sendable : Messaging.Sendable inputs peer)
    (listens : world.listener peer.ip peer.port = some other)
    (unused : (state.machines me).mail.table.letter (generateUuid inputs.random) = none)
    (unseen : (state.machines other).mail.table.letter (generateUuid inputs.random) = none)
    {index : Nat}
    (written : (state.machines me).mail.calls[index]? =
      some (Messaging.sendMsg world.vendor inputs)) (arrival : Arrival)
    (received : Messaging.Arrival) :
    Admissible world state (crossing world me other index inputs arrival received) ∧
      Arrived world me other inputs
        (state.run world (crossing world me other index inputs arrival received)) := by
  obtain ⟨next, sends, last, keeps⟩ := sendMsg_sends sendable world.vendor
  rw [sends] at written
  obtain ⟨inside, _same⟩ := List.getElem?_eq_some_iff.mp written
  -- the packet is sent
  let sent := state.step world (mailing me index)
  have sentMail : (sent.machines me).mail =
      { table := (state.machines me).mail.table
        calls := (state.machines me).mail.calls.set index (next true) } := by
    refine (mail_at_step world state (mailing me index)).trans ?_
    simp only [mailing, Happening.onMail, EventRun.optionally_some, Messaging.State.step, written]
    rfl
  have sentTraffic : sent.traffic = state.traffic ++
      [ .dialled (.sendMsg me index) peer.ip peer.port,
        .sent (.sendMsg me index) (Messaging.messagePacket world.vendor inputs) ] := by
    simp only [sent, mailing, State.step, Machine.emits, written, Option.elim_some]
    rfl
  have sentOther : (sent.machines other).mail = (state.machines other).mail :=
    congrArg Machine.mail (state.step_machine_of_ne different)
  -- the packet arrives
  let stored := sent.step world
    (receiving me other index (Messaging.messagePacket world.vendor inputs) arrival received)
  have arrives : sent.Arrives world other (.sendMsg me index)
      (Messaging.messagePacket world.vendor inputs) := by
    refine ⟨?_, peer.ip, peer.port, ?_, listens⟩
    · rw [sentTraffic]
      exact List.mem_append_right _ (List.mem_cons_of_mem _ List.mem_cons_self)
    · rw [sentTraffic]
      exact List.mem_append_right _ List.mem_cons_self
  have storedTable : (stored.machines other).mail.table =
      (state.machines other).mail.table.insertMessage
        { Messaging.sentMessage inputs with read := false } := by
    have step := mail_at_step world sent
      (receiving me other index (Messaging.messagePacket world.vendor inputs) arrival received)
    refine (congrArg Messaging.State.table step).trans ?_
    simp only [receiving, Happening.onMail, if_true, EventRun.optionally_some,
      Messaging.State.step, sentOther, Messaging.handleMsgReceive, Messaging.messagePacket,
      Messaging.readMessage_toCbor]
  have storedMe : (stored.machines me).mail = (sent.machines me).mail :=
    congrArg Machine.mail (sent.step_machine_of_ne (Ne.symm different))
  -- the copy is kept
  let done := stored.step world (mailing me index)
  have waiting : (stored.machines me).mail.calls[index]? =
      some (.call (.insertMessage (Messaging.sentMessage inputs)) last) := by
    rw [storedMe, sentMail, ← keeps]
    exact List.getElem?_set_self inside
  have doneTable : (done.machines me).mail.table =
      (state.machines me).mail.table.insertMessage (Messaging.sentMessage inputs) := by
    have step := mail_at_step world stored (mailing me index)
    refine (congrArg Messaging.State.table step).trans ?_
    simp only [mailing, Happening.onMail, EventRun.optionally_some, Messaging.State.step, waiting,
      Messaging.Op.effect, if_true]
    rw [storedMe, sentMail]
  have doneOther : (done.machines other).mail = (stored.machines other).mail :=
    congrArg Machine.mail (stored.step_machine_of_ne different)
  refine ⟨⟨trivial, arrives, trivial, trivial⟩, ?_, ?_⟩
  · change (done.machines me).mail.table.letter _ = _
    rw [doneTable]
    exact letter_inserted unused rfl
  · change (done.machines other).mail.table.letter _ = _
    rw [doneOther, storedTable]
    exact letter_inserted unseen rfl

/-- From any state a message can be delivered: if the writer knows an address at
which the other machine listens, and neither machine has the id, then the user
can write it and it can get into both tables; and there it stays as it was
written, whatever else happens. -/
theorem message_can_arrive (world : World ι) (state : State ι) (different : me ≠ other)
    (inputs : Messaging.Inputs) {peer : PeerInfo} (sendable : Messaging.Sendable inputs peer)
    (ownId : inputs.ownId = (world.sites me).ownId)
    (known : Peers.findPeer inputs.recipientId (state.machines me).peers.table = some peer)
    (listens : world.listener peer.ip peer.port = some other)
    (unused : (state.machines me).mail.table.letter (generateUuid inputs.random) = none)
    (unseen : (state.machines other).mail.table.letter (generateUuid inputs.random) = none)
    (arrival : Arrival) (received : Messaging.Arrival) :
    ∃ events, Admissible world state (writing me inputs :: events) ∧
      ∀ further, Arrived world me other inputs
        (state.run world (writing me inputs :: events ++ further)) := by
  have here := mail_at_step world state (writing me inputs)
  have elsewhere : ((state.step world (writing me inputs)).machines other).mail =
      (state.machines other).mail := congrArg Machine.mail (state.step_machine_of_ne different)
  have mail : ((state.step world (writing me inputs)).machines me).mail =
      { table := (state.machines me).mail.table
        calls := (state.machines me).mail.calls ++ [Messaging.sendMsg world.vendor inputs] } := here
  obtain ⟨admissible, arrived⟩ := crossing_arrives (state.step world (writing me inputs)) different
    sendable listens (by rw [mail]; exact unused) (by rw [elsewhere]; exact unseen)
    (by rw [mail]; exact List.getElem?_concat_length) arrival received
  refine ⟨_, ⟨⟨ownId, sendable.registered.trans known.symm⟩, admissible⟩, ?_⟩
  intro further
  unfold State.run
  rw [EventRun.run_append]
  exact arrived.stays further

/-- The letter gets across between two machines that have just been set up. -/
theorem letter_arrives : ∃ events,
    Admissible Reference.world (Reference.after [Reference.addition])
      (writing false Reference.letter :: events) ∧
    ∀ further, Arrived Reference.world false true Reference.letter
      ((Reference.after [Reference.addition]).run Reference.world
        (writing false Reference.letter :: events ++ further)) :=
  message_can_arrive Reference.world (Reference.after [Reference.addition]) Bool.false_ne_true
    Reference.letter Reference.letter_sendable rfl Reference.find_added rfl rfl rfl
    Shr.Reference.arrival Reference.delivered

end Calls

end Fleet
end Shr
