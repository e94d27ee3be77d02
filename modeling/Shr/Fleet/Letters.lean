/-
The messages of a network.

Whatever a machine keeps in its messages table has been written by the user of
one of the machines, and stands there as it was written: on the machine of its
writer, or on a machine at an address the writer's user has added for the
recipient.
-/

import Shr.Fleet.Sound

namespace Shr
namespace Fleet

variable {ι : Type}

/-! ### Where a letter comes from -/

def LetterTraced (world : World ι) (happened : Event ι → Prop) (me : ι) (letter : MessageRow) :
    Prop :=
  ∃ sender inputs, Wrote happened sender world inputs ∧
    letter = (Messaging.sentMessage inputs).letter ∧
      (sender = me ∨ Reaches world happened sender inputs.recipientId me)

def LettersTraced (world : World ι) (happened : Event ι → Prop) (state : State ι) : Prop :=
  ∀ me id letter, (state.machines me).mail.table.letter id = some letter →
    LetterTraced world happened me letter

section Traces

variable {world : World ι} {happened : Event ι → Prop}

theorem inserted_traced {state : State ι} (sound : Sound world happened state) {event : Event ι}
    (admitted : state.Admits world event) {mailEvent : Messaging.Event}
    (happens : event.happening.onMail = some mailEvent) {message : Message}
    (inserts : (state.machines event.machine).mail.inserts world.vendor
      (world.sites event.machine).ownId mailEvent = some message) :
    LetterTraced world happened event.machine message.letter := by
  obtain ⟨me, happening⟩ := event
  simp only at happens inserts
  cases happening with
  | handle caller packet arrival received =>
      simp only [Happening.onMail] at happens
      split at happens
      next isMsgSend =>
          cases happens
          simp only [Messaging.State.inserts] at inserts
          split at inserts
          next =>
              cases sound.arriving admitted with
              | file offered own reaches => cases own <;> cases isMsgSend
              | ping sender index ts => cases isMsgSend
              | @message sender index inputs wrote reaches =>
                  rw [Messaging.messagePacket, Messaging.readMessage_toCbor,
                    Option.some.injEq] at inserts
                  rw [← inserts]
                  exact ⟨sender, inputs, wrote, rfl, .inr reaches⟩
          next => cases inserts
      next => cases happens
  | files event => cases happens
  | mail event =>
      cases happens
      cases mailEvent with
      | receive arrival payload => exact admitted.elim
      | launch inputs => cases inserts
      | markRead id ok => cases inserts
      | advance index ok =>
          simp only [Messaging.State.inserts] at inserts
          split at inserts
          next inserted next present =>
              split at inserts
              next =>
                  cases inserts
                  obtain ⟨inputs, found, asked, _stays⟩ :=
                    (sound.machines me).mail.advance present
                  cases asked
                  exact ⟨me, inputs, (sound.machines me).letters inputs
                    (List.mem_of_getElem? found), rfl, .inl rfl⟩
              next => cases inserts
          next => cases inserts
  | peers event => cases happens

variable [DecidableEq ι]

theorem LettersTraced.step {state : State ι} (traced : LettersTraced world happened state)
    (sound : Sound world happened state) {event : Event ι}
    (admitted : state.Admits world event) :
    LettersTraced world happened (state.step world event) := by
  intro me id letter found
  by_cases here : event.machine = me
  · rw [← here] at found ⊢
    rw [State.step_machine_self] at found
    simp only [Machine.step] at found
    cases happens : event.happening.onMail with
    | none =>
        rw [happens] at found
        exact traced _ id letter found
    | some mailEvent =>
        rw [happens, EventRun.optionally_some, Messaging.State.step_letter] at found
        rcases Option.or_eq_some_iff.mp found with earlier | ⟨_absent, inserted⟩
        · exact traced _ id letter earlier
        · obtain ⟨message, filtered, same⟩ := Option.map_eq_some_iff.mp inserted
          rw [← same]
          exact inserted_traced sound admitted happens (Option.filter_eq_some_iff.mp filtered).1
  · rw [state.step_machine_of_ne here] at found
    exact traced me id letter found

end Traces

/-! ### One letter -/

namespace Reference

def letter : Messaging.Inputs :=
  { recipientId := added.id
    content := ascii "hello"
    peer := some added
    random := fun _index => 0
    timestamp := 7
    ownId := Shr.Reference.ownId
    retryDelayMs := 2000 }

theorem letter_sendable : Messaging.Sendable letter added where
  recipient := by
    change isValidUuid added.id = true
    decide
  nonempty := by decide
  registered := rfl
  addressed := by decide

def delivered : Messaging.Arrival :=
  { random := fun _index => 0
    now := 7
    stores := true }

def correspondence : List (Event Bool) :=
  [ addition,
    { machine := false
      happening := .mail (.launch letter) },
    { machine := false
      happening := .mail (.advance 0 true) },
    { machine := true
      happening := .handle (.sendMsg false 0)
        (Messaging.messagePacket Shr.Reference.vendor letter) Shr.Reference.arrival delivered },
    { machine := false
      happening := .mail (.advance 0 true) } ]

theorem letter_traffic :
    mailTraffic (.sendMsg false 0) (Messaging.sendMsg Shr.Reference.vendor letter) =
      [ .dialled (.sendMsg false 0) added.ip added.port,
        .sent (.sendMsg false 0) (Messaging.messagePacket Shr.Reference.vendor letter) ] := by
  rw [letter_sendable.sendMsg_eq]
  rfl

theorem correspondence_admissible : Admissible world (State.initial disks) correspondence := by
  have traffic : (after (correspondence.take 3)).traffic =
      mailTraffic (.sendMsg false 0) (Messaging.sendMsg Shr.Reference.vendor letter) := rfl
  rw [letter_traffic] at traffic
  refine ⟨trivial, ⟨rfl, find_added.symm⟩, trivial, ?_, trivial, trivial⟩
  refine ⟨?_, added.ip, added.port, ?_, by decide⟩
  · exact traffic.symm ▸ List.mem_cons_of_mem _ (List.mem_singleton_self _)
  · exact traffic.symm ▸ List.mem_cons_self

theorem written_once {machine : Bool} {written : Messaging.Inputs}
    (member : { machine := machine, happening := .mail (.launch written) } ∈ correspondence) :
    machine = false ∧ written = letter := by
  simpa [correspondence, addition] using member

theorem insert_row {table : MessageTable} {message : Message}
    (absent : table.message message.id = none) :
    bindMessage message ∈ (table.insertMessage message).rows := by
  have stored := @MessageTable.message_insert_self table message message.id rfl
  rw [absent, Option.getD_none] at stored
  exact (KeyedTable.find_eq_some_iff.mp stored).1

theorem letter_received :
    bindMessage { Messaging.sentMessage letter with read := false } ∈
      ((after correspondence).machines true).mail.table.rows := by
  have received (message : Message) :
      bindMessage { message with read := false } ∈
        (Messaging.handleMsgReceive world.vendor (world.sites true).ownId delivered
          (world.vendor.toCbor (Messaging.messageFields message)) MessageTable.empty).rows := by
    unfold Messaging.handleMsgReceive
    rw [Messaging.readMessage_toCbor]
    exact insert_row rfl
  have happens : (correspondence.filterMap fun event => (event.at true).bind Happening.onMail) =
      [.receive delivered (Messaging.messagePacket Shr.Reference.vendor letter).payload] := rfl
  rw [mail_run, happens]
  exact received (Messaging.sentMessage letter)

theorem letter_kept :
    bindMessage (Messaging.sentMessage letter) ∈
      ((after correspondence).machines false).mail.table.rows := by
  have happens : (correspondence.filterMap fun event =>
      (event.at false).bind Happening.onMail) =
        [.launch letter, .advance 0 true, .advance 0 true] := rfl
  have program := letter_sendable.sendMsg_eq world.vendor
  rw [mail_run, happens]
  simp only [EventRun.run_cons, EventRun.run_nil, Messaging.State.step, program]
  exact @insert_row MessageTable.empty (Messaging.sentMessage letter) rfl

end Reference

/-! ### Every run -/

section Runs

variable [DecidableEq ι] (world : World ι) (files : ι → Bytes → Option Bytes)

theorem lettersTraced_of_admissible {events : List (Event ι)}
    (admissible : Admissible world (State.initial files) events) :
    LettersTraced world (· ∈ events) ((State.initial files).run world events) := by
  refine (admissible.invariant (LettersTraced world (· ∈ events)) (Sound.initial world _ files)
    ?_ ?_).2
  · intro before event sound _member admitted traced
    exact traced.step sound admitted
  · intro me id letter impossible
    cases impossible

theorem stored_traced {events : List (Event ι)}
    (admissible : Admissible world (State.initial files) events) {me : ι} {row : MessageRow}
    (stored : row ∈ (((State.initial files).run world events).machines me).mail.table.rows) :
    LetterTraced world (· ∈ events) me row.letter := by
  have found : (((State.initial files).run world events).machines me).mail.table.letter
      row.id.val = some row.letter := by
    unfold MessageTable.letter MessageTable.message
    rw [bindText_val, KeyedTable.find_of_mem stored, Option.map_some]
  exact lettersTraced_of_admissible world files admissible me _ _ found

/-- In every run of any number of machines, each row of a messages table holds a
message as a user wrote it, under the id of the machine it was written on; and it
stands on that machine, or on one that listens at an address the writer's user
had added for the recipient. -/
theorem stored_messages_were_written {events : List (Event ι)}
    (admissible : Admissible world (State.initial files) events) (me : ι) (row : MessageRow)
    (stored : row ∈ (((State.initial files).run world events).machines me).mail.table.rows) :
    ∃ (sender : ι) (inputs : Messaging.Inputs),
      { machine := sender
        happening := .mail (.launch inputs) } ∈ events ∧
      inputs.ownId = (world.sites sender).ownId ∧
      row.letter = (Messaging.sentMessage inputs).letter ∧
      (sender = me ∨ ∃ ip port,
        { machine := sender
          happening := .peers (.addPeer true inputs.recipientId ip port) } ∈ events ∧
        world.listener (cstr ip) port = some me) := by
  obtain ⟨sender, inputs, wrote, same, from_here⟩ := stored_traced world files admissible stored
  exact ⟨sender, inputs, wrote.launched, wrote.ownId, same, from_here⟩

/-- The message on the second machine was written on the first. -/
theorem letter_was_written : ∃ (sender : Bool) (inputs : Messaging.Inputs),
    { machine := sender
      happening := .mail (.launch inputs) } ∈ Reference.correspondence ∧
    inputs.ownId = (Reference.world.sites sender).ownId := by
  obtain ⟨sender, inputs, launched, ownId, _same, _from⟩ :=
    stored_messages_were_written Reference.world Reference.disks
      Reference.correspondence_admissible true _ Reference.letter_received
  exact ⟨sender, inputs, launched, ownId⟩

/-- If no two calls draw the same id, the machines of a network agree on every
message: two rows with one id differ at most in their `read` column. -/
theorem machines_agree_on_messages {events : List (Event ι)}
    (admissible : Admissible world (State.initial files) events)
    (distinct : ∀ (one other : ι) (inputs others : Messaging.Inputs),
      { machine := one
        happening := .mail (.launch inputs) } ∈ events →
      { machine := other
        happening := .mail (.launch others) } ∈ events →
      (Messaging.sentMessage inputs).id = (Messaging.sentMessage others).id → inputs = others)
    (one other : ι) (row copy : MessageRow)
    (stored : row ∈ (((State.initial files).run world events).machines one).mail.table.rows)
    (copied : copy ∈ (((State.initial files).run world events).machines other).mail.table.rows)
    (sameId : row.id = copy.id) : row.letter = copy.letter := by
  obtain ⟨sender, inputs, wrote, same, _from⟩ := stored_traced world files admissible stored
  obtain ⟨writer, others, wroteToo, sameToo, _fromToo⟩ :=
    stored_traced world files admissible copied
  have key : bindText (Messaging.sentMessage inputs).id =
      bindText (Messaging.sentMessage others).id := by
    calc bindText (Messaging.sentMessage inputs).id
      _ = row.letter.id := (congrArg MessageRow.id same).symm
      _ = copy.letter.id := sameId
      _ = bindText (Messaging.sentMessage others).id := congrArg MessageRow.id sameToo
  have text (inputs : Messaging.Inputs) : NulFree (Messaging.sentMessage inputs).id :=
    generateUuid_nulFree _
  have id := congrArg Subtype.val key
  rw [bindText_val_eq_iff.mpr (text inputs), bindText_val_eq_iff.mpr (text others)] at id
  rw [same, sameToo, distinct sender writer inputs others wrote.launched wroteToo.launched id]

/-- Both machines have the letter. -/
theorem letter_agreed : (bindMessage (Messaging.sentMessage Reference.letter)).letter =
    (bindMessage { Messaging.sentMessage Reference.letter with read := false }).letter := by
  refine machines_agree_on_messages Reference.world Reference.disks
    Reference.correspondence_admissible ?_ false true _ _ Reference.letter_kept
      Reference.letter_received rfl
  intro one other inputs others written writtenToo _sameId
  rw [(Reference.written_once written).2, (Reference.written_once writtenToo).2]

end Runs

end Fleet
end Shr
