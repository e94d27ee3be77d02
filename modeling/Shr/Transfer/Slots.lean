/-
The slots of the calls of `send_file`.

`active_count_` counts the calls between its increment and its decrement; it is
compared with `SHR_MAX_CONCURRENT` long before it is incremented.  Next to each
call stands whether it holds a slot, which no program looks at.
-/

import Shr.Reference
import Shr.Transfer.Exits

namespace Shr

/-! ### Programs and their slot -/

/-- A call takes a slot when it has none, gives it back when it has one, and ends
without one. -/
def slotContract : Contract sendSignature Bool :=
  { allowed := fun held op =>
      (op = .incrementActive → held = false) ∧ (op = .decrementActive → held = true)
    possible := fun _held _op _reply => True
    learned := fun held op _reply =>
      match op with
      | .incrementActive => true
      | .decrementActive => false
      | _ => held }

abbrev MeetsSlot (held : Bool) (program : SendProgram Bytes) : Prop :=
  program.Meets slotContract (fun last _result => last = false) held

theorem sendFile_meetsSlot (vendor : Vendor) (inputs : SendInputs) :
    MeetsSlot false (sendFile vendor inputs) := by
  have meets := @sendFile_meets vendor inputs _ _ climbs_any
    fun _contents _start _readable => trivial
  have viewed : (sendFile vendor inputs).Meets slotContract
      (fun seen result => ∃ ledger : Ledger, ledger.slot = seen ∧ ledger.Settled inputs result)
      false := by
    refine meets.view Ledger.slot ?_ (fun _ledger _op _reply _possible => trivial) ?_
    · intro ledger op allowed
      constructor
      · rintro rfl
        exact allowed
      · rintro rfl
        exact allowed
    · intro ledger op reply
      cases op <;> rfl
  refine viewed.mono ?_
  rintro held result ⟨ledger, rfl, settled⟩
  exact settled.slot

/-! ### Runs with slots -/

structure Slots where
  state : NodeState
  holding : List Bool

def Slots.initial (files : Bytes → Option Bytes) : Slots :=
  { state := NodeState.initial files
    holding := [] }

def Slots.after (slots : Slots) : NodeEvent → List Bool
  | .launch _ => slots.holding ++ [false]
  | .advance index _ =>
      match slots.state.sends[index]? with
      | some (.call .incrementActive _) => slots.holding.set index true
      | some (.call .decrementActive _) => slots.holding.set index false
      | _ => slots.holding
  | _ => slots.holding

def Slots.holders (slots : Slots) : Nat :=
  slots.holding.count true

section Runs

variable (vendor : Vendor) (host : Host)

def Slots.step (slots : Slots) (event : NodeEvent) : Slots :=
  { state := slots.state.step vendor host event
    holding := slots.after event }

end Runs

/-- The counter counts the calls that hold a slot, and they are not too many. -/
structure Slots.Sound (slots : Slots) : Prop where
  counted : slots.holders = slots.state.node.activeCount
  limited : slots.holders ≤ shrMaxConcurrent

/-- What an event does to the slots: a call takes one, or gives one back. -/
def NodeState.slotMove (state : NodeState) : NodeEvent → Option Bool
  | .advance index _ =>
      match state.sends[index]? with
      | some (.call .incrementActive _) => some true
      | some (.call .decrementActive _) => some false
      | _ => none
  | _ => none

def NodeState.Takes (state : NodeState) (event : NodeEvent) : Prop :=
  state.slotMove event = some true

def NodeState.Tests (state : NodeState) : NodeEvent → Prop
  | .advance index _ => ∃ next, state.sends[index]? = some (.call .loadActive next)
  | _ => False

def slotMoves (vendor : Vendor) (host : Host) (state : NodeState) (events : List NodeEvent) :
    List Bool :=
  EventRun.emitted (NodeState.step vendor host) NodeState.slotMove state events

/-- The slots that a test leaves free beside the one its call is going to take. -/
def NodeState.spareSlots (state : NodeState) : Nat :=
  (shrMaxConcurrent - 1 - state.node.activeCount).toNat

/-- While a call is between its test and its increment, the others take at most as
many slots as its test has left free for them and as they give back. -/
def SlotsSpared (vendor : Vendor) (host : Host) (state : NodeState) (events : List NodeEvent) :
    Prop :=
  ∀ front index tested middle entered back,
    events = front ++ .advance index tested :: middle ++ .advance index entered :: back →
    let before := state.run vendor host front
    let behind := state.run vendor host (front ++ [.advance index tested])
    before.Tests (.advance index tested) →
    (behind.run vendor host middle).Takes (.advance index entered) →
    (slotMoves vendor host behind middle).count true ≤
      (slotMoves vendor host behind middle).count false + before.spareSlots

def Slots.TestHolds (slots : Slots) (event : NodeEvent) : Prop :=
  slots.state.Takes event → slots.state.node.activeCount < shrMaxConcurrent

structure SlotsInvariant (slots : Slots) : Prop where
  aligned : slots.holding.length = slots.state.sends.length
  meet : ∀ (index : Nat) program held, slots.state.sends[index]? = some program →
    slots.holding[index]? = some held → MeetsSlot held program
  counted : slots.holders = slots.state.node.activeCount

section Steps

variable {vendor : Vendor} {host : Host}

theorem handleTransferPacket_activeCount (arrival : Arrival) (packet : Packet) (node : Node) :
    (handleTransferPacket vendor host arrival packet node).node.activeCount =
      node.activeCount := by
  unfold handleTransferPacket
  split
  next =>
      rcases handleFileOffer_cases arrival packet.payload node with
        ⟨_malformed, handled⟩ | ⟨_offer, _existing, _decoded, _found, handled⟩ |
        ⟨_offer, _decoded, _notPaused, handled⟩ <;> rw [handled]
      rfl
  next =>
      rcases handleFileChunk_cases arrival packet.payload node with
        ⟨_ignored, handled⟩ | ⟨_chunk, _record, _applies, handled⟩ <;> (rw [handled]; rfl)
  next =>
      rcases handleFileComplete_cases arrival packet.payload node with
        ⟨_ignored, handled⟩ | ⟨_complete, _record, _decoded, _found, _differs, handled⟩ |
        ⟨_complete, _record, _decoded, _found, _verified, handled⟩ <;> (rw [handled]; rfl)
  next => rfl

theorem cancelTransfer_activeCount (id : Bytes) (now : Int64) (node : Node) :
    (cancelTransfer id now node).2.activeCount = node.activeCount := by
  unfold cancelTransfer
  split <;> rfl

theorem SlotsInvariant.initial (files : Bytes → Option Bytes) :
    SlotsInvariant (.initial files) where
  aligned := rfl
  meet := fun _index _program _held impossible => by cases impossible
  counted := rfl

theorem SlotsInvariant.launch {slots : Slots} (holds : SlotsInvariant slots)
    (inputs : SendInputs) : SlotsInvariant (slots.step vendor host (.launch inputs)) where
  aligned := by
    simp only [Slots.step, Slots.after, NodeState.step, List.length_append, holds.aligned]
    rfl
  meet := by
    intro index program held present known
    simp only [Slots.step, Slots.after, NodeState.step] at present known
    by_cases earlier : index < slots.state.sends.length
    · rw [List.getElem?_append_left earlier] at present
      rw [List.getElem?_append_left (holds.aligned.symm ▸ earlier)] at known
      exact holds.meet index program held present known
    · have launched : slots.state.sends.length ≤ index := Nat.le_of_not_lt earlier
      rw [List.getElem?_append_right launched] at present
      rw [List.getElem?_append_right (by rw [holds.aligned]; exact launched)] at known
      have isLaunched := List.mem_singleton.mp (List.mem_of_getElem? present)
      have isFree := List.mem_singleton.mp (List.mem_of_getElem? known)
      rw [isLaunched, isFree]
      exact sendFile_meetsSlot vendor inputs
  counted := by
    have counted := holds.counted
    simp only [Slots.step, Slots.after, Slots.holders, NodeState.step, List.count_append] at *
    simpa using counted

theorem count_set_holders {holding : List Bool} {index : Nat} (inside : index < holding.length)
    (held : Bool) :
    (holding.set index held).count true + holding[index].toNat =
      holding.count true + held.toNat := by
  have positive : holding[index] = true → 0 < holding.count true := by
    intro holder
    exact List.count_pos_iff.mpr (holder ▸ List.getElem_mem inside)
  rw [List.count_set inside]
  cases before : holding[index] with
  | false => cases held <;> simp
  | true =>
      have more := positive before
      cases held <;> simp <;> omega

theorem after_advance {slots : Slots} {index : Nat} {answer : Answer} {held : Bool} {op : SendOp}
    {next : op.Reply → SendProgram Bytes}
    (present : slots.state.sends[index]? = some (.call op next))
    (known : slots.holding[index]? = some held) (reply : op.Reply) :
    slots.after (.advance index answer) =
      slots.holding.set index (slotContract.learned held op reply) := by
  obtain ⟨inside, value⟩ := List.getElem?_eq_some_iff.mp known
  have same : slots.holding.set index held = slots.holding := by
    rw [← value, List.set_getElem_self]
  simp only [Slots.after, present]
  cases op with
  | incrementActive => rfl
  | decrementActive => rfl
  | _ => exact same.symm

theorem effect_activeCount {held : Bool} {op : SendOp} (allowed : slotContract.allowed held op)
    (answer : Answer) (node : Node) (reply : op.Reply) :
    (op.effect answer node).2.activeCount + held.toNat =
      node.activeCount + (slotContract.learned held op reply).toNat := by
  cases op with
  | incrementActive =>
      rw [allowed.1 rfl]
      simp [SendOp.effect, slotContract]
  | decrementActive =>
      rw [allowed.2 rfl]
      simp [SendOp.effect, slotContract]
  | _ => rfl

theorem SlotsInvariant.advance {slots : Slots} (holds : SlotsInvariant slots) (index : Nat)
    (answer : Answer) : SlotsInvariant (slots.step vendor host (.advance index answer)) := by
  cases present : slots.state.sends[index]? with
  | none =>
      have same : slots.step vendor host (.advance index answer) = slots := by
        simp only [Slots.step, Slots.after, NodeState.step, present]
      rw [same]
      exact holds
  | some program =>
      cases program with
      | done result =>
          obtain ⟨inside, value⟩ := List.getElem?_eq_some_iff.mp present
          have unchanged : slots.state.sends.set index (.done result) = slots.state.sends := by
            rw [← value, List.set_getElem_self]
          have same : slots.step vendor host (.advance index answer) = slots := by
            simp only [Slots.step, Slots.after, NodeState.step, present, Shr.advance, unchanged]
          rw [same]
          exact holds
      | call op next =>
          obtain ⟨inside, _value⟩ := List.getElem?_eq_some_iff.mp present
          have insideHolding : index < slots.holding.length := holds.aligned.symm ▸ inside
          have known : slots.holding[index]? = some slots.holding[index] :=
            List.getElem?_eq_getElem insideHolding
          have meets := holds.meet index _ _ present known
          have step : slots.step vendor host (.advance index answer) =
              { state :=
                  { node := (op.effect answer slots.state.node).2
                    sends := slots.state.sends.set index
                      (next (op.effect answer slots.state.node).1) }
                holding := slots.holding.set index
                  (slotContract.learned slots.holding[index] op
                    (op.effect answer slots.state.node).1) } := by
            rw [← @after_advance slots index answer _ _ _ present known]
            simp only [Slots.step, NodeState.step, present, Shr.advance]
          rw [step]
          constructor
          · simp only [List.length_set, holds.aligned]
          · intro other program held otherPresent otherKnown
            by_cases same : other = index
            · subst same
              rw [List.getElem?_set_self inside] at otherPresent
              rw [List.getElem?_set_self insideHolding] at otherKnown
              cases otherPresent
              cases otherKnown
              exact meets.2 _ trivial
            · rw [List.getElem?_set_ne (Ne.symm same)] at otherPresent otherKnown
              exact holds.meet other program held otherPresent otherKnown
          · have counter := effect_activeCount meets.1 answer slots.state.node
              (op.effect answer slots.state.node).1
            have counted := holds.counted
            have holders := count_set_holders insideHolding
              (slotContract.learned slots.holding[index] op (op.effect answer slots.state.node).1)
            unfold Slots.holders at counted ⊢
            simp only
            omega

theorem SlotsInvariant.step {slots : Slots} (holds : SlotsInvariant slots) (event : NodeEvent) :
    SlotsInvariant (slots.step vendor host event) := by
  cases event with
  | packet arrival packet =>
      exact ⟨holds.aligned, holds.meet,
        holds.counted.trans (handleTransferPacket_activeCount arrival packet _).symm⟩
  | cancel id now =>
      exact ⟨holds.aligned, holds.meet,
        holds.counted.trans (cancelTransfer_activeCount id now _).symm⟩
  | launch inputs => exact holds.launch inputs
  | advance index answer => exact holds.advance index answer

theorem activeCount_step (state : NodeState) (event : NodeEvent) :
    (state.step vendor host event).node.activeCount +
        ((state.slotMove event).toList.count false : Nat) =
      state.node.activeCount + ((state.slotMove event).toList.count true : Nat) := by
  cases event with
  | packet arrival packet =>
      exact congrArg (· + (0 : Int)) (handleTransferPacket_activeCount arrival packet _)
  | cancel id now => exact congrArg (· + (0 : Int)) (cancelTransfer_activeCount id now _)
  | launch inputs => rfl
  | advance index answer =>
      simp only [NodeState.step, NodeState.slotMove]
      cases state.sends[index]? with
      | none => rfl
      | some program =>
          cases program with
          | done result => rfl
          | call op next =>
              cases op with
              | incrementActive =>
                  change state.node.activeCount + 1 + ((0 : Nat) : Int) =
                    state.node.activeCount + ((1 : Nat) : Int)
                  omega
              | decrementActive =>
                  change state.node.activeCount - 1 + ((1 : Nat) : Int) =
                    state.node.activeCount + ((0 : Nat) : Int)
                  omega
              | _ => rfl

theorem activeCount_run (state : NodeState) (events : List NodeEvent) :
    (state.run vendor host events).node.activeCount +
        ((slotMoves vendor host state events).count false : Nat) =
      state.node.activeCount + ((slotMoves vendor host state events).count true : Nat) := by
  induction events generalizing state with
  | nil => rfl
  | cons event rest ih =>
      have first := @activeCount_step vendor host state event
      have later := ih (state.step vendor host event)
      have moves : slotMoves vendor host state (event :: rest) =
          (state.slotMove event).toList ++
            slotMoves vendor host (state.step vendor host event) rest := rfl
      rw [moves, List.count_append, List.count_append]
      change ((state.step vendor host event).run vendor host rest).node.activeCount + _ = _
      omega

/-- An event keeps the number of slots in its limit if and only if a call that takes
one still finds one free. -/
theorem sound_step_iff {slots : Slots} (holds : SlotsInvariant slots) (sound : slots.Sound)
    (event : NodeEvent) : (slots.step vendor host event).Sound ↔ slots.TestHolds event := by
  have counted := (@SlotsInvariant.step vendor host slots holds event).counted
  have limited : (slots.state.node.activeCount : Int) ≤ shrMaxConcurrent := by
    rw [← holds.counted]
    exact sound.limited
  have sound_iff : (slots.step vendor host event).Sound ↔
      (slots.state.step vendor host event).node.activeCount ≤ shrMaxConcurrent := by
    constructor
    · intro after
      exact counted ▸ after.limited
    · intro within
      exact ⟨counted, counted.symm ▸ within⟩
  have changes := @activeCount_step vendor host slots.state event
  rw [sound_iff, Slots.TestHolds, NodeState.Takes]
  cases move : slots.state.slotMove event with
  | none =>
      have same : (slots.state.step vendor host event).node.activeCount =
          slots.state.node.activeCount := by simpa [move] using changes
      constructor
      · intro _within impossible
        cases impossible
      · intro _free
        exact same.le.trans limited
  | some taken =>
      cases taken with
      | true =>
          have more : (slots.state.step vendor host event).node.activeCount =
              slots.state.node.activeCount + 1 := by simpa [move] using changes
          rw [more]
          constructor
          · intro within _takes
            omega
          · intro free
            have found := free rfl
            omega
      | false =>
          have less : (slots.state.step vendor host event).node.activeCount + 1 =
              slots.state.node.activeCount := by simpa [move] using changes
          constructor
          · intro _within impossible
            cases impossible
          · intro _free
            omega

end Steps

/-! ### From the test to the increment -/

/-- A call takes no slot before it has read a counter below the limit. -/
def testedContract : Contract sendSignature Bool :=
  { allowed := fun passed op => op = .incrementActive → passed = true
    possible := fun _passed _op _reply => True
    learned := fun passed op reply =>
      match op, reply with
      | .loadActive, (active : Int) => passed || decide (active < shrMaxConcurrent)
      | _, _ => passed }

abbrev MeetsTested (program : SendProgram Bytes) : Prop :=
  program.Meets testedContract (fun _passed _result => True) false

theorem meets_passed {α : Type} (program : SendProgram α) :
    program.Meets testedContract (fun _passed _result => True) true := by
  induction program with
  | done result => trivial
  | call op next ih =>
      have stays (reply : op.Reply) : testedContract.learned true op reply = true := by
        cases op <;> rfl
      refine ⟨fun _takes => rfl, fun reply _possible => ?_⟩
      rw [stays reply]
      exact ih reply

theorem sendFile_meetsTested (vendor : Vendor) (inputs : SendInputs) :
    MeetsTested (sendFile vendor inputs) := by
  unfold sendFile
  split
  next => trivial
  next =>
      split
      next => trivial
      next absPath _known =>
          split
          next => trivial
          next =>
              split
              next => trivial
              next peer _registered =>
                  split
                  next => trivial
                  next =>
                      refine ⟨(fun impossible => by cases impossible), ?_⟩
                      intro active _possible
                      change Int at active
                      change Program.Meets testedContract _ _
                        (if shrMaxConcurrent ≤ active then pure []
                        else offerFile vendor inputs absPath peer)
                      by_cases full : shrMaxConcurrent ≤ active
                      · rw [if_pos full]
                        trivial
                      · have passed : testedContract.learned false .loadActive active = true :=
                          decide_eq_true (Int.not_le.mp full)
                        rw [if_neg full, passed]
                        exact meets_passed _

section Tested

variable {vendor : Vendor} {host : Host} {start : NodeState}

def PassedTest (vendor : Vendor) (host : Host) (start : NodeState) (events : List NodeEvent)
    (index : Nat) : Prop :=
  ∃ front tested middle, events = front ++ .advance index tested :: middle ∧
    (start.run vendor host front).Tests (.advance index tested) ∧
    (start.run vendor host front).node.activeCount < shrMaxConcurrent

theorem PassedTest.later {events : List NodeEvent} {index : Nat}
    (passed : PassedTest vendor host start events index) (event : NodeEvent) :
    PassedTest vendor host start (events ++ [event]) index := by
  obtain ⟨front, tested, middle, rfl, tests, free⟩ := passed
  exact ⟨front, tested, middle ++ [event], by simp, tests, free⟩

theorem tested_or_passed (fresh : start.sends = []) (events : List NodeEvent) :
    ∀ (index : Nat) program, (start.run vendor host events).sends[index]? = some program →
      MeetsTested program ∨ PassedTest vendor host start events index := by
  induction events using List.reverseRecOn with
  | nil =>
      intro index program present
      rw [NodeState.run, EventRun.run_nil, fresh] at present
      cases present
  | append_singleton events event ih =>
      intro index program present
      rw [NodeState.run_snoc] at present
      have kept (same : (start.run vendor host events).sends[index]? = some program) :
          MeetsTested program ∨ PassedTest vendor host start (events ++ [event]) index :=
        (ih index program same).imp_right fun passed => passed.later event
      cases event with
      | packet arrival packet => exact kept present
      | cancel id now => exact kept present
      | launch inputs =>
          rw [NodeState.step] at present
          by_cases earlier : index < (start.run vendor host events).sends.length
          · rw [List.getElem?_append_left earlier] at present
            exact kept present
          · rw [List.getElem?_append_right (Nat.le_of_not_lt earlier)] at present
            rw [List.mem_singleton.mp (List.mem_of_getElem? present)]
            exact .inl (sendFile_meetsTested vendor inputs)
      | advance advanced answer =>
          rw [NodeState.step] at present
          cases found : (start.run vendor host events).sends[advanced]? with
          | none =>
              rw [found] at present
              exact kept present
          | some asking =>
              rw [found] at present
              by_cases same : advanced = index
              · subst same
                obtain ⟨inside, _value⟩ := List.getElem?_eq_some_iff.mp found
                rw [List.getElem?_set_self inside] at present
                cases present
                cases asking with
                | done result => exact kept found
                | call op next =>
                    rcases ih advanced _ found with meets | passed
                    · cases op with
                      | loadActive =>
                          have rest := meets.2 (start.run vendor host events).node.activeCount
                            trivial
                          by_cases free :
                              (start.run vendor host events).node.activeCount < shrMaxConcurrent
                          · exact .inr ⟨events, answer, [], rfl, ⟨next, found⟩, free⟩
                          · have unpassed : testedContract.learned false .loadActive
                                (start.run vendor host events).node.activeCount = false :=
                              decide_eq_false free
                            rw [unpassed] at rest
                            exact .inl rest
                      | _ => exact .inl (meets.2 _ trivial)
                    · exact .inr (passed.later _)
              · rw [List.getElem?_set_ne same] at present
                exact kept present

theorem passed_of_takes (fresh : start.sends = []) {events : List NodeEvent} {index : Nat}
    {answer : Answer}
    (takes : (start.run vendor host events).Takes (.advance index answer)) :
    PassedTest vendor host start events index := by
  unfold NodeState.Takes NodeState.slotMove at takes
  simp only at takes
  split at takes
  next next found =>
      refine (tested_or_passed fresh events index _ found).resolve_left ?_
      intro meets
      exact Bool.false_ne_true (meets.1 rfl)
  next => cases takes
  next => cases takes

end Tested

theorem slots_run_state {vendor : Vendor} {host : Host} (slots : Slots)
    (events : List NodeEvent) :
    (EventRun.run (Slots.step vendor host) slots events).state =
      slots.state.run vendor host events := by
  induction events generalizing slots with
  | nil => rfl
  | cons event rest ih => exact ih (slots.step vendor host event)

theorem run_behind_test (start : NodeState) (front middle : List NodeEvent) (event : NodeEvent) :
    start.run vendor host (front ++ event :: middle) =
      (start.run vendor host (front ++ [event])).run vendor host middle := by
  rw [← NodeState.run_append, List.append_assoc, List.singleton_append]

theorem activeCount_tested {start : NodeState} {front : List NodeEvent} {index : Nat}
    {tested : Answer} (tests : (start.run vendor host front).Tests (.advance index tested)) :
    (start.run vendor host (front ++ [.advance index tested])).node.activeCount =
      (start.run vendor host front).node.activeCount := by
  obtain ⟨next, found⟩ := tests
  rw [NodeState.run_snoc, NodeState.step, found]
  rfl

theorem slots_within_iff (vendor : Vendor) (host : Host) (files : Bytes → Option Bytes)
    (events : List NodeEvent) :
    EventRun.Always (Slots.step vendor host) Slots.Sound (.initial files) events ↔
      EventRun.Along (Slots.step vendor host) Slots.TestHolds (.initial files) events := by
  have every : ∀ event ∈ events, True := fun _event _present => trivial
  have kept : ∀ slots event, True → SlotsInvariant slots →
      SlotsInvariant (slots.step vendor host event) :=
    fun _slots event _any holds => holds.step event
  refine EventRun.always_iff_along kept ?_ every (.initial files) ?_
  · intro slots event _any holds sound
    exact sound_step_iff holds sound event
  · exact ⟨rfl, (by decide : (0 : Int) ≤ shrMaxConcurrent)⟩

/-- In every run the counter counts the calls that hold a slot; and they never exceed
the limit if and only if, while a call is between its test and its increment, the
others take no more slots than the test has left free for them and they give back. -/
theorem slots_limited_iff (vendor : Vendor) (host : Host) (files : Bytes → Option Bytes)
    (events : List NodeEvent) :
    EventRun.Always (Slots.step vendor host) Slots.Sound (.initial files) events ↔
      SlotsSpared vendor host (NodeState.initial files) events := by
  have begun : (Slots.initial files).state = NodeState.initial files := rfl
  rw [slots_within_iff, EventRun.along_iff]
  constructor
  · intro holds front index tested middle entered back split before behind tests takes
    have free : (behind.run vendor host middle).node.activeCount < shrMaxConcurrent := by
      have here := holds (front ++ .advance index tested :: middle) _ back split
      rw [Slots.TestHolds, slots_run_state, begun] at here
      rw [← run_behind_test] at takes ⊢
      exact here takes
    have counts := @activeCount_run vendor host behind middle
    have tested : behind.node.activeCount = before.node.activeCount := activeCount_tested tests
    unfold NodeState.spareSlots
    omega
  · intro spared front event back split
    rw [Slots.TestHolds, slots_run_state, begun]
    intro takes
    obtain ⟨index, entered, rfl⟩ : ∃ index entered, event = .advance index entered := by
      cases event with
      | advance index entered => exact ⟨index, entered, rfl⟩
      | _ => cases takes
    obtain ⟨earlier, tested, middle, rfl, tests, free⟩ := passed_of_takes rfl takes
    have behind := @run_behind_test vendor host (NodeState.initial files) earlier middle
      (.advance index tested)
    rw [behind] at takes ⊢
    have room := spared earlier index tested middle entered back split tests takes
    have counts := @activeCount_run vendor host ((NodeState.initial files).run vendor host
      (earlier ++ [.advance index tested])) middle
    rw [activeCount_tested tests] at counts
    unfold NodeState.spareSlots at room
    omega

/-! ### Calls that all pass the test -/

section Waiting

variable {vendor : Vendor} {host : Host} {call : SendCall}

theorem advance_at {state : NodeState} {index : Nat} {program : SendProgram Bytes}
    {point : Point} {op : SendOp} {after : op.Reply → Point}
    (present : state.sends[index]? = some program) (follows : call.At vendor point program)
    (asks : point.move vendor call = .ask op after) (answer : Answer) :
    ∃ later, call.At vendor (after (op.effect answer state.node).1) later ∧
      state.step vendor host (.advance index answer) =
        { node := (op.effect answer state.node).2
          sends := state.sends.set index later } := by
  obtain ⟨next, rfl, rest⟩ := follows.of_ask asks
  refine ⟨_, rest _, ?_⟩
  simp only [NodeState.step, present]
  rfl

def accepting : Answer :=
  { ok := true
    packet := some { type := .fileAccept, payload := [] }
    now := 0 }

structure Stands (vendor : Vendor) (call : SendCall) (others : List (SendProgram Bytes))
    (active : Int) (point : Point) (state : NodeState) : Prop where
  last : ∃ program, state.sends = others ++ [program] ∧ call.At vendor point program
  active : state.node.activeCount = active

def Reaches (vendor : Vendor) (host : Host) (call : SendCall) (state : NodeState)
    (point : Point) : Prop :=
  ∃ events, Stands vendor call state.sends state.node.activeCount point
    (state.run vendor host events)

theorem Reaches.advance {state : NodeState} {point next : Point} {op : SendOp}
    {after : op.Reply → Point} (reaches : Reaches vendor host call state point)
    (asks : point.move vendor call = .ask op after)
    (still : ∀ node : Node, (op.effect accepting node).2.activeCount = node.activeCount)
    (goes : ∀ node : Node, node.activeCount = state.node.activeCount →
      after (op.effect accepting node).1 = next) : Reaches vendor host call state next := by
  obtain ⟨events, stands⟩ := reaches
  obtain ⟨program, sends, follows⟩ := stands.last
  have present : (state.run vendor host events).sends[state.sends.length]? = some program := by
    rw [sends, List.getElem?_append_right (Nat.le_refl _), Nat.sub_self]
    rfl
  obtain ⟨later, followsLater, step⟩ :=
    @advance_at vendor host call _ _ _ _ _ _ present follows asks accepting
  refine ⟨events ++ [.advance state.sends.length accepting], ?_⟩
  rw [NodeState.run_snoc, step]
  refine ⟨⟨later, ?_, goes _ stands.active ▸ followsLater⟩, ?_⟩
  · simp only [sends, List.set_append_right _ _ (Nat.le_refl _), Nat.sub_self]
    rfl
  · rw [still, stands.active]

theorem launch_waits (state : NodeState) (free : state.node.activeCount < shrMaxConcurrent) :
    Reaches vendor host call state (.enter 0) := by
  have admitted : ∀ node : Node, node.activeCount = state.node.activeCount →
      afterActive node.activeCount = .store := by
    intro node same
    unfold afterActive
    rw [if_neg (by omega)]
  have launched : Reaches vendor host call state .checkActive :=
    ⟨[.launch call.inputs], ⟨_, rfl, sendFile_at vendor call⟩, rfl⟩
  have stored := launched.advance rfl (fun _node => rfl) admitted
  have connecting : Reaches vendor host call state .connect :=
    stored.advance rfl (fun _node => rfl) fun _node _same => rfl
  have offering : Reaches vendor host call state .offer :=
    connecting.advance rfl (fun _node => rfl) fun _node _same => rfl
  have waiting : Reaches vendor host call state .awaitAnswer :=
    offering.advance rfl (fun _node => rfl) fun _node _same => rfl
  have answered : Reaches vendor host call state (.begin 0) :=
    waiting.advance rfl (fun _node => rfl) fun _node _same => rfl
  exact answered.advance rfl (fun _node => rfl) fun _node _same => rfl

theorem all_wait (vendor : Vendor) (host : Host) (call : SendCall)
    (files : Bytes → Option Bytes) (count : Nat) :
    ∃ events, ((NodeState.initial files).run vendor host events).sends.length = count ∧
      ((NodeState.initial files).run vendor host events).node.activeCount = 0 ∧
      ∀ program ∈ ((NodeState.initial files).run vendor host events).sends,
        call.At vendor (.enter 0) program := by
  induction count with
  | zero => exact ⟨[], rfl, rfl, fun _program impossible => by cases impossible⟩
  | succ count ih =>
      obtain ⟨earlier, length, active, waiting⟩ := ih
      have free : ((NodeState.initial files).run vendor host earlier).node.activeCount <
          shrMaxConcurrent := by
        rw [active]
        decide
      obtain ⟨later, ⟨program, sends, follows⟩, same⟩ := @launch_waits vendor host call _ free
      refine ⟨earlier ++ later, ?_⟩
      rw [NodeState.run_append, sends, same]
      refine ⟨by rw [List.length_append, length]; rfl, active, ?_⟩
      intro other member
      rcases List.mem_append.mp member with before | last
      · exact waiting other before
      · rw [List.mem_singleton.mp last]
        exact follows

theorem all_enter {state : NodeState} (waiting : ∀ program ∈ state.sends,
      call.At vendor (.enter 0) program) {count : Nat} (enough : count ≤ state.sends.length) :
    ∃ events, (state.run vendor host events).node.activeCount =
        state.node.activeCount + count ∧
      (state.run vendor host events).sends.drop count = state.sends.drop count := by
  induction count with
  | zero => exact ⟨[], (Int.add_zero _).symm, rfl⟩
  | succ count ih =>
      obtain ⟨earlier, active, rest⟩ := ih (Nat.le_of_succ_le enough)
      have same : (state.run vendor host earlier).sends[count]? = state.sends[count]? := by
        have heads := congrArg List.head? rest
        rwa [List.head?_drop, List.head?_drop] at heads
      have present : (state.run vendor host earlier).sends[count]? = some state.sends[count] := by
        rw [same, List.getElem?_eq_getElem]
      obtain ⟨later, _follows, step⟩ := @advance_at vendor host call _ _ _ _ _ _ present
        (waiting _ (List.getElem_mem enough)) rfl accepting
      refine ⟨earlier ++ [.advance count accepting], ?_⟩
      rw [NodeState.run_snoc, step]
      constructor
      · change (state.run vendor host earlier).node.activeCount + 1 = _
        rw [active]
        omega
      · have restTail := congrArg (List.drop 1) rest
        rw [List.drop_drop, List.drop_drop] at restTail
        rw [List.drop_set_of_lt (Nat.lt_succ_self count)]
        exact restTail

end Waiting

namespace Reference

def emptyCall : SendCall :=
  { inputs := sendInputs [] fun _index => 0
    absPath := sentPath
    peer := peer
    contents := []
    sendable := sendInputs_sendable [] fun _index => 0
    readable := rfl }

/-- Six calls pass the test one after the other, and then all six come in. -/
theorem six_calls_at_once :
    ¬∀ (vendor : Vendor) (host : Host) (files : Bytes → Option Bytes) (events : List NodeEvent),
      EventRun.Always (Slots.step vendor host) Slots.Sound (.initial files) events := by
  intro always
  obtain ⟨passing, length, active, waiting⟩ :=
    all_wait vendor host emptyCall (fun _path => none) 6
  obtain ⟨entering, entered, _rest⟩ :=
    @all_enter vendor host emptyCall _ waiting 6 (Nat.le_of_eq length.symm)
  have sound := (always vendor host (fun _path => none) (passing ++ entering)).last
  have counted := sound.counted
  have limited := sound.limited
  rw [counted, slots_run_state, NodeState.run_append] at limited
  change ((NodeState.run vendor host _ entering).node.activeCount : Int) ≤ 5 at limited
  rw [show (Slots.initial fun _path => none).state = NodeState.initial fun _path => none from rfl,
    entered, active] at limited
  omega

end Reference

end Shr
