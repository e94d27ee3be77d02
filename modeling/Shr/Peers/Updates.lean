/-
Updates of a peer while calls write rows back.

Between reading a row and writing it back a call may wait for the network.  What
it writes is the address it has read, so an update survives as long as no call
writes back a row that has changed since.
-/

import Shr.Peers.WriteBack
import Shr.Reference

namespace Shr
namespace Peers

/-! ### What a background call writes -/

structure Precedes (earlier later : PeerInfo) : Prop where
  ip : earlier.ip = later.ip
  port : earlier.port = later.port
  lastSeen : earlier.lastSeen ≤ later.lastSeen

theorem Precedes.trans {first second third : PeerInfo} (front : Precedes first second)
    (back : Precedes second third) : Precedes first third where
  ip := front.ip.trans back.ip
  port := front.port.trans back.port
  lastSeen := Int64.le_trans front.lastSeen back.lastSeen

/-- The clock is not behind the times that a call has read. -/
def Op.OnTime (held : List PeerInfo) : (op : Op) → op.Reply → Prop
  | .now, time => ∀ read ∈ held, read.lastSeen ≤ (time : Int64)
  | _, _ => True

def updateContract : Contract signature (List PeerInfo) :=
  { allowed := fun held op => ∀ peer, op = .upsertPeer peer →
      ∃ read ∈ held, read.id = peer.id ∧ Precedes read peer
    possible := fun held op reply => op.OnTime held reply
    learned := fun held op reply => op.learned held reply }

theorem updateContract_writeBack : WriteBack updateContract where
  tracks := fun _held _op _reply => rfl
  others := fun _held _op query peer same => absurd same (query peer)
  seen := by
    intro held peer seen member onTime written same
    cases same
    exact ⟨peer, member, rfl, rfl, rfl, onTime peer member⟩
  unseen := by
    intro held peer member written same
    cases same
    exact ⟨peer, member, rfl, rfl, rfl, Int64.le_refl _⟩

/-! ### Careful runs -/

/-- The table still has a peer with the address that was read, and has not seen
it later. -/
def Stands (table : PeerTable) (read : PeerInfo) : Prop :=
  ∃ current, table.getPeer read.id = some current ∧ Precedes current read

def State.asks (state : State) (index : Nat) : Option (Op × List PeerInfo) :=
  match state.calls[index]? with
  | some { program := .call op _, held } => some (op, held)
  | _ => none

/-- A call writes a peer back only if what it has read still stands, and the
clock is not behind; an address is given without a NUL. -/
def Event.Careful (state : State) : Event → Prop
  | .addPeer _ _ ip _ => NulFree ip
  | .advance index answer =>
      (∀ peer held, state.asks index = some (.upsertPeer peer, held) → answer.ok = true →
        ∀ read ∈ held, read.id = peer.id → Stands state.table read) ∧
      ∀ held, state.asks index = some (.now, held) →
        ∀ read ∈ held, read.lastSeen ≤ answer.now
  | _ => True

theorem Event.careful_of_asks {state : State} {index : Nat} {answer : Answer} (op : Op)
    (held : List PeerInfo) (asks : state.asks index = some (op, held))
    (stands : ∀ peer, op = .upsertPeer peer → ∀ read ∈ held, Stands state.table read)
    (onTime : op = .now → ∀ read ∈ held, read.lastSeen ≤ answer.now) :
    (Event.advance index answer).Careful state := by
  constructor
  · intro peer other same _ok read member _id
    rw [asks] at same
    cases same
    exact stands peer rfl read member
  · intro other same
    rw [asks] at same
    cases same
    exact onTime rfl

def Event.Background : Event → Prop
  | .launch request => request.Background
  | _ => True

def Event.Touches (id : Bytes) : Event → Prop
  | .addPeer stores added _ _ =>
      stores = true ∧ isValidUuid added = true ∧ bindText added = bindText id
  | .removePeer stores removed => stores = true ∧ bindText removed = bindText id
  | _ => False

section Runs

variable {vendor : Vendor} {ownId : Bytes} {listenPort : UInt16}

theorem State.advance_table {state : State} (meet : CallsMeet updateContract state.calls)
    {index : Nat} {answer : Answer} (careful : (Event.advance index answer).Careful state) :
    (state.step vendor ownId listenPort (.advance index answer)).table = state.table ∨
      ∃ written current,
        (state.step vendor ownId listenPort (.advance index answer)).table =
          state.table.upsertPeer written ∧
        state.table.getPeer written.id = some current ∧ Precedes current written := by
  rcases state.step_advance index answer with ⟨op, next, held, found, step⟩ | same
  · rw [step]
    have asks : state.asks index = some (op, held) := by
      rw [State.asks, found]
    cases op with
    | upsertPeer written =>
        simp only [Op.effect]
        cases ok : answer.ok with
        | false => exact .inl rfl
        | true =>
            right
            obtain ⟨read, member, id, written_later⟩ :=
              (meet _ (List.mem_of_getElem? found)).1 written rfl
            obtain ⟨current, present, read_later⟩ :=
              careful.1 written held asks ok read member id
            exact ⟨written, current, rfl, id ▸ present, read_later.trans written_later⟩
    | _ => exact .inl rfl
  · rw [same]
    exact .inl rfl

theorem CallsMeet.step {state : State} (meet : CallsMeet updateContract state.calls)
    (event : Event) (background : event.Background) (careful : event.Careful state) :
    CallsMeet updateContract (state.step vendor ownId listenPort event).calls := by
  cases event with
  | addPeer stores id ip port => exact meet
  | removePeer stores id => exact meet
  | launch request =>
      exact meet.launch (Request.meets updateContract_writeBack request background)
  | advance index answer =>
      rcases state.step_advance index answer with ⟨op, next, held, found, step⟩ | same
      · rw [step]
        apply meet.set updateContract_writeBack.tracks found
        have asks : state.asks index = some (op, held) := by
          rw [State.asks, found]
        cases op with
        | now => exact careful.2 held asks
        | _ => trivial
      · rw [same]
        exact meet

/-! ### Addresses and absences -/

def AddressIs (id ip : Bytes) (port : UInt16) (table : PeerTable) : Prop :=
  ∃ peer, table.getPeer id = some peer ∧ peer.ip = ip ∧ peer.port = port

theorem AddressIs.upsertPeer {id ip : Bytes} {port : UInt16} {table : PeerTable}
    (holds : AddressIs id ip port table) {written current : PeerInfo}
    (present : table.getPeer written.id = some current) (precedes : Precedes current written) :
    AddressIs id ip port (table.upsertPeer written) := by
  obtain ⟨peer, found, sameIp, samePort⟩ := holds
  by_cases same : bindText id = bindText written.id
  · rw [PeerTable.getPeer_congr table same, present] at found
    cases found
    have stored := congrArg PeerInfo.ip (PeerTable.stored_of_getPeer present)
    refine ⟨written.stored, PeerTable.getPeer_upsert_self table written same, ?_, ?_⟩
    · rw [← sameIp, ← stored]
      exact congrArg cstr precedes.ip.symm
    · exact precedes.port.symm.trans samePort
  · exact ⟨peer, (PeerTable.getPeer_upsert_of_ne table written same).trans found, sameIp,
      samePort⟩

theorem absent_upsertPeer {id : Bytes} {table : PeerTable} (absent : table.getPeer id = none)
    {written current : PeerInfo} (present : table.getPeer written.id = some current) :
    (table.upsertPeer written).getPeer id = none := by
  rw [PeerTable.getPeer_upsert_of_ne]
  · exact absent
  · intro same
    rw [PeerTable.getPeer_congr table same, present] at absent
    cases absent

/-- An event that does not touch a peer leaves what the table says under its id
alone, or refreshes a row that is there. -/
theorem State.step_untouched {state : State} (meet : CallsMeet updateContract state.calls)
    {event : Event} (careful : event.Careful state) {id : Bytes} (untouched : ¬event.Touches id) :
    (state.step vendor ownId listenPort event).table.getPeer id = state.table.getPeer id ∨
      ∃ written current,
        (state.step vendor ownId listenPort event).table = state.table.upsertPeer written ∧
        state.table.getPeer written.id = some current ∧ Precedes current written := by
  cases event with
  | addPeer stores added ip port =>
      left
      simp only [State.step, addPeer]
      split
      next => rfl
      next valid =>
          cases stores with
          | false => rfl
          | true =>
              apply PeerTable.getPeer_upsert_of_ne
              intro same
              rw [Bool.not_eq_false] at valid
              exact untouched ⟨rfl, valid, same.symm⟩
  | removePeer stores removed =>
      left
      cases stores with
      | false => rfl
      | true =>
          apply PeerTable.getPeer_delete_of_ne
          intro same
          exact untouched ⟨rfl, same.symm⟩
  | launch request => exact .inl rfl
  | advance index answer =>
      rcases State.advance_table meet careful with same | refreshed
      · exact .inl (congrArg (fun table => PeerTable.getPeer table id) same)
      · exact .inr refreshed

theorem State.kept_untouched {id : Bytes} (holds : PeerTable → Prop)
    (depends : ∀ {table other : PeerTable}, other.getPeer id = table.getPeer id →
      holds table → holds other)
    (refreshed : ∀ {table : PeerTable} {written current : PeerInfo}, holds table →
      table.getPeer written.id = some current → Precedes current written →
      holds (table.upsertPeer written))
    {state : State} {events : List Event} (meet : CallsMeet updateContract state.calls)
    (background : ∀ event ∈ events, event.Background)
    (untouched : ∀ event ∈ events, ¬event.Touches id)
    (careful : EventRun.Along (State.step vendor ownId listenPort)
      (fun state event => event.Careful state) state events)
    (here : holds state.table) :
    holds (EventRun.run (State.step vendor ownId listenPort) state events).table := by
  let invariant : State → Prop := fun state =>
    CallsMeet updateContract state.calls ∧ holds state.table
  have kept : invariant (EventRun.run (State.step vendor ownId listenPort) state events) := by
    refine ((careful.and_mem background).and_mem untouched).invariant ?_ ⟨meet, here⟩
    rintro state event ⟨meet, here⟩ ⟨untouched, background, careful⟩
    refine ⟨meet.step event background careful, ?_⟩
    rcases State.step_untouched meet careful untouched with same |
      ⟨written, current, table, present, precedes⟩
    · exact depends same here
    · rw [table]
      exact refreshed here present precedes
  exact kept.2

def TimesKept (before after : PeerTable) : Prop :=
  ∀ id peer, before.getPeer id = some peer →
    ∃ later, after.getPeer id = some later ∧ peer.lastSeen ≤ later.lastSeen

theorem timesKept_upsertPeer {table : PeerTable} {written current : PeerInfo}
    (present : table.getPeer written.id = some current) (precedes : Precedes current written) :
    TimesKept table (table.upsertPeer written) := by
  intro id peer found
  by_cases same : bindText id = bindText written.id
  · rw [PeerTable.getPeer_congr table same, present] at found
    cases found
    exact ⟨written.stored, PeerTable.getPeer_upsert_self table written same, precedes.lastSeen⟩
  · exact ⟨peer, (PeerTable.getPeer_upsert_of_ne table written same).trans found,
      Int64.le_refl _⟩

theorem State.advance_timesKept {state : State} (meet : CallsMeet updateContract state.calls)
    {index : Nat} {answer : Answer} (careful : (Event.advance index answer).Careful state) :
    TimesKept state.table
      (state.step vendor ownId listenPort (.advance index answer)).table := by
  rcases State.advance_table meet careful with same | ⟨written, current, table, present, precedes⟩
  · rw [same]
    exact fun id peer found => ⟨peer, found, Int64.le_refl _⟩
  · rw [table]
    exact timesKept_upsertPeer present precedes

/-! ### Whole runs -/

section WholeRuns

variable (vendor ownId listenPort)

/-- The table after a run that starts with no call under way. -/
def tableAfter (table : PeerTable) (events : List Event) : PeerTable :=
  (EventRun.run (State.step vendor ownId listenPort) (State.initial table) events).table

def AdditionsLast (table : PeerTable) (events : List Event) : Prop :=
  ∀ front id ip port back, events = front ++ .addPeer true id ip port :: back →
    isValidUuid id = true → (∀ event ∈ back, ¬event.Touches id) →
      AddressIs id ip port (tableAfter vendor ownId listenPort table events)

def RemovalsLast (table : PeerTable) (events : List Event) : Prop :=
  ∀ front id back, events = front ++ .removePeer true id :: back →
    (∀ event ∈ back, ¬event.Touches id) →
      (tableAfter vendor ownId listenPort table events).getPeer id = none

/-- No step of a call replaces a time by an older one. -/
def TimesNeverOlder (table : PeerTable) (events : List Event) : Prop :=
  ∀ front index answer back, events = front ++ .advance index answer :: back →
    TimesKept (tableAfter vendor ownId listenPort table front)
      (tableAfter vendor ownId listenPort table (front ++ [.advance index answer]))

end WholeRuns

theorem meet_front {table : PeerTable} {front back : List Event}
    (background : ∀ event ∈ front ++ back, event.Background)
    (careful : EventRun.Along (State.step vendor ownId listenPort)
      (fun state event => event.Careful state) (State.initial table) (front ++ back)) :
    CallsMeet updateContract
        (EventRun.run (State.step vendor ownId listenPort) (State.initial table) front).calls ∧
      EventRun.Along (State.step vendor ownId listenPort)
        (fun state event => event.Careful state)
        (EventRun.run (State.step vendor ownId listenPort) (State.initial table) front) back := by
  obtain ⟨first, second⟩ := (EventRun.along_append _ _ front back).mp careful
  have frontBackground : ∀ event ∈ front, event.Background :=
    fun event member => background event (List.mem_append_left back member)
  let meets : State → Prop := fun state => CallsMeet updateContract state.calls
  have kept : meets (EventRun.run (State.step vendor ownId listenPort) (State.initial table)
      front) := by
    refine (first.and_mem frontBackground).invariant ?_ ?_
    · intro state event meet condition
      exact meet.step event condition.1 condition.2
    · intro call impossible
      cases impossible
  exact ⟨kept, second⟩

theorem tableAfter_append (table : PeerTable) (front : List Event) (event : Event)
    (back : List Event) :
    tableAfter vendor ownId listenPort table (front ++ event :: back) =
      (EventRun.run (State.step vendor ownId listenPort)
        ((EventRun.run (State.step vendor ownId listenPort) (State.initial table) front).step
          vendor ownId listenPort event) back).table := by
  rw [tableAfter, EventRun.run_append, EventRun.run_cons]

/-- What an event brings about, and is kept when rows are refreshed, holds at the
end if the peer is not touched any more. -/
theorem tableAfter_kept {id : Bytes} (holds : PeerTable → Prop)
    (depends : ∀ {table other : PeerTable}, other.getPeer id = table.getPeer id →
      holds table → holds other)
    (refreshed : ∀ {table : PeerTable} {written current : PeerInfo}, holds table →
      table.getPeer written.id = some current → Precedes current written →
      holds (table.upsertPeer written))
    {table : PeerTable} {front back : List Event} {middle : Event}
    (background : ∀ event ∈ front ++ middle :: back, event.Background)
    (careful : EventRun.Along (State.step vendor ownId listenPort)
      (fun state event => event.Careful state) (State.initial table) (front ++ middle :: back))
    (untouched : ∀ event ∈ back, ¬event.Touches id)
    (here : ∀ state : State, middle.Careful state →
      holds (state.step vendor ownId listenPort middle).table) :
    holds (tableAfter vendor ownId listenPort table (front ++ middle :: back)) := by
  obtain ⟨meet, given, rest⟩ := meet_front background careful
  have now : middle.Background :=
    background middle (List.mem_append_right front List.mem_cons_self)
  have later : ∀ event ∈ back, event.Background := fun event member =>
    background event (List.mem_append_right front (List.mem_cons_of_mem _ member))
  rw [tableAfter_append]
  exact State.kept_untouched holds depends refreshed (meet.step middle now given) later untouched
    rest (here _ given)

/-- In every run in which calls only write back rows that still stand, and the
clock is never behind, additions and removals are not undone, and no call
replaces a time by an older one. -/
theorem no_update_lost (vendor : Vendor) (ownId : Bytes) (listenPort : UInt16)
    (table : PeerTable) (events : List Event)
    (background : ∀ event ∈ events, event.Background)
    (careful : EventRun.Along (State.step vendor ownId listenPort)
      (fun state event => event.Careful state) (State.initial table) events) :
    AdditionsLast vendor ownId listenPort table events ∧
      RemovalsLast vendor ownId listenPort table events ∧
      TimesNeverOlder vendor ownId listenPort table events := by
  refine ⟨?_, ?_, ?_⟩
  · rintro front id ip port back rfl valid untouched
    refine tableAfter_kept (AddressIs id ip port) ?_ ?_ background careful untouched ?_
    · rintro table other same ⟨peer, found, address⟩
      exact ⟨peer, same.trans found, address⟩
    · intro table written current holds present precedes
      exact holds.upsertPeer present precedes
    · intro state text
      simp only [State.step, addPeer, valid]
      exact ⟨_, PeerTable.getPeer_upsert_self _ _ rfl, cstr_of_nulFree text, rfl⟩
  · rintro front id back rfl untouched
    refine tableAfter_kept (fun table => table.getPeer id = none) ?_ ?_ background careful
      untouched ?_
    · intro table other same absent
      exact same.trans absent
    · intro table written current absent present _precedes
      exact absent_upsertPeer absent present
    · intro state _careful
      exact PeerTable.getPeer_delete_self _ rfl
  · rintro front index answer back rfl
    obtain ⟨meet, given, _rest⟩ := meet_front background careful
    rw [tableAfter_append]
    exact @State.advance_timesKept vendor ownId listenPort _ meet index answer given

end Runs

/-! ### An addition while a peer is pinged -/

namespace Reference

def peerId : Bytes :=
  ascii "b9f3a1c2-d4e5-6f78-90ab-cdef12345678"

def oldIp : Bytes :=
  ascii "192.168.1.42"

def newIp : Bytes :=
  ascii "10.8.0.3"

def added : PeerInfo :=
  { id := peerId
    ip := oldIp
    port := 60000
    online := false
    lastSeen := 0
    «alias» := [] }

def oldTable : PeerTable :=
  PeerTable.empty.upsertPeer added

def ok : Answer :=
  { ok := true
    now := 5 }

def failed : Answer :=
  { ok := false
    now := 5 }

theorem peerId_valid : isValidUuid peerId = true := by
  decide

theorem oldTable_peer : oldTable.getPeer peerId = some added :=
  PeerTable.getPeer_upsert_self PeerTable.empty added rfl

def pinging : State :=
  { table := oldTable
    calls :=
      [{ program := do
           let _ok ← probe Shr.Reference.vendor Shr.Reference.ownId added
           return ()
         held := [added] }] }

theorem step_getPeer {table : PeerTable} {id : Bytes} {peer : PeerInfo}
    (found : table.getPeer id = some peer) (next : Option PeerInfo → PeerProgram Unit)
    (answer : Answer) :
    ({ table := table
       calls := [{ program := .call (.getPeer id) next, held := [] }] } : State).step
        Shr.Reference.vendor Shr.Reference.ownId 60000 (.advance 0 answer) =
      { table := table
        calls := [{ program := next (some peer), held := [peer] }] } := by
  simp only [State.step, List.getElem?_cons_zero, Op.effect, found]
  rfl

theorem pinging_eq :
    EventRun.run (State.step Shr.Reference.vendor Shr.Reference.ownId 60000)
        (State.initial oldTable) [.launch (.pingPeer peerId), .advance 0 ok] = pinging := by
  rw [EventRun.run_cons, EventRun.run_cons, EventRun.run_nil]
  exact step_getPeer oldTable_peer _ ok

theorem onTime_pinging : ∀ read ∈ [added], read.lastSeen ≤ ok.now := by
  intro read member
  rw [List.mem_singleton.mp member]
  decide

theorem stands_oldTable : ∀ read ∈ [added], Stands oldTable read := by
  intro read member
  rw [List.mem_singleton.mp member]
  exact ⟨added, oldTable_peer, rfl, rfl, Int64.le_refl _⟩

/-- The ping is over before the peer is added again. -/
def pingThenAdd : List Event :=
  [ .advance 0 ok, .advance 0 ok, .advance 0 ok, .advance 0 ok,
    .addPeer true peerId newIp 60001 ]

theorem addition_after_ping :
    AdditionsLast Shr.Reference.vendor Shr.Reference.ownId 60000 oldTable
        ([.launch (.pingPeer peerId), .advance 0 ok] ++ pingThenAdd) ∧
      RemovalsLast Shr.Reference.vendor Shr.Reference.ownId 60000 oldTable
        ([.launch (.pingPeer peerId), .advance 0 ok] ++ pingThenAdd) ∧
      TimesNeverOlder Shr.Reference.vendor Shr.Reference.ownId 60000 oldTable
        ([.launch (.pingPeer peerId), .advance 0 ok] ++ pingThenAdd) := by
  apply no_update_lost Shr.Reference.vendor Shr.Reference.ownId 60000 oldTable
  · simp [pingThenAdd, Event.Background, Request.Background]
  · rw [EventRun.along_append, pinging_eq]
    constructor
    · refine ⟨trivial, ?_, trivial⟩
      exact Event.careful_of_asks (.getPeer peerId) [] rfl
        (fun peer impossible => by cases impossible) (fun impossible => by cases impossible)
    · have text : NulFree newIp := by decide
      refine ⟨?_, ?_, ?_, ?_, text, trivial⟩
      · exact Event.careful_of_asks .now [added] rfl
          (fun peer impossible => by cases impossible) (fun _now => onTime_pinging)
      · exact Event.careful_of_asks (.sendPacket oldIp 60000 _) [added] rfl
          (fun peer impossible => by cases impossible) (fun impossible => by cases impossible)
      · exact Event.careful_of_asks .now [added] rfl
          (fun peer impossible => by cases impossible) (fun _now => onTime_pinging)
      · exact Event.careful_of_asks (.upsertPeer _) [added] rfl
          (fun _peer _same => stands_oldTable) (fun impossible => by cases impossible)

/-- The peer is added again while the ping waits for the network: the row that the
ping writes back has the old address. -/
theorem addition_during_ping_lost :
    ¬∀ (vendor : Vendor) (ownId : Bytes) (listenPort : UInt16) (table : PeerTable)
      (events : List Event), (∀ event ∈ events, event.Background) →
      (EventRun.run (State.step vendor ownId listenPort) (State.initial table) events).Finished →
      AdditionsLast vendor ownId listenPort table events ∧
        RemovalsLast vendor ownId listenPort table events ∧
        TimesNeverOlder vendor ownId listenPort table events := by
  intro always
  have ended : EventRun.run (State.step Shr.Reference.vendor Shr.Reference.ownId 60000)
      (State.initial oldTable)
      [ .launch (.pingPeer peerId), .advance 0 ok, .addPeer true peerId newIp 60001,
        .advance 0 ok, .advance 0 failed, .advance 0 ok ] =
      { table := (addPeer true peerId newIp 60001 oldTable).2.upsertPeer
          { added with online := false }
        calls := [{ program := .done (), held := [added] }] } := by
    have front := @EventRun.run_append _ _
      (State.step Shr.Reference.vendor Shr.Reference.ownId 60000)
      (State.initial oldTable) [.launch (.pingPeer peerId), .advance 0 ok]
      [ .addPeer true peerId newIp 60001, .advance 0 ok, .advance 0 failed, .advance 0 ok ]
    rw [pinging_eq] at front
    exact front
  have additions := (always Shr.Reference.vendor Shr.Reference.ownId 60000 oldTable
    [ .launch (.pingPeer peerId), .advance 0 ok, .addPeer true peerId newIp 60001,
      .advance 0 ok, .advance 0 failed, .advance 0 ok ]
    (by simp [Event.Background, Request.Background])
    (by simp [ended, State.Finished])).1
  obtain ⟨peer, found, ip, _port⟩ := additions [.launch (.pingPeer peerId), .advance 0 ok]
    peerId newIp 60001 [.advance 0 ok, .advance 0 failed, .advance 0 ok] rfl peerId_valid
    (by simp [Event.Touches])
  have stale : ((addPeer true peerId newIp 60001 oldTable).2.upsertPeer
      { added with online := false }).getPeer peerId =
        some { added with online := false }.stored :=
    PeerTable.getPeer_upsert_self _ _ rfl
  rw [tableAfter, ended, stale] at found
  cases found
  exact absurd ip (by decide)

end Reference

end Peers
end Shr
