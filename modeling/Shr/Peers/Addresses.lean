/-
What packets from peers do to addresses.

A handler that writes back a row carries its address over.  `handle_discover`
builds a fresh row only where there is none; `handle_announce` builds one in any
case, without an address.
-/

import Shr.Peers.WriteBack
import Shr.Reference

namespace Shr
namespace Peers

/-! ### Peers with an address -/

/-- A peer agrees with the address its id had in `first`, if it had one. -/
def Keeps (first : PeerTable) (peer : PeerInfo) : Prop :=
  ∀ known, first.getPeer peer.id = some known → known.ip ≠ [] →
    peer.ip = known.ip ∧ peer.alias = known.alias

def AddressesKept (first table : PeerTable) : Prop :=
  ∀ id known, first.getPeer id = some known → known.ip ≠ [] →
    ∃ peer, table.getPeer id = some peer ∧ peer.ip = known.ip ∧ peer.alias = known.alias

theorem AddressesKept.keeps {first table : PeerTable} (kept : AddressesKept first table)
    {id : Bytes} {peer : PeerInfo} (found : table.getPeer id = some peer) : Keeps first peer := by
  intro known firstFound addressed
  rw [PeerTable.getPeer_congr first (PeerTable.id_of_getPeer found)] at firstFound
  obtain ⟨same, sameFound, address⟩ := kept id known firstFound addressed
  rw [found] at sameFound
  cases sameFound
  exact address

theorem AddressesKept.upsertPeer {first table : PeerTable} (kept : AddressesKept first table)
    {peer : PeerInfo} (keeps : Keeps first peer) : AddressesKept first (table.upsertPeer peer) := by
  intro id known found addressed
  by_cases same : bindText id = bindText peer.id
  · have here := PeerTable.getPeer_congr first same
    obtain ⟨ip, «alias»⟩ := keeps known (here ▸ found) addressed
    have stored := PeerTable.stored_of_getPeer found
    refine ⟨peer.stored, PeerTable.getPeer_upsert_self table peer same, ?_, ?_⟩
    · rw [← stored]
      exact congrArg cstr ip
    · rw [← stored]
      exact congrArg cstr «alias»
  · rw [PeerTable.getPeer_upsert_of_ne table peer same]
    exact kept id known found addressed

/-! ### The contract of the handlers -/

/-- No peer is found only where `first` has no address. -/
def Op.Possible (first : PeerTable) : (op : Op) → op.Reply → Prop
  | .getPeer id, found =>
      found = none → ∀ known, first.getPeer id = some known → known.ip = []
  | _, _ => True

def addressContract (first : PeerTable) : Contract signature (List PeerInfo) :=
  { allowed := fun held op => (∀ peer ∈ held, Keeps first peer) →
      ∀ peer, op = .upsertPeer peer → Keeps first peer
    possible := fun _held op reply => op.Possible first reply
    learned := fun held op reply => op.learned held reply }

section Contract

variable {vendor : Vendor} {ownId : Bytes} {listenPort : UInt16} {first : PeerTable}
variable {held : List PeerInfo}

theorem addressContract_writeBack : WriteBack (addressContract first) :=
  @guard_writeBack (Keeps first) (Op.Possible first)
    (fun _peer _seen keeps _possible => keeps) fun _peer keeps => keeps

theorem fresh_keeps {announced : Announcement}
    (unaddressed : ∀ known, first.getPeer announced.id = some known → known.ip = [])
    (seen : Int64) : Keeps first (announcedPeer announced seen) := by
  intro known found addressed
  exact absurd (unaddressed known found) addressed

theorem handleDiscover_keeps (payload : Bytes) :
    (handleDiscover vendor ownId listenPort payload).Meets (addressContract first)
      (fun _known _ended => True) held := by
  apply handleDiscover_meets addressContract_writeBack
  intro announced _accepted possible seen _clock
  exact guard_allows_fresh (fresh_keeps (possible rfl) seen)

theorem handleAnnounce_keeps {payload : Bytes}
    (harmless : ∀ announced, readAnnouncement vendor payload = some announced →
      isValidUuid announced.id = true → announced.id ≠ ownId →
      ∀ known, first.getPeer announced.id = some known → known.ip = []) :
    (handleAnnounce vendor ownId payload).Meets (addressContract first)
      (fun _known _ended => True) held := by
  apply handleAnnounce_meets addressContract_writeBack
  intro announced accepted seen _clock
  exact guard_allows_fresh
    (fresh_keeps (harmless announced accepted.read accepted.valid accepted.other) seen)

end Contract

/-! ### Runs -/

/-- What packets from peers make happen: a handler starts, or goes on. -/
def Event.Remote : Event → Prop
  | .launch (.discover _) => True
  | .launch (.announce _) => True
  | .launch (.ping _) => True
  | .launch (.pong _) => True
  | .advance _ _ => True
  | _ => False

/-- The event is no `PeerAnnounce` that is accepted and carries the id of a peer
with an address. -/
def Event.Harmless (vendor : Vendor) (ownId : Bytes) (state : State) : Event → Prop
  | .launch (.announce payload) =>
      ∀ announced, readAnnouncement vendor payload = some announced →
        isValidUuid announced.id = true → announced.id ≠ ownId →
        ∀ known, state.table.getPeer announced.id = some known → known.ip = []
  | _ => True

structure AddressInvariant (first : PeerTable) (state : State) : Prop where
  kept : AddressesKept first state.table
  held : ∀ call ∈ state.calls, ∀ peer ∈ call.held, Keeps first peer
  meet : CallsMeet (addressContract first) state.calls

section Runs

variable {vendor : Vendor} {ownId : Bytes} {listenPort : UInt16} {first : PeerTable}

theorem AddressInvariant.initial : AddressInvariant first (State.initial first) where
  kept := fun _id known found _addressed => ⟨known, found, rfl, rfl⟩
  held := fun _call impossible => by cases impossible
  meet := fun _call impossible => by cases impossible

theorem AddressesKept.possible {table : PeerTable} (kept : AddressesKept first table)
    (answer : Answer) (op : Op) : op.Possible first (op.effect answer table).1 := by
  cases op with
  | getPeer id =>
      intro absent known found
      by_contra addressed
      obtain ⟨peer, present, _address⟩ := kept id known found addressed
      rw [show table.getPeer id = none from absent] at present
      cases present
  | _ => trivial

theorem AddressInvariant.guarded {state : State} (holds : AddressInvariant first state) :
    Guarded (Keeps first) (Op.Possible first) state.calls :=
  ⟨holds.held, holds.meet⟩

theorem AddressInvariant.launch {state : State} (holds : AddressInvariant first state)
    {request : Request} (harmless : (Event.launch request).Harmless vendor ownId state) :
    AddressInvariant first (state.step vendor ownId listenPort (.launch request)) := by
  have meets : (request.program vendor ownId listenPort).Meets (addressContract first)
      (fun _held _result => True) [] := by
    cases request with
    | discover payload => exact handleDiscover_keeps payload
    | announce payload =>
        apply handleAnnounce_keeps
        intro announced read valid other known found
        by_contra addressed
        obtain ⟨peer, present, ip, _alias⟩ := holds.kept announced.id known found addressed
        exact addressed (ip ▸ harmless announced read valid other peer present)
    | ping payload => exact Request.meets addressContract_writeBack (.ping payload) trivial
    | pong payload => exact Request.meets addressContract_writeBack (.pong payload) trivial
    | pingPeer id => exact Request.meets addressContract_writeBack (.pingPeer id) trivial
    | beaconLoop rounds =>
        exact Request.meets addressContract_writeBack (.beaconLoop rounds) trivial
  have launched := holds.guarded.launch meets
  exact ⟨holds.kept, launched.held, launched.meet⟩

theorem AddressInvariant.advance {state : State} (holds : AddressInvariant first state)
    (index : Nat) (answer : Answer) :
    AddressInvariant first (state.step vendor ownId listenPort (.advance index answer)) := by
  have reads : ∀ peer ∈ state.table.allPeers, Keeps first peer := by
    intro peer member
    exact holds.kept.keeps (PeerTable.getPeer_of_mem member)
  obtain ⟨guarded, table⟩ := holds.guarded.advance reads index answer
    (holds.kept.possible answer)
  refine ⟨?_, guarded.held, guarded.meet⟩
  rcases table with same | ⟨peer, keeps, written⟩
  · rw [same]
    exact holds.kept
  · rw [written]
    exact holds.kept.upsertPeer keeps

theorem AddressInvariant.step {state : State} (holds : AddressInvariant first state)
    {event : Event} (remote : event.Remote) (harmless : event.Harmless vendor ownId state) :
    AddressInvariant first (state.step vendor ownId listenPort event) := by
  cases event with
  | addPeer stores id ip port => exact absurd remote not_false
  | removePeer stores id => exact absurd remote not_false
  | launch request => exact holds.launch harmless
  | advance index answer => exact holds.advance index answer

/-- In every run of packets whose announcements name no peer with an address,
every peer that had an address keeps it, and its alias. -/
theorem addresses_kept (vendor : Vendor) (ownId : Bytes) (listenPort : UInt16)
    (table : PeerTable) (events : List Event) (remote : ∀ event ∈ events, event.Remote)
    (harmless : EventRun.Along (State.step vendor ownId listenPort)
      (fun state event => event.Harmless vendor ownId state) (State.initial table) events) :
    ∀ id known, table.getPeer id = some known → known.ip ≠ [] →
      ∃ peer, (EventRun.run (State.step vendor ownId listenPort) (State.initial table)
          events).table.getPeer id = some peer ∧
        peer.ip = known.ip ∧ peer.alias = known.alias := by
  have invariant : AddressInvariant table (EventRun.run (State.step vendor ownId listenPort)
      (State.initial table) events) := by
    refine (harmless.and_mem remote).invariant ?_ AddressInvariant.initial
    intro state event holds condition
    exact holds.step condition.1 condition.2
  exact invariant.kept

end Runs

/-! ### Two announcements -/

namespace Reference

def oneTable : PeerTable :=
  PeerTable.empty.upsertPeer Shr.Reference.peer

def done : Answer :=
  { ok := true
    now := 5 }

def announcePayload (announced : Announcement) : Bytes :=
  Shr.Reference.vendor.toCbor (announcementFields announced)

def stranger : Announcement :=
  { id := ascii "b9f3a1c2-d4e5-6f78-90ab-cdef12345678"
    port := 60000 }

def returning : Announcement :=
  { id := Shr.Reference.peer.id
    port := 60000 }

theorem oneTable_peer : oneTable.getPeer Shr.Reference.peer.id = some Shr.Reference.peer.stored :=
  PeerTable.getPeer_upsert_self PeerTable.empty Shr.Reference.peer rfl

theorem peer_addressed : Shr.Reference.peer.stored.ip ≠ [] := by
  decide

theorem oneTable_stranger : oneTable.getPeer stranger.id = none := by
  unfold oneTable
  rw [PeerTable.getPeer_upsert_of_ne _ _ (by decide), PeerTable.getPeer_empty]

/-- A stranger announces itself and the peer pings: the peer keeps its address. -/
theorem stranger_announced :
    ∃ peer, (EventRun.run (State.step Shr.Reference.vendor Shr.Reference.ownId 60000)
        (State.initial oneTable)
        [ .launch (.announce (announcePayload stranger)), .advance 0 done, .advance 0 done,
          .launch (.ping (Shr.Reference.vendor.toCbor (livenessFields Shr.Reference.peer.id 5))),
          .advance 1 done, .advance 1 done, .advance 1 done ]).table.getPeer
          Shr.Reference.peer.id = some peer ∧
      peer.ip = Shr.Reference.peer.stored.ip ∧ peer.alias = Shr.Reference.peer.stored.alias := by
  refine addresses_kept Shr.Reference.vendor Shr.Reference.ownId 60000 oneTable _ ?_ ?_
    Shr.Reference.peer.id _ oneTable_peer peer_addressed
  · simp [Event.Remote]
  · refine ⟨?_, trivial, trivial, trivial, trivial, trivial, trivial, trivial⟩
    intro announced read _valid _other known found
    have same : some stranger = some announced :=
      (readAnnouncement_toCbor Shr.Reference.vendor stranger).symm.trans read
    cases same
    rw [show (State.initial oneTable).table = oneTable from rfl, oneTable_stranger] at found
    cases found

theorem handleAnnounce_returning :
    handleAnnounce Shr.Reference.vendor Shr.Reference.ownId (announcePayload returning) =
      recordAnnounced returning := by
  have valid : isValidUuid returning.id = true :=
    (Shr.Reference.sendInputs_sendable [] fun _index => 0).recipient
  unfold handleAnnounce announcePayload
  rw [readAnnouncement_toCbor]
  simp only
  rw [valid, if_neg (by decide), if_neg (by decide)]

/-- A peer announces itself at time 5. -/
def announcement : List Event :=
  [.launch (.announce (announcePayload returning)), .advance 0 done, .advance 0 done]

theorem announcement_run (table : PeerTable) :
    EventRun.run (State.step Shr.Reference.vendor Shr.Reference.ownId 60000)
        (State.initial table) announcement =
      { table := table.upsertPeer (announcedPeer returning 5)
        calls := [{ program := .done (), held := [] }] } := by
  have launched : (State.initial table).step Shr.Reference.vendor Shr.Reference.ownId 60000
      (.launch (.announce (announcePayload returning))) =
        { table := table
          calls := [{ program := recordAnnounced returning, held := [] }] } := by
    simp only [State.step, Request.program, handleAnnounce_returning]
    rfl
  rw [announcement, EventRun.run_cons, launched]
  rfl

/-- A peer with an address announces itself and loses its address. -/
theorem announcement_erases_address :
    ¬∀ (vendor : Vendor) (ownId : Bytes) (listenPort : UInt16) (table : PeerTable)
      (events : List Event), (∀ event ∈ events, event.Remote) →
      (EventRun.run (State.step vendor ownId listenPort) (State.initial table) events).Finished →
      ∀ id known, table.getPeer id = some known → known.ip ≠ [] →
        ∃ peer, (EventRun.run (State.step vendor ownId listenPort) (State.initial table)
            events).table.getPeer id = some peer ∧
          peer.ip = known.ip ∧ peer.alias = known.alias := by
  intro always
  obtain ⟨peer, found, ip, _alias⟩ := always Shr.Reference.vendor Shr.Reference.ownId 60000
    oneTable announcement (by simp [announcement, Event.Remote])
    (by simp [announcement_run, State.Finished]) Shr.Reference.peer.id _ oneTable_peer
    peer_addressed
  have erased : (oneTable.upsertPeer (announcedPeer returning 5)).getPeer
      Shr.Reference.peer.id = some (announcedPeer returning 5).stored :=
    PeerTable.getPeer_upsert_self _ _ rfl
  rw [announcement_run, erased] at found
  cases found
  exact peer_addressed ip.symm

end Reference

end Peers
end Shr
