/-
The rows of the peers table.

Every id in the table has passed `is_valid_uuid`, and a peer that is marked
online has been seen.  The property is one of the rows that calls hold as well:
a call may write back a row that has been replaced or deleted meanwhile.
-/

import Shr.Peers.Addresses

namespace Shr
namespace Peers

/-! ### Properties of rows -/

/-- A property that every operation gives the rows it writes, if the rows it has
read have it. -/
structure RowProperty (vendor : Vendor) (ownId : Bytes) (good : PeerInfo → Prop)
    (possible : (op : Op) → op.Reply → Prop) : Prop where
  stored : ∀ peer : PeerInfo, good peer → good peer.stored
  added : ∀ (id ip : Bytes) (port : UInt16), isValidUuid id = true →
    good
      { id := id
        ip := ip
        port := port
        online := false
        lastSeen := 0
        «alias» := [] }
  fresh : ∀ payload announced, Accepted vendor ownId payload announced →
    ∀ seen : Int64, possible .now seen → good (announcedPeer announced seen)
  seen : ∀ (peer : PeerInfo) (seen : Int64), good peer → possible .now seen →
    good { peer with online := true, lastSeen := seen }
  unseen : ∀ peer : PeerInfo, good peer → good { peer with online := false }

structure RowsHold (good : PeerInfo → Prop) (possible : (op : Op) → op.Reply → Prop)
    (state : State) : Prop where
  rows : ∀ peer ∈ state.table.allPeers, good peer
  guarded : Guarded good possible state.calls

def Event.Answers (possible : (op : Op) → op.Reply → Prop) : Event → Prop
  | .advance _ answer => ∀ (table : PeerTable) (op : Op), possible op (op.effect answer table).1
  | _ => True

section RowProperty

variable {vendor : Vendor} {ownId : Bytes} {listenPort : UInt16}
variable {good : PeerInfo → Prop} {possible : (op : Op) → op.Reply → Prop}

theorem RowProperty.writeBack (property : RowProperty vendor ownId good possible) :
    WriteBack (guard good possible) :=
  guard_writeBack property.seen property.unseen

theorem RowProperty.upsertPeer (property : RowProperty vendor ownId good possible)
    {table : PeerTable} (rows : ∀ peer ∈ table.allPeers, good peer) {written : PeerInfo}
    (holds : good written) : ∀ peer ∈ (table.upsertPeer written).allPeers, good peer := by
  intro peer member
  rcases PeerTable.mem_allPeers_upsert member with new | earlier
  · rw [new]
    exact property.stored written holds
  · exact rows peer earlier

theorem RowProperty.addPeer (property : RowProperty vendor ownId good possible)
    {table : PeerTable} (rows : ∀ peer ∈ table.allPeers, good peer) (stores : Bool)
    (id ip : Bytes) (port : UInt16) :
    ∀ peer ∈ (Peers.addPeer stores id ip port table).2.allPeers, good peer := by
  unfold Peers.addPeer
  split
  next => exact rows
  next valid =>
      rw [Bool.not_eq_false] at valid
      cases stores with
      | false => exact rows
      | true => exact property.upsertPeer rows (property.added id ip port valid)

theorem removePeer_rows {table : PeerTable} (rows : ∀ peer ∈ table.allPeers, good peer)
    (stores : Bool) (id : Bytes) :
    ∀ peer ∈ (removePeer stores id table).2.allPeers, good peer := by
  unfold removePeer
  cases stores with
  | false => exact rows
  | true =>
      intro peer member
      exact rows peer (PeerTable.mem_allPeers_delete member)

theorem RowsHold.initial : RowsHold good possible (State.initial PeerTable.empty) where
  rows := fun _peer impossible => by cases impossible
  guarded := .nil

theorem RowsHold.step (property : RowProperty vendor ownId good possible) {state : State}
    (holds : RowsHold good possible state) {event : Event} (answers : event.Answers possible) :
    RowsHold good possible (state.step vendor ownId listenPort event) := by
  cases event with
  | addPeer stores id ip port =>
      exact ⟨property.addPeer holds.rows stores id ip port, holds.guarded⟩
  | removePeer stores id => exact ⟨removePeer_rows holds.rows stores id, holds.guarded⟩
  | launch request =>
      exact ⟨holds.rows,
        holds.guarded.launch (request.meets_guard property.writeBack property.fresh)⟩
  | advance index answer =>
      obtain ⟨guarded, table⟩ := holds.guarded.advance holds.rows index answer
        (answers state.table)
      refine ⟨?_, guarded⟩
      rcases table with same | ⟨peer, good, written⟩
      · rw [same]
        exact holds.rows
      · rw [written]
        exact property.upsertPeer holds.rows good

theorem RowsHold.run (property : RowProperty vendor ownId good possible) {events : List Event}
    (answers : ∀ event ∈ events, event.Answers possible) :
    RowsHold good possible (EventRun.run (State.step vendor ownId listenPort)
      (State.initial PeerTable.empty) events) := by
  refine (EventRun.along_of_mem answers _).invariant ?_ RowsHold.initial
  intro state event holds condition
  exact holds.step property condition

end RowProperty

/-! ### Identifiers -/

def ValidId (peer : PeerInfo) : Prop :=
  isValidUuid peer.id = true

theorem ValidId.stored {peer : PeerInfo} (valid : ValidId peer) : ValidId peer.stored := by
  have kept : cstr peer.id = peer.id := cstr_of_nulFree (isValidUuid_nulFree valid)
  change isValidUuid (cstr peer.id) = true
  rw [kept]
  exact valid

theorem validId_property (vendor : Vendor) (ownId : Bytes) :
    RowProperty vendor ownId ValidId fun _op _reply => True where
  stored := fun _peer valid => valid.stored
  added := fun _id _ip _port valid => valid
  fresh := fun _payload _announced accepted _seen _clock => accepted.valid
  seen := fun _peer _seen valid _clock => valid
  unseen := fun _peer valid => valid

/-! ### Well-formed peers -/

structure WellFormed (peer : PeerInfo) : Prop where
  valid : ValidId peer
  seen : peer.online = true → 0 < peer.lastSeen

def Clocked : (op : Op) → op.Reply → Prop
  | .now, time => (0 : Int64) < time
  | _, _ => True

theorem wellFormed_property (vendor : Vendor) (ownId : Bytes) :
    RowProperty vendor ownId WellFormed Clocked where
  stored := fun _peer wellFormed => ⟨wellFormed.valid.stored, wellFormed.seen⟩
  added := fun _id _ip _port valid => ⟨valid, fun online => by cases online⟩
  fresh := fun _payload _announced accepted _seen clock => ⟨accepted.valid, fun _online => clock⟩
  seen := fun _peer _seen wellFormed clock => ⟨wellFormed.valid, fun _online => clock⟩
  unseen := fun _peer wellFormed => ⟨wellFormed.valid, fun online => by cases online⟩

def Event.Clocked : Event → Prop
  | .advance _ answer => 0 < answer.now
  | _ => True

theorem Event.Clocked.answers {event : Event} (clocked : event.Clocked) :
    event.Answers Peers.Clocked := by
  cases event with
  | advance index answer =>
      intro table op
      cases op with
      | now => exact clocked
      | _ => trivial
  | _ => trivial

/-- In every run from the empty table, with a clock past its origin, every row has
a valid id and every row that is online has been seen. -/
theorem peer_table_invariant (vendor : Vendor) (ownId : Bytes) (listenPort : UInt16)
    (events : List Event) (clocked : ∀ event ∈ events, event.Clocked) :
    ∀ peer ∈ (EventRun.run (State.step vendor ownId listenPort)
        (State.initial PeerTable.empty) events).table.allPeers,
      isValidUuid peer.id = true ∧ (peer.online = true → 0 < peer.lastSeen) := by
  intro peer member
  have answers : ∀ event ∈ events, event.Answers Clocked := by
    intro event present
    exact (clocked event present).answers
  have wellFormed := (RowsHold.run (wellFormed_property vendor ownId) answers).rows peer member
  exact ⟨wellFormed.valid, wellFormed.seen⟩

namespace Reference

theorem announced_invariant :
    ∃ peer ∈ (EventRun.run (State.step Shr.Reference.vendor Shr.Reference.ownId 60000)
        (State.initial PeerTable.empty) announcement).table.allPeers,
      isValidUuid peer.id = true ∧ (peer.online = true → 0 < peer.lastSeen) := by
  have member : (announcedPeer returning 5).stored ∈
      (EventRun.run (State.step Shr.Reference.vendor Shr.Reference.ownId 60000)
        (State.initial PeerTable.empty) announcement).table.allPeers := by
    rw [announcement_run]
    exact PeerTable.mem_of_getPeer (PeerTable.getPeer_upsert_self PeerTable.empty _ rfl)
  refine ⟨_, member, ?_⟩
  refine peer_table_invariant Shr.Reference.vendor Shr.Reference.ownId 60000 announcement ?_ _
    member
  simp [announcement, Event.Clocked, done]

end Reference

end Peers
end Shr
