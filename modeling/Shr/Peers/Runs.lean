/-
Runs on one peers table.

Calls of any threads and processes work on the table one request at a time, in
any order.  Next to each call stands what it has read: the peers of its last
query.  No program looks at that; conditions on runs do.
-/

import Shr.Library.Contracts
import Shr.Library.Runs
import Shr.Peers.Operations

namespace Shr
namespace Peers

/-! ### States and events -/

structure Call where
  program : PeerProgram Unit
  held : List PeerInfo

structure State where
  table : PeerTable
  calls : List Call

def State.initial (table : PeerTable) : State :=
  { table := table
    calls := [] }

def State.Finished (state : State) : Prop :=
  ∀ call ∈ state.calls, call.program = .done ()

inductive Request where
  | discover (payload : Bytes)
  | announce (payload : Bytes)
  | ping (payload : Bytes)
  | pong (payload : Bytes)
  | pingPeer (id : Bytes)
  | beaconLoop (rounds : Nat)

/-- What the world answers to one request of a call: whether it succeeds, and
the time. -/
structure Answer where
  ok : Bool
  now : Int64

inductive Event where
  | addPeer (stores : Bool) (id ip : Bytes) (port : UInt16)
  | removePeer (stores : Bool) (id : Bytes)
  | launch (request : Request)
  | advance (index : Nat) (answer : Answer)

def Op.effect (answer : Answer) (table : PeerTable) : (op : Op) → op.Reply × PeerTable
  | .getPeer id => (table.getPeer id, table)
  | .allPeers => (table.allPeers, table)
  | .upsertPeer peer => (answer.ok, if answer.ok then table.upsertPeer peer else table)
  | .now => (answer.now, table)
  | .sendPacket _ _ _ => (answer.ok, table)
  | .sendPacketConn _ => (answer.ok, table)
  | .beaconRunning => (answer.ok, table)
  | .sleep _ => ((), table)

def Op.learned (held : List PeerInfo) : (op : Op) → op.Reply → List PeerInfo
  | .getPeer _, found => Option.toList found
  | .allPeers, found => found
  | _, _ => held

/-! ### Steps -/

section Steps

variable (vendor : Vendor) (ownId : Bytes) (listenPort : UInt16)

def Request.program : Request → PeerProgram Unit
  | .discover payload => handleDiscover vendor ownId listenPort payload
  | .announce payload => handleAnnounce vendor ownId payload
  | .ping payload => handlePing vendor ownId payload
  | .pong payload => handlePong vendor payload
  | .pingPeer id => do
      let _ok ← Peers.pingPeer vendor ownId id
      return ()
  | .beaconLoop rounds => Peers.beaconLoop vendor ownId rounds

def State.step (state : State) : Event → State
  | .addPeer stores id ip port =>
      { state with table := (addPeer stores id ip port state.table).2 }
  | .removePeer stores id => { state with table := (removePeer stores id state.table).2 }
  | .launch request =>
      { state with
        calls := state.calls ++
          [{ program := request.program vendor ownId listenPort
             held := [] }] }
  | .advance index answer =>
      match state.calls[index]? with
      | some { program := .call op next, held } =>
          let (reply, table) := op.effect answer state.table
          { table := table
            calls := state.calls.set index
              { program := next reply
                held := op.learned held reply } }
      | _ => state

end Steps

section Steps

variable {vendor : Vendor} {ownId : Bytes} {listenPort : UInt16}

theorem State.step_advance (state : State) (index : Nat) (answer : Answer) :
    (∃ (op : Op) (next : op.Reply → PeerProgram Unit) (held : List PeerInfo),
      state.calls[index]? = some { program := .call op next, held := held } ∧
        state.step vendor ownId listenPort (.advance index answer) =
          { table := (op.effect answer state.table).2
            calls := state.calls.set index
              { program := next (op.effect answer state.table).1
                held := op.learned held (op.effect answer state.table).1 } }) ∨
      state.step vendor ownId listenPort (.advance index answer) = state := by
  simp only [State.step]
  cases found : state.calls[index]? with
  | none => exact .inr rfl
  | some call =>
      obtain ⟨program, held⟩ := call
      cases program with
      | done result => exact .inr rfl
      | call op next => exact .inl ⟨op, next, held, rfl, rfl⟩

/-- Only an upsert changes the table, and only when it succeeds. -/
theorem Op.effect_table (answer : Answer) (table : PeerTable) (op : Op) :
    (op.effect answer table).2 = table ∨
      ∃ peer, op = .upsertPeer peer ∧ (op.effect answer table).2 = table.upsertPeer peer := by
  cases op with
  | upsertPeer peer =>
      simp only [Op.effect]
      cases answer.ok with
      | false => exact .inl rfl
      | true => exact .inr ⟨peer, rfl, rfl⟩
  | _ => exact .inl rfl

/-! ### Contracts along runs -/

def CallsMeet (contract : Contract signature (List PeerInfo)) (calls : List Call) : Prop :=
  ∀ call ∈ calls, call.program.Meets contract (fun _held _result => True) call.held

def Tracks (contract : Contract signature (List PeerInfo)) : Prop :=
  ∀ (held : List PeerInfo) (op : Op) (reply : op.Reply),
    contract.learned held op reply = op.learned held reply

theorem CallsMeet.launch {contract : Contract signature (List PeerInfo)} {calls : List Call}
    (meet : CallsMeet contract calls) {program : PeerProgram Unit}
    (meets : program.Meets contract (fun _held _result => True) []) :
    CallsMeet contract (calls ++ [{ program := program, held := [] }]) := by
  intro call member
  rcases List.mem_append.mp member with earlier | launched
  · exact meet call earlier
  · rw [List.mem_singleton.mp launched]
    exact meets

theorem CallsMeet.set {contract : Contract signature (List PeerInfo)} {calls : List Call}
    (meet : CallsMeet contract calls) (tracks : Tracks contract) {index : Nat} {op : Op}
    {next : op.Reply → PeerProgram Unit} {held : List PeerInfo}
    (found : calls[index]? = some { program := .call op next, held := held }) {reply : op.Reply}
    (possible : contract.possible held op reply) :
    CallsMeet contract
      (calls.set index { program := next reply, held := op.learned held reply }) := by
  intro call member
  rcases List.mem_or_eq_of_mem_set member with earlier | advanced
  · exact meet call earlier
  · rw [advanced, ← tracks]
    exact (meet _ (List.mem_of_getElem? found)).2 reply possible

end Steps

/-! ### What the calls send -/

/-- A call opens no connection but for a ping, which tells who sends it. -/
def LivenessOp (vendor : Vendor) (ownId : Bytes) : Op → Prop
  | .sendPacket _ip _port packet => ∃ ts, packet = pingPacket vendor ownId ts
  | .sendPacketConn packet => packet.type = .pong ∨ packet.type = .peerAnnounce
  | _ => True

section Liveness

variable {vendor : Vendor} {ownId : Bytes} {listenPort : UInt16}

private theorem asks_of {op : Op} (permitted : LivenessOp vendor ownId op) :
    (ask op).Asks (LivenessOp vendor ownId) :=
  Program.asks_perform permitted

theorem probe_asks (peer : PeerInfo) :
    (probe vendor ownId peer).Asks (LivenessOp vendor ownId) := by
  refine Program.Asks.bind (asks_of (by trivial)) fun ts => ?_
  refine Program.Asks.bind (asks_of (by exact ⟨ts, rfl⟩)) fun alive => ?_
  cases (alive : Bool) with
  | true =>
      refine Program.Asks.bind (asks_of (by trivial)) fun seen => ?_
      exact Program.Asks.bind (asks_of (by trivial))
        fun _stored => Program.asks_done _ _
  | false =>
      exact Program.Asks.bind (asks_of (by trivial))
        fun _stored => Program.asks_done _ _

theorem beaconPass_asks (peers : List PeerInfo) :
    (beaconPass vendor ownId peers).Asks (LivenessOp vendor ownId) := by
  induction peers with
  | nil => trivial
  | cons peer rest ih =>
      unfold beaconPass
      split
      · exact ih
      · exact (probe_asks peer).bind fun _alive => ih

theorem beaconPause_asks (left : Nat) :
    (beaconPause left).Asks (LivenessOp vendor ownId) := by
  induction left with
  | zero => trivial
  | succ left ih =>
      refine Program.Asks.bind (asks_of (by trivial)) fun running => ?_
      cases (running : Bool) with
      | true => exact Program.Asks.bind (asks_of (by trivial)) fun _slept => ih
      | false => exact Program.asks_done _ _

theorem beaconLoop_asks (rounds : Nat) :
    (beaconLoop vendor ownId rounds).Asks (LivenessOp vendor ownId) := by
  induction rounds with
  | zero => trivial
  | succ rounds ih =>
      refine Program.Asks.bind (asks_of (by trivial)) fun running => ?_
      cases (running : Bool) with
      | true =>
          refine Program.Asks.bind (asks_of (by trivial)) fun peers => ?_
          refine (beaconPass_asks peers).bind fun _passed => ?_
          exact (beaconPause_asks 30).bind fun _paused => ih
      | false => exact Program.asks_done _ _

theorem pingPeer_asks (id : Bytes) :
    (pingPeer vendor ownId id).Asks (LivenessOp vendor ownId) := by
  refine Program.Asks.bind (asks_of (by trivial)) fun found => ?_
  cases (found : Option PeerInfo) with
  | none => exact Program.asks_done _ _
  | some peer => exact probe_asks peer

theorem markSeen_asks (sender : Bytes) :
    (markSeen sender).Asks (LivenessOp vendor ownId) := by
  refine Program.Asks.bind (asks_of (by trivial)) fun found => ?_
  cases (found : Option PeerInfo) with
  | none => exact Program.asks_done _ _
  | some peer =>
      refine Program.Asks.bind (asks_of (by trivial)) fun seen => ?_
      exact Program.Asks.bind (asks_of (by trivial))
        fun _stored => Program.asks_done _ _

theorem handlePing_asks (payload : Bytes) :
    (handlePing vendor ownId payload).Asks (LivenessOp vendor ownId) := by
  unfold handlePing
  split
  · exact Program.asks_done _ _
  · refine (markSeen_asks _).bind fun _marked => ?_
    refine Program.Asks.bind (asks_of (by trivial)) fun ts => ?_
    exact Program.Asks.bind (asks_of (by exact .inl rfl))
      fun _sent => Program.asks_done _ _

theorem handlePong_asks (payload : Bytes) :
    (handlePong vendor payload).Asks (LivenessOp vendor ownId) := by
  unfold handlePong
  split
  · exact Program.asks_done _ _
  · exact markSeen_asks _

theorem recordAnnounced_asks (announced : Announcement) :
    (recordAnnounced announced).Asks (LivenessOp vendor ownId) := by
  refine Program.Asks.bind (asks_of (by trivial)) fun seen => ?_
  exact Program.Asks.bind (asks_of (by trivial)) fun _stored => Program.asks_done _ _

theorem announce_asks :
    (do
      let _sent ← sendPacketConn (announcePacket vendor ownId listenPort)
      return () : PeerProgram Unit).Asks (LivenessOp vendor ownId) :=
  Program.Asks.bind (asks_of (by exact .inr rfl)) fun _sent => Program.asks_done _ _

theorem handleDiscover_asks (payload : Bytes) :
    (handleDiscover vendor ownId listenPort payload).Asks (LivenessOp vendor ownId) := by
  unfold handleDiscover
  split
  · exact Program.asks_done _ _
  split
  · exact Program.asks_done _ _
  split
  · exact Program.asks_done _ _
  refine Program.Asks.bind (asks_of (by trivial)) fun existing => ?_
  split
  · exact (recordAnnounced_asks _).bind fun _recorded => announce_asks
  · exact announce_asks

theorem handleAnnounce_asks (payload : Bytes) :
    (handleAnnounce vendor ownId payload).Asks (LivenessOp vendor ownId) := by
  unfold handleAnnounce
  split
  · exact Program.asks_done _ _
  split
  · exact Program.asks_done _ _
  split
  · exact Program.asks_done _ _
  · exact recordAnnounced_asks _

theorem Request.program_asks (request : Request) :
    (request.program vendor ownId listenPort).Asks (LivenessOp vendor ownId) := by
  cases request with
  | discover payload => exact handleDiscover_asks payload
  | announce payload => exact handleAnnounce_asks payload
  | ping payload => exact handlePing_asks payload
  | pong payload => exact handlePong_asks payload
  | pingPeer id =>
      exact (pingPeer_asks id).bind fun _ok => Program.asks_done _ _
  | beaconLoop rounds => exact beaconLoop_asks rounds

def CallsAsk (vendor : Vendor) (ownId : Bytes) (state : State) : Prop :=
  ∀ call ∈ state.calls, call.program.Asks (LivenessOp vendor ownId)

theorem CallsAsk.step {state : State} (asks : CallsAsk vendor ownId state) (event : Event) :
    CallsAsk vendor ownId (state.step vendor ownId listenPort event) := by
  cases event with
  | addPeer stores id ip port => exact asks
  | removePeer stores id => exact asks
  | launch request =>
      intro call member
      rcases List.mem_append.mp member with earlier | launched
      · exact asks call earlier
      · rw [List.mem_singleton.mp launched]
        exact Request.program_asks request
  | advance index answer =>
      rcases state.step_advance index answer with ⟨op, next, held, found, step⟩ | same
      · rw [step]
        intro call member
        rcases List.mem_or_eq_of_mem_set member with other | advanced
        · exact asks call other
        · rw [advanced]
          exact (asks _ (List.mem_of_getElem? found)).2 _
      · rw [same]
        exact asks

theorem CallsAsk.ping {state : State} (asks : CallsAsk vendor ownId state) {index : Nat}
    {ip : Bytes} {port : UInt16} {packet : Packet} {next : Bool → PeerProgram Unit}
    {held : List PeerInfo}
    (found : state.calls[index]? =
      some { program := .call (.sendPacket ip port packet) next, held := held }) :
    ∃ ts, packet = pingPacket vendor ownId ts :=
  (asks _ (List.mem_of_getElem? found)).1

end Liveness

end Peers
end Shr
