/-
Connections inside a network.

A machine that serves a connection runs its registered handlers on what it can
read from the bytes that arrive.  When these are bytes of packets that a call has
sent, it does what the events of the network allow: it handles packets of the
call, in the order in which they were sent.
-/

import Shr.Fleet.Runs
import Shr.Network.Wire

namespace Shr
namespace Fleet

open Transmission (Source Sink)

/-! ### The handlers of a machine -/

/-- A machine that serves a connection, and what the world decides in each of the
handler calls. -/
structure Serving (ι : Type) where
  machine : Machine ι
  draws : Nat → Arrival × Messaging.Arrival
  handled : Nat

/-- The types for which `setup_network_handlers` registers a handler. -/
def Registers : PacketType → Bool
  | .fileOffer => true
  | .fileChunk => true
  | .fileComplete => true
  | .fileAccept => true
  | .fileResume => true
  | .msgSend => true
  | .peerDiscover => true
  | .peerAnnounce => true
  | .ping => true
  | .pong => true
  | _ => false

section Serving

variable {ι : Type} (vendor : Vendor) (site : Site) (caller : Caller ι)

def Serving.happening (serving : Serving ι) (packet : Packet) : Happening ι :=
  .handle caller packet (serving.draws serving.handled).1 (serving.draws serving.handled).2

def Serving.handle (packet : RawPacket) (serving : Serving ι) : Serving ι :=
  { serving with
    machine := serving.machine.step vendor site (serving.happening caller packet.toPacket)
    handled := serving.handled + 1 }

def setupNetworkHandlers : Handlers (Serving ι) := fun type =>
  if Registers type then some (Serving.handle vendor site caller) else none

theorem handledPackets_setup (peerIp : Bytes) (packets : List Packet) :
    handledPackets (setupNetworkHandlers vendor site caller) peerIp packets =
      (packets.filter fun packet => Registers packet.type).map (Packet.received peerIp) := by
  have same (packet : Packet) :
      (setupNetworkHandlers vendor site caller packet.type).isSome = Registers packet.type := by
    unfold setupNetworkHandlers
    cases Registers packet.type <;> rfl
  unfold handledPackets
  simp only [same]

end Serving

/-! ### Two packets -/

namespace Reference

def pings : List Packet :=
  [{ type := .ping, payload := [1] }, { type := .ping, payload := [2] }]

theorem pings_wired : ∀ packet ∈ pings, packet.Wired := by
  intro packet member
  simp only [pings, List.mem_cons, List.not_mem_nil, or_false] at member
  rcases member with rfl | rfl
  · exact ⟨rfl, by decide⟩
  · exact ⟨rfl, by decide⟩

/-- A connection that takes one byte at a time, and breaks after 60 of them. -/
def brittleConn : Sink UInt8 :=
  { accepted := []
    outcomes := fun call => if call < 60 then some 1 else none
    calls := 0 }

theorem brittleConn_staysBroken : brittleConn.StaysBroken := by
  intro call later after fails
  simp only [brittleConn] at fails ⊢
  split at fails
  · cases fails
  · rw [if_neg (by omega)]

def brittleSource : Source UInt8 :=
  { incoming :=
      (Network.sendPackets (fun _key _length _data => zeroTag) pings brittleConn).accepted
    wishes := fun _call => 1
    calls := 0 }

def pinged : State Bool :=
  { State.initial disks with
    traffic :=
      [ .dialled (.peers false 0) added.ip added.port,
        .sent (.peers false 0) { type := .ping, payload := [1] },
        .sent (.peers false 0) { type := .ping, payload := [2] } ] }

theorem pings_arrive : ∀ packet ∈ pings, pinged.Arrives world true (.peers false 0) packet := by
  intro packet member
  refine ⟨?_, added.ip, added.port, List.mem_cons_self, by decide⟩
  simp only [pings, List.mem_cons, List.not_mem_nil, or_false] at member
  rcases member with rfl | rfl
  · exact List.mem_cons_of_mem _ List.mem_cons_self
  · exact List.mem_cons_of_mem _ (List.mem_cons_of_mem _ List.mem_cons_self)

def draws (_call : Nat) : Arrival × Messaging.Arrival :=
  (Shr.Reference.arrival,
    { random := fun _index => 0
      now := 0
      stores := true })

end Reference

/-! ### Serving is a run -/

section Runs

variable {ι : Type} [DecidableEq ι] (world : World ι)

def servingEvents (me : ι) (caller : Caller ι) (draws : Nat → Arrival × Messaging.Arrival) :
    Nat → List Packet → List (Event ι)
  | _, [] => []
  | handled, packet :: rest =>
      { machine := me
        happening := .handle caller packet (draws handled).1 (draws handled).2 } ::
          servingEvents me caller draws (handled + 1) rest

variable {world}

theorem State.Arrives.step {state : State ι} {me : ι} {caller : Caller ι} {packet : Packet}
    (arrives : state.Arrives world me caller packet) (event : Event ι) :
    (state.step world event).Arrives world me caller packet := by
  obtain ⟨sent, ip, port, dialled, listens⟩ := arrives
  exact ⟨List.mem_append_left _ sent, ip, port, List.mem_append_left _ dialled, listens⟩

theorem servingEvents_admissible {state : State ι} {me : ι} {caller : Caller ι}
    (draws : Nat → Arrival × Messaging.Arrival) (handled : Nat) {packets : List Packet}
    (arrive : ∀ packet ∈ packets, state.Arrives world me caller packet) :
    Admissible world state (servingEvents me caller draws handled packets) := by
  induction packets generalizing state handled with
  | nil => trivial
  | cons packet rest ih =>
      refine ⟨arrive packet List.mem_cons_self, ih (handled + 1) ?_⟩
      intro other member
      exact (arrive other (List.mem_cons_of_mem packet member)).step _

/-- The handlers take a machine where the events take it. -/
theorem handleAll_serving {me : ι} {caller : Caller ι} {packets : List Packet}
    (registered : ∀ packet ∈ packets, Registers packet.type = true) (peerIp : Bytes)
    {state : State ι} {serving : Serving ι} (same : state.machines me = serving.machine) :
    (handleAll (setupNetworkHandlers world.vendor (world.sites me) caller)
        (packets.map (Packet.received peerIp)) serving).machine =
      (state.run world
        (servingEvents me caller serving.draws serving.handled packets)).machines me := by
  induction packets generalizing state serving with
  | nil => exact same.symm
  | cons packet rest ih =>
      have isRegistered := registered packet List.mem_cons_self
      have handles : (Network.dispatch (setupNetworkHandlers world.vendor (world.sites me) caller)
          (packet.received peerIp) serving).2 =
            serving.handle world.vendor (world.sites me) caller (packet.received peerIp) := by
        unfold Network.dispatch setupNetworkHandlers
        have type : (packet.received peerIp).type = packet.type := rfl
        rw [type, if_pos isRegistered]
      have rest_registered (other : Packet) (member : other ∈ rest) :
          Registers other.type = true := registered other (List.mem_cons_of_mem packet member)
      rw [List.map_cons, Network.handleAll_cons, handles]
      refine ih rest_registered ?_
      rw [State.step_machine_self, same]
      rfl

/-- A machine that serves a connection with its registered handlers does what a run
of the network does that the network admits: it handles packets that the other
end has sent, a beginning of them, in their order, however the bytes were cut into
pieces and wherever they end.  The other end gets nothing through after a failed send. -/
theorem served_connections_are_runs (hmac : Hmac) (packets : List Packet)
    (wired : ∀ packet ∈ packets, packet.Wired) (conn : Sink UInt8) (unused : conn.accepted = [])
    (broken : conn.StaysBroken) (arriving : Source UInt8)
    (carried : arriving.incoming <+: (Network.sendPackets hmac packets conn).accepted)
    (world : World ι) (state : State ι) (me : ι) (caller : Caller ι)
    (arrive : ∀ packet ∈ packets, state.Arrives world me caller packet)
    (draws : Nat → Arrival × Messaging.Arrival) (peerIp : Bytes) :
    ∃ dispatched, dispatched <+: cutPackets packets ∧
      Admissible world state (servingEvents me caller draws 0
        (dispatched.filter fun packet => Registers packet.type)) ∧
      (Network.handleConn (setupNetworkHandlers world.vendor (world.sites me) caller) arriving
          peerIp
          { machine := state.machines me
            draws := draws
            handled := 0 }).2.machine =
        (state.run world (servingEvents me caller draws 0
          (dispatched.filter fun packet => Registers packet.type))).machines me := by
  obtain ⟨dispatched, beginning, served, _whole⟩ :=
    sent_dispatched hmac (setupNetworkHandlers world.vendor (world.sites me) caller) packets
      wired conn unused broken arriving carried peerIp
      { machine := state.machines me
        draws := draws
        handled := 0 }
  refine ⟨dispatched, beginning, servingEvents_admissible draws 0 ?_, ?_⟩
  · intro packet member
    have sent := (List.mem_filter.mp member).1
    exact arrive packet ((beginning.trans (cutPackets_kept packets)).subset sent)
  · rw [served]
    simp only [handledPackets_setup]
    exact handleAll_serving (fun packet member => (List.mem_filter.mp member).2) peerIp rfl

/-- What the second machine makes of the pings is a run. -/
theorem pings_are_served :
    ∃ happened, Admissible Reference.world Reference.pinged happened ∧
      (Network.handleConn (setupNetworkHandlers Reference.world.vendor
          (Reference.world.sites true) (.peers false 0)) Reference.brittleSource []
          { machine := Reference.pinged.machines true
            draws := Reference.draws
            handled := 0 }).2.machine =
        (Reference.pinged.run Reference.world happened).machines true := by
  obtain ⟨dispatched, _beginning, admissible, same⟩ :=
    served_connections_are_runs (fun _key _length _data => zeroTag) Reference.pings
      Reference.pings_wired Reference.brittleConn rfl Reference.brittleConn_staysBroken
      Reference.brittleSource List.prefix_rfl Reference.world Reference.pinged true (.peers false 0)
      Reference.pings_arrive Reference.draws []
  exact ⟨_, admissible, same⟩

end Runs

end Fleet
end Shr
