/-
One machine of a network.

A machine runs the transfers, the messages and the peers of one installation.
Each of these parts has its own state machine; here they stand side by side, as
`main.cxx` joins them: a packet that arrives goes to the part that registered a
handler for its type, and what a call does on a connection is put on record.
The inputs of the calls are kept next to them, so that a later packet can be
traced back to the call it belongs to.
-/

import Shr.Messaging.StoredOnce
import Shr.Peers.Runs
import Shr.Transfer.NodeRun

namespace Shr
namespace Fleet

/-! ### Connections -/

structure Site where
  host : Host
  ownId : Bytes
  listenPort : UInt16

/-- A call that opens connections, by its place among the calls of its machine. -/
inductive Caller (ι : Type) where
  | sendFile (machine : ι) (index : Nat)
  | sendMsg (machine : ι) (index : Nat)
  | peers (machine : ι) (index : Nat)

/-- What is done on the connections of a call: the call opens one, sends on it,
and is answered on it. -/
inductive Traffic (ι : Type) where
  | dialled (caller : Caller ι) (ip : Bytes) (port : UInt16)
  | sent (caller : Caller ι) (packet : Packet)
  | answered (caller : Caller ι) (packet : Packet)

/-! ### Machines -/

/-- `offers` and `letters` are the inputs of the calls of `send_file` and
`send_msg`; `serves` is the connection a handler call of the peers answers on. -/
structure Machine (ι : Type) where
  files : NodeState
  offers : List SendInputs
  mail : Messaging.State
  letters : List Messaging.Inputs
  peers : Peers.State
  serves : Nat → Option (Caller ι)

def Machine.initial (ι : Type) (files : Bytes → Option Bytes) : Machine ι :=
  { files := NodeState.initial files
    offers := []
    mail := Messaging.State.initial
    letters := []
    peers := Peers.State.initial PeerTable.empty
    serves := fun _index => none }

inductive Happening (ι : Type) where
  | handle (caller : Caller ι) (packet : Packet) (arrival : Arrival)
      (received : Messaging.Arrival)
  | files (event : NodeEvent)
  | mail (event : Messaging.Event)
  | peers (event : Peers.Event)

/-- The handlers of the peers, as `setup_network_handlers` registers them. -/
def peersRequest (packet : Packet) : Option Peers.Request :=
  match packet.type with
  | .peerDiscover => some (.discover packet.payload)
  | .peerAnnounce => some (.announce packet.payload)
  | .ping => some (.ping packet.payload)
  | .pong => some (.pong packet.payload)
  | _ => none

namespace Happening

variable {ι : Type}

def onFiles : Happening ι → Option NodeEvent
  | .handle _caller packet arrival _received => some (.packet arrival packet)
  | .files event => some event
  | _ => none

def onMail : Happening ι → Option Messaging.Event
  | .handle _caller packet _arrival received =>
      if packet.type = .msgSend then some (.receive received packet.payload) else none
  | .mail event => some event
  | _ => none

def onPeers : Happening ι → Option Peers.Event
  | .handle _caller packet _arrival _received => (peersRequest packet).map .launch
  | .peers event => some event
  | _ => none

def offered : Happening ι → Option SendInputs
  | .files (.launch inputs) => some inputs
  | _ => none

def written : Happening ι → Option Messaging.Inputs
  | .mail (.launch inputs) => some inputs
  | _ => none

def arrivedOn : Happening ι → Option (Caller ι)
  | .handle caller _packet _arrival _received => some caller
  | _ => none

end Happening

/-! ### Steps -/

section Steps

variable {ι : Type} (vendor : Vendor) (site : Site) (me : ι)

def Machine.step (machine : Machine ι) (happening : Happening ι) : Machine ι :=
  { files := EventRun.optionally (NodeState.step vendor site.host) machine.files happening.onFiles
    offers :=
      EventRun.optionally (fun earlier inputs => earlier ++ [inputs]) machine.offers
        happening.offered
    mail :=
      EventRun.optionally (Messaging.State.step vendor site.ownId) machine.mail happening.onMail
    letters :=
      EventRun.optionally (fun earlier inputs => earlier ++ [inputs]) machine.letters
        happening.written
    peers :=
      EventRun.optionally (Peers.State.step vendor site.ownId site.listenPort) machine.peers
        happening.onPeers
    serves := fun index =>
      if index = machine.peers.calls.length then happening.arrivedOn else machine.serves index }

def fileTraffic (caller : Caller ι) : SendProgram Bytes → List (Traffic ι)
  | .call (.connectTo ip port) _next => [.dialled caller ip port]
  | .call (.sendPacket packet) _next => [.sent caller packet]
  | _ => []

/-- `send_packet` opens a connection for one packet. -/
def mailTraffic (caller : Caller ι) : Messaging.MsgProgram Bool → List (Traffic ι)
  | .call (.sendPacket ip port packet) _next =>
      [.dialled caller ip port, .sent caller packet]
  | _ => []

def peersTraffic (caller : Caller ι) (serves : Option (Caller ι)) :
    Peers.PeerProgram Unit → List (Traffic ι)
  | .call (.sendPacket ip port packet) _next =>
      [.dialled caller ip port, .sent caller packet]
  | .call (.sendPacketConn packet) _next => serves.toList.map fun asking => .answered asking packet
  | _ => []

/-- What the handlers of the transfers and of the messages send back at once. -/
def Machine.replies (machine : Machine ι) (arrival : Arrival) (packet : Packet) : List Packet :=
  (handleTransferPacket vendor site.host arrival packet machine.files.node).replies ++
    if packet.type = .msgSend then [Messaging.ackPacket vendor] else []

/-- The traffic of one happening.  An operation that fails may have done its
work all the same, so its traffic is on record too. -/
def Machine.emits (machine : Machine ι) : Happening ι → List (Traffic ι)
  | .handle caller packet arrival _received =>
      (machine.replies vendor site arrival packet).map fun reply => .answered caller reply
  | .files (.advance index _answer) =>
      (machine.files.sends[index]?).elim [] (fileTraffic (.sendFile me index))
  | .mail (.advance index _ok) =>
      (machine.mail.calls[index]?).elim [] (mailTraffic (.sendMsg me index))
  | .peers (.advance index _answer) =>
      (machine.peers.calls[index]?).elim [] fun call =>
        peersTraffic (.peers me index) (machine.serves index) call.program
  | _ => []

end Steps

end Fleet
end Shr
