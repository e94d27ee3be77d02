/-
One call of `send_file` and the receiver it is connected to.

The two parties share nothing but a connection that delivers packets in order.
The sender is the program of the call, advanced one operation at a time; the
receiver runs its handler on one arrived packet at a time.  The connection may
be cut at any moment, which loses some end of what is under way in each
direction; a failed send cuts it, and a packet sent into a cut connection may
be taken and never arrive.  A reply may miss the sender's timeout whether it is
under way or not.  Any file or database call of the receiver's handlers may fail.
What else happens on the two machines is any change that leaves this transfer's
records and its file alone.
-/

import Shr.Library.Runs
import Shr.Transfer.Course
import Shr.Transfer.NodeRun

namespace Shr

/-! ### States and events -/

structure Link where
  sender : SendProgram Bytes
  senderNode : Node
  toReceiver : List Packet
  toSender : List Packet
  up : Bool
  /-- Every packet the sender has handed to the connection. -/
  sent : List Packet
  receiverNode : Node

inductive LinkEvent where
  | runs (now : Int64)
  | connects
  | refused
  | sends (packet : Packet)
  | loses (packet : Packet)
  | failsToSend (packet : Packet)
  | receives
  | timesOut
  | closes
  | handles (arrival : Arrival)
  | cut (outward inward : Nat)
  | senderElsewhere (node : Node)
  | receiverElsewhere (node : Node)

def LinkEvent.Sound : LinkEvent → Prop
  | .handles arrival => arrival.Sound
  | _ => True

/-- The steps of a connection that neither fails nor times out. -/
def LinkEvent.Faultless : LinkEvent → Prop
  | .runs _ => True
  | .connects => True
  | .sends _ => True
  | .receives => True
  | .closes => True
  | .handles arrival => arrival.Sound
  | _ => False

theorem LinkEvent.Faultless.sound {event : LinkEvent} (faultless : event.Faultless) :
    event.Sound := by
  cases event with
  | handles arrival => exact faultless
  | _ => trivial

def SendOp.Local : SendOp → Prop
  | .connectTo _ _ => False
  | .sendPacket _ => False
  | .readPacket => False
  | .closeConn => False
  | _ => True

/-! ### Steps -/

/-- Another activity of a machine: it leaves the record under an id and the file
at a path, and pauses no transfer. -/
structure Elsewhere (host : Host) (id path : Bytes) (before after : Node) : Prop where
  record : after.transfers.getTransfer id = before.transfers.getTransfer id
  file : after.read host path = before.read host path
  unpaused : ∀ other, pausedRecord before other = none → pausedRecord after other = none

theorem Elsewhere.refl (host : Host) (id path : Bytes) (node : Node) :
    Elsewhere host id path node node where
  record := rfl
  file := rfl
  unpaused := fun _other unpaused => unpaused

/-- `path` is where the receiver keeps the file of the transfer. -/
inductive LinkStep (vendor : Vendor) (host : Host) (call : SendCall) (path : Bytes) :
    Link → LinkEvent → Link → Prop where
  | runs {link : Link} {op : SendOp} {next : op.Reply → SendProgram Bytes} (now : Int64)
      (sender : link.sender = .call op next) (isLocal : op.Local) (answer : Answer)
      (clock : answer.now = now) :
      LinkStep vendor host call path link (.runs now)
        { link with
          sender := next (op.effect answer link.senderNode).1
          senderNode := (op.effect answer link.senderNode).2 }
  | connects {link : Link} {ip : Bytes} {port : UInt16} {next : Bool → SendProgram Bytes}
      (sender : link.sender = .call (.connectTo ip port) next) :
      LinkStep vendor host call path link .connects
        { link with
          sender := next true
          up := true }
  | refused {link : Link} {ip : Bytes} {port : UInt16} {next : Bool → SendProgram Bytes}
      (sender : link.sender = .call (.connectTo ip port) next) :
      LinkStep vendor host call path link .refused { link with sender := next false }
  | sends {link : Link} {packet : Packet} {next : Bool → SendProgram Bytes}
      (sender : link.sender = .call (.sendPacket packet) next) (up : link.up = true) :
      LinkStep vendor host call path link (.sends packet)
        { link with
          sender := next true
          toReceiver := link.toReceiver ++ [packet]
          sent := link.sent ++ [packet] }
  | loses {link : Link} {packet : Packet} {next : Bool → SendProgram Bytes}
      (sender : link.sender = .call (.sendPacket packet) next) (down : link.up = false) :
      LinkStep vendor host call path link (.loses packet)
        { link with
          sender := next true
          sent := link.sent ++ [packet] }
  | failsToSend {link : Link} {packet : Packet} {next : Bool → SendProgram Bytes}
      (sender : link.sender = .call (.sendPacket packet) next) :
      LinkStep vendor host call path link (.failsToSend packet)
        { link with
          sender := next false
          up := false
          sent := link.sent ++ [packet] }
  | receives {link : Link} {packet : Packet} {rest : List Packet}
      {next : Option Packet → SendProgram Bytes}
      (sender : link.sender = .call .readPacket next) (arrived : link.toSender = packet :: rest) :
      LinkStep vendor host call path link .receives
        { link with
          sender := next (some packet)
          toSender := rest }
  | timesOut {link : Link} {next : Option Packet → SendProgram Bytes}
      (sender : link.sender = .call .readPacket next) :
      LinkStep vendor host call path link .timesOut { link with sender := next none }
  | closes {link : Link} {next : Unit → SendProgram Bytes}
      (sender : link.sender = .call .closeConn next) :
      LinkStep vendor host call path link .closes
        { link with
          sender := next ()
          toSender := []
          up := false }
  | handles {link : Link} {packet : Packet} {rest : List Packet} (arrival : Arrival)
      (arrived : link.toReceiver = packet :: rest) {handled : Handled}
      (runs : handleTransferPacket vendor host arrival packet link.receiverNode = handled) :
      LinkStep vendor host call path link (.handles arrival)
        { link with
          toReceiver := rest
          toSender := if link.up then link.toSender ++ handled.replies else link.toSender
          receiverNode := handled.node }
  | cut {link : Link} (outward inward : Nat) :
      LinkStep vendor host call path link (.cut outward inward)
        { link with
          toReceiver := link.toReceiver.take outward
          toSender := link.toSender.take inward
          up := false }
  | senderElsewhere {link : Link} {node : Node}
      (sameRecord : node.transfers.getTransfer call.inputs.xferId =
        link.senderNode.transfers.getTransfer call.inputs.xferId) :
      LinkStep vendor host call path link (.senderElsewhere node)
        { link with senderNode := node }
  | receiverElsewhere {link : Link} {node : Node}
      (elsewhere : Elsewhere host call.inputs.xferId path link.receiverNode node) :
      LinkStep vendor host call path link (.receiverElsewhere node)
        { link with receiverNode := node }

def Link.start (vendor : Vendor) (call : SendCall) (senderNode receiverNode : Node) : Link :=
  { sender := sendFile vendor call.inputs
    senderNode := senderNode
    toReceiver := []
    toSender := []
    up := false
    sent := []
    receiverNode := receiverNode }

/-- The call has returned, and nothing is left for the receiver to handle. -/
structure Link.Finished (link : Link) : Prop where
  sender : ∃ result, link.sender = .done result
  receiver : link.toReceiver = []

end Shr
