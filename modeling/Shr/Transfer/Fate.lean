/-
One call of `send_file` and everything that may happen to it.

A fate fixes the outcome of every operation that is not decided by the node: the
connect, each attempt to send, each packet that is read.  The calls of the
database and of the counter act on the node, and the world of a call keeps what
the call has asked for.
-/

import Shr.Transfer.NodeRun

namespace Shr

/-- `chunkSent chunk attempt` is the outcome of one attempt for a chunk, and
`ack chunk` the packet that is read after that chunk has been sent. -/
structure Fate where
  connected : Bool
  offerSent : Bool
  answer : Option Packet
  chunkSent : Nat → Nat → Bool
  ack : Nat → Option Packet
  completeSent : Bool
  now : Int64

structure CallWorld where
  node : Node
  asked : List SendOp
  answered : Bool
  attempts : Nat
  chunksSent : List Packet

def CallWorld.start (node : Node) : CallWorld :=
  { node := node
    asked := []
    answered := false
    attempts := 0
    chunksSent := [] }

def Fate.answerTo (fate : Fate) (world : CallWorld) (op : SendOp) : Answer :=
  { ok :=
      match op with
      | .connectTo _ _ => fate.connected
      | .sendPacket packet =>
          if packet.type = .fileOffer then fate.offerSent
          else if packet.type = .fileChunk then
            fate.chunkSent world.chunksSent.length world.attempts
          else fate.completeSent
      | _ => true
    packet :=
      if world.answered then fate.ack (world.chunksSent.length - 1) else fate.answer
    now := fate.now }

/-- What the world remembers of an operation. -/
def CallWorld.noted (world : CallWorld) (answer : Answer) : SendOp → CallWorld
  | .sendPacket packet =>
      if packet.type = .fileChunk then
        if answer.ok then
          { world with
            attempts := 0
            chunksSent := world.chunksSent ++ [packet] }
        else { world with attempts := world.attempts + 1 }
      else world
  | .readPacket => { world with answered := true }
  | _ => world

def Fate.effect (fate : Fate) (op : SendOp) (world : CallWorld) : op.Reply × CallWorld :=
  let answer := fate.answerTo world op
  ((op.effect answer world.node).1,
    { world.noted answer op with
      node := (op.effect answer world.node).2
      asked := world.asked ++ [op] })

def Fate.run {α : Type} (fate : Fate) (program : SendProgram α) (world : CallWorld) :
    α × CallWorld :=
  @Program.run sendSignature α CallWorld fate.effect program world

def Fate.sendFile (fate : Fate) (vendor : Vendor) (inputs : SendInputs) (node : Node) :
    Bytes × CallWorld :=
  fate.run (Shr.sendFile vendor inputs) (CallWorld.start node)

section Effects

variable (fate : Fate) (op : SendOp) (world : CallWorld)

theorem Fate.run_bind {α β : Type} (program : SendProgram α) (following : α → SendProgram β) :
    fate.run (program >>= following) world =
      fate.run (following (fate.run program world).1) (fate.run program world).2 :=
  @Program.run_bind sendSignature α β CallWorld fate.effect program following world

@[simp] theorem Fate.effect_node :
    (fate.effect op world).2.node = (op.effect (fate.answerTo world op) world.node).2 :=
  rfl

theorem Fate.asked_prefix {α : Type} (program : SendProgram α) (world : CallWorld) :
    world.asked <+: (fate.run program world).2.asked := by
  induction program generalizing world with
  | done result => exact List.prefix_refl _
  | call op next ih =>
      have later := ih (fate.effect op world).1 (fate.effect op world).2
      exact (List.prefix_append world.asked [op]).trans later

end Effects

end Shr
