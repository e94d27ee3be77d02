/-
Peers: adding, probing, discovering, after `peers.cxx`.

What only changes the table in one statement is a function of the table.  Every
other function is a program over single requests to the store, the clock and the
network, so that anything may happen between two of them.
-/

import Shr.Library.Interaction
import Shr.Peers.Table
import Shr.Utils

namespace Shr
namespace Peers

/-! ### Operations -/

inductive Op where
  | getPeer (id : Bytes)
  | allPeers
  | upsertPeer (peer : PeerInfo)
  | now
  | sendPacket (ip : Bytes) (port : UInt16) (packet : Packet)
  | sendPacketConn (packet : Packet)
  | beaconRunning
  | sleep (seconds : Nat)

def Op.Reply : Op → Type
  | .getPeer _ => Option PeerInfo
  | .allPeers => List PeerInfo
  | .upsertPeer _ => Bool
  | .now => Int64
  | .sendPacket _ _ _ => Bool
  | .sendPacketConn _ => Bool
  | .beaconRunning => Bool
  | .sleep _ => Unit

abbrev signature : Signature :=
  { Op := Op
    Reply := Op.Reply }

abbrev PeerProgram := Program signature

def ask (op : Op) : PeerProgram op.Reply :=
  @Program.perform signature op

def getPeer (id : Bytes) : PeerProgram (Option PeerInfo) :=
  ask (.getPeer id)

def allPeers : PeerProgram (List PeerInfo) :=
  ask .allPeers

def upsertPeer (peer : PeerInfo) : PeerProgram Bool :=
  ask (.upsertPeer peer)

def now : PeerProgram Int64 :=
  ask .now

def sendPacket (ip : Bytes) (port : UInt16) (packet : Packet) : PeerProgram Bool :=
  ask (.sendPacket ip port packet)

def sendPacketConn (packet : Packet) : PeerProgram Bool :=
  ask (.sendPacketConn packet)

def beaconRunning : PeerProgram Bool :=
  ask .beaconRunning

def sleep (seconds : Nat) : PeerProgram Unit :=
  ask (.sleep seconds)

/-! ### Payloads -/

/-- What a `PeerDiscover` or a `PeerAnnounce` says about its sender. -/
structure Announcement where
  id : Bytes
  port : UInt16
deriving DecidableEq

def announcementFields (announced : Announcement) : List (Bytes × JsonValue) :=
  [ (ascii "id", .string announced.id),
    (ascii "port", .number announced.port.toNat) ]

def livenessFields (sender : Bytes) (ts : Int64) : List (Bytes × JsonValue) :=
  [ (ascii "from", .string sender),
    (ascii "ts", .number ts.toInt) ]

section Payloads

variable (vendor : Vendor)

def readAnnouncement (payload : Bytes) : Option Announcement := do
  let json ← vendor.fromCbor payload
  let id ← json.value "id" JsonValue.asString []
  let port ← json.value "port" JsonValue.asUInt16 shrDefaultPort
  return { id, port }

def readFrom (payload : Bytes) : Option Bytes := do
  let json ← vendor.fromCbor payload
  json.value "from" JsonValue.asString []

theorem announcementFields_transmissible (announced : Announcement) :
    Transmissible (announcementFields announced) where
  sorted := by
    change List.Pairwise _ [ascii "id", ascii "port"]
    decide
  values := by
    have bounded := announced.port.toNat_lt
    simp only [announcementFields, List.mem_cons, List.not_mem_nil, or_false]
    rintro field (rfl | rfl)
    case inl => trivial
    case inr =>
      simp only [JsonValue.Transmissible]
      omega

theorem livenessFields_transmissible (sender : Bytes) (ts : Int64) :
    Transmissible (livenessFields sender ts) where
  sorted := by
    change List.Pairwise _ [ascii "from", ascii "ts"]
    decide
  values := by
    simp only [livenessFields, List.mem_cons, List.not_mem_nil, or_false]
    rintro field (rfl | rfl)
    case inl => trivial
    case inr => exact JsonValue.transmissible_int64 ts

@[simp] theorem readAnnouncement_toCbor (announced : Announcement) :
    readAnnouncement vendor (vendor.toCbor (announcementFields announced)) = some announced := by
  unfold readAnnouncement
  rw [vendor.fromCbor_toCbor _ (announcementFields_transmissible announced)]
  have port : UInt16.ofInt announced.port.toNat = announced.port :=
    Option.some.inj (JsonValue.asUInt16_number announced.port)
  change some { announced with port := UInt16.ofInt announced.port.toNat } = _
  rw [port]

@[simp] theorem readFrom_toCbor (sender : Bytes) (ts : Int64) :
    readFrom vendor (vendor.toCbor (livenessFields sender ts)) = some sender := by
  unfold readFrom
  rw [vendor.fromCbor_toCbor _ (livenessFields_transmissible sender ts)]
  rfl

end Payloads

/-! ### Adding and removing -/

/-- `stores` tells whether the statement succeeds. -/
def addPeer (stores : Bool) (id ip : Bytes) (port : UInt16) (table : PeerTable) :
    Bool × PeerTable :=
  if isValidUuid id = false then
    (false, table)
  else
    let peer : PeerInfo :=
      { id := id
        ip := ip
        port := port
        online := false
        lastSeen := 0
        «alias» := [] }
    (stores, if stores then table.upsertPeer peer else table)

def removePeer (stores : Bool) (id : Bytes) (table : PeerTable) : Bool × PeerTable :=
  (stores, if stores then table.deletePeer id else table)

def findPeer (id : Bytes) (table : PeerTable) : Option PeerInfo :=
  table.getPeer id

section Programs

variable (vendor : Vendor) (ownId : Bytes) (listenPort : UInt16)

def pingPacket (ts : Int64) : Packet :=
  { type := .ping
    payload := vendor.toCbor (livenessFields ownId ts) }

def pongPacket (ts : Int64) : Packet :=
  { type := .pong
    payload := vendor.toCbor (livenessFields ownId ts) }

def announcePacket : Packet :=
  { type := .peerAnnounce
    payload := vendor.toCbor (announcementFields
      { id := ownId
        port := listenPort }) }

/-! ### Probing -/

/-- Ping a peer whose row has been read, and write the row back with what came
of it.  `ping_peer` and `beacon_loop` both do this. -/
def probe (peer : PeerInfo) : PeerProgram Bool := do
  let ts ← now
  let alive ← sendPacket peer.ip peer.port (pingPacket vendor ownId ts)
  if alive then
    let seen ← now
    let _stored ← upsertPeer { peer with online := true, lastSeen := seen }
    return true
  else
    let _stored ← upsertPeer { peer with online := false }
    return false

def pingPeer (id : Bytes) : PeerProgram Bool := do
  match ← getPeer id with
  | none => return false
  | some peer => probe vendor ownId peer

def beaconPass : List PeerInfo → PeerProgram Unit
  | [] => return ()
  | peer :: rest =>
      if peer.ip = [] then
        beaconPass rest
      else do
        let _alive ← probe vendor ownId peer
        beaconPass rest

/-- `for (i < 30 && beacon_running_)`, with the seconds that are left. -/
def beaconPause : Nat → PeerProgram Unit
  | 0 => return ()
  | left + 1 => do
      if ← beaconRunning then
        sleep 1
        beaconPause left
      else
        return ()

/-- `while (beacon_running_)`, for at most `rounds` passes. -/
def beaconLoop : Nat → PeerProgram Unit
  | 0 => return ()
  | rounds + 1 => do
      if ← beaconRunning then
        let peers ← allPeers
        beaconPass vendor ownId peers
        beaconPause 30
        beaconLoop rounds
      else
        return ()

/-! ### Handlers -/

def announcedPeer (announced : Announcement) (seen : Int64) : PeerInfo :=
  { id := announced.id
    ip := []
    port := announced.port
    online := true
    lastSeen := seen
    «alias» := [] }

def recordAnnounced (announced : Announcement) : PeerProgram Unit := do
  let seen ← now
  let _stored ← upsertPeer (announcedPeer announced seen)
  return ()

def handleDiscover (payload : Bytes) : PeerProgram Unit :=
  match readAnnouncement vendor payload with
  | none => return ()
  | some announced =>
      if isValidUuid announced.id = false then
        return ()
      else if announced.id = ownId then
        return ()
      else do
        let existing ← getPeer announced.id
        if existing = none then
          recordAnnounced announced
        let _sent ← sendPacketConn (announcePacket vendor ownId listenPort)
        return ()

def handleAnnounce (payload : Bytes) : PeerProgram Unit :=
  match readAnnouncement vendor payload with
  | none => return ()
  | some announced =>
      if isValidUuid announced.id = false then
        return ()
      else if announced.id = ownId then
        return ()
      else
        recordAnnounced announced

/-- What a `Ping` or a `Pong` from a known peer does to its row. -/
def markSeen (sender : Bytes) : PeerProgram Unit := do
  match ← getPeer sender with
  | none => return ()
  | some peer =>
      let seen ← now
      let _stored ← upsertPeer { peer with online := true, lastSeen := seen }
      return ()

def handlePing (payload : Bytes) : PeerProgram Unit :=
  match readFrom vendor payload with
  | none => return ()
  | some sender => do
      markSeen sender
      let ts ← now
      let _sent ← sendPacketConn (pongPacket vendor ownId ts)
      return ()

def handlePong (payload : Bytes) : PeerProgram Unit :=
  match readFrom vendor payload with
  | none => return ()
  | some sender => markSeen sender

end Programs

end Peers
end Shr
