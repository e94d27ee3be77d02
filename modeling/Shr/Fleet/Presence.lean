/-
Who stands as online in a network.

The machines of a network send no announcements, so a peer is online for one of
two reasons: the machine that goes by its id has pinged this one, or this one has
got a ping through to the address its user has added for it.
-/

import Shr.Fleet.Sound
import Shr.Peers.Presence

namespace Shr
namespace Fleet

section Networks

variable {ι : Type} [DecidableEq ι] {world : World ι}

/-- A request that names a peer has come with a ping that the machine that goes by
the peer's id has sent here. -/
theorem named_by_ping {files : ι → Bytes → Option Bytes} {front back : List (Event ι)}
    {event : Event ι} (admissible : Admissible world (State.initial files) (front ++ event :: back))
    {request : Peers.Request} {id : Bytes}
    (happens : event.happening.onPeers = some (.launch request))
    (named : request.names world.vendor = some id) :
    ∃ sender call ts arrival received,
      event.happening =
        .handle (.peers sender call)
          (Peers.pingPacket world.vendor (world.sites sender).ownId ts) arrival received ∧
      ((State.initial files).run world front).Arrives world event.machine (.peers sender call)
        (Peers.pingPacket world.vendor (world.sites sender).ownId ts) ∧
      id = (world.sites sender).ownId := by
  obtain ⟨before, admitted, _rest⟩ :=
    (EventRun.along_append (State.Admits world) (State.initial files) front (event :: back)).mp
      admissible
  have sound := sound_of_admissible files before
  obtain ⟨me, happening⟩ := event
  cases happening with
  | handle caller packet arrival received =>
      obtain ⟨other, requests, launches⟩ := Option.map_eq_some_iff.mp happens
      cases launches
      cases sound.arriving admitted with
      | file offered own reaches => cases own <;> cases requests
      | message wrote reaches => cases requests
      | ping sender call ts =>
          cases requests
          refine ⟨sender, call, ts, arrival, received, rfl, admitted, ?_⟩
          have read : Peers.readFrom world.vendor (world.vendor.toCbor
              (Peers.livenessFields (world.sites sender).ownId ts)) = some id := named
          rw [Peers.readFrom_toCbor, Option.some.injEq] at read
          exact read.symm
  | peers event =>
      cases happens
      cases request with
      | pingPeer id => cases named
      | beaconLoop rounds => cases named
      | _ => exact admitted.elim
  | _ => cases happens

/-- In every run of any number of machines a peer is online only if the machine that
goes by its id has sent this one a ping, which has arrived, or if this machine has
got a ping through to the address that stands in the row. -/
theorem online_peers_called_or_answered (world : World ι) (files : ι → Bytes → Option Bytes)
    {events : List (Event ι)} (admissible : Admissible world (State.initial files) events)
    (me : ι) (peer : PeerInfo)
    (known : peer ∈ (((State.initial files).run world events).machines
      me).peers.table.allPeers) (online : peer.online = true) :
    (∃ front sender call ts arrival received back,
      events = front ++
        { machine := me
          happening := .handle (.peers sender call)
            (Peers.pingPacket world.vendor (world.sites sender).ownId ts) arrival received } ::
          back ∧
      ((State.initial files).run world front).Arrives world me (.peers sender call)
        (Peers.pingPacket world.vendor (world.sites sender).ownId ts) ∧
      peer.id = cstr (world.sites sender).ownId) ∨
    ∃ front index answer back ip ts next held,
      events = front ++
        { machine := me
          happening := .peers (.advance index answer) } :: back ∧
      answer.ok = true ∧
      ((((State.initial files).run world front).machines me).peers.calls[index]? =
        some
          { program := .call (.sendPacket ip peer.port
              (Peers.pingPacket world.vendor (world.sites me).ownId ts)) next
            held := held }) ∧
      peer.ip = cstr ip := by
  rw [peers_run] at known
  obtain ⟨fronts, happened, backs, contact, split, makes, withPeer⟩ :=
    Peers.contact_of_online known online
  obtain ⟨front, event, back, rfl, rfl, isPeers⟩ := EventRun.part_split split
  obtain ⟨happening, here, happens⟩ := Option.bind_eq_some_iff.mp isPeers
  obtain ⟨machine, whole⟩ := event
  obtain ⟨rfl, rfl⟩ : machine = me ∧ whole = happening := by
    unfold Event.at at here
    split at here
    next same => exact ⟨same, Option.some.inj here⟩
    next => cases here
  rcases Peers.contact_cases makes with
    ⟨request, id, rfl, named, rfl⟩ |
    ⟨index, answer, ip, port, packet, next, held, rfl, succeeds, asks, rfl⟩
  · obtain ⟨sender, call, ts, arrival, received, rfl, arrives, isOwn⟩ :=
      named_by_ping admissible happens named
    refine .inl ⟨front, sender, call, ts, arrival, received, back, rfl, arrives, ?_⟩
    rw [← isOwn]
    exact withPeer
  · obtain ⟨sameIp, rfl⟩ := withPeer
    obtain ⟨ts, rfl⟩ := Peers.pinged_of_run asks
    refine .inr ⟨front, index, answer, back, ip, ts, next, held, ?_, succeeds, ?_, sameIp⟩
    · cases whole with
      | peers event =>
          cases happens
          rfl
      | handle caller packet arrival received =>
          obtain ⟨request, _requests, launches⟩ := Option.map_eq_some_iff.mp happens
          cases launches
      | _ => cases happens
    · rw [peers_run]
      exact asks

end Networks

namespace Reference

def succeeding : Event Bool :=
  { machine := false
    happening := .peers (.advance 0 { ok := true, now := 9 }) }

def pinging : List (Event Bool) :=
  [ addition,
    { machine := false
      happening := .peers (.launch (.pingPeer added.id)) },
    succeeding, succeeding, succeeding, succeeding, succeeding ]

theorem pinging_admissible : Admissible world (State.initial disks) pinging :=
  ⟨trivial, trivial, trivial, trivial, trivial, trivial, trivial, trivial⟩

def answered : PeerInfo :=
  { added with
    online := true
    lastSeen := 9 }

theorem answered_known : answered ∈ ((after pinging).machines false).peers.table.allPeers := by
  have found : ((after pinging).machines false).peers.table.getPeer added.id = some answered :=
    rfl
  exact PeerTable.mem_of_getPeer found

end Reference

/-- The peer is online because it has been pinged. -/
theorem answered_contacted :
    (∃ front sender call ts arrival received back,
      Reference.pinging = front ++
        { machine := false
          happening := .handle (.peers sender call) (Peers.pingPacket Reference.world.vendor
            (Reference.world.sites sender).ownId ts) arrival received } :: back ∧
      ((State.initial Reference.disks).run Reference.world front).Arrives Reference.world false
        (.peers sender call) (Peers.pingPacket Reference.world.vendor
          (Reference.world.sites sender).ownId ts) ∧
      Reference.answered.id = cstr (Reference.world.sites sender).ownId) ∨
    ∃ front index answer back ip ts next held,
      Reference.pinging = front ++
        { machine := false
          happening := .peers (.advance index answer) } :: back ∧
      answer.ok = true ∧
      ((((State.initial Reference.disks).run Reference.world front).machines
        false).peers.calls[index]? =
          some
            { program := .call (.sendPacket ip Reference.answered.port
                (Peers.pingPacket Reference.world.vendor
                  (Reference.world.sites false).ownId ts)) next
              held := held }) ∧
      Reference.answered.ip = cstr ip :=
  online_peers_called_or_answered Reference.world Reference.disks Reference.pinging_admissible
    false Reference.answered Reference.answered_known rfl

end Fleet
end Shr
