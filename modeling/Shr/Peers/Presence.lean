/-
Why a peer stands as online.

A peer is marked online by a packet that names it, or by a ping that got through
to its address.  Whatever the calls of a node do to each other, no peer of its
table is online for any other reason: none is kept online by a row that some call
has read and writes back.
-/

import Shr.Peers.Addresses

namespace Shr
namespace Peers

/-! ### Contacts -/

/-- A packet names a peer, or a ping to an address succeeds. -/
inductive Contact where
  | heard (id : Bytes)
  | reached (ip : Bytes) (port : UInt16)

def Contact.With (peer : PeerInfo) : Contact → Prop
  | .heard id => peer.id = cstr id
  | .reached ip port => peer.ip = cstr ip ∧ peer.port = port

section Contacts

variable (vendor : Vendor)

def Request.names : Request → Option Bytes
  | .discover payload => (readAnnouncement vendor payload).map Announcement.id
  | .announce payload => (readAnnouncement vendor payload).map Announcement.id
  | .ping payload => readFrom vendor payload
  | .pong payload => readFrom vendor payload
  | _ => none

def Op.contact : (op : Op) → op.Reply → Option Contact
  | .sendPacket ip port _packet, (ok : Bool) => if ok then some (.reached ip port) else none
  | _, _ => none

def State.contact (state : State) : Event → Option Contact
  | .launch request => (request.names vendor).map .heard
  | .advance index answer =>
      match state.calls[index]? with
      | some { program := .call op _next, held := _held } =>
          op.contact (op.effect answer state.table).1
      | _ => none
  | _ => none

end Contacts

/-! ### Calls know their contacts -/

def Op.Keyed : (op : Op) → op.Reply → Prop
  | .getPeer id, (found : Option PeerInfo) => ∀ peer, found = some peer → peer.id = cstr id
  | _, _ => True

/-- A call marks a peer online only if it has had a contact with it. -/
def contactContract : Contract signature (List Contact) :=
  { allowed := fun known op => ∀ peer, op = .upsertPeer peer → peer.online = true →
      ∃ contact ∈ known, contact.With peer.stored
    possible := fun _known op reply => op.Keyed reply
    learned := fun known op reply => known ++ (op.contact reply).toList }

section Calls

variable {vendor : Vendor} {ownId : Bytes} {known : List Contact}

theorem meets_ask {α : Type} {post : List Contact → α → Prop} {op : Op}
    (query : ∀ peer, op ≠ .upsertPeer peer) {following : op.Reply → PeerProgram α}
    (rest : ∀ reply : op.Reply, op.Keyed reply →
      (following reply).Meets contactContract post (known ++ (op.contact reply).toList)) :
    (ask op >>= following).Meets contactContract post known :=
  Program.meets_call.mpr ⟨fun peer same => absurd same (query peer), rest⟩

theorem meets_upsert {α : Type} {post : List Contact → α → Prop} {peer : PeerInfo}
    (contacted : peer.online = true → ∃ contact ∈ known, contact.With peer.stored)
    {following : Bool → PeerProgram α}
    (rest : ∀ stored, (following stored).Meets contactContract post known) :
    (upsertPeer peer >>= following).Meets contactContract post known := by
  refine Program.meets_call.mpr ⟨?_, ?_⟩
  · rintro written ⟨⟩ online
    exact contacted online
  · intro stored _possible
    have same : known ++ (Op.contact (.upsertPeer peer) stored).toList = known :=
      List.append_nil known
    change (following stored).Meets contactContract post
      (known ++ (Op.contact (.upsertPeer peer) stored).toList)
    rw [same]
    exact rest stored

theorem probe_contacts (peer : PeerInfo) :
    (probe vendor ownId peer).Meets contactContract (fun _known _alive => True) known := by
  unfold probe
  apply meets_ask (by simp)
  intro ts _keyed
  apply meets_ask (by simp)
  intro alive _keyed
  cases (alive : Bool) with
  | true =>
      rw [if_pos rfl]
      apply meets_ask (by simp)
      intro seen _keyed
      refine meets_upsert ?_ fun _stored => ?_
      · intro _online
        exact ⟨.reached peer.ip peer.port, by simp [Op.contact], rfl, rfl⟩
      · trivial
  | false =>
      rw [if_neg Bool.false_ne_true]
      refine meets_upsert ?_ fun _stored => ?_
      · intro impossible
        cases impossible
      · trivial

theorem pingPeer_contacts (id : Bytes) :
    (pingPeer vendor ownId id).Meets contactContract (fun _known _ok => True) known := by
  unfold pingPeer
  apply meets_ask (by simp)
  intro found _keyed
  cases (found : Option PeerInfo) with
  | none => trivial
  | some peer => exact probe_contacts peer

theorem beaconPass_contacts (peers : List PeerInfo) :
    (beaconPass vendor ownId peers).Meets contactContract (fun _known _ended => True) known := by
  induction peers generalizing known with
  | nil => trivial
  | cons peer rest ih =>
      unfold beaconPass
      split
      next => exact ih
      next => exact (probe_contacts peer).bind fun _known _alive _met => ih

theorem beaconPause_contacts (left : Nat) :
    (beaconPause left).Meets contactContract (fun _known _ended => True) known := by
  induction left generalizing known with
  | zero => trivial
  | succ left ih =>
      apply meets_ask (by simp)
      intro running _keyed
      cases (running : Bool) with
      | true =>
          apply meets_ask (by simp)
          intro _slept _keyed
          exact ih
      | false => trivial

theorem beaconLoop_contacts (rounds : Nat) :
    (beaconLoop vendor ownId rounds).Meets contactContract (fun _known _ended => True) known := by
  induction rounds generalizing known with
  | zero => trivial
  | succ rounds ih =>
      apply meets_ask (by simp)
      intro running _keyed
      cases (running : Bool) with
      | true =>
          apply meets_ask (by simp)
          intro peers _keyed
          refine (beaconPass_contacts peers).bind fun _known _passed _met => ?_
          exact (beaconPause_contacts 30).bind fun _known _paused _met => ih
      | false => trivial

theorem markSeen_contacts {sender : Bytes} (heard : .heard sender ∈ known) :
    (markSeen sender).Meets contactContract (fun _known _ended => True) known := by
  unfold markSeen
  apply meets_ask (by simp)
  intro found keyed
  cases (found : Option PeerInfo) with
  | none => trivial
  | some peer =>
      apply meets_ask (by simp)
      intro seen _keyed
      refine meets_upsert ?_ fun _stored => ?_
      · intro _online
        refine ⟨.heard sender, by simp [heard], ?_⟩
        have isSender : peer.id = cstr sender := keyed peer rfl
        change cstr peer.id = cstr sender
        rw [isSender]
        exact cstr_of_nulFree (cstr_nulFree sender)
      · trivial

theorem recordAnnounced_contacts {announced : Announcement}
    (heard : .heard announced.id ∈ known) :
    (recordAnnounced announced).Meets contactContract (fun _known _ended => True) known := by
  unfold recordAnnounced
  apply meets_ask (by simp)
  intro seen _keyed
  refine meets_upsert ?_ fun _stored => ?_
  · intro _online
    exact ⟨.heard announced.id, by simp [heard], rfl⟩
  · trivial

theorem sendPacketConn_contacts (packet : Packet) :
    (do
      let _sent ← sendPacketConn packet
      return () : PeerProgram Unit).Meets contactContract (fun _known _ended => True) known := by
  apply meets_ask (by simp)
  intro _sent _keyed
  trivial

theorem Request.program_contacts (listenPort : UInt16) (request : Request) :
    (request.program vendor ownId listenPort).Meets contactContract
      (fun _known _ended => True) ((request.names vendor).map Contact.heard).toList := by
  cases request with
  | discover payload =>
      simp only [Request.program, handleDiscover, Request.names]
      cases decoded : readAnnouncement vendor payload with
      | none => trivial
      | some announced =>
          simp only
          split
          · trivial
          split
          · trivial
          apply meets_ask (by simp)
          intro existing _keyed
          split
          · exact (recordAnnounced_contacts (by simp)).bind
              fun _known _recorded _met => sendPacketConn_contacts _
          · exact sendPacketConn_contacts _
  | announce payload =>
      simp only [Request.program, handleAnnounce, Request.names]
      cases decoded : readAnnouncement vendor payload with
      | none => trivial
      | some announced =>
          simp only
          split
          · trivial
          split
          · trivial
          exact recordAnnounced_contacts (by simp)
  | ping payload =>
      simp only [Request.program, handlePing, Request.names]
      cases decoded : readFrom vendor payload with
      | none => trivial
      | some sender =>
          refine (markSeen_contacts (by simp)).bind fun _known _marked _met => ?_
          apply meets_ask (by simp)
          intro ts _keyed
          exact sendPacketConn_contacts _
  | pong payload =>
      simp only [Request.program, handlePong, Request.names]
      cases decoded : readFrom vendor payload with
      | none => trivial
      | some sender => exact markSeen_contacts (by simp)
  | pingPeer id => exact (pingPeer_contacts id).bind fun _known _ok _met => trivial
  | beaconLoop rounds => exact beaconLoop_contacts rounds

end Calls

/-! ### Runs -/

/-- Every peer that is online has been contacted, and every call knows of past
contacts only. -/
structure InContact (past : List Contact) (state : State) : Prop where
  rows : ∀ peer ∈ state.table.allPeers, peer.online = true → ∃ contact ∈ past, contact.With peer
  calls : ∀ call ∈ state.calls, ∃ known,
    (∀ contact ∈ known, contact ∈ past) ∧
      call.program.Meets contactContract (fun _known _ended => True) known

section Runs

variable {vendor : Vendor} {ownId : Bytes} {listenPort : UInt16} {past : List Contact}
variable {state : State}

theorem Op.effect_keyed (answer : Answer) (table : PeerTable) (op : Op) :
    op.Keyed (op.effect answer table).1 := by
  cases op with
  | getPeer id =>
      intro peer found
      calc peer.id
        _ = cstr peer.id := (congrArg PeerInfo.id (PeerTable.stored_of_getPeer found)).symm
        _ = cstr id := congrArg Subtype.val (PeerTable.id_of_getPeer found)
  | _ => trivial

theorem InContact.later (holds : InContact past state) (added : List Contact) :
    InContact (past ++ added) state where
  rows peer member online := by
    obtain ⟨contact, earlier, withPeer⟩ := holds.rows peer member online
    exact ⟨contact, List.mem_append_left added earlier, withPeer⟩
  calls call member := by
    obtain ⟨known, seen, meets⟩ := holds.calls call member
    exact ⟨known, fun contact isKnown => List.mem_append_left added (seen contact isKnown), meets⟩

theorem InContact.upsertPeer {table : PeerTable} {written : PeerInfo}
    (rows : ∀ peer ∈ table.allPeers, peer.online = true → ∃ contact ∈ past, contact.With peer)
    (contacted : written.online = true → ∃ contact ∈ past, contact.With written.stored) :
    ∀ peer ∈ (table.upsertPeer written).allPeers, peer.online = true →
      ∃ contact ∈ past, contact.With peer := by
  intro peer member online
  rcases PeerTable.mem_allPeers_upsert member with new | earlier
  · rw [new] at online ⊢
    exact contacted online
  · exact rows peer earlier online

theorem InContact.step (holds : InContact past state) (event : Event) :
    InContact (past ++ (state.contact vendor event).toList)
      (state.step vendor ownId listenPort event) := by
  cases event with
  | addPeer stores id ip port =>
      refine ⟨?_, (holds.later _).calls⟩
      simp only [State.step, Peers.addPeer]
      split
      · exact (holds.later _).rows
      · cases stores with
        | false => exact (holds.later _).rows
        | true =>
            refine InContact.upsertPeer (holds.later _).rows ?_
            intro impossible
            cases impossible
  | removePeer stores id =>
      refine ⟨?_, (holds.later _).calls⟩
      simp only [State.step, Peers.removePeer]
      cases stores with
      | false => exact (holds.later _).rows
      | true =>
          intro peer member
          exact (holds.later _).rows peer (PeerTable.mem_allPeers_delete member)
  | launch request =>
      refine ⟨(holds.later _).rows, ?_⟩
      intro call member
      rcases List.mem_append.mp member with earlier | launched
      · exact (holds.later _).calls call earlier
      · rw [List.mem_singleton.mp launched]
        refine ⟨((request.names vendor).map Contact.heard).toList, ?_,
          Request.program_contacts listenPort request⟩
        intro contact heard
        exact List.mem_append_right past heard
  | advance index answer =>
      rcases state.step_advance index answer with ⟨op, next, held, found, step⟩ | same
      · obtain ⟨known, seen, meets⟩ := holds.calls _ (List.mem_of_getElem? found)
        have contact : state.contact vendor (.advance index answer) =
            op.contact (op.effect answer state.table).1 := by
          simp only [State.contact, found]
        rw [contact, step]
        have further := holds.later (op.contact (op.effect answer state.table).1).toList
        constructor
        · rcases op.effect_table answer state.table with same | ⟨written, isUpsert, after⟩
          · simp only [same]
            exact further.rows
          · simp only [after]
            refine InContact.upsertPeer further.rows fun online => ?_
            obtain ⟨contact, isKnown, withPeer⟩ := meets.1 written isUpsert online
            exact ⟨contact, List.mem_append_left _ (seen contact isKnown), withPeer⟩
        · intro call member
          rcases List.mem_or_eq_of_mem_set member with other | advanced
          · exact further.calls call other
          · rw [advanced]
            refine ⟨_, ?_, meets.2 _ (op.effect_keyed answer state.table)⟩
            intro contact isKnown
            rcases List.mem_append.mp isKnown with earlier | learned
            · exact List.mem_append_left _ (seen contact earlier)
            · exact List.mem_append_right _ learned
      · rw [same]
        exact holds.later _

theorem contact_of_online {events : List Event} {peer : PeerInfo}
    (known : peer ∈ (EventRun.run (State.step vendor ownId listenPort)
      (State.initial PeerTable.empty) events).table.allPeers) (online : peer.online = true) :
    ∃ front event back contact, events = front ++ event :: back ∧
      (EventRun.run (State.step vendor ownId listenPort) (State.initial PeerTable.empty)
        front).contact vendor event = some contact ∧ contact.With peer := by
  have start : InContact [] (State.initial PeerTable.empty) :=
    { rows := by
        intro peer impossible
        cases impossible
      calls := by
        intro call impossible
        cases impossible }
  have last := @EventRun.emitted_invariant _ _ (State.step vendor ownId listenPort) _
    (State.contact vendor) InContact (fun _past _state event holds => holds.step event) _ _ start
    events
  obtain ⟨contact, emitted, withPeer⟩ := last.rows peer known online
  rw [List.nil_append] at emitted
  obtain ⟨front, event, back, split, emits⟩ := EventRun.mem_emitted_iff.mp emitted
  exact ⟨front, event, back, contact, split, emits, withPeer⟩

theorem contact_cases {event : Event} {contact : Contact}
    (makes : state.contact vendor event = some contact) :
    (∃ request id, event = .launch request ∧ request.names vendor = some id ∧
      contact = .heard id) ∨
    ∃ index answer ip port packet next held, event = .advance index answer ∧
      answer.ok = true ∧
      state.calls[index]? =
        some { program := .call (.sendPacket ip port packet) next, held := held } ∧
      contact = .reached ip port := by
  cases event with
  | launch request =>
      obtain ⟨id, named, rfl⟩ := Option.map_eq_some_iff.mp makes
      exact .inl ⟨request, id, rfl, named, rfl⟩
  | advance index answer =>
      simp only [State.contact] at makes
      split at makes
      next op next held found =>
          cases op with
          | sendPacket ip port packet =>
              change (if answer.ok then some (Contact.reached ip port) else none) =
                some contact at makes
              split at makes
              next succeeds =>
                  cases makes
                  exact .inr ⟨index, answer, ip, port, packet, next, held, rfl, succeeds, found,
                    rfl⟩
              next => cases makes
          | _ => cases makes
      next => cases makes
  | _ => cases makes

theorem pinged_of_run {events : List Event} {index : Nat} {ip : Bytes} {port : UInt16}
    {packet : Packet} {next : Bool → PeerProgram Unit} {held : List PeerInfo}
    (found : (EventRun.run (State.step vendor ownId listenPort) (State.initial PeerTable.empty)
      events).calls[index]? =
        some { program := .call (.sendPacket ip port packet) next, held := held }) :
    ∃ ts, packet = pingPacket vendor ownId ts := by
  have start : CallsAsk vendor ownId (State.initial PeerTable.empty) := by
    intro call impossible
    cases impossible
  have last := @EventRun.run_invariant _ _ (State.step vendor ownId listenPort)
    (CallsAsk vendor ownId) (fun _state event asks => asks.step event) _ start events
  exact last.ping found

end Runs

/-- In every run from an empty table, whatever the calls of the node, the packets
and the user do meanwhile: a peer is online only if a packet has named it, or if a
ping to the address of its row has been sent. -/
theorem online_peers_were_contacted (vendor : Vendor) (ownId : Bytes) (listenPort : UInt16)
    (events : List Event) (peer : PeerInfo)
    (known : peer ∈ (EventRun.run (State.step vendor ownId listenPort)
      (State.initial PeerTable.empty) events).table.allPeers) (online : peer.online = true) :
    (∃ front request back id, events = front ++ .launch request :: back ∧
      request.names vendor = some id ∧ peer.id = cstr id) ∨
    ∃ front index answer back ip ts next held,
      events = front ++ .advance index answer :: back ∧ answer.ok = true ∧
      (EventRun.run (State.step vendor ownId listenPort) (State.initial PeerTable.empty)
        front).calls[index]? =
          some
            { program := .call (.sendPacket ip peer.port (pingPacket vendor ownId ts)) next
              held := held } ∧
      peer.ip = cstr ip := by
  obtain ⟨front, event, back, contact, split, makes, withPeer⟩ := contact_of_online known online
  rcases contact_cases makes with
    ⟨request, id, rfl, named, rfl⟩ |
    ⟨index, answer, ip, port, packet, next, held, rfl, succeeds, asks, rfl⟩
  · exact .inl ⟨front, request, back, id, split, named, withPeer⟩
  · obtain ⟨sameIp, rfl⟩ := withPeer
    obtain ⟨ts, rfl⟩ := pinged_of_run asks
    exact .inr ⟨front, index, answer, back, ip, ts, next, held, split, succeeds, asks, sameIp⟩

/-- The peer that has announced itself. -/
theorem Reference.announcer_contacted :
    (∃ front request back id, Reference.announcement = front ++ .launch request :: back ∧
      request.names Shr.Reference.vendor = some id ∧
        (announcedPeer Reference.returning 5).stored.id = cstr id) ∨
    ∃ front index answer back ip ts next held,
      Reference.announcement = front ++ .advance index answer :: back ∧ answer.ok = true ∧
      (EventRun.run (State.step Shr.Reference.vendor Shr.Reference.ownId 60000)
        (State.initial PeerTable.empty) front).calls[index]? =
          some
            { program := .call
                (.sendPacket ip (announcedPeer Reference.returning 5).stored.port
                  (pingPacket Shr.Reference.vendor Shr.Reference.ownId ts)) next
              held := held } ∧
      (announcedPeer Reference.returning 5).stored.ip = cstr ip := by
  refine online_peers_were_contacted Shr.Reference.vendor Shr.Reference.ownId 60000
    Reference.announcement _ ?_ rfl
  rw [Reference.announcement_run]
  exact PeerTable.mem_of_getPeer (PeerTable.getPeer_upsert_self PeerTable.empty _ rfl)

end Peers
end Shr
