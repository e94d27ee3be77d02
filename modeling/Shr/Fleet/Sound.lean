/-
What holds of every network of machines.

Nothing a machine does depends on anything but its user and the packets of the
other machines' calls, and every packet belongs to a call.  The invariant says
this for the calls under way, the peers tables and the traffic together: each
needs the others.  It is stated over a set of events that holds those of the
run.
-/

import Shr.Fleet.Calls
import Shr.Fleet.Delivery
import Shr.Peers.Invariant

namespace Shr
namespace Fleet

variable {ι : Type}

/-! ### Users and calls -/

section Calls

variable (happened : Event ι → Prop) (me : ι)

/-- The user of the machine has added the peer under its id, at its address. -/
def Registered (peer : PeerInfo) : Prop :=
  ∃ id ip port,
    happened
        { machine := me
          happening := .peers (.addPeer true id ip port) } ∧
      isValidUuid id = true ∧ cstr peer.id = cstr id ∧ cstr peer.ip = cstr ip ∧ peer.port = port

/-- A call for a recipient goes to an address its user has added for it. -/
def Addressed (recipientId : Bytes) (peer : Option PeerInfo) : Prop :=
  ∀ found, peer = some found →
    ∃ id ip port,
      happened
          { machine := me
            happening := .peers (.addPeer true id ip port) } ∧
        isValidUuid id = true ∧ cstr recipientId = cstr id ∧ found.ip = cstr ip ∧
          found.port = port

structure Offered (world : World ι) (inputs : SendInputs) : Prop where
  launched : happened
    { machine := me
      happening := .files (.launch inputs) }
  ownId : inputs.ownId = (world.sites me).ownId
  addressed : Addressed happened me inputs.recipientId inputs.peer

structure Wrote (world : World ι) (inputs : Messaging.Inputs) : Prop where
  launched : happened
    { machine := me
      happening := .mail (.launch inputs) }
  ownId : inputs.ownId = (world.sites me).ownId
  addressed : Addressed happened me inputs.recipientId inputs.peer

end Calls

section Registered

variable {happened : Event ι → Prop} {me : ι}

theorem Registered.stored {peer : PeerInfo} (registered : Registered happened me peer) :
    Registered happened me peer.stored := by
  obtain ⟨id, ip, port, added, valid, sameId, sameIp, samePort⟩ := registered
  refine ⟨id, ip, port, added, valid, ?_, ?_, samePort⟩
  · rw [← sameId]
    exact cstr_of_nulFree (cstr_nulFree peer.id)
  · rw [← sameIp]
    exact cstr_of_nulFree (cstr_nulFree peer.ip)

theorem addressed_of_rows {table : PeerTable}
    (rows : ∀ peer ∈ table.allPeers, Registered happened me peer) (recipientId : Bytes) :
    Addressed happened me recipientId (Peers.findPeer recipientId table) := by
  intro found present
  obtain ⟨id, ip, port, added, valid, sameId, sameIp, samePort⟩ :=
    rows found (PeerTable.mem_of_getPeer present)
  have key : cstr found.id = cstr recipientId :=
    congrArg Subtype.val (PeerTable.id_of_getPeer present)
  have text : cstr found.ip = found.ip := congrArg PeerInfo.ip (PeerTable.stored_of_getPeer present)
  exact ⟨id, ip, port, added, valid, key.symm.trans sameId, text.symm.trans sameIp, samePort⟩

theorem Addressed.added {recipientId : Bytes} {peer : Option PeerInfo} {found : PeerInfo}
    (addressed : Addressed happened me recipientId peer) (present : peer = some found)
    (valid : isValidUuid recipientId = true) :
    ∃ ip, happened
        { machine := me
          happening := .peers (.addPeer true recipientId ip found.port) } ∧
      found.ip = cstr ip := by
  obtain ⟨id, ip, port, added, validId, sameId, sameIp, samePort⟩ := addressed found present
  rw [cstr_of_nulFree (isValidUuid_nulFree valid),
    cstr_of_nulFree (isValidUuid_nulFree validId)] at sameId
  rw [← sameId, ← samePort] at added
  exact ⟨ip, added, sameIp⟩

end Registered

/-! ### Traffic -/

/-- The address is the one the call has read for its recipient. -/
def Dials (recipientId : Bytes) (peer : Option PeerInfo) (ip : Bytes) (port : UInt16) : Prop :=
  isValidUuid recipientId = true ∧ ∃ found, peer = some found ∧ found.ip = ip ∧ found.port = port

def Accounted (world : World ι) (machines : ι → Machine ι) : Traffic ι → Prop
  | .dialled (.sendFile machine index) ip port =>
      ∃ inputs, (machines machine).offers[index]? = some inputs ∧
        Dials inputs.recipientId inputs.peer ip port
  | .dialled (.sendMsg machine index) ip port =>
      ∃ inputs, (machines machine).letters[index]? = some inputs ∧
        Dials inputs.recipientId inputs.peer ip port
  | .dialled (.peers _machine _index) _ip _port => True
  | .sent (.sendFile machine index) packet =>
      ∃ inputs, (machines machine).offers[index]? = some inputs ∧
        FilePacket world.vendor inputs packet
  | .sent (.sendMsg machine index) packet =>
      ∃ inputs, (machines machine).letters[index]? = some inputs ∧
        packet = Messaging.messagePacket world.vendor inputs
  | .sent (.peers machine _index) packet =>
      ∃ ts, packet = Peers.pingPacket world.vendor (world.sites machine).ownId ts
  | .answered _caller packet => packet.type ≠ .fileResume ∧ packet.type ≠ .fileReject

section Traffic

variable {world : World ι}

theorem Accounted.mono {before after : ι → Machine ι} {item : Traffic ι}
    (accounted : Accounted world before item)
    (offers : ∀ (machine : ι) (index : Nat) inputs,
      (before machine).offers[index]? = some inputs → (after machine).offers[index]? = some inputs)
    (letters : ∀ (machine : ι) (index : Nat) inputs,
      (before machine).letters[index]? = some inputs →
        (after machine).letters[index]? = some inputs) :
    Accounted world after item := by
  cases item with
  | dialled caller ip port =>
      cases caller with
      | sendFile machine index =>
          obtain ⟨inputs, found, dials⟩ := accounted
          exact ⟨inputs, offers machine index inputs found, dials⟩
      | sendMsg machine index =>
          obtain ⟨inputs, found, dials⟩ := accounted
          exact ⟨inputs, letters machine index inputs found, dials⟩
      | peers machine index => trivial
  | sent caller packet =>
      cases caller with
      | sendFile machine index =>
          obtain ⟨inputs, found, own⟩ := accounted
          exact ⟨inputs, offers machine index inputs found, own⟩
      | sendMsg machine index =>
          obtain ⟨inputs, found, own⟩ := accounted
          exact ⟨inputs, letters machine index inputs found, own⟩
      | peers machine index => exact accounted
  | answered caller packet => exact accounted

/-- Nobody sends a discovery: the only ones are broadcast. -/
theorem Accounted.no_discovery {machines : ι → Machine ι} {caller : Caller ι} {packet : Packet}
    (accounted : Accounted world machines (.sent caller packet)) :
    packet.type ≠ .peerDiscover ∧ packet.type ≠ .peerAnnounce ∧ packet.type ≠ .pong := by
  cases caller with
  | sendFile machine index =>
      obtain ⟨inputs, _found, own⟩ := accounted
      cases own <;> exact ⟨nofun, nofun, nofun⟩
  | sendMsg machine index =>
      obtain ⟨inputs, _found, own⟩ := accounted
      rw [own]
      exact ⟨nofun, nofun, nofun⟩
  | peers machine index =>
      obtain ⟨ts, own⟩ := accounted
      rw [own]
      exact ⟨nofun, nofun, nofun⟩

end Traffic

/-! ### Peers -/

/-- Every row and every row in hand has the property, and the calls send nothing
but liveness packets. -/
structure PeersSound (vendor : Vendor) (ownId : Bytes) (good : PeerInfo → Prop)
    (state : Peers.State) : Prop where
  rows : Peers.RowsHold good (fun _op _reply => True) state
  asks : Peers.CallsAsk vendor ownId state

section Peers

variable {vendor : Vendor} {ownId : Bytes} {listenPort : UInt16} {good : PeerInfo → Prop}

theorem PeersSound.addPeer {state : Peers.State} (holds : PeersSound vendor ownId good state)
    (stored : ∀ peer, good peer → good peer.stored) {stores : Bool} {id ip : Bytes}
    {port : UInt16}
    (added : stores = true → isValidUuid id = true →
      good
        { id := id
          ip := ip
          port := port
          online := false
          lastSeen := 0
          «alias» := [] }) :
    PeersSound vendor ownId good
      { state with table := (Peers.addPeer stores id ip port state.table).2 } where
  asks := holds.asks
  rows :=
    { guarded := holds.rows.guarded
      rows := by
        simp only [Peers.addPeer]
        split
        next => exact holds.rows.rows
        next valid =>
            rw [Bool.not_eq_false] at valid
            cases stores with
            | false => exact holds.rows.rows
            | true =>
                intro peer member
                rcases PeerTable.mem_allPeers_upsert member with new | earlier
                · rw [new]
                  exact stored _ (added rfl valid)
                · exact holds.rows.rows peer earlier }

theorem PeersSound.launch {state : Peers.State} (holds : PeersSound vendor ownId good state)
    (back : Peers.WriteBack (Peers.guard good fun _op _reply => True)) {request : Peers.Request}
    (background : request.Background) :
    PeersSound vendor ownId good (state.step vendor ownId listenPort (.launch request)) where
  rows :=
    { rows := holds.rows.rows
      guarded := holds.rows.guarded.launch (Peers.Request.meets back request background) }
  asks := holds.asks.step (.launch request)

theorem PeersSound.advance {state : Peers.State} (holds : PeersSound vendor ownId good state)
    (stored : ∀ peer, good peer → good peer.stored) (index : Nat) (answer : Peers.Answer) :
    PeersSound vendor ownId good (state.step vendor ownId listenPort (.advance index answer)) := by
  obtain ⟨guarded, table⟩ := @Peers.Guarded.advance vendor ownId listenPort good _ state
    holds.rows.guarded holds.rows.rows index answer fun _op => trivial
  refine ⟨⟨?_, guarded⟩, holds.asks.step (.advance index answer)⟩
  · rcases table with same | ⟨written, isGood, after⟩
    · rw [same]
      exact holds.rows.rows
    · rw [after]
      intro peer member
      rcases PeerTable.mem_allPeers_upsert member with new | earlier
      · rw [new]
        exact stored _ isGood
      · exact holds.rows.rows peer earlier

end Peers

/-! ### One machine -/

section Machines

variable (world : World ι) (happened : Event ι → Prop) (me : ι)

structure MachineSound (machine : Machine ι) : Prop where
  node : NodeInvariant (world.sites me).host machine.files
  files : Program.AllMeet (unresumed world.vendor) machine.files.sends machine.offers
  offers : ∀ inputs ∈ machine.offers, Offered happened me world inputs
  mail : Program.AllMeet (fun inputs => Program.asksOnly (MailOp world.vendor inputs))
    machine.mail.calls machine.letters
  letters : ∀ inputs ∈ machine.letters, Wrote happened me world inputs
  peers :
    PeersSound world.vendor (world.sites me).ownId (Registered happened me) machine.peers

/-- What a happening must respect for a machine to stay sound. -/
def Fits (machine : Machine ι) : Happening ι → Prop
  | .handle _caller packet _arrival _received =>
      packet.type ≠ .peerDiscover ∧ packet.type ≠ .peerAnnounce
  | .files (.packet _arrival _packet) => False
  | .files (.cancel _id _now) => True
  | .files (.launch inputs) => Offered happened me world inputs
  | .files (.advance index answer) =>
      ∀ next packet, machine.files.sends[index]? = some (.call .readPacket next) →
        answer.packet = some packet → packet.type ≠ .fileResume
  | .mail (.receive _arrival _payload) => False
  | .mail (.launch inputs) => Wrote happened me world inputs
  | .mail _ => True
  | .peers (.addPeer stores id ip port) =>
      happened
        { machine := me
          happening := .peers (.addPeer stores id ip port) }
  | .peers (.launch request) => request.Background
  | .peers _ => True

variable {world happened me}
variable {machine : Machine ι}

theorem MachineSound.initial (files : Bytes → Option Bytes) :
    MachineSound world happened me (Machine.initial ι files) where
  node := NodeInvariant.of_reachable (NodeState.reachable_initial world.vendor _ files)
  files := .nil
  offers := fun _inputs impossible => by cases impossible
  mail := .nil
  letters := fun _inputs impossible => by cases impossible
  peers := ⟨.initial, fun _call impossible => by cases impossible⟩

theorem files_advance (host : Host)
    (all : Program.AllMeet (unresumed world.vendor) machine.files.sends machine.offers)
    {index : Nat} {answer : Answer}
    (unresumed : ∀ next packet, machine.files.sends[index]? = some (.call .readPacket next) →
      answer.packet = some packet → packet.type ≠ .fileResume) :
    Program.AllMeet (Fleet.unresumed world.vendor)
      (machine.files.step world.vendor host (.advance index answer)).sends
      machine.offers := by
  simp only [NodeState.step]
  cases present : machine.files.sends[index]? with
  | none => exact all
  | some program =>
      cases program with
      | done result =>
          obtain ⟨inside, same⟩ := List.getElem?_eq_some_iff.mp present
          simp only [advance]
          rw [← same, List.set_getElem_self]
          exact all
      | call op next =>
          obtain ⟨inputs, _found, _asked, stays⟩ := all.advance present
          refine stays _ ?_
          cases op with
          | readPacket =>
              intro packet answered
              exact unresumed next packet present answered
          | _ => trivial

theorem files_step (holds : MachineSound world happened me machine) {happening : Happening ι}
    (fits : Fits world happened me machine happening) :
    Program.AllMeet (unresumed world.vendor)
      (machine.step world.vendor (world.sites me) happening).files.sends
      (machine.step world.vendor (world.sites me) happening).offers := by
  cases happening with
  | handle caller packet arrival received => exact holds.files
  | files event =>
      cases event with
      | packet arrival packet => exact fits.elim
      | cancel id now => exact holds.files
      | launch inputs => exact holds.files.launch (sendFile_meets world.vendor inputs)
      | advance index answer => exact files_advance (world.sites me).host holds.files fits
  | mail event => exact holds.files
  | peers event => exact holds.files

theorem offers_step (holds : MachineSound world happened me machine) {happening : Happening ι}
    (fits : Fits world happened me machine happening) :
    ∀ inputs ∈ (machine.step world.vendor (world.sites me) happening).offers,
      Offered happened me world inputs := by
  intro inputs member
  simp only [Machine.step] at member
  cases launches : happening.offered with
  | none =>
      rw [launches] at member
      exact holds.offers inputs member
  | some launched =>
      rw [launches] at member
      rcases List.mem_append.mp member with earlier | last
      · exact holds.offers inputs earlier
      · rw [List.mem_singleton.mp last]
        unfold Happening.offered at launches
        split at launches
        next =>
            cases launches
            exact fits
        next => cases launches

theorem mail_step (holds : MachineSound world happened me machine) {happening : Happening ι}
    (fits : Fits world happened me machine happening) :
    Program.AllMeet (fun inputs => Program.asksOnly (MailOp world.vendor inputs))
      (machine.step world.vendor (world.sites me) happening).mail.calls
      (machine.step world.vendor (world.sites me) happening).letters := by
  cases happening with
  | handle caller packet arrival received =>
      simp only [Machine.step, Happening.onMail]
      split
      · exact holds.mail
      · exact holds.mail
  | files event => exact holds.mail
  | mail event =>
      cases event with
      | receive arrival payload => exact fits.elim
      | launch inputs =>
          exact holds.mail.launch
            ((sendMsg_asks world.vendor inputs).meets (fun _known _op asked => asked) ())
      | advance index ok =>
          change Program.AllMeet _ (machine.mail.step world.vendor (world.sites me).ownId
            (.advance index ok)).calls machine.letters
          simp only [Messaging.State.step]
          split
          next op next present =>
              obtain ⟨inputs, _found, _asked, stays⟩ := holds.mail.advance present
              exact stays _ trivial
          next => exact holds.mail
      | markRead id ok => exact holds.mail
  | peers event => exact holds.mail

theorem letters_step (holds : MachineSound world happened me machine) {happening : Happening ι}
    (fits : Fits world happened me machine happening) :
    ∀ inputs ∈ (machine.step world.vendor (world.sites me) happening).letters,
      Wrote happened me world inputs := by
  intro inputs member
  simp only [Machine.step] at member
  cases launches : happening.written with
  | none =>
      rw [launches] at member
      exact holds.letters inputs member
  | some launched =>
      rw [launches] at member
      rcases List.mem_append.mp member with earlier | last
      · exact holds.letters inputs earlier
      · rw [List.mem_singleton.mp last]
        unfold Happening.written at launches
        split at launches
        next =>
            cases launches
            exact fits
        next => cases launches

theorem registered_writeBack :
    Peers.WriteBack (Peers.guard (Registered happened me) fun _op _reply => True) :=
  Peers.guard_writeBack (fun _peer _seen registered _clock => registered)
    fun _peer registered => registered

theorem peersRequest_background {packet : Packet}
    (undiscovered : packet.type ≠ .peerDiscover ∧ packet.type ≠ .peerAnnounce)
    {request : Peers.Request} (requests : peersRequest packet = some request) :
    request.Background := by
  unfold peersRequest at requests
  split at requests
  next discovers => exact absurd discovers undiscovered.1
  next announces => exact absurd announces undiscovered.2
  next =>
      cases requests
      trivial
  next =>
      cases requests
      trivial
  next => cases requests

theorem peers_step (holds : MachineSound world happened me machine) {happening : Happening ι}
    (fits : Fits world happened me machine happening) :
    PeersSound world.vendor (world.sites me).ownId (Registered happened me)
      (machine.step world.vendor (world.sites me) happening).peers := by
  have stored (peer : PeerInfo) (registered : Registered happened me peer) := registered.stored
  cases happening with
  | handle caller packet arrival received =>
      refine EventRun.optionally_kept (PeersSound world.vendor (world.sites me).ownId
        (Registered happened me)) holds.peers fun event arrives => ?_
      obtain ⟨request, requests, launches⟩ := Option.map_eq_some_iff.mp arrives
      rw [← launches]
      exact holds.peers.launch registered_writeBack (peersRequest_background fits requests)
  | files event => exact holds.peers
  | mail event => exact holds.peers
  | peers event =>
      cases event with
      | addPeer stores id ip port =>
          apply holds.peers.addPeer stored
          intro succeeds valid
          rw [succeeds] at fits
          exact ⟨id, ip, port, fits, valid, rfl, rfl, rfl⟩
      | removePeer stores id =>
          exact ⟨⟨Peers.removePeer_rows holds.peers.rows.rows stores id,
            holds.peers.rows.guarded⟩, holds.peers.asks⟩
      | launch request => exact holds.peers.launch registered_writeBack fits
      | advance index answer =>
          exact @PeersSound.advance world.vendor (world.sites me).ownId
            (world.sites me).listenPort _ _ holds.peers stored index answer

theorem MachineSound.step (holds : MachineSound world happened me machine)
    {happening : Happening ι} (fits : Fits world happened me machine happening) :
    MachineSound world happened me
      (machine.step world.vendor (world.sites me) happening) where
  node := EventRun.optionally_kept (NodeInvariant (world.sites me).host) holds.node
    fun event _happens => holds.node.step event
  files := files_step holds fits
  offers := offers_step holds fits
  mail := mail_step holds fits
  letters := letters_step holds fits
  peers := peers_step holds fits

/-- The handlers answer with acceptances and acknowledgements only, since
nothing is ever paused. -/
theorem reply_type {machine : Machine ι} {site : Site}
    (node : NodeInvariant site.host machine.files) {arrival : Arrival} {packet reply : Packet}
    (replies : reply ∈ machine.replies world.vendor site arrival packet) :
    reply.type ≠ .fileResume ∧ reply.type ≠ .fileReject := by
  rcases List.mem_append.mp replies with handled | acknowledged
  · unfold handleTransferPacket at handled
    split at handled
    next =>
        rcases handleFileOffer_cases arrival packet.payload machine.files.node with
          ⟨_malformed, same⟩ | ⟨offer, existing, _decoded, paused, _same⟩ |
          ⟨offer, _decoded, _notPaused, same⟩
        · rw [same] at handled
          cases handled
        · obtain ⟨found, isPaused⟩ := pausedRecord_eq_some.mp paused
          exact absurd isPaused (node.records _ _ found).notPaused
        · rw [same] at handled
          rw [List.mem_singleton.mp handled]
          exact ⟨nofun, nofun⟩
    next =>
        rcases handleFileChunk_cases arrival packet.payload machine.files.node with
          ⟨_ignored, same⟩ | ⟨chunk, record, _applies, same⟩
        · rw [same] at handled
          cases handled
        · rw [same] at handled
          rw [List.mem_singleton.mp handled]
          exact ⟨nofun, nofun⟩
    next =>
        rcases handleFileComplete_cases arrival packet.payload machine.files.node with
          ⟨_ignored, same⟩ | ⟨_complete, _record, _decoded, _found, _differs, same⟩ |
          ⟨_complete, _record, _decoded, _found, _verified, same⟩
        all_goals
          rw [same] at handled
          cases handled
    next => cases handled
  · split at acknowledged
    next =>
        rw [List.mem_singleton.mp acknowledged]
        exact ⟨nofun, nofun⟩
    next => cases acknowledged

end Machines

/-! ### Every machine and the traffic -/

section Networks

variable (world : World ι) (happened : Event ι → Prop)

structure Sound (state : State ι) : Prop where
  machines : ∀ machine, MachineSound world happened machine (state.machines machine)
  traffic : ∀ item ∈ state.traffic, Accounted world state.machines item

theorem Sound.initial (files : ι → Bytes → Option Bytes) :
    Sound world happened (State.initial files) where
  machines := fun machine => MachineSound.initial (files machine)
  traffic := fun _item impossible => by cases impossible

variable {world happened}

theorem Sound.fits {state : State ι} (holds : Sound world happened state) {event : Event ι}
    (happens : happened event) (admitted : state.Admits world event) :
    Fits world happened event.machine (state.machines event.machine) event.happening := by
  obtain ⟨me, happening⟩ := event
  have rows := (holds.machines me).peers.rows.rows
  cases happening with
  | handle caller packet arrival received =>
      have accounted := (holds.traffic _ admitted.1).no_discovery
      exact ⟨accounted.1, accounted.2.1⟩
  | files event =>
      cases event with
      | packet arrival packet => exact admitted
      | cancel id now => trivial
      | launch inputs =>
          obtain ⟨ownId, peer⟩ := admitted
          exact ⟨happens, ownId, peer ▸ addressed_of_rows rows inputs.recipientId⟩
      | advance index answer =>
          intro next packet present answered
          exact (holds.traffic _ (admitted next packet present answered)).1
  | mail event =>
      cases event with
      | receive arrival payload => exact admitted
      | launch inputs =>
          obtain ⟨ownId, peer⟩ := admitted
          exact ⟨happens, ownId, peer ▸ addressed_of_rows rows inputs.recipientId⟩
      | advance index ok => trivial
      | markRead id ok => trivial
  | peers event =>
      cases event with
      | addPeer stores id ip port => exact happens
      | removePeer stores id => trivial
      | launch request =>
          cases request with
          | pingPeer id => trivial
          | beaconLoop rounds => trivial
          | _ => exact admitted.elim
      | advance index answer => trivial

theorem emits_accounted {machines : ι → Machine ι} {me : ι}
    (holds : MachineSound world happened me (machines me)) {happening : Happening ι}
    {item : Traffic ι}
    (emitted : item ∈ (machines me).emits world.vendor (world.sites me) me happening) :
    Accounted world machines item := by
  cases happening with
  | handle caller packet arrival received =>
      obtain ⟨reply, replies, same⟩ := List.mem_map.mp emitted
      rw [← same]
      exact reply_type holds.node replies
  | files event =>
      cases event with
      | advance index answer =>
          simp only [Machine.emits] at emitted
          cases present : (machines me).files.sends[index]? with
          | none =>
              rw [present] at emitted
              cases emitted
          | some program =>
              rw [present, Option.elim_some] at emitted
              unfold fileTraffic at emitted
              split at emitted
              next ip port next =>
                  obtain ⟨inputs, found, asked, _stays⟩ := holds.files.advance present
                  rw [List.mem_singleton.mp emitted]
                  cases asked with
                  | connectTo valid registered =>
                      exact ⟨inputs, found, valid, _, registered, rfl, rfl⟩
                  | other asked dials sends => exact absurd rfl (dials ip port)
              next sent next =>
                  obtain ⟨inputs, found, asked, _stays⟩ := holds.files.advance present
                  rw [List.mem_singleton.mp emitted]
                  cases asked with
                  | sendPacket own => exact ⟨inputs, found, own⟩
                  | other asked dials sends => exact absurd rfl (sends sent)
              next => cases emitted
      | _ => cases emitted
  | mail event =>
      cases event with
      | advance index ok =>
          simp only [Machine.emits] at emitted
          cases present : (machines me).mail.calls[index]? with
          | none =>
              rw [present] at emitted
              cases emitted
          | some program =>
              rw [present, Option.elim_some] at emitted
              unfold mailTraffic at emitted
              split at emitted
              next ip port sent next =>
                  obtain ⟨inputs, found, asked, _stays⟩ := holds.mail.advance present
                  cases asked with
                  | sendPacket valid registered =>
                      rcases List.mem_cons.mp emitted with dialled | emitted
                      · rw [dialled]
                        exact ⟨inputs, found, valid, _, registered, rfl, rfl⟩
                      · rw [List.mem_singleton.mp emitted]
                        exact ⟨inputs, found, rfl⟩
              next => cases emitted
      | _ => cases emitted
  | peers event =>
      cases event with
      | advance index answer =>
          simp only [Machine.emits] at emitted
          cases present : (machines me).peers.calls[index]? with
          | none =>
              rw [present] at emitted
              cases emitted
          | some call =>
              have asks := holds.peers.asks call (List.mem_of_getElem? present)
              rw [present, Option.elim_some] at emitted
              unfold peersTraffic at emitted
              split at emitted
              next ip port sent next same =>
                  rw [same] at asks
                  rcases List.mem_cons.mp emitted with dialled | emitted
                  · rw [dialled]
                    trivial
                  · rw [List.mem_singleton.mp emitted]
                    exact asks.1
              next sent next same =>
                  rw [same] at asks
                  obtain ⟨asking, _serves, answered⟩ := List.mem_map.mp emitted
                  rw [← answered]
                  simp only [Accounted]
                  rcases asks.1 with pong | announce
                  · rw [pong]
                    decide
                  · rw [announce]
                    decide
              next => cases emitted
      | _ => cases emitted

private theorem kept_append {α : Type} {earlier : List α} {added : Option α} {index : Nat}
    {item : α} (found : earlier[index]? = some item) :
    (EventRun.optionally (fun earlier item => earlier ++ [item]) earlier added)[index]? =
      some item := by
  refine EventRun.optionally_kept (fun list => list[index]? = some item) found ?_
  intro last _added
  obtain ⟨inside, _same⟩ := List.getElem?_eq_some_iff.mp found
  rw [List.getElem?_append_left inside]
  exact found

/-- The user of the sender has added the recipient at an address of the machine. -/
def Reaches (world : World ι) (happened : Event ι → Prop) (sender : ι) (recipientId : Bytes)
    (receiver : ι) : Prop :=
  ∃ ip port,
    happened
        { machine := sender
          happening := .peers (.addPeer true recipientId ip port) } ∧
      world.listener (cstr ip) port = some receiver

inductive Arriving (world : World ι) (happened : Event ι → Prop) (receiver : ι) :
    Caller ι → Packet → Prop where
  | file {sender : ι} {index : Nat} {inputs : SendInputs} {packet : Packet}
      (offered : Offered happened sender world inputs)
      (own : FilePacket world.vendor inputs packet)
      (reaches : Reaches world happened sender inputs.recipientId receiver) :
      Arriving world happened receiver (.sendFile sender index) packet
  | message {sender : ι} {index : Nat} {inputs : Messaging.Inputs}
      (wrote : Wrote happened sender world inputs)
      (reaches : Reaches world happened sender inputs.recipientId receiver) :
      Arriving world happened receiver (.sendMsg sender index)
        (Messaging.messagePacket world.vendor inputs)
  | ping (sender : ι) (index : Nat) (ts : Int64) :
      Arriving world happened receiver (.peers sender index)
        (Peers.pingPacket world.vendor (world.sites sender).ownId ts)

private theorem reaches_of_dials {sender receiver : ι} {recipientId : Bytes}
    {peer : Option PeerInfo} {ip : Bytes} {port : UInt16}
    (addressed : Addressed happened sender recipientId peer)
    (dials : Dials recipientId peer ip port) (listens : world.listener ip port = some receiver) :
    Reaches world happened sender recipientId receiver := by
  obtain ⟨valid, found, present, sameIp, samePort⟩ := dials
  obtain ⟨added, happens, isIp⟩ := addressed.added present valid
  refine ⟨added, found.port, happens, ?_⟩
  rw [← isIp, sameIp, samePort]
  exact listens

theorem Sound.arriving {state : State ι} (holds : Sound world happened state) {receiver : ι}
    {caller : Caller ι} {packet : Packet} (arrives : state.Arrives world receiver caller packet) :
    Arriving world happened receiver caller packet := by
  obtain ⟨sent, ip, port, dialled, listens⟩ := arrives
  have isSent := holds.traffic _ sent
  have isDialled := holds.traffic _ dialled
  cases caller with
  | sendFile sender index =>
      obtain ⟨inputs, found, own⟩ := isSent
      obtain ⟨others, foundAgain, dials⟩ := isDialled
      rw [found, Option.some.injEq] at foundAgain
      rw [← foundAgain] at dials
      have offered := (holds.machines sender).offers inputs (List.mem_of_getElem? found)
      exact .file offered own (reaches_of_dials offered.addressed dials listens)
  | sendMsg sender index =>
      obtain ⟨inputs, found, own⟩ := isSent
      obtain ⟨others, foundAgain, dials⟩ := isDialled
      rw [found, Option.some.injEq] at foundAgain
      rw [← foundAgain] at dials
      have wrote := (holds.machines sender).letters inputs (List.mem_of_getElem? found)
      rw [own]
      exact .message wrote (reaches_of_dials wrote.addressed dials listens)
  | peers sender index =>
      obtain ⟨ts, own⟩ := isSent
      rw [own]
      exact .ping sender index ts

variable [DecidableEq ι]

theorem Sound.step {state : State ι} (holds : Sound world happened state) {event : Event ι}
    (happens : happened event) (admitted : state.Admits world event) :
    Sound world happened (state.step world event) := by
  have fits := holds.fits happens admitted
  have here := (holds.machines event.machine).step fits
  constructor
  · intro machine
    by_cases same : event.machine = machine
    · rw [← same, State.step_machine_self]
      exact here
    · rw [state.step_machine_of_ne same]
      exact holds.machines machine
  · intro item member
    have before : Accounted world state.machines item := by
      rcases List.mem_append.mp member with earlier | emitted
      · exact holds.traffic item earlier
      · exact emits_accounted (holds.machines event.machine) emitted
    apply before.mono
    · intro machine index inputs found
      by_cases same : event.machine = machine
      · rw [← same] at found ⊢
        rw [State.step_machine_self]
        exact kept_append found
      · rw [state.step_machine_of_ne same]
        exact found
    · intro machine index inputs found
      by_cases same : event.machine = machine
      · rw [← same] at found ⊢
        rw [State.step_machine_self]
        exact kept_append found
      · rw [state.step_machine_of_ne same]
        exact found

/-- Along a run that can happen, an invariant may rely on the soundness of every
state it meets. -/
theorem Admissible.invariant (invariant : State ι → Prop) {state : State ι}
    {events : List (Event ι)} (admissible : Admissible world state events)
    (sound : Sound world (· ∈ events) state)
    (kept : ∀ before event, Sound world (· ∈ events) before → event ∈ events →
      before.Admits world event → invariant before → invariant (before.step world event))
    (holds : invariant state) :
    Sound world (· ∈ events) (state.run world events) ∧
      invariant (state.run world events) := by
  have both (before : State ι) (event : Event ι)
      (earlier : Sound world (· ∈ events) before ∧ invariant before)
      (condition : event ∈ events ∧ before.Admits world event) :
      Sound world (· ∈ events) (before.step world event) ∧
        invariant (before.step world event) :=
    ⟨earlier.1.step condition.1 condition.2,
      kept before event earlier.1 condition.1 condition.2 earlier.2⟩
  exact (EventRun.Along.and_mem admissible fun event member => member).invariant both
    ⟨sound, holds⟩

theorem sound_of_admissible (files : ι → Bytes → Option Bytes) {events : List (Event ι)}
    (admissible : Admissible world (State.initial files) events) :
    Sound world (· ∈ events) ((State.initial files).run world events) :=
  (admissible.invariant (fun _state => True) (Sound.initial world _ files)
    (fun _before _event _sound _member _admitted _holds => trivial) trivial).1

/-- In every run of any number of machines, a machine knows no peer but those its
user has added, each at the address that was added for it: what the machines
send each other adds no peer and changes no address. -/
theorem known_peers_were_added (world : World ι) (files : ι → Bytes → Option Bytes)
    {events : List (Event ι)} (admissible : Admissible world (State.initial files) events)
    (me : ι) (peer : PeerInfo)
    (known : peer ∈ (((State.initial files).run world events).machines
      me).peers.table.allPeers) :
    isValidUuid peer.id = true ∧ ∃ ip,
      { machine := me
        happening := .peers (.addPeer true peer.id ip peer.port) } ∈ events ∧
      peer.ip = cstr ip := by
  have sound := sound_of_admissible files admissible
  obtain ⟨id, ip, port, added, valid, sameId, sameIp, samePort⟩ :=
    (sound.machines me).peers.rows.rows peer known
  have stored := PeerTable.stored_of_getPeer (PeerTable.getPeer_of_mem known)
  have isId : peer.id = id := by
    calc peer.id
      _ = cstr peer.id := (congrArg PeerInfo.id stored).symm
      _ = cstr id := sameId
      _ = id := cstr_of_nulFree (isValidUuid_nulFree valid)
  have isIp : peer.ip = cstr ip := (congrArg PeerInfo.ip stored).symm.trans sameIp
  rw [isId, samePort]
  exact ⟨valid, ip, added, isIp⟩

/-- The peer that the first user has added is known. -/
theorem peer_known : isValidUuid Reference.added.id = true ∧ ∃ ip,
    { machine := false
      happening := .peers (.addPeer true Reference.added.id ip Reference.added.port) } ∈
        Reference.offering ∧
    Reference.added.ip = cstr ip :=
  known_peers_were_added Reference.world Reference.disks Reference.offering_admissible false
    Reference.added List.mem_cons_self

/-- In every run nobody is asked to resume a transfer, and none is rejected: what a
call of `send_file` sends, by its place among the calls of its machine, is the offer of
its file, a piece of the file at its place from the start, or the completion. -/
theorem transfers_start_over (world : World ι) (files : ι → Bytes → Option Bytes)
    {events : List (Event ι)} (admissible : Admissible world (State.initial files) events) :
    (∀ caller packet,
      .answered caller packet ∈ ((State.initial files).run world events).traffic →
        packet.type ≠ .fileResume ∧ packet.type ≠ .fileReject) ∧
      ∀ sender index packet,
        .sent (.sendFile sender index) packet ∈
            ((State.initial files).run world events).traffic →
          ∃ inputs, (sendCalls sender events)[index]? = some inputs ∧
            FilePacket world.vendor inputs packet := by
  have sound := sound_of_admissible files admissible
  constructor
  · intro caller packet answered
    exact sound.traffic _ answered
  · intro sender index packet sent
    obtain ⟨inputs, found, own⟩ := sound.traffic _ sent
    rw [offers_run] at found
    exact ⟨inputs, found, own⟩

/-- What the first machine has sent belongs to the first call of its user. -/
theorem offer_is_sent : ∃ inputs, (sendCalls false Reference.offering)[0]? = some inputs ∧
    FilePacket Reference.world.vendor inputs Reference.offer := by
  have sent : .sent (.sendFile false 0) Reference.offer ∈
      (Reference.after Reference.offering).traffic := by
    rw [Reference.offering_stands.2.1]
    exact List.mem_cons_of_mem _ (List.mem_singleton_self _)
  exact (transfers_start_over Reference.world Reference.disks
    Reference.offering_admissible).2 false 0 Reference.offer sent

end Networks

end Fleet
end Shr
