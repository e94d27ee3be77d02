/-
Machines that reach each other.

Any number of machines run the program, each on its own store.  A packet may
arrive late, twice or never, and packets may overtake each other; but what
arrives at a machine has been sent by a call that opened a connection to an
address where this machine listens, and what a call reads has been sent back on
its own connection.  A connection whose send has failed carries nothing more
that can be read as a packet.  A broadcast reaches nobody: the program listens
for connections only.
-/

import Shr.Fleet.Machine
import Shr.Reference
import Shr.Transfer.Course

namespace Shr
namespace Fleet

variable {ι : Type} [DecidableEq ι]

/-- The libraries, the machines, and who listens at an address. -/
structure World (ι : Type) where
  vendor : Vendor
  sites : ι → Site
  listener : Bytes → UInt16 → Option ι

structure State (ι : Type) where
  machines : ι → Machine ι
  traffic : List (Traffic ι)

structure Event (ι : Type) where
  machine : ι
  happening : Happening ι

/-- No machine knows anything yet; the files are whatever is on the disks. -/
def State.initial (files : ι → Bytes → Option Bytes) : State ι :=
  { machines := fun machine => Machine.initial ι (files machine)
    traffic := [] }

section Steps

variable (world : World ι)

def State.step (state : State ι) (event : Event ι) : State ι :=
  { machines := Function.update state.machines event.machine
      ((state.machines event.machine).step world.vendor (world.sites event.machine)
        event.happening)
    traffic := state.traffic ++
      (state.machines event.machine).emits world.vendor (world.sites event.machine) event.machine
        event.happening }

def State.run (state : State ι) (events : List (Event ι)) : State ι :=
  EventRun.run (State.step world) state events

/-! ### What can happen -/

/-- The packet can arrive at the machine: its sender has opened a connection to
an address of the machine, and has sent the packet. -/
def State.Arrives (state : State ι) (machine : ι) (caller : Caller ι) (packet : Packet) : Prop :=
  .sent caller packet ∈ state.traffic ∧
    ∃ ip port, .dialled caller ip port ∈ state.traffic ∧
      world.listener ip port = some machine

def UserRequest : Peers.Request → Prop
  | .pingPeer _ => True
  | .beaconLoop _ => True
  | _ => False

/-- Calls are made under the id of the machine and for a peer in its table;
packets come from the network. -/
def State.Admits (state : State ι) (event : Event ι) : Prop :=
  match event.happening with
  | .handle caller packet _arrival _received => state.Arrives world event.machine caller packet
  | .files (.packet _arrival _packet) => False
  | .files (.cancel _id _now) => True
  | .files (.launch inputs) =>
      inputs.ownId = (world.sites event.machine).ownId ∧
        inputs.peer = Peers.findPeer inputs.recipientId (state.machines event.machine).peers.table
  | .files (.advance index answer) =>
      ∀ next packet,
        (state.machines event.machine).files.sends[index]? = some (.call .readPacket next) →
          answer.packet = some packet →
            .answered (.sendFile event.machine index) packet ∈ state.traffic
  | .mail (.receive _arrival _payload) => False
  | .mail (.launch inputs) =>
      inputs.ownId = (world.sites event.machine).ownId ∧
        inputs.peer = Peers.findPeer inputs.recipientId (state.machines event.machine).peers.table
  | .mail _ => True
  | .peers (.launch request) => UserRequest request
  | .peers _ => True

/-- Every event of the run can happen when it does. -/
def Admissible (state : State ι) (events : List (Event ι)) : Prop :=
  EventRun.Along (State.step world) (State.Admits world) state events

end Steps

/-! ### The parts of a machine -/

section Parts

variable {world : World ι}

def Event.at (machine : ι) (event : Event ι) : Option (Happening ι) :=
  if event.machine = machine then some event.happening else none

theorem State.step_machine (state : State ι) (event : Event ι) (machine : ι) :
    (state.step world event).machines machine =
      EventRun.optionally
        (fun (before : Machine ι) => before.step world.vendor (world.sites machine))
        (state.machines machine) (event.at machine) := by
  unfold State.step Event.at
  simp only
  by_cases here : event.machine = machine
  · subst here
    rw [Function.update_self, if_pos rfl]
    rfl
  · rw [Function.update_of_ne (Ne.symm here), if_neg here]
    rfl

theorem State.step_machine_self (state : State ι) (event : Event ι) :
    (state.step world event).machines event.machine =
      (state.machines event.machine).step world.vendor (world.sites event.machine)
        event.happening := by
  rw [State.step_machine, Event.at, if_pos rfl, EventRun.optionally_some]

theorem State.step_machine_of_ne (state : State ι) {event : Event ι} {machine : ι}
    (elsewhere : event.machine ≠ machine) :
    (state.step world event).machines machine = state.machines machine := by
  rw [State.step_machine, Event.at, if_neg elsewhere, EventRun.optionally_none]

private theorem part_views {σ ε : Type} {part : Machine ι → σ} {step : σ → ε → σ}
    {on : Happening ι → Option ε} {machine : ι}
    (steps : ∀ (before : Machine ι) happening,
      part (before.step world.vendor (world.sites machine) happening) =
        EventRun.optionally step (part before) (on happening))
    (state : State ι) (event : Event ι) :
    part ((state.step world event).machines machine) =
      EventRun.optionally step (part (state.machines machine)) ((event.at machine).bind on) := by
  rw [State.step_machine]
  cases event.at machine with
  | none => rfl
  | some happening => exact steps _ happening

variable (world) (machine : ι) (state : State ι) (events : List (Event ι))

theorem files_run :
    ((state.run world events).machines machine).files =
      (state.machines machine).files.run world.vendor (world.sites machine).host
        (events.filterMap fun event => (event.at machine).bind Happening.onFiles) :=
  EventRun.part_run (fun state => (state.machines machine).files) _
    (part_views fun _before _happening => rfl) state events

theorem mail_run :
    ((state.run world events).machines machine).mail =
      EventRun.run (Messaging.State.step world.vendor (world.sites machine).ownId)
        (state.machines machine).mail
        (events.filterMap fun event => (event.at machine).bind Happening.onMail) :=
  EventRun.part_run (fun state => (state.machines machine).mail) _
    (part_views fun _before _happening => rfl) state events

theorem peers_run :
    ((state.run world events).machines machine).peers =
      EventRun.run (Peers.State.step world.vendor (world.sites machine).ownId
        (world.sites machine).listenPort)
        (state.machines machine).peers
        (events.filterMap fun event => (event.at machine).bind Happening.onPeers) :=
  EventRun.part_run (fun state => (state.machines machine).peers) _
    (part_views fun _before _happening => rfl) state events

def sendCalls (events : List (Event ι)) : List SendInputs :=
  events.filterMap fun event => (event.at machine).bind Happening.offered

theorem offers_run :
    ((state.run world events).machines machine).offers =
      (state.machines machine).offers ++ sendCalls machine events := by
  have views (before : State ι) (event : Event ι) :
      ((before.step world event).machines machine).offers =
        EventRun.optionally (fun earlier inputs => earlier ++ [inputs])
          (before.machines machine).offers ((event.at machine).bind Happening.offered) := by
    rw [State.step_machine]
    cases event.at machine with
    | none => rfl
    | some happening => rfl
  unfold sendCalls
  rw [← EventRun.run_push]
  exact EventRun.part_run (fun state => (state.machines machine).offers) _ views state events

theorem files_reachable (files : ι → Bytes → Option Bytes) :
    (((State.initial files).run world events).machines machine).files.Reachable world.vendor
      (world.sites machine).host := by
  rw [files_run]
  exact ⟨files machine, _, rfl⟩

end Parts

/-! ### Two machines -/

namespace Reference

def sites : Bool → Site := fun machine =>
  { host := Shr.Reference.host
    ownId := if machine then Shr.Reference.peer.id else Shr.Reference.ownId
    listenPort := 7777 }

def world : World Bool :=
  { vendor := Shr.Reference.vendor
    sites := sites
    listener := fun ip port =>
      if ip = Shr.Reference.peer.ip ∧ port = Shr.Reference.peer.port then some true else none }

def disks : Bool → Bytes → Option Bytes :=
  fun _machine _path => none

abbrev after (events : List (Event Bool)) : State Bool :=
  (State.initial disks).run world events

def added : PeerInfo :=
  { Shr.Reference.peer with
    online := false
    «alias» := [] }

def addition : Event Bool :=
  { machine := false
    happening := .peers (.addPeer true added.id added.ip added.port) }

theorem find_added :
    Peers.findPeer added.id ((after [addition]).machines false).peers.table = some added :=
  rfl

def inputs (contents : Bytes) : SendInputs :=
  { Shr.Reference.sendInputs contents (fun _index => 0) with peer := some added }

theorem inputs_sendable (contents : Bytes) :
    Sendable (inputs contents) Shr.Reference.sentPath added where
  recipient := by
    change isValidUuid added.id = true
    decide
  known := rfl
  regular := rfl
  registered := rfl
  addressed := by decide

def call (contents : Bytes) : SendCall :=
  { inputs := inputs contents
    absPath := Shr.Reference.sentPath
    peer := added
    contents := contents
    sendable := inputs_sendable contents
    readable := rfl }

end Reference

end Fleet
end Shr
