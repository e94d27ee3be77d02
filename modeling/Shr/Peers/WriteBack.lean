/-
Calls that write back what they have read.

`ping_peer`, `beacon_loop`, `handle_ping` and `handle_pong` have one shape: read
rows, spend time, and write a row back with its flag and its time changed.  Any
contract that allows this is met by all four; `handle_discover` and
`handle_announce` also need a fresh row to be allowed.  A guard is the contract
of a property of single peers: what was read with it is written with it.
-/

import Shr.Peers.Runs

namespace Shr
namespace Peers

/-- A contract that lets a call write back a peer it has read, with a new flag
and a time it has just read from the clock. -/
structure WriteBack (contract : Contract signature (List PeerInfo)) : Prop where
  tracks : Tracks contract
  others : ∀ (held : List PeerInfo) (op : Op), (∀ peer, op ≠ .upsertPeer peer) →
    contract.allowed held op
  seen : ∀ (held : List PeerInfo) (peer : PeerInfo) (seen : Int64), peer ∈ held →
    contract.possible held .now seen →
      contract.allowed held (.upsertPeer { peer with online := true, lastSeen := seen })
  unseen : ∀ (held : List PeerInfo) (peer : PeerInfo), peer ∈ held →
    contract.allowed held (.upsertPeer { peer with online := false })

section Meets

variable {vendor : Vendor} {ownId : Bytes} {contract : Contract signature (List PeerInfo)}
  {held : List PeerInfo}

theorem WriteBack.meets_ask {α : Type} {post : List PeerInfo → α → Prop}
    (back : WriteBack contract) {op : Op} (query : ∀ peer, op ≠ .upsertPeer peer)
    {following : op.Reply → PeerProgram α}
    (rest : ∀ reply : op.Reply, contract.possible held op reply →
      (following reply).Meets contract post (op.learned held reply)) :
    (ask op >>= following).Meets contract post held := by
  refine Program.meets_call.mpr ⟨back.others held op query, ?_⟩
  intro reply possible
  have learned := back.tracks held op reply
  exact learned ▸ rest reply possible

theorem WriteBack.meets_upsert {α : Type} {post : List PeerInfo → α → Prop}
    (back : WriteBack contract) {peer : PeerInfo}
    (allowed : contract.allowed held (.upsertPeer peer)) {following : Bool → PeerProgram α}
    (rest : ∀ stored, (following stored).Meets contract post held) :
    (upsertPeer peer >>= following).Meets contract post held := by
  refine Program.meets_call.mpr ⟨allowed, ?_⟩
  intro stored _possible
  have learned := back.tracks held (.upsertPeer peer) stored
  exact learned ▸ rest stored

theorem probe_meets (back : WriteBack contract) {peer : PeerInfo} (member : peer ∈ held) :
    (probe vendor ownId peer).Meets contract (fun known _alive => known = held) held := by
  unfold probe
  apply back.meets_ask (by simp)
  intro ts _possible
  apply back.meets_ask (by simp)
  intro alive _possible
  cases (alive : Bool) with
  | true =>
      rw [if_pos rfl]
      apply back.meets_ask (by simp)
      intro seen possible
      exact back.meets_upsert (back.seen held peer seen member possible) fun _stored => rfl
  | false =>
      rw [if_neg Bool.false_ne_true]
      exact back.meets_upsert (back.unseen held peer member) fun _stored => rfl

theorem pingPeer_meets (back : WriteBack contract) (id : Bytes) :
    (pingPeer vendor ownId id).Meets contract (fun _known _ok => True) held := by
  unfold pingPeer
  apply back.meets_ask (by simp)
  intro found _possible
  cases (found : Option PeerInfo) with
  | none => trivial
  | some peer =>
      have member : peer ∈ Op.learned held (.getPeer id) (some peer) := List.mem_singleton_self peer
      exact (probe_meets back member).mono fun _known _alive _same => trivial

theorem beaconPass_meets (back : WriteBack contract) (peers : List PeerInfo)
    (members : ∀ peer ∈ peers, peer ∈ held) :
    (beaconPass vendor ownId peers).Meets contract (fun _known _ended => True) held := by
  induction peers with
  | nil => trivial
  | cons peer rest ih =>
      rw [List.forall_mem_cons] at members
      unfold beaconPass
      split
      next => exact ih members.2
      next =>
          refine (probe_meets back members.1).bind ?_
          rintro known _alive rfl
          exact ih members.2

theorem beaconPause_meets (back : WriteBack contract) (left : Nat) :
    (beaconPause left).Meets contract (fun _known _ended => True) held := by
  induction left with
  | zero => trivial
  | succ left ih =>
      apply back.meets_ask (by simp)
      intro running _possible
      cases (running : Bool) with
      | true =>
          apply back.meets_ask (by simp)
          intro _slept _possible
          exact ih
      | false => trivial

theorem beaconLoop_meets (back : WriteBack contract) (rounds : Nat) :
    (beaconLoop vendor ownId rounds).Meets contract (fun _known _ended => True) held := by
  induction rounds generalizing held with
  | zero => trivial
  | succ rounds ih =>
      apply back.meets_ask (by simp)
      intro running _possible
      cases (running : Bool) with
      | true =>
          apply back.meets_ask (by simp)
          intro peers _possible
          refine (beaconPass_meets back peers fun peer member => member).bind ?_
          intro known _passed _trivial
          refine (beaconPause_meets back 30).bind ?_
          intro later _paused _trivial
          exact ih
      | false => trivial

theorem markSeen_meets (back : WriteBack contract) (sender : Bytes) :
    (markSeen sender).Meets contract (fun _known _ended => True) held := by
  unfold markSeen
  apply back.meets_ask (by simp)
  intro found _possible
  cases (found : Option PeerInfo) with
  | none => trivial
  | some peer =>
      have member : peer ∈ Op.learned held (.getPeer sender) (some peer) :=
        List.mem_singleton_self peer
      apply back.meets_ask (by simp)
      intro seen possible
      exact back.meets_upsert (back.seen _ peer seen member possible) fun _stored => trivial

theorem handlePing_meets (back : WriteBack contract) (payload : Bytes) :
    (handlePing vendor ownId payload).Meets contract (fun _known _ended => True) held := by
  unfold handlePing
  cases readFrom vendor payload with
  | none => trivial
  | some sender =>
      refine (markSeen_meets back sender).bind ?_
      intro known _marked _trivial
      apply back.meets_ask (by simp)
      intro ts _possible
      apply back.meets_ask (by simp)
      intro _sent _possible
      trivial

theorem handlePong_meets (back : WriteBack contract) (payload : Bytes) :
    (handlePong vendor payload).Meets contract (fun _known _ended => True) held := by
  unfold handlePong
  cases readFrom vendor payload with
  | none => trivial
  | some sender => exact markSeen_meets back sender

/-- The calls that only write back rows. -/
def Request.Background : Request → Prop
  | .discover _ => False
  | .announce _ => False
  | _ => True

theorem Request.meets (back : WriteBack contract) {listenPort : UInt16} (request : Request)
    (background : request.Background) :
    (request.program vendor ownId listenPort).Meets contract (fun _held _result => True)
      held := by
  cases request with
  | discover payload => exact absurd background id
  | announce payload => exact absurd background id
  | ping payload => exact handlePing_meets back payload
  | pong payload => exact handlePong_meets back payload
  | pingPeer id => exact (pingPeer_meets back id).bind fun _known _ok _trivial => trivial
  | beaconLoop rounds => exact beaconLoop_meets back rounds

/-! ### Announcements -/

/-- A `PeerDiscover` or a `PeerAnnounce` that passes the checks of its handler. -/
structure Accepted (vendor : Vendor) (ownId payload : Bytes) (announced : Announcement) :
    Prop where
  read : readAnnouncement vendor payload = some announced
  valid : isValidUuid announced.id = true
  other : announced.id ≠ ownId

theorem recordAnnounced_meets (back : WriteBack contract) {announced : Announcement}
    (fresh : ∀ seen : Int64, contract.possible held .now seen →
      contract.allowed held (.upsertPeer (announcedPeer announced seen))) :
    (recordAnnounced announced).Meets contract (fun _known _ended => True) held := by
  unfold recordAnnounced
  apply back.meets_ask (by simp)
  intro seen possible
  exact back.meets_upsert (fresh seen possible) fun _stored => trivial

theorem handleDiscover_meets (back : WriteBack contract) {listenPort : UInt16} {payload : Bytes}
    (fresh : ∀ announced, Accepted vendor ownId payload announced →
      contract.possible held (.getPeer announced.id) none →
      ∀ seen : Int64, contract.possible [] .now seen →
        contract.allowed [] (.upsertPeer (announcedPeer announced seen))) :
    (handleDiscover vendor ownId listenPort payload).Meets contract
      (fun _known _ended => True) held := by
  unfold handleDiscover
  split
  next => trivial
  next announced read =>
      split
      next => trivial
      next valid =>
          rw [Bool.not_eq_false] at valid
          split
          next => trivial
          next other =>
              have sends : ∀ known : List PeerInfo, (do
                  let _sent ← sendPacketConn (announcePacket vendor ownId listenPort)
                  return () : PeerProgram Unit).Meets contract
                    (fun _known _ended => True) known := by
                intro known
                apply back.meets_ask (by simp)
                intro _sent _possible
                trivial
              apply back.meets_ask (by simp)
              intro existing possible
              split
              next absent =>
                  cases absent
                  exact (recordAnnounced_meets back
                    (fresh announced ⟨read, valid, other⟩ possible)).bind
                      fun known _recorded _trivial => sends known
              next => exact sends _

theorem handleAnnounce_meets (back : WriteBack contract) {payload : Bytes}
    (fresh : ∀ announced, Accepted vendor ownId payload announced →
      ∀ seen : Int64, contract.possible held .now seen →
        contract.allowed held (.upsertPeer (announcedPeer announced seen))) :
    (handleAnnounce vendor ownId payload).Meets contract (fun _known _ended => True) held := by
  unfold handleAnnounce
  split
  next => trivial
  next announced read =>
      split
      next => trivial
      next valid =>
          rw [Bool.not_eq_false] at valid
          split
          next => trivial
          next other => exact recordAnnounced_meets back (fresh announced ⟨read, valid, other⟩)

end Meets

/-! ### Guards -/

def guard (good : PeerInfo → Prop) (possible : (op : Op) → op.Reply → Prop) :
    Contract signature (List PeerInfo) :=
  { allowed := fun held op => (∀ peer ∈ held, good peer) →
      ∀ peer, op = .upsertPeer peer → good peer
    possible := fun _held op reply => possible op reply
    learned := fun held op reply => op.learned held reply }

structure Guarded (good : PeerInfo → Prop) (possible : (op : Op) → op.Reply → Prop)
    (calls : List Call) : Prop where
  held : ∀ call ∈ calls, ∀ peer ∈ call.held, good peer
  meet : CallsMeet (guard good possible) calls

section Guards

variable {vendor : Vendor} {ownId : Bytes} {listenPort : UInt16}
variable {good : PeerInfo → Prop} {possible : (op : Op) → op.Reply → Prop}

theorem guard_writeBack
    (seen : ∀ (peer : PeerInfo) (seen : Int64), good peer → possible .now seen →
      good { peer with online := true, lastSeen := seen })
    (unseen : ∀ peer : PeerInfo, good peer → good { peer with online := false }) :
    WriteBack (guard good possible) where
  tracks := fun _held _op _reply => rfl
  others := fun _held _op query _known peer same => absurd same (query peer)
  seen := by
    intro held peer time member clock known written same
    cases same
    exact seen peer time (known peer member) clock
  unseen := by
    intro held peer member known written same
    cases same
    exact unseen peer (known peer member)

theorem guard_allows_fresh {held : List PeerInfo} {peer : PeerInfo} (fresh : good peer) :
    (guard good possible).allowed held (.upsertPeer peer) := by
  intro _known written same
  cases same
  exact fresh

theorem Request.meets_guard (back : WriteBack (guard good possible))
    (fresh : ∀ payload announced, Accepted vendor ownId payload announced →
      ∀ seen : Int64, possible .now seen → good (announcedPeer announced seen))
    (request : Request) :
    (request.program vendor ownId listenPort).Meets (guard good possible)
      (fun _held _result => True) [] := by
  cases request with
  | discover payload =>
      apply handleDiscover_meets back
      intro announced accepted _absent seen clock
      exact guard_allows_fresh (fresh payload announced accepted seen clock)
  | announce payload =>
      apply handleAnnounce_meets back
      intro announced accepted seen clock
      exact guard_allows_fresh (fresh payload announced accepted seen clock)
  | ping payload => exact Request.meets back (.ping payload) trivial
  | pong payload => exact Request.meets back (.pong payload) trivial
  | pingPeer id => exact Request.meets back (.pingPeer id) trivial
  | beaconLoop rounds => exact Request.meets back (.beaconLoop rounds) trivial

theorem Guarded.nil : Guarded good possible [] where
  held := fun _call impossible => by cases impossible
  meet := fun _call impossible => by cases impossible

theorem Guarded.launch {calls : List Call} (guarded : Guarded good possible calls)
    {program : PeerProgram Unit}
    (meets : program.Meets (guard good possible) (fun _held _result => True) []) :
    Guarded good possible (calls ++ [{ program := program, held := [] }]) where
  held := by
    intro call member
    rcases List.mem_append.mp member with earlier | launched
    · exact guarded.held call earlier
    · rw [List.mem_singleton.mp launched]
      intro peer impossible
      cases impossible
  meet := guarded.meet.launch meets

theorem Op.learned_good {table : PeerTable} (reads : ∀ peer ∈ table.allPeers, good peer)
    (answer : Answer) (op : Op) {held : List PeerInfo} (earlier : ∀ peer ∈ held, good peer) :
    ∀ peer ∈ op.learned held (op.effect answer table).1, good peer := by
  cases op with
  | getPeer id =>
      intro peer member
      exact reads peer (PeerTable.mem_of_getPeer (Option.mem_toList.mp member))
  | allPeers => exact reads
  | _ => exact earlier

/-- One operation of a guarded call: the calls stay guarded, and the table is as
before or has one more good peer. -/
theorem Guarded.advance {state : State} (guarded : Guarded good possible state.calls)
    (reads : ∀ peer ∈ state.table.allPeers, good peer) (index : Nat) (answer : Answer)
    (answers : ∀ op : Op, possible op (op.effect answer state.table).1) :
    Guarded good possible (state.step vendor ownId listenPort (.advance index answer)).calls ∧
      ((state.step vendor ownId listenPort (.advance index answer)).table = state.table ∨
        ∃ peer, good peer ∧
          (state.step vendor ownId listenPort (.advance index answer)).table =
            state.table.upsertPeer peer) := by
  rcases state.step_advance index answer with ⟨op, next, held, found, step⟩ | same
  · have member := List.mem_of_getElem? found
    have earlier := guarded.held _ member
    rw [step]
    refine ⟨⟨?_, ?_⟩, ?_⟩
    · intro call callMember
      rcases List.mem_or_eq_of_mem_set callMember with other | advanced
      · exact guarded.held call other
      · rw [advanced]
        exact op.learned_good reads answer earlier
    · exact guarded.meet.set (fun _held _op _reply => rfl) found (answers op)
    · rcases op.effect_table answer state.table with same | ⟨peer, upsert, written⟩
      · exact .inl same
      · exact .inr ⟨peer, (guarded.meet _ member).1 earlier peer upsert, written⟩
  · rw [same]
    exact ⟨guarded, .inl rfl⟩

end Guards

end Peers
end Shr
