/-
Spellings of one identifier.

`is_valid_uuid` takes hexadecimal digits of either case, so one UUID has several
spellings.  The primary key of the table, `find_peer` and the test against the
node's own id all compare bytes.  They agree with the UUIDs as long as no id with
a hexadecimal letter is stored.
-/

import Shr.Peers.Invariant

namespace Shr
namespace Peers

/-! ### Letter case -/

def isUpperHex (byte : UInt8) : Bool :=
  65 ≤ byte && byte ≤ 70

def isLowerHex (byte : UInt8) : Bool :=
  97 ≤ byte && byte ≤ 102

def lowerHex (byte : UInt8) : UInt8 :=
  if isUpperHex byte then byte + 32 else byte

def swapCase (byte : UInt8) : UInt8 :=
  if isUpperHex byte then byte + 32 else if isLowerHex byte then byte - 32 else byte

/-- Two texts that differ in letter case only. -/
def SameUuid (left right : Bytes) : Prop :=
  left.map lowerHex = right.map lowerHex

instance (left right : Bytes) : Decidable (SameUuid left right) :=
  inferInstanceAs (Decidable (_ = _))

def Caseless (text : Bytes) : Prop :=
  text.map swapCase = text

instance (text : Bytes) : Decidable (Caseless text) :=
  inferInstanceAs (Decidable (_ = _))

theorem lowerHex_swapCase (byte : UInt8) : lowerHex (swapCase byte) = lowerHex byte := by
  refine every_byte ?_ byte
  decide +kernel

theorem isHexDigit_swapCase (byte : UInt8) : isHexDigit (swapCase byte) = isHexDigit byte := by
  refine every_byte ?_ byte
  decide +kernel

theorem swapCase_eq_dash (byte : UInt8) : swapCase byte = 45 ↔ byte = 45 := by
  refine every_byte ?_ byte
  decide +kernel

theorem lowerHex_of_fixed {byte : UInt8} (fixed : swapCase byte = byte) :
    lowerHex byte = byte ∧ isLowerHex byte = false := by
  revert fixed
  refine every_byte ?_ byte
  decide +kernel

theorem isLowerHex_lowerHex {byte : UInt8} (upper : isUpperHex byte = true) :
    isLowerHex (lowerHex byte) = true := by
  revert upper
  refine every_byte ?_ byte
  decide +kernel

theorem eq_of_lowerHex {left right : UInt8} (fixed : swapCase left = left)
    (same : lowerHex left = lowerHex right) : left = right := by
  obtain ⟨lowered, noLetter⟩ := lowerHex_of_fixed fixed
  rw [lowered] at same
  by_cases upper : isUpperHex right = true
  · have letter := isLowerHex_lowerHex upper
    rw [← same, noLetter] at letter
    cases letter
  · rwa [lowerHex, if_neg upper] at same

theorem sameUuid_swapCase (text : Bytes) : SameUuid (text.map swapCase) text := by
  unfold SameUuid
  rw [List.map_map]
  exact List.map_congr_left fun byte _member => lowerHex_swapCase byte

/-- A text without letters is the only spelling of its UUID. -/
theorem Caseless.eq_of_sameUuid {left right : Bytes} (caseless : Caseless left)
    (same : SameUuid left right) : left = right := by
  unfold Caseless SameUuid at *
  induction left generalizing right with
  | nil =>
      rw [List.map_nil] at same
      exact (List.map_eq_nil_iff.mp same.symm).symm
  | cons first rest ih =>
      cases right with
      | nil => cases same
      | cons other others =>
          rw [List.map_cons, List.cons.injEq] at caseless
          rw [List.map_cons, List.map_cons, List.cons.injEq] at same
          rw [eq_of_lowerHex caseless.1 same.1, ih caseless.2 same.2]

theorem all_swapCase (text : Bytes) :
    (text.map swapCase).all isHexDigit = text.all isHexDigit := by
  rw [List.all_map]
  congr 1
  funext byte
  exact isHexDigit_swapCase byte

theorem matchesGroups_swapCase (sizes : List Nat) (text : Bytes) :
    matchesGroups sizes (text.map swapCase) = matchesGroups sizes text := by
  induction sizes, text using matchesGroups.induct with
  | case1 text => simp [matchesGroups]
  | case2 size text => simp only [matchesGroups, List.length_map, all_swapCase]
  | case3 size sizes text more ih =>
      have dash : ((text.drop size).map swapCase).head? = some 45 ↔
          (text.drop size).head? = some 45 := by
        cases text.drop size with
        | nil => rfl
        | cons first others => simp [swapCase_eq_dash]
      rw [matchesGroups, matchesGroups, ← List.map_take, ← List.map_drop, ← List.map_drop,
        List.length_map, all_swapCase, ih]
      · simp only [dash]
      · exact more
      · exact more

theorem isValidUuid_swapCase (text : Bytes) :
    isValidUuid (text.map swapCase) = isValidUuid text :=
  matchesGroups_swapCase _ text

/-! ### One peer per UUID -/

structure OnePerUuid (table : PeerTable) : Prop where
  once : ∀ left ∈ table.allPeers, ∀ right ∈ table.allPeers,
    SameUuid left.id right.id → left = right
  found : ∀ peer ∈ table.allPeers, ∀ spelling, isValidUuid spelling = true →
    SameUuid spelling peer.id → findPeer spelling table = some peer

theorem onePerUuid_iff {table : PeerTable} (valid : ∀ peer ∈ table.allPeers, ValidId peer) :
    OnePerUuid table ↔ ∀ peer ∈ table.allPeers, Caseless peer.id := by
  constructor
  · intro one peer member
    have spelled : isValidUuid (peer.id.map swapCase) = true := by
      rw [isValidUuid_swapCase]
      exact valid peer member
    have found := one.found peer member _ spelled (sameUuid_swapCase peer.id)
    have keyed := congrArg Subtype.val (PeerTable.id_of_getPeer found)
    change cstr peer.id = cstr (peer.id.map swapCase) at keyed
    rw [cstr_of_nulFree (isValidUuid_nulFree spelled),
      cstr_of_nulFree (isValidUuid_nulFree (valid peer member))] at keyed
    exact keyed.symm
  · intro caseless
    constructor
    · intro left leftMember right rightMember same
      have ids := (caseless left leftMember).eq_of_sameUuid same
      have found := PeerTable.getPeer_of_mem leftMember
      rw [ids, PeerTable.getPeer_of_mem rightMember] at found
      exact (Option.some.inj found).symm
    · intro peer member spelling _spelled same
      have ids := (caseless peer member).eq_of_sameUuid same.symm
      rw [findPeer, ← ids]
      exact PeerTable.getPeer_of_mem member

/-! ### What an event writes -/

/-- An `add_peer` call, or what one of the four packets makes happen. -/
def Event.Registers : Event → Prop
  | .addPeer _ _ _ _ => True
  | event => event.Remote

/-- The row an event is about to write. -/
def Event.written (state : State) : Event → Option PeerInfo
  | .addPeer stores id ip port =>
      if stores && isValidUuid id then
        some
          { id := id
            ip := ip
            port := port
            online := false
            lastSeen := 0
            «alias» := [] }
      else none
  | .advance index answer =>
      match state.calls[index]? with
      | some { program := .call (.upsertPeer peer) _next, .. } =>
          if answer.ok then some peer else none
      | _ => none
  | _ => none

def Event.WritesCaseless (state : State) (event : Event) : Prop :=
  ∀ peer, event.written state = some peer → Caseless peer.id

section Runs

variable {vendor : Vendor} {ownId : Bytes} {listenPort : UInt16}

theorem step_table (state : State) {event : Event} (registers : event.Registers) :
    (state.step vendor ownId listenPort event).table =
      (event.written state).elim state.table state.table.upsertPeer := by
  cases event with
  | addPeer stores id ip port =>
      simp only [State.step, Event.written, addPeer]
      cases isValidUuid id <;> cases stores <;> rfl
  | removePeer stores id => exact absurd registers not_false
  | launch request => rfl
  | advance index answer =>
      simp only [State.step, Event.written]
      split
      next op next held found =>
          rw [found]
          cases op with
          | upsertPeer peer =>
              cases ok : answer.ok <;> simp [Op.effect, ok]
          | _ => rfl
      next other =>
          split
          next peer next held found => exact absurd found (other _ _ _)
          next => rfl

theorem validId_answers (event : Event) : event.Answers fun _op _reply => True := by
  cases event with
  | advance index answer => exact fun _table _op => trivial
  | _ => trivial

theorem written_valid {state : State} (holds : RowsHold ValidId (fun _op _reply => True) state)
    {event : Event} {peer : PeerInfo} (written : event.written state = some peer) :
    ValidId peer := by
  cases event with
  | addPeer stores id ip port =>
      simp only [Event.written] at written
      split at written
      next passed =>
          cases written
          exact (Bool.and_eq_true_iff.mp passed).2
      next => cases written
  | advance index answer =>
      simp only [Event.written] at written
      split at written
      next known next held found =>
          split at written
          next =>
              cases written
              have member := List.mem_of_getElem? found
              exact (holds.guarded.meet _ member).1 (holds.guarded.held _ member) _ rfl
          next => cases written
      next => cases written
  | _ => cases written

/-- An event keeps the table free of letters if and only if it writes none. -/
theorem caseless_step_iff {state : State} {event : Event} (registers : event.Registers)
    (holds : RowsHold ValidId (fun _op _reply => True) state)
    (caseless : ∀ peer ∈ state.table.allPeers, Caseless peer.id) :
    (∀ peer ∈ (state.step vendor ownId listenPort event).table.allPeers, Caseless peer.id) ↔
      event.WritesCaseless state := by
  rw [step_table state registers]
  cases written : event.written state with
  | none =>
      constructor
      · intro _kept peer impossible
        rw [written] at impossible
        cases impossible
      · intro _writes
        exact caseless
  | some peer =>
      have id : peer.stored.id = peer.id :=
        cstr_of_nulFree (isValidUuid_nulFree (written_valid holds written))
      constructor
      · intro kept other same
        rw [written] at same
        cases same
        have member := PeerTable.mem_of_getPeer
          (PeerTable.getPeer_upsert_self state.table peer rfl)
        exact id ▸ kept _ member
      · intro writes other member
        rcases PeerTable.mem_allPeers_upsert member with new | earlier
        · rw [new, id]
          exact writes peer written
        · exact caseless other earlier

/-! ### The node's own id -/

def NotSelf (ownId : Bytes) (peer : PeerInfo) : Prop :=
  peer.stored.id ≠ ownId

theorem notSelf_of_absent {table : PeerTable} (absent : table.getPeer ownId = none) :
    ∀ peer ∈ table.allPeers, NotSelf ownId peer := by
  intro peer member isSelf
  have found := PeerTable.getPeer_of_mem member
  rw [PeerTable.stored_of_getPeer found] at isSelf
  rw [isSelf, absent] at found
  cases found

theorem notSelf_meets (request : Request) :
    (request.program vendor ownId listenPort).Meets
      (guard (NotSelf ownId) fun _op _reply => True) (fun _held _result => True) [] := by
  apply Request.meets_guard
  · exact guard_writeBack (fun _peer _seen notSelf _clock => notSelf) fun _peer notSelf => notSelf
  · intro payload announced accepted seen _clock
    have kept : cstr announced.id = announced.id :=
      cstr_of_nulFree (isValidUuid_nulFree accepted.valid)
    change cstr announced.id ≠ ownId
    rw [kept]
    exact accepted.other

theorem absent_before {state : State} {event : Event} (registers : event.Registers) {id : Bytes}
    (absent : (state.step vendor ownId listenPort event).table.getPeer id = none) :
    state.table.getPeer id = none := by
  rw [step_table state registers] at absent
  cases written : event.written state with
  | none =>
      rw [written] at absent
      exact absent
  | some peer =>
      rw [written] at absent
      by_cases same : bindText id = bindText peer.id
      · rw [Option.elim_some, PeerTable.getPeer_upsert_self _ _ same] at absent
        cases absent
      · rwa [Option.elim_some, PeerTable.getPeer_upsert_of_ne _ _ same] at absent

/-- Until the table has the node's own id, no call holds it. -/
def SelfUnread (ownId : Bytes) (state : State) : Prop :=
  state.table.getPeer ownId = none →
    Guarded (NotSelf ownId) (fun _op _reply => True) state.calls

theorem SelfUnread.step {state : State} (unread : SelfUnread ownId state) {event : Event}
    (registers : event.Registers) :
    SelfUnread ownId (state.step vendor ownId listenPort event) := by
  intro absent
  have before := absent_before registers absent
  have guarded := unread before
  cases event with
  | addPeer stores id ip port => exact guarded
  | removePeer stores id => exact absurd registers not_false
  | launch request => exact guarded.launch (notSelf_meets request)
  | advance index answer =>
      exact (guarded.advance (notSelf_of_absent before) index answer fun _op => trivial).1

theorem SelfUnread.not_added {state : State} (unread : SelfUnread ownId state) {index : Nat}
    {answer : Answer} {peer : PeerInfo}
    (member : peer ∈
      (state.step vendor ownId listenPort (.advance index answer)).table.allPeers)
    (added : state.table.getPeer peer.id = none) : peer.id ≠ ownId := by
  intro isSelf
  have absent := isSelf ▸ added
  have earlier : peer ∉ state.table.allPeers := by
    intro present
    rw [PeerTable.getPeer_of_mem present] at added
    cases added
  have advanced := @Guarded.advance vendor ownId listenPort _ _ state (unread absent)
    (notSelf_of_absent absent) index answer fun _op => trivial
  rcases advanced.2 with same | ⟨new, notSelf, written⟩
  · rw [same] at member
    exact earlier member
  · rw [written] at member
    rcases PeerTable.mem_allPeers_upsert member with isNew | present
    · rw [isNew] at isSelf
      exact notSelf isSelf
    · exact earlier present

/-! ### Runs -/

def Event.launches : Event → Option Request
  | .launch request => some request
  | _ => none

def requests (events : List Event) : List Request :=
  events.filterMap Event.launches

def Request.Announces : Request → Prop
  | .discover _ => True
  | .announce _ => True
  | _ => False

end Runs

section Law

variable (vendor : Vendor) (ownId : Bytes) (listenPort : UInt16)

def runEmpty (events : List Event) : State :=
  EventRun.run (State.step vendor ownId listenPort) (State.initial PeerTable.empty) events

/-- At every time of a run there is one peer for a UUID, found under each of its
spellings, and no announcement adds one for the node itself. -/
structure IdentityKept (events : List Event) : Prop where
  once : EventRun.Always (State.step vendor ownId listenPort)
    (fun state => OnePerUuid state.table) (State.initial PeerTable.empty) events
  notSelf : ∀ front index answer back, events = front ++ .advance index answer :: back →
    ∀ request, (requests front)[index]? = some request → request.Announces →
      ∀ peer ∈ ((runEmpty vendor ownId listenPort front).step vendor ownId listenPort
          (.advance index answer)).table.allPeers,
        (runEmpty vendor ownId listenPort front).table.getPeer peer.id = none →
          ¬SameUuid peer.id ownId

variable {vendor ownId listenPort}

theorem runEmpty_valid (events : List Event) :
    RowsHold ValidId (fun _op _reply => True) (runEmpty vendor ownId listenPort events) :=
  RowsHold.run (validId_property vendor ownId) fun event _present => validId_answers event

theorem runEmpty_unread {events : List Event} (registers : ∀ event ∈ events, event.Registers) :
    SelfUnread ownId (runEmpty vendor ownId listenPort events) := by
  refine (EventRun.along_of_mem registers _).invariant ?_ fun _absent => .nil
  intro state event unread condition
  exact unread.step condition

theorem once_iff {events : List Event} (registers : ∀ event ∈ events, event.Registers) :
    EventRun.Always (State.step vendor ownId listenPort) (fun state => OnePerUuid state.table)
        (State.initial PeerTable.empty) events ↔
      EventRun.Along (State.step vendor ownId listenPort)
        (fun state event => event.WritesCaseless state) (State.initial PeerTable.empty) events := by
  have empty : RowsHold ValidId (fun _op _reply => True) (State.initial PeerTable.empty) :=
    .initial
  have kept : ∀ (state : State) (event : Event), event.Registers →
      RowsHold ValidId (fun _op _reply => True) state →
      RowsHold ValidId (fun _op _reply => True) (state.step vendor ownId listenPort event) := by
    intro state event _registers holds
    exact holds.step (validId_property vendor ownId) (validId_answers event)
  refine EventRun.always_iff_along kept ?_ registers empty ?_
  · intro state event registers holds one
    rw [onePerUuid_iff (kept state event registers holds).rows]
    exact caseless_step_iff registers holds ((onePerUuid_iff holds.rows).mp one)
  · exact (onePerUuid_iff empty.rows).mpr fun _peer impossible => by cases impossible

end Law

/-- In a run of `add_peer` calls and packets, the table has one peer per UUID and
none for the node by discovery, if and only if no id with a letter is written. -/
theorem identity_kept_iff (vendor : Vendor) (ownId : Bytes) (listenPort : UInt16)
    (events : List Event) (registers : ∀ event ∈ events, event.Registers) :
    IdentityKept vendor ownId listenPort events ↔
      EventRun.Along (State.step vendor ownId listenPort)
        (fun state event => event.WritesCaseless state) (State.initial PeerTable.empty)
        events := by
  constructor
  · intro kept
    exact (once_iff registers).mp kept.once
  · intro along
    have once := (once_iff registers).mpr along
    refine ⟨once, ?_⟩
    intro front index answer back split _request _launched _announces peer member added same
    have frontRegisters : ∀ event ∈ front, event.Registers := by
      intro event present
      exact registers event (split ▸ List.mem_append_left _ present)
    have ended := EventRun.always_iff.mp once (front ++ [.advance index answer]) back
      (by rw [split, List.append_assoc, List.singleton_append])
    rw [EventRun.run_append] at ended
    have valid : RowsHold ValidId (fun _op _reply => True)
        ((runEmpty vendor ownId listenPort front).step vendor ownId listenPort
          (.advance index answer)) :=
      (runEmpty_valid front).step (validId_property vendor ownId)
        (validId_answers (.advance index answer))
    have caseless := (onePerUuid_iff valid.rows).mp ended peer member
    have isSelf := caseless.eq_of_sameUuid same
    exact (runEmpty_unread frontRegisters).not_added member added isSelf

namespace Reference

def digitsId : Bytes :=
  ascii "10203040-5060-4708-8900-102030405060"

theorem digitsId_valid : isValidUuid digitsId = true := by
  decide

theorem digitsId_caseless : Caseless digitsId := by
  decide

/-- A peer whose id has no letter is added. -/
theorem digits_identity :
    IdentityKept Shr.Reference.vendor Shr.Reference.ownId 60000
      [.addPeer true digitsId (ascii "192.168.1.20") 60000] := by
  apply (identity_kept_iff _ _ _ _ ?_).mpr
  · refine ⟨?_, trivial⟩
    intro peer written
    rw [Event.written, digitsId_valid] at written
    cases written
    exact digitsId_caseless
  · intro event member
    rw [List.mem_singleton.mp member]
    trivial

def capitalsId : Bytes :=
  ascii "A1B2C3D4-E5F6-7890-ABCD-EF1234567890"

theorem capitalsId_valid : isValidUuid capitalsId = true := by
  decide

theorem capitalsId_spells : SameUuid capitalsId returning.id ∧ capitalsId ≠ returning.id := by
  decide

def capitalsPeer : PeerInfo :=
  { id := capitalsId
    ip := ascii "192.168.1.20"
    port := 60000
    online := false
    lastSeen := 0
    «alias» := [] }

def twoSpellings : List Event :=
  .addPeer true capitalsId (ascii "192.168.1.20") 60000 :: announcement

theorem twoSpellings_table :
    (EventRun.run (State.step Shr.Reference.vendor Shr.Reference.ownId 60000)
      (State.initial PeerTable.empty) twoSpellings).table =
      (PeerTable.empty.upsertPeer capitalsPeer).upsertPeer (announcedPeer returning 5) := by
  have added : (State.initial PeerTable.empty).step Shr.Reference.vendor Shr.Reference.ownId 60000
      (.addPeer true capitalsId (ascii "192.168.1.20") 60000) =
        State.initial (PeerTable.empty.upsertPeer capitalsPeer) := by
    simp only [State.step, addPeer, capitalsId_valid]
    rfl
  rw [twoSpellings, EventRun.run_cons, added]
  exact congrArg State.table (announcement_run _)

theorem twice_registered :
    ¬∀ (vendor : Vendor) (ownId : Bytes) (listenPort : UInt16) (events : List Event),
      (∀ event ∈ events, event.Registers) → IdentityKept vendor ownId listenPort events := by
  intro always
  have registers : ∀ event ∈ twoSpellings, event.Registers := by
    simp [twoSpellings, announcement, Event.Registers, Event.Remote]
  have one := (always Shr.Reference.vendor Shr.Reference.ownId 60000 twoSpellings
    registers).once.last
  simp only [twoSpellings_table] at one
  have announced := PeerTable.mem_of_getPeer (PeerTable.getPeer_upsert_self
    (PeerTable.empty.upsertPeer capitalsPeer) (announcedPeer returning 5) rfl)
  have different : bindText capitalsPeer.id ≠ bindText (announcedPeer returning 5).id := by
    decide
  have found := PeerTable.getPeer_upsert_of_ne (PeerTable.empty.upsertPeer capitalsPeer)
    (announcedPeer returning 5) different
  rw [PeerTable.getPeer_upsert_self _ _ rfl] at found
  have same := one.once _ (PeerTable.mem_of_getPeer found) _ announced capitalsId_spells.1
  exact capitalsId_spells.2 (congrArg PeerInfo.id same)

end Reference

end Peers
end Shr
