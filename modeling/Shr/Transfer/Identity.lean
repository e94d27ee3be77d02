/-
What keeps a stored record the record of its transfer.

Chunks and completions only ever write progress.  An offer stores a whole
record under the id it carries, and looks at what it replaces only to see
whether that is paused, which no record ever is: the identity of a record lasts
until the next offer that carries its id.
-/

import Shr.Reference

namespace Shr

/-! ### Identity -/

/-- Two records describe the same transfer of the same file. -/
structure SameIdentity (left right : TransferRecord) : Prop where
  peerId : right.peerId = left.peerId
  filename : right.filename = left.filename
  filepath : right.filepath = left.filepath
  totalBytes : right.totalBytes = left.totalBytes
  checksum : right.checksum = left.checksum
  createdAt : right.createdAt = left.createdAt
  outbound : right.outbound = left.outbound

theorem SameIdentity.refl (record : TransferRecord) : SameIdentity record record := by
  constructor <;> rfl

theorem SameIdentity.progressed {left right : TransferRecord} (same : SameIdentity left right)
    (transferred : UInt64) (state : TransferState) (now : Int64) :
    SameIdentity left (right.progressed transferred state now) where
  peerId := same.peerId
  filename := same.filename
  filepath := same.filepath
  totalBytes := same.totalBytes
  checksum := same.checksum
  createdAt := same.createdAt
  outbound := same.outbound

def Unfinished (record : TransferRecord) : Prop :=
  record.state = .pending ∨ record.state = .inProgress ∨ record.state = .paused

/-- A packet leaves every record its identity, and no offer takes progress from
an unfinished inbound transfer. -/
def IdentityKept (vendor : Vendor) (host : Host) (state : NodeState) : NodeEvent → Prop
  | .packet arrival packet =>
      ∀ id record, state.node.transfers.getTransfer id = some record →
        ∃ after, (state.step vendor host (.packet arrival packet)).node.transfers.getTransfer id =
            some after ∧
          SameIdentity record after ∧
          (packet.type = .fileOffer → record.outbound = false → Unfinished record →
            record.transferredBytes ≤ after.transferredBytes)
  | _ => True

/-- An offer says of a record what the record says already, in the second it was
stored in, and there is no progress to lose. -/
structure Restates (host : Host) (arrival : Arrival) (offer : FileOffer)
    (record : TransferRecord) : Prop where
  peerId : cstr offer.senderId = record.peerId
  filename : cstr (sanitizeFilename offer.filename) = record.filename
  filepath : destination host offer.filename = record.filepath
  totalBytes : offer.fileSize = record.totalBytes
  checksum : cstr offer.checksum = record.checksum
  createdAt : arrival.createdAt = record.createdAt
  inbound : record.outbound = false
  unstarted : Unfinished record → record.transferredBytes = 0

/-- No offer comes under an id that is in use, except one that says the same. -/
def NewlyOffered (vendor : Vendor) (host : Host) (state : NodeState) : NodeEvent → Prop
  | .packet arrival packet =>
      packet.type = .fileOffer → ∀ offer record,
        readFileOffer vendor arrival.random packet.payload = some offer →
        state.node.transfers.getTransfer offer.xferId = some record →
        arrival.stores = true → Restates host arrival offer record
  | _ => True

/-- The event carries a whole record for the id: an offer under it, or the
record of a call of the node itself. -/
def CarriesRecord (vendor : Vendor) (id : Bytes) (state : NodeState) : NodeEvent → Prop
  | .packet arrival packet =>
      packet.type = .fileOffer ∧ ∃ offer,
        readFileOffer vendor arrival.random packet.payload = some offer ∧
          cstr id = cstr offer.xferId
  | .advance index _answer =>
      ∃ record next, state.sends[index]? = some (.call (.upsertTransfer record) next) ∧
        cstr id = cstr record.id
  | _ => False

def HasIdentity (id : Bytes) (original : TransferRecord) (state : NodeState) : Prop :=
  ∃ record, state.node.transfers.getTransfer id = some record ∧ SameIdentity original record

section Identity

variable {vendor : Vendor} {host : Host}

theorem Writes.carriesRecord {state : NodeState} {event : NodeEvent} {id : Bytes}
    {record : TransferRecord} (writes : Writes vendor host state id event (.store record)) :
    CarriesRecord vendor id state event := by
  cases writes with
  | offer type decoded notPaused stores same => exact ⟨type, _, decoded, same⟩
  | sendStores present same => exact ⟨_, _, present, same⟩

theorem HasIdentity.step {state : NodeState} {event : NodeEvent} {id : Bytes}
    {original : TransferRecord} (has : HasIdentity id original state)
    (other : ¬CarriesRecord vendor id state event) :
    HasIdentity id original (state.step vendor host event) := by
  obtain ⟨record, found, same⟩ := has
  rcases @step_record vendor host state event id with
    ⟨write, writes, written⟩ | ⟨_unwritten, unchanged⟩
  · rw [found] at written
    cases write with
    | store stored => exact absurd writes.carriesRecord other
    | progress transferred progress now =>
        exact ⟨_, written, same.progressed transferred progress now⟩
  · exact ⟨record, unchanged.trans found, same⟩

theorem HasIdentity.run {state : NodeState} {events : List NodeEvent} {id : Bytes}
    {original : TransferRecord} (has : HasIdentity id original state)
    (others : EventRun.Along (NodeState.step vendor host)
      (fun state event => ¬CarriesRecord vendor id state event) state events) :
    HasIdentity id original (state.run vendor host events) :=
  others.invariant (fun _state _event earlier other => earlier.step other) has

/-- An offer under the id replaces the record, whoever sends it. -/
theorem record_after_offer {state : NodeState} (reachable : state.Reachable vendor host)
    {arrival : Arrival} {packet : Packet} {offer : FileOffer} {id : Bytes}
    (type : packet.type = .fileOffer)
    (decoded : readFileOffer vendor arrival.random packet.payload = some offer)
    (stores : arrival.stores = true) (same : cstr id = cstr offer.xferId) :
    (state.step vendor host (.packet arrival packet)).node.transfers.getTransfer id =
      some (offeredRecord host arrival offer).stored :=
  step_written (.offer type decoded (pausedRecord_of_reachable reachable _) stores same)

theorem record_after_other_offer {state : NodeState} {arrival : Arrival} {packet : Packet}
    {id : Bytes} (type : packet.type = .fileOffer)
    (other : ∀ offer, readFileOffer vendor arrival.random packet.payload = some offer →
      cstr id ≠ cstr offer.xferId) :
    (state.step vendor host (.packet arrival packet)).node.transfers.getTransfer id =
      state.node.transfers.getTransfer id := by
  apply step_unwritten
  intro write writes
  cases writes with
  | offer _type decoded notPaused stores same => exact other _ decoded same
  | chunk otherType applies stores same =>
      rw [type] at otherType
      cases otherType
  | complete otherType decoded found verified stores same =>
      rw [type] at otherType
      cases otherType
  | mismatch otherType decoded found differs stores same =>
      rw [type] at otherType
      cases otherType

/-- A packet keeps the identity of every record exactly if it is no offer for a record
that says something else. -/
theorem identityKept_iff {state : NodeState} (reachable : state.Reachable vendor host)
    (event : NodeEvent) :
    IdentityKept vendor host state event ↔ NewlyOffered vendor host state event := by
  cases event with
  | packet arrival packet =>
      constructor
      · intro kept type offer record decoded found stores
        obtain ⟨after, present, same, progress⟩ := kept offer.xferId record found
        rw [record_after_offer reachable type decoded stores rfl] at present
        cases present
        have inbound : record.outbound = false := same.outbound.symm
        constructor
        · exact same.peerId
        · exact same.filename
        · exact same.filepath
        · exact same.totalBytes
        · exact same.checksum
        · exact same.createdAt
        · exact inbound
        · intro unfinished
          exact UInt64.le_zero_iff.mp (progress type inbound unfinished)
      · intro offered id record found
        rcases @step_record vendor host state (.packet arrival packet) id with
          ⟨write, writes, written⟩ | ⟨_unwritten, unchanged⟩
        · rw [found] at written
          cases writes with
          | @offer arrival packet offer type decoded notPaused stores same =>
              have restates := offered type offer record decoded
                ((TransferTable.getTransfer_cstr _ same).symm.trans found) stores
              refine ⟨_, written, ?_, ?_⟩
              · constructor
                · exact restates.peerId
                · exact restates.filename
                · exact restates.filepath
                · exact restates.totalBytes
                · exact restates.checksum
                · exact restates.createdAt
                · exact restates.inbound.symm
              · intro _type _inbound unfinished
                rw [restates.unstarted unfinished]
                exact UInt64.zero_le
          | chunk type applies stores same =>
              refine ⟨_, written, (SameIdentity.refl record).progressed _ _ _, ?_⟩
              intro offers
              rw [type] at offers
              cases offers
          | complete type decoded present verified stores same =>
              refine ⟨_, written, (SameIdentity.refl record).progressed _ _ _, ?_⟩
              intro offers
              rw [type] at offers
              cases offers
          | mismatch type decoded present differs stores same =>
              refine ⟨_, written, (SameIdentity.refl record).progressed _ _ _, ?_⟩
              intro offers
              rw [type] at offers
              cases offers
        · exact ⟨record, unchanged.trans found, SameIdentity.refl record,
            fun _type _inbound _unfinished => UInt64.le_refl _⟩
  | cancel id now => exact Iff.rfl
  | launch inputs => exact Iff.rfl
  | advance index answer => exact Iff.rfl

end Identity

/-- In every run from a reachable table the packets keep the identity of all records,
and the offers their progress, if and only if no offer comes under an id that is in
use and says anything new of its record.  A record keeps its identity until a record
is carried under its id; an offer under its id replaces it as a whole, and an offer
under another id does not touch it. -/
theorem identity_until_offered (vendor : Vendor) (host : Host) {state : NodeState}
    (reachable : state.Reachable vendor host) :
    (∀ events,
      EventRun.Along (NodeState.step vendor host) (IdentityKept vendor host) state events ↔
        EventRun.Along (NodeState.step vendor host) (NewlyOffered vendor host) state events) ∧
    ∀ id record, state.node.transfers.getTransfer id = some record →
      (∀ events, EventRun.Along (NodeState.step vendor host)
          (fun state event => ¬CarriesRecord vendor id state event) state events →
        HasIdentity id record (state.run vendor host events)) ∧
      (∀ arrival packet offer, packet.type = .fileOffer →
        readFileOffer vendor arrival.random packet.payload = some offer →
        arrival.stores = true → cstr id = cstr offer.xferId →
        (state.step vendor host (.packet arrival packet)).node.transfers.getTransfer id =
          some (offeredRecord host arrival offer).stored) ∧
      (∀ arrival packet, packet.type = .fileOffer →
        (∀ offer, readFileOffer vendor arrival.random packet.payload = some offer →
          cstr id ≠ cstr offer.xferId) →
        (state.step vendor host (.packet arrival packet)).node.transfers.getTransfer id =
          some record) := by
  have kept (state : NodeState) (event : NodeEvent) (reachable : state.Reachable vendor host) :
      (state.step vendor host event).Reachable vendor host := reachable.step vendor host event
  refine ⟨?_, ?_⟩
  · intro events
    constructor
    · intro along
      exact along.mono kept (fun _state event here => (identityKept_iff here event).mp) reachable
    · intro along
      exact along.mono kept (fun _state event here => (identityKept_iff here event).mpr) reachable
  · intro id record found
    refine ⟨?_, ?_, ?_⟩
    · intro events others
      have has : HasIdentity id record state := ⟨record, found, SameIdentity.refl record⟩
      exact has.run others
    · intro arrival packet offer type decoded stores same
      exact record_after_offer reachable type decoded stores same
    · intro arrival packet type other
      rw [record_after_other_offer type other]
      exact found

namespace Reference

theorem offeredState_reachable : offeredState.Reachable vendor host :=
  (NodeState.reachable_initial vendor host fun _path => none).step vendor host
    (offerArrives receivedOffer)

/-- A chunk and an empty completion leave the offered record its identity. -/
theorem offered_identity_kept :
    EventRun.Along (NodeState.step vendor host) (IdentityKept vendor host) offeredState
        [chunkArrives receivedOffer.xferId 0 (ascii "x"),
          completeArrives receivedOffer.xferId []] ∧
      HasIdentity receivedOffer.xferId (offeredRecord host arrival receivedOffer).stored
        (offeredState.run vendor host [chunkArrives receivedOffer.xferId 0 (ascii "x")]) := by
  have kept := identity_until_offered vendor host offeredState_reachable
  constructor
  · apply (kept.1 _).mpr
    refine ⟨?_, ?_, trivial⟩
    · intro impossible
      cases impossible
    · intro impossible
      cases impossible
  · apply (kept.2 _ _ offeredState_record).1
    rw [EventRun.along_cons]
    refine ⟨?_, trivial⟩
    rintro ⟨impossible, _offer⟩
    cases impossible

def secondOffer : FileOffer :=
  { receivedOffer with
    filename := ascii "other.txt"
    senderId := ascii "someone" }

theorem identity_replaced :
    ¬EventRun.Along (NodeState.step vendor host) (IdentityKept vendor host)
      (NodeState.initial fun _path => none)
      [offerArrives receivedOffer, offerArrives secondOffer] := by
  rw [EventRun.along_cons, EventRun.along_cons]
  rintro ⟨_offer, kept, _rest⟩
  have keptHere : IdentityKept vendor host offeredState (offerArrives secondOffer) := kept
  obtain ⟨after, present, same, _progress⟩ := keptHere receivedOffer.xferId _ offeredState_record
  have replaced : (offeredState.step vendor host
      (offerArrives secondOffer)).node.transfers.getTransfer receivedOffer.xferId =
        some (offeredRecord host arrival secondOffer).stored :=
    record_after_offer offeredState_reachable rfl
      (readFileOffer_toCbor vendor arrival.random secondOffer) rfl rfl
  have stored := replaced.symm.trans present
  cases stored
  exact absurd same.filename (by decide)

end Reference

end Shr
