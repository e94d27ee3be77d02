/-
The answer to an offer.

`send_file` looks for one type only, `FileReject`: every other answer starts the
transfer, a `FileResume` whose offset cannot be read as one with offset 0.
-/

import Shr.Reference
import Shr.Transfer.Exits

namespace Shr

/-! ### Answers -/

def fileEnd (inputs : SendInputs) : Nat :=
  (inputs.contents.getD []).length

/-- The payload has an offset, and it is not behind the end of the file. -/
def OffsetWithin (vendor : Vendor) (inputs : SendInputs) (payload : Bytes) : Prop :=
  ∃ fields value offset, vendor.fromCbor payload = some (.object fields) ∧
    fields.lookup (ascii "offset") = some value ∧ value.asUInt64 = some offset ∧
    offset.toNat ≤ fileEnd inputs

/-- The answer accepts the file, from its beginning or from an offset inside. -/
def Accepts (vendor : Vendor) (inputs : SendInputs) (resp : Packet) : Prop :=
  resp.type = .fileAccept ∨ (resp.type = .fileResume ∧ OffsetWithin vendor inputs resp.payload)

/-- The call comes to its offer, and the peer answers. -/
structure Answered (inputs : SendInputs) (absPath : Bytes) (peer : PeerInfo) (node : Node)
    (fate : Fate) (resp : Packet) : Prop where
  sendable : Sendable inputs absPath peer
  free : node.activeCount < shrMaxConcurrent
  connected : fate.connected = true
  answered : fate.answer = some resp

def offeredWorld (vendor : Vendor) (inputs : SendInputs) (absPath : Bytes) (peer : PeerInfo)
    (node : Node) : CallWorld :=
  { node :=
      { node with transfers := node.transfers.upsertTransfer (sentRecord inputs absPath) }
    asked :=
      [ .loadActive,
        .upsertTransfer (sentRecord inputs absPath),
        .connectTo peer.ip peer.port,
        .sendPacket (offerPacket vendor inputs absPath),
        .readPacket ]
    answered := true
    attempts := 0
    chunksSent := [] }

section Answers

variable {vendor : Vendor} {inputs : SendInputs} {absPath : Bytes} {peer : PeerInfo}
variable {node : Node} {fate : Fate} {resp : Packet}

theorem Answered.sendFile_eq (answered : Answered inputs absPath peer node fate resp)
    (vendor : Vendor) :
    fate.sendFile vendor inputs node =
      fate.run (answerOffer vendor inputs resp)
        (offeredWorld vendor inputs absPath peer node) := by
  have notFull : ¬shrMaxConcurrent ≤ node.activeCount := Int.not_le.mpr answered.free
  unfold Fate.sendFile
  rw [answered.sendable.sendFile_eq vendor]
  change fate.run (if shrMaxConcurrent ≤ node.activeCount then .done [] else
    offerFile vendor inputs absPath peer) _ = _
  rw [if_neg notFull]
  change fate.run (if fate.connected = false then do
      updateTransferProgress inputs.xferId 0 .failed
      return []
    else sendOffer vendor inputs absPath) _ = _
  rw [if_neg (by simp [answered.connected])]
  change fate.run (awaitAnswer vendor inputs) _ = _
  unfold awaitAnswer
  rw [Fate.run_bind]
  have read : ∀ world : CallWorld, world.answered = false →
      (fate.run readPacket world).1 = some resp := by
    intro world unanswered
    change (if world.answered then _ else fate.answer) = _
    rw [unanswered]
    exact answered.answered
  rw [read]
  · rfl
  · rfl

def ChunkAsked (asked : List SendOp) : Prop :=
  ∃ packet, SendOp.sendPacket packet ∈ asked ∧ packet.type = .fileChunk

theorem ChunkAsked.later {earlier later : List SendOp} (asked : ChunkAsked earlier)
    (grows : earlier <+: later) : ChunkAsked later := by
  obtain ⟨packet, member, type⟩ := asked
  exact ⟨packet, grows.subset member, type⟩

theorem sendAttempts_asks_chunk {packet : Packet} (type : packet.type = .fileChunk) (left : Nat)
    (world : CallWorld) :
    ChunkAsked (fate.run (sendAttempts inputs packet 0 (left + 1)) world).2.asked := by
  have first : sendAttempts inputs packet 0 (left + 1) =
      (sendPacket packet >>= fun sent =>
        if sent then return true else sendAttempts inputs packet 1 left : SendProgram Bool) := rfl
  rw [first, Fate.run_bind]
  have asked : ChunkAsked (fate.run (sendPacket packet) world).2.asked :=
    ⟨packet, List.mem_append_right _ (List.mem_singleton_self _), type⟩
  exact asked.later (fate.asked_prefix _ _)

theorem sendLoop_sends_or_ends (file : InputStream UInt8) (transferred chunkIndex : UInt64)
    (world : CallWorld) :
    ChunkAsked (fate.run (sendLoop vendor inputs file transferred chunkIndex) world).2.asked ∨
      sendLoop vendor inputs file transferred chunkIndex = .done (some transferred) := by
  rw [sendLoop]
  split
  next => exact .inr rfl
  next =>
      split
      next => exact .inr rfl
      next =>
          left
          rw [Fate.run_bind]
          exact (sendAttempts_asks_chunk rfl _ _).later (fate.asked_prefix _ _)

theorem streamFile_sends_or_completes (contents : Bytes) (resumeOffset : UInt64)
    (world : CallWorld) :
    ChunkAsked (fate.run (streamFile vendor inputs contents resumeOffset) world).2.asked ∨
      (fate.run (streamFile vendor inputs contents resumeOffset) world).1 = inputs.xferId := by
  unfold streamFile
  rw [Fate.run_bind, Fate.run_bind, Fate.run_bind]
  rcases sendLoop_sends_or_ends (resumedStream contents resumeOffset) resumeOffset _ _
    with sends | ends
  · exact .inl (sends.later (fate.asked_prefix _ _))
  · rw [ends]
    exact .inr rfl

theorem abandonOffer_asks_nothing (world : CallWorld) :
    (fate.run (abandonOffer inputs) world).2.asked =
      world.asked ++ [.closeConn, .updateTransferProgress inputs.xferId 0 .failed] ∧
      (fate.run (abandonOffer inputs) world).1 = [] := by
  refine ⟨?_, rfl⟩
  exact List.append_assoc world.asked [SendOp.closeConn] _

theorem offeredWorld_asks_no_chunk {op : SendOp}
    (member : op ∈ (offeredWorld vendor inputs absPath peer node).asked) :
    ∀ packet, op = .sendPacket packet → packet.type ≠ .fileChunk := by
  intro packet isPacket
  subst isPacket
  have isOffer : packet = offerPacket vendor inputs absPath := by
    simpa [offeredWorld] using member
  rw [isOffer]
  exact nofun

theorem Answered.abandoned (answered : Answered inputs absPath peer node fate resp)
    (refuses : resp.type = .fileReject ∨ inputs.contents = none) :
    ¬ChunkAsked (fate.sendFile vendor inputs node).2.asked ∧
      (fate.sendFile vendor inputs node).1 = [] := by
  have abandons : answerOffer vendor inputs resp = abandonOffer inputs := by
    unfold answerOffer
    rcases refuses with rejects | unreadable
    · exact if_pos rejects
    · rw [unreadable]
      exact ite_self _
  rw [answered.sendFile_eq vendor, abandons]
  obtain ⟨asked, failed⟩ := @abandonOffer_asks_nothing inputs fate
    (offeredWorld vendor inputs absPath peer node)
  refine ⟨?_, failed⟩
  rw [asked]
  intro sends
  obtain ⟨packet, member, type⟩ := sends
  rcases List.mem_append.mp member with earlier | later
  · exact offeredWorld_asks_no_chunk earlier packet rfl type
  · simp at later

theorem Answered.streamed (answered : Answered inputs absPath peer node fate resp)
    (unrejected : resp.type ≠ .fileReject) (readable : inputs.contents ≠ none) :
    ChunkAsked (fate.sendFile vendor inputs node).2.asked ∨
      (fate.sendFile vendor inputs node).1 ≠ [] := by
  obtain ⟨contents, opened⟩ := Option.ne_none_iff_exists'.mp readable
  have streams : ∃ resumeOffset,
      answerOffer vendor inputs resp = streamFile vendor inputs contents resumeOffset := by
    unfold answerOffer
    rw [if_neg unrejected, opened]
    exact ⟨_, rfl⟩
  obtain ⟨resumeOffset, streams⟩ := streams
  rw [answered.sendFile_eq vendor, streams]
  refine (streamFile_sends_or_completes contents resumeOffset _).imp_right ?_
  intro completes
  rw [completes]
  exact xferId_ne_nil inputs

theorem Answered.stored (answered : Answered inputs absPath peer node fate resp) :
    StoredRecord (fate.sendFile vendor inputs node).2.asked := by
  rw [answered.sendFile_eq vendor]
  refine ⟨sentRecord inputs absPath, (fate.asked_prefix _ _).subset ?_⟩
  exact .tail _ (.head _)

end Answers

/-- Chunks leave after an acceptance only; a call without one fails. -/
structure OnlyAccepted (vendor : Vendor) (inputs : SendInputs) (resp : Packet)
    (asked : List SendOp) (after : Node) (result : Bytes) : Prop where
  accepted : ChunkAsked asked → Accepts vendor inputs resp
  failed : ¬Accepts vendor inputs resp → result = [] ∧
    ∃ record, after.transfers.getTransfer inputs.xferId = some record ∧ record.state = .failed

section OnlyAccepted

variable {vendor : Vendor} {inputs : SendInputs} {absPath : Bytes} {peer : PeerInfo}
variable {node : Node} {fate : Fate} {resp : Packet}

theorem Answered.condition_of_onlyAccepted
    (answered : Answered inputs absPath peer node fate resp)
    (only : OnlyAccepted vendor inputs resp (fate.sendFile vendor inputs node).2.asked
      (fate.sendFile vendor inputs node).2.node (fate.sendFile vendor inputs node).1) :
    Accepts vendor inputs resp ∨ resp.type = .fileReject ∨ inputs.contents = none := by
  by_contra neither
  obtain ⟨unaccepted, streams⟩ := not_or.mp neither
  obtain ⟨unrejected, readable⟩ := not_or.mp streams
  rcases answered.streamed unrejected readable with sends | completes
  · exact unaccepted (only.accepted sends)
  · exact completes (only.failed unaccepted).1

theorem Answered.onlyAccepted (answered : Answered inputs absPath peer node fate resp)
    (condition : Accepts vendor inputs resp ∨ resp.type = .fileReject ∨
      inputs.contents = none) :
    OnlyAccepted vendor inputs resp (fate.sendFile vendor inputs node).2.asked
      (fate.sendFile vendor inputs node).2.node (fate.sendFile vendor inputs node).1 := by
  by_cases accepts : Accepts vendor inputs resp
  · exact ⟨fun _sends => accepts, absurd accepts⟩
  · obtain ⟨unsent, failed⟩ := @Answered.abandoned vendor _ _ _ _ _ _ answered
      (condition.resolve_left accepts)
    obtain ⟨record, found, state, _completed⟩ :=
      (cleanExit vendor inputs fate node).record answered.stored
    exact ⟨fun sends => absurd sends unsent,
      fun _refused => ⟨failed, record, found, state.mpr failed⟩⟩

end OnlyAccepted

/-- Every answer counts as an acceptance unless its type is `FileReject`: chunks
leave after an acceptance only exactly when the answer accepts the file or has
that type, or the file cannot be read. -/
theorem only_accepted_iff {vendor : Vendor} {inputs : SendInputs} {absPath : Bytes}
    {peer : PeerInfo} {node : Node} {fate : Fate} {resp : Packet}
    (answered : Answered inputs absPath peer node fate resp) :
    OnlyAccepted vendor inputs resp (fate.sendFile vendor inputs node).2.asked
        (fate.sendFile vendor inputs node).2.node (fate.sendFile vendor inputs node).1 ↔
      Accepts vendor inputs resp ∨ resp.type = .fileReject ∨ inputs.contents = none :=
  ⟨answered.condition_of_onlyAccepted, answered.onlyAccepted⟩

namespace Reference

def oneByteInputs : SendInputs :=
  sendInputs (ascii "x") fun _index => 0

def freshNode : Node :=
  (NodeState.initial fun _path => none).node

/-- The peer answers with a packet of the type and goes away. -/
def answeredFate (type : PacketType) : Fate :=
  { connected := true
    offerSent := true
    answer := some { type, payload := [] }
    chunkSent := fun _chunk _attempt => true
    ack := fun _chunk => none
    completeSent := true
    now := 0 }

theorem answeredFate_answers (type : PacketType) :
    Answered oneByteInputs sentPath peer freshNode (answeredFate type)
      { type, payload := [] } where
  sendable := sendInputs_sendable (ascii "x") fun _index => 0
  free := by decide
  connected := rfl
  answered := rfl

theorem accepted_file_sent :
    OnlyAccepted vendor oneByteInputs { type := .fileAccept, payload := [] }
        ((answeredFate .fileAccept).sendFile vendor oneByteInputs freshNode).2.asked
        ((answeredFate .fileAccept).sendFile vendor oneByteInputs freshNode).2.node
        ((answeredFate .fileAccept).sendFile vendor oneByteInputs freshNode).1 ↔
      Accepts vendor oneByteInputs { type := .fileAccept, payload := [] } ∨
        PacketType.fileAccept = .fileReject ∨ oneByteInputs.contents = none :=
  only_accepted_iff (answeredFate_answers .fileAccept)

/-- After an `Error` the file is sent. -/
theorem error_starts_transfer :
    ¬∀ (vendor : Vendor) (inputs : SendInputs) (absPath : Bytes) (peer : PeerInfo) (node : Node)
      (fate : Fate) (resp : Packet), Answered inputs absPath peer node fate resp →
        OnlyAccepted vendor inputs resp (fate.sendFile vendor inputs node).2.asked
          (fate.sendFile vendor inputs node).2.node (fate.sendFile vendor inputs node).1 := by
  intro only
  have answered := answeredFate_answers .error
  have condition := answered.condition_of_onlyAccepted (only vendor _ _ _ _ _ _ answered)
  simp [Accepts, oneByteInputs, sendInputs] at condition

end Reference

end Shr
