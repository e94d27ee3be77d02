/-
What a call of `send_file` can cost.

Nothing the peer or the network does makes a call ask for more than a bounded
number of operations: the retries for a chunk are limited, every chunk is read
from the file once, and a reply that does not come ends the loop.
-/

import Shr.Library.Costs
import Shr.Transfer.NodeRun

namespace Shr

/-! ### Prices -/

structure Prices where
  loading : Nat
  recording : Nat
  connecting : Nat
  sending : Nat
  reading : Nat
  closing : Nat
  updating : Nat
  counting : Nat
  sleeping : Nat

namespace Prices

def price (prices : Prices) : SendOp → Nat
  | .loadActive => prices.loading
  | .upsertTransfer _ => prices.recording
  | .connectTo _ _ => prices.connecting
  | .sendPacket _ => prices.sending
  | .readPacket => prices.reading
  | .closeConn => prices.closing
  | .updateTransferProgress _ _ _ => prices.updating
  | .incrementActive => prices.counting
  | .decrementActive => prices.counting
  | .sleep _ => prices.sleeping

def opening (prices : Prices) : Nat :=
  prices.loading + prices.recording + prices.connecting + prices.sending + prices.reading +
    prices.updating + prices.counting

def attempts (prices : Prices) : Nat :=
  shrRetryLimit * prices.sending + (shrRetryLimit - 1) * prices.sleeping

def chunk (prices : Prices) : Nat :=
  prices.attempts + prices.reading + prices.updating

def closure (prices : Prices) : Nat :=
  prices.sending + prices.closing + prices.updating + prices.counting

end Prices

def chunkCount (length : Nat) : Nat :=
  (length + (shrChunkSize - 1)) / shrChunkSize

theorem chunkCount_drop {length : Nat} (some_left : 0 < length) :
    chunkCount length = chunkCount (length - shrChunkSize) + 1 := by
  have positive := shrChunkSize_pos
  unfold chunkCount
  by_cases last : length ≤ shrChunkSize
  · rw [Nat.sub_eq_zero_of_le last, Nat.zero_add,
      Nat.div_eq_of_lt (Nat.sub_lt positive Nat.one_pos)]
    apply Nat.div_eq_of_lt_le
    · omega
    · omega
  · have shifted : length + (shrChunkSize - 1) =
        length - shrChunkSize + (shrChunkSize - 1) + shrChunkSize := by omega
    rw [shifted, Nat.add_div_right _ positive]

theorem chunkCount_mono {few many : Nat} (fewer : few ≤ many) :
    chunkCount few ≤ chunkCount many :=
  Nat.div_le_div_right (by omega)

/-! ### The phases of a call -/

section Phases

variable (prices : Prices) (vendor : Vendor) (inputs : SendInputs)

/-- What the loop leaves for the rest of the call. -/
def afterLoopOwed : Option UInt64 → Nat
  | none => 0
  | some _ => prices.closure

variable {prices vendor inputs}

theorem sendAttempts_affords_later {packet : Packet} {owed : Bool → Nat} {rest : Nat}
    (fits : ∀ sent, owed sent ≤ rest) (attempt left : Nat) :
    (sendAttempts inputs packet (attempt + 1) left).Affords prices.price owed
      (left * (prices.sleeping + prices.sending) + rest) := by
  induction left generalizing attempt with
  | zero =>
      rw [Nat.zero_mul, Nat.zero_add]
      exact Program.affords_done (fits false)
  | succ left ih =>
      have cost : (left + 1) * (prices.sleeping + prices.sending) + rest = prices.sleeping +
          (prices.sending + (left * (prices.sleeping + prices.sending) + rest)) := by
        rw [Nat.succ_mul]
        omega
      rw [cost]
      refine Program.affords_call (Nat.le_refl _) fun _slept => ?_
      refine Program.affords_call (Nat.le_refl _) fun (sent : Bool) => ?_
      cases sent with
      | true =>
          refine Program.affords_done (Nat.le_trans (fits true) ?_)
          exact Nat.le_add_left rest _
      | false => exact ih (attempt + 1)

theorem sendAttempts_affords {packet : Packet} {owed : Bool → Nat} {rest : Nat}
    (fits : ∀ sent, owed sent ≤ rest) :
    (sendAttempts inputs packet 0 shrRetryLimit).Affords prices.price owed
      (prices.attempts + rest) := by
  have limit : shrRetryLimit = 4 + 1 := rfl
  have cost : prices.attempts + rest =
      prices.sending + (4 * (prices.sleeping + prices.sending) + rest) := by
    unfold Prices.attempts
    rw [limit]
    omega
  rw [cost, limit]
  refine Program.affords_call (Nat.le_refl _) fun (sent : Bool) => ?_
  cases sent with
  | true =>
      refine Program.affords_done (Nat.le_trans (fits true) ?_)
      exact Nat.le_add_left rest _
  | false => exact sendAttempts_affords_later fits 0 4

/-- Every round of the loop pays for itself out of the chunk it reads. -/
theorem sendLoop_affords (file : InputStream UInt8) (transferred chunkIndex : UInt64) :
    (sendLoop vendor inputs file transferred chunkIndex).Affords prices.price
      (afterLoopOwed prices)
      (chunkCount file.remaining.length * prices.chunk + prices.closure) := by
  rw [sendLoop]
  split
  next => exact Program.affords_done (Nat.le_add_left _ _)
  next =>
      split
      next => exact Program.affords_done (Nat.le_add_left _ _)
      next some_delivered =>
          have shorter := InputStream.remaining_length_afterRead_lt file some_delivered
          have later := sendLoop_affords (file.afterRead shrChunkSize)
            (transferred + UInt64.ofNat (file.delivered shrChunkSize).length) (chunkIndex + 1)
          rw [InputStream.remaining_afterRead, List.length_drop] at later
          have one := chunkCount_drop (Nat.zero_lt_of_lt shorter)
          have cost : chunkCount file.remaining.length * prices.chunk + prices.closure =
              prices.attempts + (prices.reading + (prices.updating +
                (chunkCount (file.remaining.length - shrChunkSize) * prices.chunk +
                  prices.closure))) := by
            rw [one, Nat.succ_mul, Prices.chunk]
            omega
          rw [cost]
          refine (@sendAttempts_affords prices inputs _ (fun _sent => _) _
            fun _sent => Nat.le_refl _).bind ?_
          intro sent
          cases sent with
          | false =>
              rw [if_pos rfl]
              have enough : prices.closing + (prices.updating + (prices.counting + 0)) ≤
                  prices.closure := by
                unfold Prices.closure
                omega
              refine Program.Affords.mono ?_ (Nat.le_trans enough (by omega))
              refine Program.affords_call (Nat.le_refl _) fun _closed => ?_
              refine Program.affords_call (Nat.le_refl _) fun _updated => ?_
              refine Program.affords_call (Nat.le_refl _) fun _decremented => ?_
              exact Program.affords_done (Nat.le_refl 0)
          | true =>
              rw [if_neg (by decide)]
              refine Program.affords_call (Nat.le_refl _) fun (ack : Option Packet) => ?_
              cases ack with
              | none =>
                  have left : prices.closure ≤ prices.updating +
                      (chunkCount (file.remaining.length - shrChunkSize) * prices.chunk +
                        prices.closure) := by omega
                  exact Program.affords_done left
              | some ack => exact Program.affords_call (Nat.le_refl _) fun _updated => later
termination_by file.remaining.length

theorem remaining_resumedStream (contents : Bytes) (resumeOffset : UInt64) :
    (resumedStream contents resumeOffset).remaining.length ≤ contents.length := by
  unfold resumedStream
  split
  · unfold InputStream.remaining InputStream.seek
    split <;> split <;> simp [InputStream.start]
  · exact Nat.le_refl _

theorem streamFile_affords (contents : Bytes) (resumeOffset : UInt64) :
    (streamFile vendor inputs contents resumeOffset).Affords prices.price (fun _result => 0)
      (prices.updating + (prices.counting +
        (chunkCount contents.length * prices.chunk + prices.closure))) := by
  refine Program.affords_call (Nat.le_refl _) fun _updated => ?_
  refine Program.affords_call (Nat.le_refl _) fun _incremented => ?_
  have loop := @sendLoop_affords prices vendor inputs (resumedStream contents resumeOffset)
    resumeOffset (resumeOffset / UInt64.ofNat shrChunkSize)
  have fewer := chunkCount_mono (remaining_resumedStream contents resumeOffset)
  refine (loop.mono (Nat.add_le_add_right (Nat.mul_le_mul_right _ fewer) _)).bind ?_
  intro transferred
  cases transferred with
  | none => exact Program.affords_done (Nat.le_refl 0)
  | some transferred =>
      have owed : afterLoopOwed prices (some transferred) =
          prices.sending + (prices.closing + (prices.updating + (prices.counting + 0))) := by
        change prices.closure = _
        unfold Prices.closure
        omega
      rw [owed]
      refine Program.affords_call (Nat.le_refl _) fun _sent => ?_
      refine Program.affords_call (Nat.le_refl _) fun _closed => ?_
      refine Program.affords_call (Nat.le_refl _) fun _updated => ?_
      refine Program.affords_call (Nat.le_refl _) fun _decremented => ?_
      exact Program.affords_done (Nat.le_refl 0)

theorem abandonOffer_affords {budget : Nat} (enough : prices.closing + prices.updating ≤ budget) :
    (abandonOffer inputs).Affords prices.price (fun _result => 0) budget := by
  refine Program.Affords.mono ?_ enough
  refine Program.affords_call (Nat.le_refl _) fun _closed => ?_
  refine Program.affords_call (Nat.le_refl (prices.updating + 0)) fun _updated => ?_
  exact Program.affords_done (Nat.le_refl 0)

theorem answerOffer_affords (resp : Packet) :
    (answerOffer vendor inputs resp).Affords prices.price (fun _result => 0)
      (prices.updating + (prices.counting +
        (chunkCount (inputs.contents.getD []).length * prices.chunk + prices.closure))) := by
  have abandoned : prices.closing + prices.updating ≤ prices.updating + (prices.counting +
      (chunkCount (inputs.contents.getD []).length * prices.chunk + prices.closure)) := by
    unfold Prices.closure
    omega
  unfold answerOffer
  split
  next => exact abandonOffer_affords abandoned
  next =>
      cases isRead : inputs.contents with
      | none =>
          rw [isRead] at abandoned
          exact abandonOffer_affords abandoned
      | some contents => exact streamFile_affords contents _

theorem offerFile_affords (absPath : Bytes) (peer : PeerInfo) :
    (offerFile vendor inputs absPath peer).Affords prices.price (fun _result => 0)
      (prices.recording + (prices.connecting + (prices.sending + (prices.reading +
        (prices.updating + (prices.counting +
          (chunkCount (inputs.contents.getD []).length * prices.chunk + prices.closure))))))) := by
  refine Program.affords_call (Nat.le_refl _) fun _stored => ?_
  refine Program.affords_call (Nat.le_refl _) fun (connected : Bool) => ?_
  cases connected with
  | false =>
      have enough : prices.updating + 0 ≤ prices.sending + (prices.reading + (prices.updating +
          (prices.counting + (chunkCount (inputs.contents.getD []).length * prices.chunk +
            prices.closure)))) := by omega
      exact Program.affords_call enough fun _updated => Program.affords_done (Nat.le_refl 0)
  | true =>
      refine Program.affords_call (Nat.le_refl _) fun _sent => ?_
      refine Program.affords_call (Nat.le_refl _) fun (resp : Option Packet) => ?_
      cases resp with
      | none =>
          apply abandonOffer_affords
          unfold Prices.closure
          omega
      | some resp => exact answerOffer_affords resp

/-- The most a call can cost, by the size of its file. -/
def callCost (prices : Prices) (length : Nat) : Nat :=
  prices.opening + chunkCount length * prices.chunk + prices.closure

theorem sendFile_affords :
    (sendFile vendor inputs).Affords prices.price (fun _result => 0)
      (callCost prices (inputs.contents.getD []).length) := by
  have stopped : (Program.done [] : SendProgram Bytes).Affords prices.price (fun _result => 0)
      (callCost prices (inputs.contents.getD []).length) := Program.affords_done (Nat.zero_le _)
  unfold sendFile
  split
  next => exact stopped
  next =>
      cases inputs.canonical with
      | none => exact stopped
      | some absPath =>
          simp only
          split
          next => exact stopped
          next =>
              cases inputs.peer with
              | none => exact stopped
              | some peer =>
                  simp only
                  split
                  next => exact stopped
                  next =>
                      have cost : callCost prices (inputs.contents.getD []).length =
                          prices.loading + (prices.recording + (prices.connecting +
                            (prices.sending + (prices.reading + (prices.updating +
                              (prices.counting + (chunkCount (inputs.contents.getD []).length *
                                prices.chunk + prices.closure))))))) := by
                        unfold callCost Prices.opening
                        omega
                      rw [cost]
                      refine Program.affords_call (Nat.le_refl _) fun (active : Int) => ?_
                      change Program.Affords prices.price _ _
                        (if shrMaxConcurrent ≤ active then .done []
                          else offerFile vendor inputs absPath peer)
                      split
                      next => exact Program.affords_done (Nat.zero_le _)
                      next => exact offerFile_affords absPath peer

end Phases

/-! ### Calls among other events -/

section Runs

def NodeState.asks (index : Nat) (state : NodeState) : NodeEvent → Option SendOp
  | .advance called _answer =>
      if called = index then
        match state.sends[index]? with
        | some (.call op _next) => some op
        | _ => none
      else none
  | _ => none

variable {vendor : Vendor} {host : Host}

theorem asks_step {index : Nat} (state : NodeState) (event : NodeEvent)
    (program : SendProgram Bytes) (present : state.sends[index]? = some program) :
    state.asks index event = none ∧
        (state.step vendor host event).sends[index]? = some program ∨
      ∃ op next reply, program = @Program.call sendSignature Bytes op next ∧
        state.asks index event = some op ∧
          (state.step vendor host event).sends[index]? = some (next reply) := by
  obtain ⟨inside, _same⟩ := List.getElem?_eq_some_iff.mp present
  cases event with
  | packet arrival packet => exact .inl ⟨rfl, present⟩
  | cancel id now => exact .inl ⟨rfl, present⟩
  | launch inputs =>
      refine .inl ⟨rfl, ?_⟩
      change (state.sends ++ [sendFile vendor inputs])[index]? = some program
      rw [List.getElem?_append_left inside, present]
  | advance called answer =>
      by_cases same : called = index
      · subst same
        cases program with
        | done result =>
            refine .inl ⟨?_, ?_⟩
            · simp only [NodeState.asks, if_true, present]
            · simp only [NodeState.step, present, advance]
              exact List.getElem?_set_self inside
        | call op next =>
            refine .inr ⟨op, next, (SendOp.effect answer state.node op).1, rfl, ?_, ?_⟩
            · simp only [NodeState.asks, if_true, present]
              rfl
            · simp only [NodeState.step, present, advance]
              exact List.getElem?_set_self inside
      · refine .inl ⟨?_, ?_⟩
        · simp only [NodeState.asks, if_neg same]
        · simp only [NodeState.step]
          cases state.sends[called]? with
          | none => exact present
          | some other => exact (List.getElem?_set_ne same).trans present

end Runs

/-- In every run, whatever else the node does and whatever the peer, the network
and the clock answer, a call of `send_file` pays for no more than one connection,
its offer, five attempts for each chunk of its file and the end of a call that
completes. -/
theorem send_file_costs (vendor : Vendor) (host : Host) (state : NodeState) (inputs : SendInputs)
    (events : List NodeEvent) (prices : Prices) :
    ((EventRun.emitted (NodeState.step vendor host) (NodeState.asks state.sends.length)
        (state.step vendor host (.launch inputs)) events).map prices.price).sum ≤
      callCost prices (inputs.contents.getD []).length := by
  have launched : (state.step vendor host (.launch inputs)).sends[state.sends.length]? =
      some (sendFile vendor inputs) := List.getElem?_concat_length
  generalize state.sends.length = index at launched
  exact @Program.Affords.spent _ _ _ _ _ _ (NodeState.step vendor host) (NodeState.asks index)
    (fun later => later.sends[index]?) asks_step _ _ sendFile_affords _ launched events

end Shr
