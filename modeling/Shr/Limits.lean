/-
The limits a configuration carries and the limits in force.

A configuration has a retry limit, a pause between attempts and a maximum of
concurrent transfers.  The loops read the pause from it; how often they try, and
how many transfers may run, is compiled in.
-/

import Shr.Config.Settings
import Shr.Library.Attempts
import Shr.Messaging.Delivery
import Shr.Reference

namespace Shr

open Attempts (Limited recorded)

/-! ### Calls under a configuration -/

def SendInputs.under (inputs : SendInputs) (cfg : AppConfig) : SendInputs :=
  { inputs with retryDelayMs := cfg.retryDelayMs.toInt }

def Messaging.Inputs.under (inputs : Messaging.Inputs) (cfg : AppConfig) : Messaging.Inputs :=
  { inputs with retryDelayMs := cfg.retryDelayMs.toInt }

/-- A negative retry limit allows no attempt. -/
def AppConfig.attemptLimit (cfg : AppConfig) : Nat :=
  cfg.retryLimit.toInt.toNat

/-! ### The attempts for a chunk -/

def SendOp.isSend : SendOp → Bool
  | .sendPacket _ => true
  | _ => false

/-- A world that decides a packet by the number of packets before it. -/
def SendOp.replyBy (outcome : Nat → Bool) : (op : SendOp) → List SendOp → op.Reply
  | .loadActive, _ => (0 : Int)
  | .connectTo _ _, _ => false
  | .sendPacket _, asked => outcome (asked.countP SendOp.isSend)
  | .readPacket, _ => none
  | .upsertTransfer _, _ | .closeConn, _ | .updateTransferProgress _ _ _, _
  | .incrementActive, _ | .decrementActive, _ | .sleep _, _ => ()

def chunkAttempts (inputs : SendInputs) (chunk : Packet) (outcome : Nat → Bool) : List SendOp :=
  ((sendAttempts inputs chunk 0 shrRetryLimit).run
    (recorded (σ := sendSignature) (SendOp.replyBy outcome)) []).2

theorem sendAttempts_eq_retry (inputs : SendInputs) (packet : Packet) (attempt left : Nat) :
    sendAttempts inputs packet attempt left =
      Attempts.retry (sleep inputs.retryDelayMs) (sendPacket packet) attempt left := by
  induction left generalizing attempt with
  | zero => rfl
  | succ left ih =>
      rw [sendAttempts, Attempts.retry]
      simp only [ih]

theorem chunkAttempts_eq (inputs : SendInputs) (chunk : Packet) (outcome : Nat → Bool) :
    chunkAttempts inputs chunk outcome =
      Attempts.asking (.sleep inputs.retryDelayMs) (.sendPacket chunk) 0
        (Attempts.made outcome 0 shrRetryLimit) := by
  unfold chunkAttempts
  rw [sendAttempts_eq_retry]
  exact Attempts.retry_run SendOp.isSend (fun _asked => rfl) (fun _asked => rfl)
    rfl rfl shrRetryLimit rfl

/-! ### The attempts for a message -/

def Messaging.Op.isSend : Messaging.Op → Bool
  | .sendPacket _ _ _ => true
  | _ => false

def Messaging.Op.replyBy (outcome : Nat → Bool) :
    (op : Messaging.Op) → List Messaging.Op → op.Reply
  | .sendPacket _ _ _, asked => outcome (asked.countP Messaging.Op.isSend)
  | .sleep _, _ => ()
  | .insertMessage _, _ => true

def messageAttempts (vendor : Vendor) (inputs : Messaging.Inputs) (peer : PeerInfo)
    (outcome : Nat → Bool) : List Messaging.Op :=
  ((Messaging.sendAttempts vendor inputs peer 0 shrRetryLimit).run
    (recorded (σ := Messaging.signature) (Messaging.Op.replyBy outcome)) []).2

theorem msgAttempts_eq_retry (vendor : Vendor) (inputs : Messaging.Inputs) (peer : PeerInfo)
    (attempt left : Nat) :
    Messaging.sendAttempts vendor inputs peer attempt left =
      Attempts.retry (Messaging.sleep inputs.retryDelayMs)
        (Messaging.sendPacket peer.ip peer.port (Messaging.messagePacket vendor inputs))
        attempt left := by
  induction left generalizing attempt with
  | zero => rfl
  | succ left ih =>
      rw [Messaging.sendAttempts, Attempts.retry]
      simp only [ih]

theorem messageAttempts_eq (vendor : Vendor) (inputs : Messaging.Inputs) (peer : PeerInfo)
    (outcome : Nat → Bool) :
    messageAttempts vendor inputs peer outcome =
      Attempts.asking (.sleep inputs.retryDelayMs)
        (.sendPacket peer.ip peer.port (Messaging.messagePacket vendor inputs)) 0
        (Attempts.made outcome 0 shrRetryLimit) := by
  unfold messageAttempts
  rw [msgAttempts_eq_retry]
  exact Attempts.retry_run Messaging.Op.isSend (fun _asked => rfl) (fun _asked => rfl) rfl rfl
    shrRetryLimit rfl

/-! ### Refused transfers -/

/-- The call ends without any effect when it reads this number of transfers. -/
def RefusesAt (vendor : Vendor) (inputs : SendInputs) (active : Int) : Prop :=
  ∃ next : Int → SendProgram Bytes,
    sendFile vendor inputs = @Program.call sendSignature Bytes .loadActive next ∧
      next active = .done []

theorem Sendable.under {inputs : SendInputs} {absPath : Bytes} {peer : PeerInfo}
    (sendable : Sendable inputs absPath peer) (cfg : AppConfig) :
    Sendable (inputs.under cfg) absPath peer where
  recipient := sendable.recipient
  known := sendable.known
  regular := sendable.regular
  registered := sendable.registered
  addressed := sendable.addressed

theorem refusesAt_iff (vendor : Vendor) {inputs : SendInputs} {absPath : Bytes} {peer : PeerInfo}
    (sendable : Sendable inputs absPath peer) (active : Int) :
    RefusesAt vendor inputs active ↔ shrMaxConcurrent ≤ active := by
  unfold RefusesAt
  rw [sendable.sendFile_eq vendor]
  constructor
  · rintro ⟨next, same, ends⟩
    cases same
    by_cases reached : shrMaxConcurrent ≤ active
    · exact reached
    · -- Below the limit the call goes on to store its record.
      change (if shrMaxConcurrent ≤ active then Program.done []
        else offerFile vendor inputs absPath peer) = .done [] at ends
      rw [if_neg reached] at ends
      cases ends
  · intro reached
    exact ⟨_, rfl, if_pos reached⟩

/-! ### The configured limits -/

/-- The loops for a chunk and for a message try as often as the configuration
allows and pause as long as it says, and a transfer is refused exactly when the
configured number of transfers is reached. -/
structure LimitsInForce (vendor : Vendor) (cfg : AppConfig) (inputs : SendInputs)
    (chunk : Packet) (message : Messaging.Inputs) (peer : PeerInfo)
    (chunkOutcome messageOutcome : Nat → Bool) (active : Int) : Prop where
  chunk : Limited (.sleep cfg.retryDelayMs.toInt) (.sendPacket chunk) cfg.attemptLimit
    chunkOutcome (chunkAttempts (inputs.under cfg) chunk chunkOutcome)
  message : Limited (.sleep cfg.retryDelayMs.toInt)
    (.sendPacket peer.ip peer.port (Messaging.messagePacket vendor (message.under cfg)))
    cfg.attemptLimit messageOutcome
    (messageAttempts vendor (message.under cfg) peer messageOutcome)
  refusal : RefusesAt vendor (inputs.under cfg) active ↔ cfg.maxConcurrent.toInt ≤ active

def AttemptsAgree (cfg : AppConfig) (outcome : Nat → Bool) : Prop :=
  shrRetryLimit = cfg.attemptLimit ∨
    ∃ index, index < min shrRetryLimit cfg.attemptLimit ∧ outcome index = true

def TransfersAgree (cfg : AppConfig) (active : Int) : Prop :=
  active < min shrMaxConcurrent cfg.maxConcurrent.toInt ∨
    max shrMaxConcurrent cfg.maxConcurrent.toInt ≤ active

theorem transfersAgree_iff (cfg : AppConfig) (active : Int) :
    TransfersAgree cfg active ↔
      (shrMaxConcurrent ≤ active ↔ cfg.maxConcurrent.toInt ≤ active) := by
  unfold TransfersAgree
  omega

section Call

variable (vendor : Vendor) (cfg : AppConfig)

theorem chunk_limited_iff (inputs : SendInputs) (chunk : Packet) (outcome : Nat → Bool) :
    Limited (.sleep cfg.retryDelayMs.toInt) (.sendPacket chunk) cfg.attemptLimit outcome
        (chunkAttempts (inputs.under cfg) chunk outcome) ↔
      AttemptsAgree cfg outcome :=
  Attempts.limited_iff cfg.attemptLimit (chunkAttempts_eq (inputs.under cfg) chunk outcome)

theorem message_limited_iff (message : Messaging.Inputs) (peer : PeerInfo)
    (outcome : Nat → Bool) :
    Limited (.sleep cfg.retryDelayMs.toInt)
        (.sendPacket peer.ip peer.port (Messaging.messagePacket vendor (message.under cfg)))
        cfg.attemptLimit outcome (messageAttempts vendor (message.under cfg) peer outcome) ↔
      AttemptsAgree cfg outcome :=
  Attempts.limited_iff cfg.attemptLimit
    (messageAttempts_eq vendor (message.under cfg) peer outcome)

end Call

/-- The limits of a configuration are in force exactly when the compiled limits
lead to the same attempts and the same refusal. -/
theorem limits_in_force_iff (vendor : Vendor) (cfg : AppConfig) {inputs : SendInputs}
    {absPath : Bytes} {recipient : PeerInfo} (sendable : Sendable inputs absPath recipient)
    (chunk : Packet) (message : Messaging.Inputs) (peer : PeerInfo)
    (chunkOutcome messageOutcome : Nat → Bool) (active : Int) :
    LimitsInForce vendor cfg inputs chunk message peer chunkOutcome messageOutcome active ↔
      AttemptsAgree cfg chunkOutcome ∧ AttemptsAgree cfg messageOutcome ∧
        TransfersAgree cfg active := by
  have chunks := chunk_limited_iff cfg inputs chunk chunkOutcome
  have messages := message_limited_iff vendor cfg message peer messageOutcome
  have refusals := refusesAt_iff vendor (sendable.under cfg) active
  rw [transfersAgree_iff]
  constructor
  · intro inForce
    exact ⟨chunks.mp inForce.chunk, messages.mp inForce.message,
      refusals.symm.trans inForce.refusal⟩
  · rintro ⟨chunkAgrees, messageAgrees, transfersAgree⟩
    exact
      { chunk := chunks.mpr chunkAgrees
        message := messages.mpr messageAgrees
        refusal := refusals.trans transfersAgree }

namespace Reference

def strictConfig : AppConfig :=
  { AppConfig.zero with
    maxConcurrent := 1
    retryLimit := 3
    retryDelayMs := 500 }

def idleCall : SendInputs :=
  sendInputs [] fun _index => 0

/-- When everything is sent at once and nothing else runs, the limits of the
configuration are in force. -/
theorem strict_limits_unnoticed :
    Sendable idleCall sentPath peer ∧
      LimitsInForce vendor strictConfig idleCall (offerPacket vendor idleCall sentPath)
        Messaging.Reference.messageInputs peer (fun _attempt => true) (fun _attempt => true) 0 := by
  have sendable : Sendable idleCall sentPath peer := sendInputs_sendable [] _
  refine ⟨sendable, ?_⟩
  apply (limits_in_force_iff vendor strictConfig sendable _ _ peer _ _ 0).mpr
  exact ⟨.inr ⟨0, by decide, rfl⟩, .inr ⟨0, by decide, rfl⟩, .inl (by decide)⟩

/-- With a retry limit of 3, a chunk that cannot be sent is tried five times. -/
theorem strict_limits_exceeded :
    1 ≤ strictConfig.retryLimit.toInt ∧
      ¬ LimitsInForce vendor strictConfig idleCall (offerPacket vendor idleCall sentPath)
        Messaging.Reference.messageInputs peer (fun _attempt => false) (fun _attempt => false)
        1 := by
  refine ⟨by decide, ?_⟩
  intro inForce
  rcases (chunk_limited_iff strictConfig _ _ _).mp inForce.chunk with same | success
  · exact absurd same (by decide)
  · obtain ⟨_index, _within, succeeds⟩ := success
    cases succeeds

end Reference

end Shr
