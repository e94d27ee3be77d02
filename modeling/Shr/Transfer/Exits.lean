/-
The exits of `Transfer::send_file`.

A ledger says what a call owes at a point: the state it has last given its record
and the progress it has last written, whether its connection is open, and
whether it holds a slot.  Every operation of the call fits the ledger, and at
each exit nothing is owed.
-/

import Mathlib.Data.List.Chain
import Shr.Library.Contracts
import Shr.Transfer.Exchange
import Shr.Transfer.Fate

namespace Shr

/-! ### Ledgers -/

inductive ConnState where
  | unopened
  | refused
  | opened
  | closed
deriving DecidableEq

structure Ledger where
  state : Option TransferState
  written : Option UInt64
  conn : ConnState
  slot : Bool

def Ledger.fresh : Ledger :=
  { state := none
    written := none
    conn := .unopened
    slot := false }

def Ledger.streaming (transferred : UInt64) : Ledger :=
  { state := some .inProgress
    written := some transferred
    conn := .opened
    slot := true }

/-- The operation fits the ledger; `follows` relates one progress to the next. -/
def Ledger.Allows (inputs : SendInputs) (follows : UInt64 → UInt64 → Prop) (ledger : Ledger) :
    SendOp → Prop
  | .loadActive => True
  | .upsertTransfer record => ledger.state = none ∧ record.id = inputs.xferId
  | .connectTo _ _ => ledger.conn = .unopened
  | .sendPacket _ => ledger.conn = .opened
  | .readPacket => ledger.conn = .opened
  | .closeConn => ledger.conn = .opened
  | .updateTransferProgress id transferred _ =>
      id = inputs.xferId ∧ ledger.state ≠ none ∧
        ∀ last, ledger.written = some last → follows last transferred
  | .incrementActive => ledger.slot = false
  | .decrementActive => ledger.slot = true
  | .sleep _ => True

def Ledger.learn (ledger : Ledger) : (op : SendOp) → op.Reply → Ledger
  | .upsertTransfer record, _ => { ledger with state := some record.state }
  | .connectTo _ _, (connected : Bool) =>
      { ledger with conn := if connected then .opened else .refused }
  | .closeConn, _ => { ledger with conn := .closed }
  | .updateTransferProgress _ transferred state, _ =>
      { ledger with
        state := some state
        written := some transferred }
  | .incrementActive, _ => { ledger with slot := true }
  | .decrementActive, _ => { ledger with slot := false }
  | _, _ => ledger

/-- Nothing is owed: the slot is given back, no connection is open, and the record,
if there is one, has the state that goes with the result. -/
structure Ledger.Settled (inputs : SendInputs) (ledger : Ledger) (result : Bytes) : Prop where
  slot : ledger.slot = false
  conn : ledger.conn ≠ .opened
  state : (ledger.state = none ∧ result = []) ∨ (ledger.state = some .failed ∧ result = []) ∨
    (ledger.state = some .completed ∧ result = inputs.xferId)

def ledgerContract (inputs : SendInputs) (follows : UInt64 → UInt64 → Prop) :
    Contract sendSignature Ledger :=
  { allowed := Ledger.Allows inputs follows
    possible := fun _ledger _op _reply => True
    learned := Ledger.learn }

/-- Progress as a call writes it: a stream at some progress only goes on to a
progress that may follow. -/
structure Climbs (follows : UInt64 → UInt64 → Prop)
    (inside : InputStream UInt8 → UInt64 → Prop) : Prop where
  same : ∀ transferred, follows transferred transferred
  next : ∀ file transferred, inside file transferred → file.delivered shrChunkSize ≠ [] →
    follows transferred (transferred + UInt64.ofNat (file.delivered shrChunkSize).length) ∧
      inside (file.afterRead shrChunkSize)
        (transferred + UInt64.ofNat (file.delivered shrChunkSize).length)

theorem climbs_any : Climbs (fun _last _next => True) fun _file _transferred => True where
  same := fun _transferred => trivial
  next := fun _file _transferred _inside _more => ⟨trivial, trivial⟩

/-! ### Every operation fits -/

section Meets

variable {vendor : Vendor} {inputs : SendInputs} {follows : UInt64 → UInt64 → Prop}
variable {inside : InputStream UInt8 → UInt64 → Prop} {ledger : Ledger} {α : Type}
variable {post : Ledger → α → Prop}

theorem meets_ask {op : SendOp} {following : op.Reply → SendProgram α}
    (allowed : ledger.Allows inputs follows op)
    (rest : ∀ reply, (following reply).Meets (ledgerContract inputs follows) post
      (ledger.learn op reply)) :
    (ask op >>= following).Meets (ledgerContract inputs follows) post ledger :=
  ⟨allowed, fun reply _possible => rest reply⟩

theorem sendAttempts_meets (opened : ledger.conn = .opened) (packet : Packet)
    (attempt left : Nat) :
    (sendAttempts inputs packet attempt left).Meets (ledgerContract inputs follows)
      (fun after _sent => after = ledger) ledger := by
  induction left generalizing attempt with
  | zero => rfl
  | succ left ih =>
      have sends : (do
          let sent ← sendPacket packet
          if sent then return true else sendAttempts inputs packet (attempt + 1) left :
            SendProgram Bool).Meets (ledgerContract inputs follows)
              (fun after _sent => after = ledger) ledger := by
        apply meets_ask (by exact opened)
        intro sent
        cases (sent : Bool) with
        | true => rfl
        | false => exact ih (attempt + 1)
      unfold sendAttempts
      split
      next => exact meets_ask (by exact trivial) fun _slept => sends
      next => exact sends

/-- The end of a call that streams: the connection is closed and the slot given
back, and the last state written is the one given. -/
theorem finish_meets (climbs : Climbs follows inside) (transferred : UInt64)
    (state : TransferState) {result : α}
    (ends : post
      { state := some state
        written := some transferred
        conn := .closed
        slot := false } result) :
    (do
      closeConn
      updateTransferProgress inputs.xferId transferred state
      decrementActive
      return result : SendProgram α).Meets (ledgerContract inputs follows) post
        (.streaming transferred) := by
  apply meets_ask (by exact rfl)
  intro _closed
  apply meets_ask
  · exact ⟨rfl, Option.some_ne_none _, fun last written =>
      Option.some.inj written ▸ climbs.same transferred⟩
  · intro _updated
    apply meets_ask (by exact rfl)
    intro _decremented
    exact ends

def LoopEnds (after : Ledger) : Option UInt64 → Prop
  | none => after.slot = false ∧ after.conn = .closed ∧ after.state = some .failed
  | some transferred => after = .streaming transferred

theorem sendLoop_meets (climbs : Climbs follows inside) (file : InputStream UInt8)
    (transferred chunkIndex : UInt64) (start : inside file transferred) :
    (sendLoop vendor inputs file transferred chunkIndex).Meets (ledgerContract inputs follows)
      LoopEnds (.streaming transferred) := by
  induction file, transferred, chunkIndex using sendLoop.induct with
  | case1 file transferred chunkIndex failed =>
      rw [sendLoop, if_pos failed]
      exact rfl
  | case2 file transferred chunkIndex good ended =>
      rw [sendLoop, if_neg good, dif_pos ended]
      exact rfl
  | case3 file transferred chunkIndex good more data ih =>
      obtain ⟨rises, stays⟩ := climbs.next file transferred start more
      rw [sendLoop, if_neg good, dif_neg more]
      refine (sendAttempts_meets rfl _ _ _).bind ?_
      rintro after sent rfl
      cases sent with
      | false => exact finish_meets climbs transferred .failed ⟨rfl, rfl, rfl⟩
      | true =>
          apply meets_ask (by exact rfl)
          intro ack
          cases (ack : Option Packet) with
          | none => exact rfl
          | some ack =>
              apply meets_ask
              · exact ⟨rfl, Option.some_ne_none _, fun last written =>
                  Option.some.inj written ▸ rises⟩
              · intro _updated
                exact ih stays

theorem abandonOffer_meets (opened : ledger.conn = .opened) (stored : ledger.state ≠ none)
    (unwritten : ledger.written = none) (slot : ledger.slot = false) :
    (abandonOffer inputs).Meets (ledgerContract inputs follows) (Ledger.Settled inputs) ledger := by
  unfold abandonOffer
  apply meets_ask (by exact opened)
  intro _closed
  apply meets_ask
  · refine ⟨rfl, stored, ?_⟩
    intro last written
    exact absurd (unwritten.symm.trans written) (Option.some_ne_none last).symm
  · intro _updated
    exact ⟨slot, nofun, .inr (.inl ⟨rfl, rfl⟩)⟩

theorem completeFile_meets (climbs : Climbs follows inside) (transferred : UInt64) :
    (completeFile vendor inputs transferred).Meets (ledgerContract inputs follows)
      (Ledger.Settled inputs) (.streaming transferred) := by
  unfold completeFile
  apply meets_ask (by exact rfl)
  intro _sent
  exact finish_meets climbs transferred .completed ⟨rfl, nofun, .inr (.inr ⟨rfl, rfl⟩)⟩

theorem streamFile_meets (climbs : Climbs follows inside) {contents : Bytes}
    {resumeOffset : UInt64} (start : inside (resumedStream contents resumeOffset) resumeOffset)
    (opened : ledger.conn = .opened) (stored : ledger.state ≠ none)
    (unwritten : ledger.written = none) (slot : ledger.slot = false) :
    (streamFile vendor inputs contents resumeOffset).Meets (ledgerContract inputs follows)
      (Ledger.Settled inputs) ledger := by
  unfold streamFile
  apply meets_ask
  · refine ⟨rfl, stored, ?_⟩
    intro last written
    exact absurd (unwritten.symm.trans written) (Option.some_ne_none last).symm
  · intro _updated
    apply meets_ask (by exact slot)
    intro _incremented
    have looping : (Ledger.learn (Ledger.learn ledger
        (.updateTransferProgress inputs.xferId resumeOffset .inProgress) _updated)
          .incrementActive _incremented) = .streaming resumeOffset := by
      simp only [Ledger.learn, Ledger.streaming, opened]
    rw [looping]
    refine (sendLoop_meets climbs _ _ _ start).bind ?_
    intro after left ends
    cases left with
    | none => exact ⟨ends.1, by rw [ends.2.1]; nofun, .inr (.inl ⟨ends.2.2, rfl⟩)⟩
    | some transferred =>
        rw [show after = .streaming transferred from ends]
        exact completeFile_meets climbs transferred

theorem answerOffer_meets (climbs : Climbs follows inside)
    (start : ∀ contents resumeOffset, inputs.contents = some contents →
      inside (resumedStream contents resumeOffset) resumeOffset)
    (opened : ledger.conn = .opened) (stored : ledger.state ≠ none)
    (unwritten : ledger.written = none) (slot : ledger.slot = false) (resp : Packet) :
    (answerOffer vendor inputs resp).Meets (ledgerContract inputs follows)
      (Ledger.Settled inputs) ledger := by
  unfold answerOffer
  split
  next => exact abandonOffer_meets opened stored unwritten slot
  next =>
      cases readable : inputs.contents with
      | none => exact abandonOffer_meets opened stored unwritten slot
      | some contents =>
          exact streamFile_meets climbs (start contents _ readable) opened stored unwritten slot

theorem offerFile_meets (climbs : Climbs follows inside)
    (start : ∀ contents resumeOffset, inputs.contents = some contents →
      inside (resumedStream contents resumeOffset) resumeOffset)
    (absPath : Bytes) (peer : PeerInfo) :
    (offerFile vendor inputs absPath peer).Meets (ledgerContract inputs follows)
      (Ledger.Settled inputs) .fresh := by
  unfold offerFile
  apply meets_ask (by exact ⟨rfl, rfl⟩)
  intro _stored
  apply meets_ask (by exact rfl)
  intro connected
  cases (connected : Bool) with
  | false =>
      apply meets_ask
      · exact ⟨rfl, Option.some_ne_none _, nofun⟩
      · intro _updated
        exact ⟨rfl, nofun, .inr (.inl ⟨rfl, rfl⟩)⟩
  | true =>
      apply meets_ask (by exact rfl)
      intro _sent
      apply meets_ask (by exact rfl)
      intro resp
      cases (resp : Option Packet) with
      | none => exact abandonOffer_meets rfl (Option.some_ne_none _) rfl rfl
      | some resp =>
          exact answerOffer_meets climbs start rfl (Option.some_ne_none _) rfl rfl resp

/-- A call fits its ledger from beginning to end, whatever the replies are. -/
theorem sendFile_meets (climbs : Climbs follows inside)
    (start : ∀ contents resumeOffset, inputs.contents = some contents →
      inside (resumedStream contents resumeOffset) resumeOffset) :
    (sendFile vendor inputs).Meets (ledgerContract inputs follows) (Ledger.Settled inputs)
      .fresh := by
  have turnedAway : (.done [] : SendProgram Bytes).Meets (ledgerContract inputs follows)
      (Ledger.Settled inputs) .fresh :=
    ⟨rfl, nofun, .inl ⟨rfl, rfl⟩⟩
  unfold sendFile
  split
  next => exact turnedAway
  next =>
      split
      next => exact turnedAway
      next absPath known =>
          split
          next => exact turnedAway
          next =>
              split
              next => exact turnedAway
              next peer registered =>
                  split
                  next => exact turnedAway
                  next =>
                      apply meets_ask (by exact trivial)
                      intro active
                      by_cases full : shrMaxConcurrent ≤ active
                      · rw [if_pos full]
                        exact turnedAway
                      · rw [if_neg full]
                        exact offerFile_meets climbs start absPath peer

end Meets

/-! ### Progress within the file -/

/-- A stream that cannot count past 64 bits. -/
def Bounded (file : InputStream UInt8) (transferred : UInt64) : Prop :=
  transferred.toNat + file.remaining.length < 2 ^ 64

theorem climbs_bounded : Climbs (· ≤ ·) Bounded where
  same := fun _transferred => UInt64.le_refl _
  next := by
    intro file transferred bounded _more
    unfold Bounded at bounded ⊢
    have delivered : (file.delivered shrChunkSize).length ≤ file.remaining.length := by
      rw [InputStream.delivered, List.length_take]
      omega
    have rest : (file.afterRead shrChunkSize).remaining.length =
        file.remaining.length - (file.delivered shrChunkSize).length := by
      rw [InputStream.remaining_afterRead, List.length_drop, InputStream.delivered,
        List.length_take]
      omega
    have next : (transferred + UInt64.ofNat (file.delivered shrChunkSize).length).toNat =
        transferred.toNat + (file.delivered shrChunkSize).length := by
      rw [UInt64.toNat_add, UInt64.toNat_ofNat']
      omega
    rw [UInt64.le_iff_toNat_le, next, rest]
    omega

theorem remainingFrom_of_negative {contents : Bytes} {start : UInt64}
    (negative : 2 ^ 63 ≤ start.toNat) : remainingFrom contents start = [] := by
  have resumes : 0 < start := by
    rw [UInt64.lt_iff_toNat_lt, UInt64.toNat_zero]
    omega
  have below : ¬0 ≤ start.toInt64.toInt := by
    have signed : start.toInt64.toInt = start.toBitVec.toInt := rfl
    have bounded := start.toNat_lt
    rw [signed, BitVec.toInt_eq_toNat_cond, UInt64.toNat_toBitVec]
    split <;> omega
  unfold remainingFrom resumedStream
  rw [if_pos resumes, InputStream.seek, if_neg below]
  rfl

theorem bounded_resumedStream {contents : Bytes} (fits : contents.length < 2 ^ 63)
    (start : UInt64) : Bounded (resumedStream contents start) start := by
  have small := start.toNat_lt
  change start.toNat + (remainingFrom contents start).length < 2 ^ 64
  by_cases negative : 2 ^ 63 ≤ start.toNat
  · rw [remainingFrom_of_negative negative, List.length_nil]
    omega
  · rw [remainingFrom_eq (by omega), List.length_drop]
    omega

/-! ### The books of a run -/

def SendOp.progress : SendOp → Option UInt64
  | .updateTransferProgress _ transferred _ => some transferred
  | _ => none

def SendOp.usesConn : SendOp → Bool
  | .sendPacket _ => true
  | .readPacket => true
  | .closeConn => true
  | _ => false

def progressWritten (asked : List SendOp) : List UInt64 :=
  asked.filterMap SendOp.progress

def connUses (asked : List SendOp) : List SendOp :=
  asked.filter SendOp.usesConn

/-- The connection was closed once, and that was the last use of it. -/
def ClosedOnce (asked : List SendOp) : Prop :=
  ∃ earlier, connUses asked = earlier ++ [.closeConn] ∧ SendOp.closeConn ∉ earlier

def Opened (asked : List SendOp) : Prop :=
  ∃ ip port, SendOp.connectTo ip port ∈ asked

def StoredRecord (asked : List SendOp) : Prop :=
  ∃ record, SendOp.upsertTransfer record ∈ asked

def ConnBooks (fate : Fate) (asked : List SendOp) : ConnState → Prop
  | .unopened => ¬Opened asked ∧ connUses asked = []
  | .refused => fate.connected = false ∧ connUses asked = []
  | .opened => (Opened asked ∧ fate.connected = true) ∧ SendOp.closeConn ∉ asked
  | .closed => (Opened asked ∧ fate.connected = true) ∧ ClosedOnce asked

structure Books (inputs : SendInputs) (follows : UInt64 → UInt64 → Prop) (fate : Fate)
    (first : Node) (world : CallWorld) (ledger : Ledger) : Prop where
  stored : StoredRecord world.asked → ledger.state ≠ none
  record : ∀ state, ledger.state = some state →
    ∃ record, world.node.transfers.getTransfer inputs.xferId = some record ∧ record.state = state
  active : world.node.activeCount = first.activeCount + if ledger.slot then 1 else 0
  last : (progressWritten world.asked).getLast? = ledger.written
  chain : (progressWritten world.asked).IsChain follows
  conn : ConnBooks fate world.asked ledger.conn

section Books

variable {inputs : SendInputs} {follows : UInt64 → UInt64 → Prop} {fate : Fate} {first : Node}
variable {world : CallWorld} {ledger : Ledger}

theorem Books.start (node : Node) : Books inputs follows fate node (.start node) .fresh where
  stored := fun ⟨_record, impossible⟩ => by cases impossible
  record := fun _state impossible => by cases impossible
  active := (Int.add_zero _).symm
  last := rfl
  chain := List.IsChain.nil
  conn := ⟨fun ⟨_ip, _port, impossible⟩ => (by cases impossible), rfl⟩

theorem progressWritten_append (asked : List SendOp) (op : SendOp) :
    progressWritten (asked ++ [op]) = progressWritten asked ++ op.progress.toList := by
  unfold progressWritten
  rw [List.filterMap_append]
  cases shown : op.progress <;> simp [shown]

theorem connUses_append_of_used {asked : List SendOp} {op : SendOp}
    (used : op.usesConn = true) : connUses (asked ++ [op]) = connUses asked ++ [op] := by
  rw [connUses, List.filter_append, List.filter_cons_of_pos used, List.filter_nil]
  rfl

theorem connUses_append_of_unused {asked : List SendOp} {op : SendOp}
    (unused : op.usesConn = false) : connUses (asked ++ [op]) = connUses asked := by
  rw [connUses, List.filter_append, List.filter_cons_of_neg (by simp [unused]), List.filter_nil,
    List.append_nil]
  rfl

theorem Books.stored_step (books : Books inputs follows fate first world ledger) {op : SendOp} :
    StoredRecord (world.asked ++ [op]) →
      (ledger.learn op (fate.effect op world).1).state ≠ none := by
  rintro ⟨record, member⟩
  rcases List.mem_append.mp member with earlier | last
  · have kept := books.stored ⟨record, earlier⟩
    cases op with
    | upsertTransfer other => exact Option.some_ne_none _
    | updateTransferProgress id transferred state => exact Option.some_ne_none _
    | _ => exact kept
  · rw [← List.mem_singleton.mp last]
    exact Option.some_ne_none _

theorem Books.record_step (books : Books inputs follows fate first world ledger) {op : SendOp}
    (allowed : ledger.Allows inputs follows op) (state : TransferState)
    (known : (ledger.learn op (fate.effect op world).1).state = some state) :
    ∃ record, (fate.effect op world).2.node.transfers.getTransfer inputs.xferId = some record ∧
      record.state = state := by
  cases op with
  | upsertTransfer record =>
      cases known
      exact ⟨record.stored, TransferTable.getTransfer_upsert_self _ record
        (congrArg cstr allowed.2.symm), rfl⟩
  | updateTransferProgress id transferred written =>
      cases known
      obtain ⟨own, stored, _follows⟩ := allowed
      obtain ⟨earlier, present⟩ := Option.ne_none_iff_exists'.mp stored
      obtain ⟨record, found, _state⟩ := books.record earlier present
      refine ⟨record.progressed transferred state fate.now, ?_, rfl⟩
      rw [Fate.effect_node]
      simp only [SendOp.effect]
      rw [TransferTable.getTransfer_update_self _ _ _ _ (congrArg cstr own.symm), found]
      rfl
  | _ => exact books.record state known

theorem Books.active_step (books : Books inputs follows fate first world ledger) {op : SendOp}
    (allowed : ledger.Allows inputs follows op) :
    (fate.effect op world).2.node.activeCount =
      first.activeCount + if (ledger.learn op (fate.effect op world).1).slot then 1 else 0 := by
  have active := books.active
  cases op with
  | incrementActive =>
      rw [show ledger.slot = false from allowed] at active
      simp [SendOp.effect, Ledger.learn, active]
  | decrementActive =>
      rw [show ledger.slot = true from allowed] at active
      simp [SendOp.effect, Ledger.learn, active]
  | _ => exact active

theorem Books.last_step (books : Books inputs follows fate first world ledger) {op : SendOp} :
    (progressWritten (world.asked ++ [op])).getLast? =
      (ledger.learn op (fate.effect op world).1).written := by
  rw [progressWritten_append]
  cases op with
  | updateTransferProgress id transferred state => exact List.getLast?_concat
  | _ => exact (congrArg List.getLast? (List.append_nil _)).trans books.last

theorem Books.chain_step (books : Books inputs follows fate first world ledger) {op : SendOp}
    (allowed : ledger.Allows inputs follows op) :
    (progressWritten (world.asked ++ [op])).IsChain follows := by
  rw [progressWritten_append]
  cases op with
  | updateTransferProgress id transferred state =>
      refine books.chain.append (List.IsChain.singleton _) ?_
      intro last isLast next isNext
      cases isNext
      rw [books.last] at isLast
      exact allowed.2.2 last isLast
  | _ => exact (List.append_nil (progressWritten world.asked)).symm ▸ books.chain

theorem Opened.later {asked : List SendOp} (opened : Opened asked) (op : SendOp) :
    Opened (asked ++ [op]) := by
  obtain ⟨ip, port, member⟩ := opened
  exact ⟨ip, port, List.mem_append_left _ member⟩

theorem not_closed_later {asked : List SendOp} (unclosed : SendOp.closeConn ∉ asked) {op : SendOp}
    (other : op ≠ .closeConn) : SendOp.closeConn ∉ asked ++ [op] := by
  intro member
  rcases List.mem_append.mp member with earlier | last
  · exact unclosed earlier
  · exact other (List.mem_singleton.mp last).symm

theorem ConnBooks.later {asked : List SendOp} {conn : ConnState} (books : ConnBooks fate asked conn)
    {op : SendOp} (unused : op.usesConn = false) (other : ∀ ip port, op ≠ .connectTo ip port) :
    ConnBooks fate (asked ++ [op]) conn := by
  have sameUses := @connUses_append_of_unused asked op unused
  cases conn with
  | unopened =>
      refine ⟨?_, sameUses.trans books.2⟩
      rintro ⟨ip, port, member⟩
      rcases List.mem_append.mp member with earlier | last
      · exact books.1 ⟨ip, port, earlier⟩
      · exact other ip port (List.mem_singleton.mp last).symm
  | refused => exact ⟨books.1, sameUses.trans books.2⟩
  | opened =>
      refine ⟨⟨books.1.1.later op, books.1.2⟩, not_closed_later books.2 ?_⟩
      rintro rfl
      cases unused
  | closed =>
      obtain ⟨opened, earlier, uses, once⟩ := books
      exact ⟨⟨opened.1.later op, opened.2⟩, earlier, sameUses.trans uses, once⟩

theorem ConnBooks.used {asked : List SendOp} {conn : ConnState} (books : ConnBooks fate asked conn)
    (opened : conn = .opened) {op : SendOp} (other : op ≠ .closeConn) :
    ConnBooks fate (asked ++ [op]) conn := by
  rw [opened] at books ⊢
  exact ⟨⟨books.1.1.later op, books.1.2⟩, not_closed_later books.2 other⟩

theorem Books.conn_step (books : Books inputs follows fate first world ledger) {op : SendOp}
    (allowed : ledger.Allows inputs follows op) :
    ConnBooks fate (world.asked ++ [op]) (ledger.learn op (fate.effect op world).1).conn := by
  have conn := books.conn
  cases op with
  | connectTo ip port =>
      rw [show ledger.conn = .unopened from allowed] at conn
      have unclosed : SendOp.closeConn ∉ world.asked := by
        intro member
        have used := List.mem_filter.mpr ⟨member, (rfl : SendOp.closeConn.usesConn = true)⟩
        rw [show world.asked.filter SendOp.usesConn = [] from conn.2] at used
        cases used
      change ConnBooks fate _ (if fate.connected then ConnState.opened else .refused)
      cases connected : fate.connected with
      | true =>
          exact ⟨⟨⟨ip, port, List.mem_append_right _ (List.mem_singleton_self _)⟩, connected⟩,
            not_closed_later unclosed nofun⟩
      | false => exact ⟨connected, (connUses_append_of_unused rfl).trans conn.2⟩
  | sendPacket packet => exact conn.used allowed nofun
  | readPacket => exact conn.used allowed nofun
  | closeConn =>
      rw [show ledger.conn = .opened from allowed] at conn
      refine ⟨⟨conn.1.1.later _, conn.1.2⟩, connUses world.asked, connUses_append_of_used rfl, ?_⟩
      intro member
      exact conn.2 (List.mem_filter.mp member).1
  | _ => exact conn.later rfl nofun

theorem Books.step (books : Books inputs follows fate first world ledger) {op : SendOp}
    (allowed : ledger.Allows inputs follows op) :
    Books inputs follows fate first (fate.effect op world).2
      (ledger.learn op (fate.effect op world).1) where
  stored := books.stored_step
  record := books.record_step allowed
  active := books.active_step allowed
  last := books.last_step
  chain := books.chain_step allowed
  conn := books.conn_step allowed

end Books

/-- At the end of a call its books agree with a ledger that owes nothing. -/
theorem settled_books {inputs : SendInputs} {follows : UInt64 → UInt64 → Prop}
    {inside : InputStream UInt8 → UInt64 → Prop} (climbs : Climbs follows inside)
    (start : ∀ contents resumeOffset, inputs.contents = some contents →
      inside (resumedStream contents resumeOffset) resumeOffset)
    (vendor : Vendor) (fate : Fate) (node : Node) :
    ∃ ledger, Books inputs follows fate node (fate.sendFile vendor inputs node).2 ledger ∧
      ledger.Settled inputs (fate.sendFile vendor inputs node).1 := by
  refine (sendFile_meets climbs start).run ?_ (Books.start node)
  intro world ledger op books allowed
  exact ⟨trivial, books.step allowed⟩

/-! ### Every exit -/

/-- How a call leaves what it has used. -/
structure CleanExit (inputs : SendInputs) (fate : Fate) (before after : Node)
    (asked : List SendOp) (result : Bytes) : Prop where
  record : StoredRecord asked →
    ∃ record, after.transfers.getTransfer inputs.xferId = some record ∧
      (record.state = .failed ↔ result = []) ∧
      (record.state = .completed ↔ result = inputs.xferId) ∧
      record.state ≠ .pending ∧ record.state ≠ .inProgress
  active : after.activeCount = before.activeCount
  closed : Opened asked → fate.connected = true → ClosedOnce asked
  unopened : ¬(Opened asked ∧ fate.connected = true) → connUses asked = []

theorem xferId_ne_nil (inputs : SendInputs) : inputs.xferId ≠ [] := by
  intro empty
  have absent : hexDigit ((uuidByte inputs.random 0).toNat / 16) ∉ inputs.xferId := by
    rw [empty]
    exact List.not_mem_nil
  apply absent
  apply List.mem_flatMap.mpr
  refine ⟨0, List.mem_finRange 0, List.mem_append_right _ ?_⟩
  exact List.mem_cons_self

theorem Ledger.Settled.cleanExit {inputs : SendInputs} {follows : UInt64 → UInt64 → Prop}
    {fate : Fate} {before : Node} {world : CallWorld} {ledger : Ledger} {result : Bytes}
    (settled : ledger.Settled inputs result)
    (books : Books inputs follows fate before world ledger) :
    CleanExit inputs fate before world.node world.asked result where
  record := by
    intro stored
    have nonempty := xferId_ne_nil inputs
    rcases settled.state with ⟨none, _failed⟩ | ⟨failed, empty⟩ | ⟨completed, same⟩
    · exact absurd none (books.stored stored)
    · obtain ⟨record, found, state⟩ := books.record _ failed
      refine ⟨record, found, ?_⟩
      rw [state, empty]
      simp [Ne.symm nonempty]
    · obtain ⟨record, found, state⟩ := books.record _ completed
      refine ⟨record, found, ?_⟩
      rw [state, same]
      simp [nonempty]
  active := by
    have active := books.active
    rw [settled.slot] at active
    exact active.trans (Int.add_zero _)
  closed := by
    intro opened connected
    have conn := books.conn
    cases state : ledger.conn with
    | unopened =>
        rw [state] at conn
        exact absurd opened conn.1
    | refused =>
        rw [state] at conn
        rw [conn.1] at connected
        cases connected
    | opened => exact absurd state settled.conn
    | closed =>
        rw [state] at conn
        exact conn.2
  unopened := by
    intro unconnected
    have conn := books.conn
    cases state : ledger.conn with
    | unopened =>
        rw [state] at conn
        exact conn.2
    | refused =>
        rw [state] at conn
        exact conn.2
    | opened => exact absurd state settled.conn
    | closed =>
        rw [state] at conn
        exact absurd conn.1 unconnected

theorem cleanExit (vendor : Vendor) (inputs : SendInputs) (fate : Fate) (node : Node) :
    CleanExit inputs fate node (fate.sendFile vendor inputs node).2.node
      (fate.sendFile vendor inputs node).2.asked (fate.sendFile vendor inputs node).1 := by
  obtain ⟨ledger, books, settled⟩ :=
    settled_books climbs_any (fun _contents _start _readable => trivial) vendor fate node
  exact settled.cleanExit books

/-- Every exit of a call is clean, whatever happens to it; and while it lasts its
progress never goes back. -/
theorem send_file_exits_clean (vendor : Vendor) (inputs : SendInputs) (fate : Fate)
    (node : Node) :
    CleanExit inputs fate node (fate.sendFile vendor inputs node).2.node
        (fate.sendFile vendor inputs node).2.asked (fate.sendFile vendor inputs node).1 ∧
      ((∀ contents, inputs.contents = some contents → contents.length < 2 ^ 63) →
        (progressWritten (fate.sendFile vendor inputs node).2.asked).IsChain (· ≤ ·)) := by
  refine ⟨cleanExit vendor inputs fate node, ?_⟩
  intro fits
  obtain ⟨_bounded, climbing, _settled⟩ := settled_books climbs_bounded
    (fun contents start readable => bounded_resumedStream (fits contents readable) start) vendor
    fate node
  exact climbing.chain

end Shr
