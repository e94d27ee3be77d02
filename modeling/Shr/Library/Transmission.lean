/-
Moving a sequence through calls that each move a part of it.

A `Source` delivers what is coming in, a `Sink` accepts what is going out.  How
much one call moves is decided by the world: at least one item while there is
one and room for it, or, for a sink, nothing at all when the call fails.  The
loops below call until everything asked for has been moved.
-/

import Mathlib.Data.List.Basic

namespace Transmission

variable {α : Type}

/-- The size of the piece a call moves, when the world would move `wish` items,
the caller asks for `limit` at most and there is `room` for no more. -/
def pieceSize (wish limit room : Nat) : Nat :=
  min room (min limit (max 1 wish))

theorem pieceSize_le (wish limit room : Nat) : pieceSize wish limit room ≤ room :=
  Nat.min_le_left _ _

theorem pieceSize_pos {limit room : Nat} (wish : Nat) (asks : 0 < limit) (fits : 0 < room) :
    0 < pieceSize wish limit room := by
  unfold pieceSize
  omega

def Asking (request : Nat → Nat) (length : Nat) : Prop :=
  ∀ remaining, 0 < remaining → remaining ≤ length → 0 < request remaining

theorem Asking.mono {request : Nat → Nat} {length shorter : Nat} (asking : Asking request length)
    (fewer : shorter ≤ length) : Asking request shorter := by
  intro remaining positive inside
  exact asking remaining positive (Nat.le_trans inside fewer)

/-! ### Sources -/

structure Source (α : Type) where
  incoming : List α
  wishes : Nat → Nat
  calls : Nat

/-- One call; nothing is delivered only at the end. -/
def Source.receive (source : Source α) (limit room : Nat) : List α × Source α :=
  let size := pieceSize (source.wishes source.calls) limit room
  (source.incoming.take size,
    { source with
      incoming := source.incoming.drop size
      calls := source.calls + 1 })

/-- Receive until `length` items have been delivered; `request` is what a call
asks for when so many remain. -/
def Source.fill (request : Nat → Nat) (length : Nat) (source : Source α) :
    Bool × List α × Source α :=
  if length = 0 then (true, [], source)
  else
    let (piece, later) := source.receive (request length) length
    if _ended : piece = [] then (false, [], later)
    else
      let (filled, rest, last) := later.fill request (length - piece.length)
      (filled, piece ++ rest, last)
termination_by length
decreasing_by
  have positive := List.length_pos_iff.mpr _ended
  omega

section Fill

variable {request : Nat → Nat}

@[simp] theorem Source.fill_zero (source : Source α) :
    source.fill request 0 = (true, [], source) := by
  rw [Source.fill, if_pos rfl]

theorem Source.receive_spec (source : Source α) (limit room : Nat) :
    (source.receive limit room).1 =
        source.incoming.take (source.receive limit room).1.length ∧
      (source.receive limit room).2.incoming =
        source.incoming.drop (source.receive limit room).1.length ∧
      (source.receive limit room).1.length ≤ room := by
  have small := pieceSize_le (source.wishes source.calls) limit room
  simp only [Source.receive, List.length_take]
  rcases Nat.le_total (pieceSize (source.wishes source.calls) limit room)
      source.incoming.length with inside | beyond
  · rw [Nat.min_eq_left inside]
    exact ⟨rfl, rfl, small⟩
  · rw [Nat.min_eq_right beyond, List.take_length, List.drop_length,
      List.take_of_length_le beyond, List.drop_of_length_le beyond]
    exact ⟨rfl, rfl, Nat.le_trans beyond small⟩

theorem Source.receive_eq_nil {source : Source α} {limit room : Nat} (asks : 0 < limit)
    (fits : 0 < room) (nothing : (source.receive limit room).1 = []) : source.incoming = [] := by
  have positive := pieceSize_pos (source.wishes source.calls) asks fits
  rcases List.take_eq_nil_iff.mp nothing with zero | empty
  · omega
  · exact empty

theorem Source.fill_of_le {length : Nat} (asking : Asking request length) (source : Source α)
    (enough : length ≤ source.incoming.length) :
    (source.fill request length).1 = true ∧
      (source.fill request length).2.1 = source.incoming.take length ∧
      (source.fill request length).2.2.incoming = source.incoming.drop length := by
  induction length, source using Source.fill.induct request with
  | case1 source => simp
  | case2 length source some_left later received =>
      have nothing := congrArg Prod.fst received
      have empty := Source.receive_eq_nil
        (asking length (Nat.pos_of_ne_zero some_left) (Nat.le_refl _))
        (Nat.pos_of_ne_zero some_left) nothing
      rw [empty, List.length_nil] at enough
      omega
  | case3 length source some_left piece later received more filled rest last result ih =>
      obtain ⟨front, back, small⟩ := source.receive_spec (request length) length
      rw [received] at front back small
      simp only at front back small
      have remaining : length - piece.length ≤ later.incoming.length := by
        rw [back, List.length_drop]
        omega
      have whole : piece.length + (length - piece.length) = length := by omega
      obtain ⟨ok, delivered, left⟩ := ih (asking.mono (Nat.sub_le _ _)) remaining
      rw [result] at ok delivered left
      simp only at ok delivered left
      rw [Source.fill, if_neg some_left]
      simp only [received]
      rw [dif_neg more]
      simp only [result]
      refine ⟨ok, ?_, ?_⟩
      · rw [delivered, back]
        nth_rewrite 1 [front]
        rw [← List.take_add, whole]
      · rw [left, back, List.drop_drop, whole]

theorem Source.fill_of_lt {length : Nat} (source : Source α)
    (tooFew : source.incoming.length < length) :
    (source.fill request length).1 = false := by
  induction length, source using Source.fill.induct request with
  | case1 source => exact absurd tooFew (Nat.not_lt_zero _)
  | case2 length source some_left later received =>
      rw [Source.fill, if_neg some_left]
      simp only [received]
      rfl
  | case3 length source some_left piece later received more filled rest last result ih =>
      obtain ⟨front, back, _small⟩ := source.receive_spec (request length) length
      rw [received] at front back
      simp only at front back
      have inside : piece.length ≤ source.incoming.length := by
        rw [front, List.length_take]
        omega
      have positive := List.length_pos_iff.mpr more
      have remaining : later.incoming.length < length - piece.length := by
        rw [back, List.length_drop]
        omega
      rw [Source.fill, if_neg some_left]
      simp only [received]
      rw [dif_neg more]
      exact ih remaining

theorem Source.fill_incoming_le (request : Nat → Nat) (length : Nat) (source : Source α) :
    (source.fill request length).2.2.incoming.length ≤ source.incoming.length := by
  induction length, source using Source.fill.induct request with
  | case1 source => simp
  | case2 length source some_left later received =>
      have back := (source.receive_spec (request length) length).2.1
      rw [received] at back
      rw [Source.fill, if_neg some_left]
      simp only [received, List.length_nil, List.drop_zero] at back ⊢
      exact Nat.le_of_eq (congrArg List.length back)
  | case3 length source some_left piece later received more filled rest last result ih =>
      have back := (source.receive_spec (request length) length).2.1
      rw [received] at back
      simp only at back
      rw [Source.fill, if_neg some_left]
      simp only [received]
      rw [dif_neg more]
      refine Nat.le_trans ih ?_
      rw [back, List.length_drop]
      exact Nat.sub_le _ _

end Fill

/-! ### Sinks -/

structure Sink (α : Type) where
  accepted : List α
  /-- How much a call would accept; `none` when it fails. -/
  outcomes : Nat → Option Nat
  calls : Nat

/-- One call, with the number of items it has accepted. -/
def Sink.send (sink : Sink α) (limit : Nat) (data : List α) : Nat × Sink α :=
  match sink.outcomes sink.calls with
  | none => (0, { sink with calls := sink.calls + 1 })
  | some wish =>
      let piece := data.take (pieceSize wish limit data.length)
      (piece.length,
        { sink with
          accepted := sink.accepted ++ piece
          calls := sink.calls + 1 })

/-- Send until all of `data` has been accepted or a call fails. -/
def Sink.push (request : Nat → Nat) (data : List α) (sink : Sink α) : Bool × Sink α :=
  if data = [] then (true, sink)
  else
    let (count, later) := sink.send (request data.length) data
    if _failed : count = 0 then (false, later)
    else later.push request (data.drop count)
termination_by data.length
decreasing_by
  rename_i some_data
  have positive := List.length_pos_iff.mpr some_data
  rw [List.length_drop]
  omega

section Push

variable {request : Nat → Nat}

@[simp] theorem Sink.push_nil (sink : Sink α) : sink.push request [] = (true, sink) := by
  rw [Sink.push, if_pos rfl]

theorem Sink.send_accepted (sink : Sink α) (limit : Nat) (data : List α) :
    (sink.send limit data).2.accepted =
        sink.accepted ++ data.take (sink.send limit data).1 ∧
      (sink.send limit data).2.outcomes = sink.outcomes ∧
      (sink.send limit data).2.calls = sink.calls + 1 := by
  unfold Sink.send
  cases sink.outcomes sink.calls with
  | none => simp
  | some wish => simp [List.length_take]

theorem Sink.send_count_le (sink : Sink α) (limit : Nat) (data : List α) :
    (sink.send limit data).1 ≤ data.length := by
  unfold Sink.send
  cases sink.outcomes sink.calls with
  | none => exact Nat.zero_le _
  | some wish =>
      simp only [List.length_take]
      omega

theorem Sink.send_count_pos (sink : Sink α) {limit : Nat} {data : List α}
    (some_data : data ≠ []) (positive : 0 < limit) (accepts : sink.outcomes sink.calls ≠ none) :
    0 < (sink.send limit data).1 := by
  obtain ⟨wish, accepted⟩ := Option.ne_none_iff_exists'.mp accepts
  have length := List.length_pos_iff.mpr some_data
  have size := pieceSize_pos wish positive length
  unfold Sink.send
  rw [accepted]
  simp only [List.length_take]
  omega

theorem Sink.push_of_ok (data : List α) (sink : Sink α)
    (ok : (sink.push request data).1 = true) :
    (sink.push request data).2.accepted = sink.accepted ++ data := by
  induction data, sink using Sink.push.induct request with
  | case1 sink => simp
  | case2 data sink some_data later sent =>
      rw [Sink.push, if_neg some_data] at ok
      simp only [sent] at ok
      cases ok
  | case3 data sink some_data count later sent moved ih =>
      have accepted := (sink.send_accepted (request data.length) data).1
      rw [sent] at accepted
      rw [Sink.push, if_neg some_data] at ok ⊢
      simp only [sent] at ok accepted ⊢
      rw [dif_neg moved] at ok ⊢
      rw [ih ok, accepted, List.append_assoc, List.take_append_drop]

/-- A loop that fails has sent a beginning, but not everything. -/
theorem Sink.push_of_failed (data : List α) (sink : Sink α)
    (failed : (sink.push request data).1 = false) :
    ∃ count < data.length, (sink.push request data).2.accepted =
      sink.accepted ++ data.take count := by
  induction data, sink using Sink.push.induct request with
  | case1 sink =>
      rw [Sink.push_nil] at failed
      cases failed
  | case2 data sink some_data later sent =>
      have accepted := (sink.send_accepted (request data.length) data).1
      rw [sent] at accepted
      refine ⟨0, List.length_pos_iff.mpr some_data, ?_⟩
      rw [Sink.push, if_neg some_data]
      simp only [sent] at accepted ⊢
      exact accepted
  | case3 data sink some_data count later sent moved ih =>
      have accepted := (sink.send_accepted (request data.length) data).1
      have small := sink.send_count_le (request data.length) data
      rw [sent] at accepted small
      rw [Sink.push, if_neg some_data] at failed ⊢
      simp only [sent] at accepted failed small ⊢
      rw [dif_neg moved] at failed ⊢
      obtain ⟨further, less, rest⟩ := ih failed
      rw [List.length_drop] at less
      refine ⟨count + further, by omega, ?_⟩
      rw [rest, accepted, List.append_assoc, List.take_add]

theorem Sink.push_of_accepting (data : List α) (sink : Sink α)
    (asking : Asking request data.length)
    (accepting : ∀ call, sink.calls ≤ call → sink.outcomes call ≠ none) :
    (sink.push request data).1 = true := by
  induction data, sink using Sink.push.induct request with
  | case1 sink => simp
  | case2 data sink some_data later sent =>
      have positive := sink.send_count_pos some_data
        (asking data.length (List.length_pos_iff.mpr some_data) (Nat.le_refl _))
        (accepting sink.calls (Nat.le_refl _))
      rw [sent] at positive
      simp only at positive
      omega
  | case3 data sink some_data count later sent moved ih =>
      obtain ⟨_accepted, same, calls⟩ := sink.send_accepted (request data.length) data
      rw [sent] at same calls
      rw [Sink.push, if_neg some_data]
      simp only [sent] at same calls ⊢
      rw [dif_neg moved]
      apply ih
      · intro remaining some_left inside
        rw [List.length_drop] at inside
        exact asking remaining some_left (by omega)
      · intro call later_call
        rw [same]
        exact accepting call (by omega)

theorem Sink.push_outcomes (request : Nat → Nat) (data : List α) (sink : Sink α) :
    (sink.push request data).2.outcomes = sink.outcomes := by
  induction data, sink using Sink.push.induct request with
  | case1 sink => simp
  | case2 data sink some_data later sent =>
      have same := (sink.send_accepted (request data.length) data).2.1
      rw [sent] at same
      rw [Sink.push, if_neg some_data]
      simp only [sent] at same ⊢
      exact same
  | case3 data sink some_data count later sent moved ih =>
      have same := (sink.send_accepted (request data.length) data).2.1
      rw [sent] at same
      rw [Sink.push, if_neg some_data]
      simp only [sent] at same ⊢
      rw [dif_neg moved, ih]
      exact same

theorem Sink.push_of_first_failed (request : Nat → Nat) {data : List α}
    (some_data : data ≠ []) (sink : Sink α) (fails : sink.outcomes sink.calls = none) :
    sink.push request data = (false, { sink with calls := sink.calls + 1 }) := by
  rw [Sink.push, if_neg some_data]
  simp [Sink.send, fails]

theorem Sink.push_of_first_accepted {data : List α} (some_data : data ≠ []) (sink : Sink α)
    (positive : 0 < request data.length) (accepts : sink.outcomes sink.calls ≠ none) :
    sink.accepted.length < (sink.push request data).2.accepted.length := by
  have moved := sink.send_count_pos some_data positive accepts
  have accepted := (sink.send_accepted (request data.length) data).1
  rw [Sink.push, if_neg some_data]
  generalize sink.send (request data.length) data = answer at moved accepted
  obtain ⟨count, later⟩ := answer
  simp only at moved accepted ⊢
  have length := List.length_pos_iff.mpr some_data
  have grown : sink.accepted.length < later.accepted.length := by
    rw [accepted, List.length_append, List.length_take]
    omega
  rw [dif_neg (by omega)]
  cases pushed : (later.push request (data.drop count)).1 with
  | true =>
      rw [Sink.push_of_ok _ _ pushed, List.length_append]
      omega
  | false =>
      obtain ⟨further, _less, rest⟩ := Sink.push_of_failed _ _ pushed
      rw [rest, List.length_append]
      omega

/-! ### Patterns of outcomes -/

/-- From `call` on, the calls accept `length` items before any fails; `next` is
the call after them. -/
inductive Accepts (outcomes : Nat → Option Nat) (request : Nat → Nat) : Nat → Nat → Nat → Prop where
  | all (call : Nat) : Accepts outcomes request 0 call call
  | piece {length call next wish : Nat} (some_left : 0 < length)
      (accepts : outcomes call = some wish)
      (moves : 0 < pieceSize wish (request length) length)
      (rest : Accepts outcomes request (length - pieceSize wish (request length) length)
        (call + 1) next) :
      Accepts outcomes request length call next

theorem Accepts.whole {outcomes : Nat → Option Nat} {length call wish : Nat}
    (some_left : 0 < length) (accepts : outcomes call = some wish) (enough : length ≤ wish)
    (asked : length ≤ request length) : Accepts outcomes request length call (call + 1) := by
  have size : pieceSize wish (request length) length = length := by
    unfold pieceSize
    omega
  refine .piece some_left accepts (by rw [size]; exact some_left) ?_
  rw [size, Nat.sub_self]
  exact .all _

/-- From `call` on, a call fails before `length` items are accepted; `next` is
the call after it. -/
inductive Breaks (outcomes : Nat → Option Nat) (request : Nat → Nat) : Nat → Nat → Nat → Prop where
  | fails {length call : Nat} (some_left : 0 < length) (fails : outcomes call = none) :
      Breaks outcomes request length call (call + 1)
  | stalls {length call wish : Nat} (some_left : 0 < length)
      (accepts : outcomes call = some wish)
      (nothing : pieceSize wish (request length) length = 0) :
      Breaks outcomes request length call (call + 1)
  | piece {length call next wish : Nat} (some_left : 0 < length)
      (accepts : outcomes call = some wish)
      (moves : 0 < pieceSize wish (request length) length)
      (rest : Breaks outcomes request (length - pieceSize wish (request length) length)
        (call + 1) next) :
      Breaks outcomes request length call next

theorem Breaks.behind {outcomes : Nat → Option Nat} {length call wish next : Nat}
    (broken : Breaks outcomes request length call next) (accepts : outcomes call = some wish)
    (moves : 0 < pieceSize wish (request length) length) :
    Breaks outcomes request (length - pieceSize wish (request length) length) (call + 1)
      next := by
  cases broken with
  | fails _ fails =>
      rw [accepts] at fails
      cases fails
  | stalls _ same nothing =>
      rw [accepts] at same
      cases same
      omega
  | piece _ same _ rest =>
      rw [accepts] at same
      cases same
      exact rest

theorem Accepts.not_breaks {outcomes : Nat → Option Nat} {length call next other : Nat}
    (accepted : Accepts outcomes request length call next) :
    ¬Breaks outcomes request length call other := by
  induction accepted with
  | all call =>
      intro broken
      cases broken <;> omega
  | piece _some_left accepts moves _rest ih =>
      intro broken
      exact ih (broken.behind accepts moves)

theorem Breaks.next_unique {outcomes : Nat → Option Nat} {length call next other : Nat}
    (first : Breaks outcomes request length call next)
    (second : Breaks outcomes request length call other) : next = other := by
  induction first with
  | fails _ fails =>
      cases second with
      | fails _ _ => rfl
      | stalls _ accepts _ => rfl
      | piece _ accepts _ _ =>
          rw [fails] at accepts
          cases accepts
  | stalls _ accepts nothing =>
      cases second with
      | fails _ _ => rfl
      | stalls _ _ _ => rfl
      | piece _ same moves _ =>
          rw [accepts] at same
          cases same
          omega
  | piece _ accepts moves _rest ih => exact ih (second.behind accepts moves)

/-- The loop ends well exactly on the patterns that accept all of its data. -/
theorem Sink.push_pattern (request : Nat → Nat) (data : List α) (sink : Sink α) :
    (sink.push request data).1 = true ∧
        Accepts sink.outcomes request data.length sink.calls (sink.push request data).2.calls ∨
      (sink.push request data).1 = false ∧
        Breaks sink.outcomes request data.length sink.calls (sink.push request data).2.calls := by
  induction data, sink using Sink.push.induct request with
  | case1 sink =>
      rw [Sink.push_nil]
      exact .inl ⟨rfl, .all _⟩
  | case2 data sink some_data later sent =>
      right
      have length := List.length_pos_iff.mpr some_data
      rw [Sink.push, if_neg some_data]
      simp only [sent]
      refine ⟨rfl, ?_⟩
      unfold Sink.send at sent
      cases outcome : sink.outcomes sink.calls with
      | none =>
          rw [outcome] at sent
          simp only [Prod.mk.injEq, true_and] at sent
          subst sent
          exact .fails length outcome
      | some wish =>
          rw [outcome] at sent
          simp only [Prod.mk.injEq] at sent
          obtain ⟨nothing, sent⟩ := sent
          subst sent
          refine .stalls length outcome ?_
          have small := pieceSize_le wish (request data.length) data.length
          rw [List.length_take] at nothing
          omega
  | case3 data sink some_data count later sent moved ih =>
      have length := List.length_pos_iff.mpr some_data
      rw [Sink.push, if_neg some_data]
      simp only [sent]
      rw [dif_neg moved]
      unfold Sink.send at sent
      cases outcome : sink.outcomes sink.calls with
      | none =>
          rw [outcome] at sent
          simp only [Prod.mk.injEq] at sent
          exact absurd sent.1.symm moved
      | some wish =>
          rw [outcome] at sent
          simp only [Prod.mk.injEq] at sent
          obtain ⟨size, sent⟩ := sent
          have small := pieceSize_le wish (request data.length) data.length
          have same : count = pieceSize wish (request data.length) data.length := by
            rw [← size, List.length_take]
            omega
          have calls : later.calls = sink.calls + 1 := by rw [← sent]
          have outcomes : later.outcomes = sink.outcomes := by rw [← sent]
          rw [List.length_drop, calls, outcomes, same] at ih
          rw [same]
          rcases ih with ⟨ok, accepts⟩ | ⟨failed, breaks⟩
          · exact .inl ⟨ok, .piece length outcome (by omega) accepts⟩
          · exact .inr ⟨failed, .piece length outcome (by omega) breaks⟩

theorem Sink.push_ok_iff {request : Nat → Nat} {data : List α} {sink : Sink α} :
    (sink.push request data).1 = true ↔
      ∃ next, Accepts sink.outcomes request data.length sink.calls next := by
  rcases sink.push_pattern request data with ⟨ok, accepts⟩ | ⟨failed, breaks⟩
  · exact ⟨fun _ok => ⟨_, accepts⟩, fun _accepts => ok⟩
  · rw [failed]
    constructor
    · intro impossible
      cases impossible
    · rintro ⟨next, accepts⟩
      exact absurd breaks accepts.not_breaks

end Push

/-! ### Starting again -/

/-- Push the whole of `data` again after every failure. -/
def Sink.retry (request : Nat → Nat) (data : List α) : Nat → Sink α → Bool × Sink α
  | 0, sink => (false, sink)
  | left + 1, sink =>
      let (ok, later) := sink.push request data
      if ok then (true, later) else later.retry request data left

/-- Some attempt is the first to have anything accepted, and has all accepted. -/
def FirstTry (outcomes : Nat → Option Nat) (request : Nat → Nat) (length call : Nat)
    (attempts : Nat) : Prop :=
  ∃ failed < attempts, (∀ earlier < failed, outcomes (call + earlier) = none) ∧
    ∃ next, Accepts outcomes request length (call + failed) next

inductive Hopeless (outcomes : Nat → Option Nat) (request : Nat → Nat) (length : Nat) :
    Nat → Nat → Prop where
  | none (call : Nat) : Hopeless outcomes request length call 0
  | attempt {call next left : Nat} (breaks : Breaks outcomes request length call next)
      (rest : Hopeless outcomes request length next left) :
      Hopeless outcomes request length call (left + 1)

section Retry

variable {request : Nat → Nat} {data : List α}

theorem Sink.retry_succ (left : Nat) (sink : Sink α) :
    sink.retry request data (left + 1) =
      if (sink.push request data).1 then (true, (sink.push request data).2)
      else (sink.push request data).2.retry request data left :=
  rfl

theorem Sink.retry_length (attempts : Nat) (sink : Sink α)
    (ok : (sink.retry request data attempts).1 = true) :
    sink.accepted.length + data.length ≤
      (sink.retry request data attempts).2.accepted.length := by
  induction attempts generalizing sink with
  | zero => cases ok
  | succ left ih =>
      rw [Sink.retry_succ] at ok ⊢
      cases pushed : (sink.push request data).1 with
      | true =>
          have whole := congrArg List.length (Sink.push_of_ok _ _ pushed)
          rw [List.length_append] at whole
          rw [if_pos rfl]
          exact Nat.le_of_eq whole.symm
      | false =>
          rw [pushed, if_neg (by decide)] at ok
          rw [if_neg (by decide)]
          have rest := ih _ ok
          obtain ⟨count, _less, begun⟩ := Sink.push_of_failed _ _ pushed
          rw [begun, List.length_append] at rest
          omega

theorem Sink.retry_eq_false_iff (attempts : Nat) (sink : Sink α) :
    (sink.retry request data attempts).1 = false ↔
      Hopeless sink.outcomes request data.length sink.calls attempts := by
  induction attempts generalizing sink with
  | zero => exact ⟨fun _ => .none _, fun _ => rfl⟩
  | succ left ih =>
      have same := sink.push_outcomes request data
      rw [Sink.retry_succ]
      rcases sink.push_pattern request data with ⟨ok, accepts⟩ | ⟨failed, breaks⟩
      · rw [ok, if_pos rfl]
        constructor
        · intro impossible
          cases impossible
        · intro hopeless
          cases hopeless with
          | attempt breaks _ => exact absurd breaks accepts.not_breaks
      · rw [failed, if_neg (by decide), ih, same]
        constructor
        · intro rest
          exact .attempt breaks rest
        · intro hopeless
          cases hopeless with
          | attempt other rest =>
              rw [breaks.next_unique other]
              exact rest

/-- Attempts that end well have sent exactly one copy when and only when nothing
was accepted before the attempt that ended well. -/
theorem Sink.retry_exact_iff (some_data : data ≠ []) (asking : Asking request data.length)
    (attempts : Nat) (sink : Sink α) (ok : (sink.retry request data attempts).1 = true) :
    (sink.retry request data attempts).2.accepted = sink.accepted ++ data ↔
      FirstTry sink.outcomes request data.length sink.calls attempts := by
  have length := List.length_pos_iff.mpr some_data
  induction attempts generalizing sink with
  | zero => cases ok
  | succ left ih =>
      have same := sink.push_outcomes request data
      rw [Sink.retry_succ] at ok ⊢
      rcases sink.push_pattern request data with ⟨pushed, accepts⟩ | ⟨failed, breaks⟩
      · rw [pushed, if_pos rfl]
        simp only
        constructor
        · intro _exact
          refine ⟨0, Nat.succ_pos _, ?_, _, accepts⟩
          intro earlier before
          exact absurd before (Nat.not_lt_zero _)
        · intro _first
          exact Sink.push_of_ok _ _ pushed
      · rw [failed, if_neg (by decide)] at ok ⊢
        cases outcome : sink.outcomes sink.calls with
        | none =>
            -- nothing has been accepted: the next attempt starts one call later
            have unmoved := Sink.push_of_first_failed request some_data sink outcome
            rw [unmoved] at ok ⊢
            simp only at ok ⊢
            refine Iff.trans (ih _ ok) ?_
            constructor
            · rintro ⟨count, inside, before, next, accepted⟩
              refine ⟨count + 1, by omega, ?_, next, ?_⟩
              · intro earlier less
                cases earlier with
                | zero => exact outcome
                | succ earlier =>
                    have failing := before earlier (by omega)
                    rw [Nat.add_assoc, Nat.add_comm 1] at failing
                    exact failing
              · rw [Nat.add_assoc, Nat.add_comm 1] at accepted
                exact accepted
            · rintro ⟨count, inside, before, next, accepted⟩
              cases count with
              | zero => exact absurd breaks accepted.not_breaks
              | succ count =>
                  refine ⟨count, by omega, ?_, next, ?_⟩
                  · intro earlier less
                    have failing := before (earlier + 1) (by omega)
                    rw [Nat.add_comm earlier, ← Nat.add_assoc] at failing
                    exact failing
                  · rw [Nat.add_comm count, ← Nat.add_assoc] at accepted
                    exact accepted
        | some wish =>
            -- something has been accepted, and a whole copy will follow it
            have accepted := Sink.push_of_first_accepted some_data sink
              (asking data.length length (Nat.le_refl _)) (by rw [outcome]; simp)
            have more := Sink.retry_length left _ ok
            constructor
            · intro exactly
              rw [exactly, List.length_append] at more
              omega
            · rintro ⟨count, _inside, before, next, accepts⟩
              cases count with
              | zero => exact absurd breaks accepts.not_breaks
              | succ count =>
                  have failing := before 0 (Nat.succ_pos _)
                  rw [Nat.add_zero, outcome] at failing
                  cases failing

end Retry

/-! ### Several loops -/

section Sequences

variable {request : Nat → Nat}

/-- A call that fails is followed by failures only. -/
def Sink.StaysBroken (sink : Sink α) : Prop :=
  ∀ call later, call ≤ later → sink.outcomes call = none → sink.outcomes later = none

def Sink.Dead (sink : Sink α) : Prop :=
  sink.outcomes sink.calls = none

theorem Sink.dead_of_failed (data : List α) (sink : Sink α) (broken : sink.StaysBroken)
    (asking : Asking request data.length) (failed : (sink.push request data).1 = false) :
    (sink.push request data).2.Dead := by
  induction data, sink using Sink.push.induct request with
  | case1 sink =>
      rw [Sink.push_nil] at failed
      cases failed
  | case2 data sink some_data later sent =>
      obtain ⟨_accepted, same, next⟩ := sink.send_accepted (request data.length) data
      have fails : sink.outcomes sink.calls = none := by
        by_contra accepts
        have length := List.length_pos_iff.mpr some_data
        have moved := sink.send_count_pos some_data (asking _ length (Nat.le_refl _)) accepts
        rw [sent] at moved
        exact absurd moved (Nat.lt_irrefl 0)
      rw [sent] at same next
      rw [Sink.push, if_neg some_data]
      simp only [sent] at same next ⊢
      change later.outcomes later.calls = none
      rw [same, next]
      exact broken _ _ (Nat.le_succ _) fails
  | case3 data sink some_data count later sent moved ih =>
      have same := (sink.send_accepted (request data.length) data).2.1
      rw [sent] at same
      rw [Sink.push, if_neg some_data] at failed ⊢
      simp only [sent] at same failed ⊢
      rw [dif_neg moved] at failed ⊢
      refine ih ?_ (asking.mono ?_) failed
      · intro call other after fails
        rw [same] at fails ⊢
        exact broken call other after fails
      · rw [List.length_drop]
        exact Nat.sub_le _ _

def Sink.pushAll (request : Nat → Nat) : List (List α) → Sink α → Sink α
  | [], sink => sink
  | data :: rest, sink => Sink.pushAll request rest (sink.push request data).2

theorem Sink.StaysBroken.push {sink : Sink α} (broken : sink.StaysBroken) (data : List α) :
    (sink.push request data).2.StaysBroken := by
  intro call later after fails
  rw [Sink.push_outcomes] at fails ⊢
  exact broken call later after fails

theorem Sink.Dead.push {sink : Sink α} (dead : sink.Dead) (broken : sink.StaysBroken)
    (data : List α) :
    (sink.push request data).2.accepted = sink.accepted ∧ (sink.push request data).2.Dead := by
  by_cases empty : data = []
  · rw [empty, Sink.push_nil]
    exact ⟨rfl, dead⟩
  · rw [Sink.push_of_first_failed request empty sink dead]
    exact ⟨rfl, broken _ _ (Nat.le_succ _) dead⟩

theorem Sink.Dead.pushAll {sink : Sink α} (dead : sink.Dead) (broken : sink.StaysBroken)
    (pieces : List (List α)) : (sink.pushAll request pieces).accepted = sink.accepted := by
  induction pieces generalizing sink with
  | nil => rfl
  | cons data rest ih =>
      obtain ⟨same, still⟩ := @Sink.Dead.push _ request _ dead broken data
      exact (ih still (broken.push data)).trans same

/-- What a sink that stays broken accepts is a beginning of all that is sent. -/
theorem Sink.pushAll_accepted (pieces : List (List α)) (sink : Sink α)
    (broken : sink.StaysBroken)
    (asking : ∀ data ∈ pieces, Asking request data.length) :
    ∃ carried, carried <+: pieces.flatten ∧
      (sink.pushAll request pieces).accepted = sink.accepted ++ carried := by
  induction pieces generalizing sink with
  | nil => exact ⟨[], List.prefix_rfl, (List.append_nil _).symm⟩
  | cons data rest ih =>
      rw [List.flatten_cons]
      cases pushed : (sink.push request data).1 with
      | true =>
          obtain ⟨carried, beginning, accepted⟩ := ih (sink.push request data).2
            (broken.push data) (fun other member => asking other (List.mem_cons_of_mem _ member))
          refine ⟨data ++ carried, (List.prefix_append_right_inj data).mpr beginning, ?_⟩
          rw [Sink.pushAll, accepted, Sink.push_of_ok data sink pushed, List.append_assoc]
      | false =>
          have dead := sink.dead_of_failed data broken (asking data List.mem_cons_self) pushed
          obtain ⟨count, _less, accepted⟩ := Sink.push_of_failed data sink pushed
          refine ⟨data.take count, ?_, ?_⟩
          · exact (List.take_prefix count data).trans (List.prefix_append data _)
          · rw [Sink.pushAll, dead.pushAll (broken.push data), accepted]

end Sequences

end Transmission
