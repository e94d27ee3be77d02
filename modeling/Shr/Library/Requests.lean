/-
What the loops of a transmission ask for.

Each call of a loop passes a length on.  The lists below hold every call a loop
makes, with the number of items that remained when it was made.
-/

import Shr.Library.Transmission

namespace Transmission

variable {α : Type}

/-- One call: what remained, and the length it was given. -/
structure Request where
  remaining : Nat
  limit : Nat
deriving DecidableEq

/-- The call asks for something, and for no more than remains. -/
def Request.Within (call : Request) : Prop :=
  1 ≤ call.limit ∧ call.limit ≤ call.remaining

def Source.requests (request : Nat → Nat) (length : Nat) (source : Source α) : List Request :=
  if length = 0 then []
  else
    let (piece, later) := source.receive (request length) length
    { remaining := length
      limit := request length } ::
      if _ended : piece = [] then [] else later.requests request (length - piece.length)
termination_by length
decreasing_by
  have positive := List.length_pos_iff.mpr _ended
  omega

def Sink.requests (request : Nat → Nat) (data : List α) (sink : Sink α) : List Request :=
  if data = [] then []
  else
    let (count, later) := sink.send (request data.length) data
    { remaining := data.length
      limit := request data.length } ::
      if _failed : count = 0 then [] else later.requests request (data.drop count)
termination_by data.length
decreasing_by
  rename_i some_data
  have positive := List.length_pos_iff.mpr some_data
  rw [List.length_drop]
  omega

def Asks (request : Nat → Nat) (length : Nat) (call : Request) : Prop :=
  0 < call.remaining ∧ call.remaining ≤ length ∧ call.limit = request call.remaining

theorem Asks.mono {request : Nat → Nat} {length shorter : Nat} {call : Request}
    (asks : Asks request shorter call) (fewer : shorter ≤ length) : Asks request length call :=
  ⟨asks.1, Nat.le_trans asks.2.1 fewer, asks.2.2⟩

theorem asks_self {request : Nat → Nat} {length : Nat} (some_left : 0 < length) :
    Asks request length
      { remaining := length
        limit := request length } :=
  ⟨some_left, Nat.le_refl _, rfl⟩

/-! ### Sources -/

section Sources

variable {request : Nat → Nat}

@[simp] theorem Source.requests_zero (source : Source α) : source.requests request 0 = [] := by
  rw [Source.requests, if_pos rfl]

theorem Source.mem_requests_self {length : Nat} (some_left : length ≠ 0) (source : Source α) :
    { remaining := length
      limit := request length } ∈ source.requests request length := by
  rw [Source.requests, if_neg some_left]
  exact List.mem_cons_self

theorem Source.requests_asks (length : Nat) (source : Source α) :
    ∀ call ∈ source.requests request length, Asks request length call := by
  induction length, source using Source.fill.induct request with
  | case1 source =>
      intro call member
      rw [Source.requests_zero] at member
      cases member
  | case2 length source some_left later received =>
      intro call member
      rw [Source.requests, if_neg some_left] at member
      simp only [received] at member
      rw [List.mem_singleton.mp member]
      exact asks_self (Nat.pos_of_ne_zero some_left)
  | case3 length source some_left piece later received more filled rest last result ih =>
      intro call member
      rw [Source.requests, if_neg some_left] at member
      simp only [received] at member
      rw [dif_neg more] at member
      rcases List.mem_cons.mp member with first | further
      · rw [first]
        exact asks_self (Nat.pos_of_ne_zero some_left)
      · exact (ih call further).mono (Nat.sub_le _ _)

theorem Source.fill_calls (length : Nat) (source : Source α) :
    (source.fill request length).2.2.calls =
      source.calls + (source.requests request length).length := by
  induction length, source using Source.fill.induct request with
  | case1 source =>
      rw [Source.fill_zero, Source.requests_zero]
      rfl
  | case2 length source some_left later received =>
      have calls : later.calls = source.calls + 1 :=
        congrArg (fun answer => answer.2.calls) received.symm
      rw [Source.fill, Source.requests, if_neg some_left, if_neg some_left]
      simp only [received]
      exact calls
  | case3 length source some_left piece later received more filled rest last result ih =>
      have calls : later.calls = source.calls + 1 :=
        congrArg (fun answer => answer.2.calls) received.symm
      rw [Source.fill, Source.requests, if_neg some_left, if_neg some_left]
      simp only [received]
      rw [dif_neg more, dif_neg more, ih, calls, List.length_cons]
      omega

end Sources

/-! ### Sinks -/

section Sinks

variable {request : Nat → Nat}

theorem Sink.mem_requests_self {data : List α} (some_data : data ≠ []) (sink : Sink α) :
    { remaining := data.length
      limit := request data.length } ∈ sink.requests request data := by
  rw [Sink.requests, if_neg some_data]
  exact List.mem_cons_self

theorem Sink.requests_asks (data : List α) (sink : Sink α) :
    ∀ call ∈ sink.requests request data, Asks request data.length call := by
  induction data, sink using Sink.push.induct request with
  | case1 sink =>
      intro call member
      rw [Sink.requests, if_pos rfl] at member
      cases member
  | case2 data sink some_data later sent =>
      intro call member
      rw [Sink.requests, if_neg some_data] at member
      simp only [sent] at member
      rw [List.mem_singleton.mp member]
      exact asks_self (List.length_pos_iff.mpr some_data)
  | case3 data sink some_data count later sent moved ih =>
      intro call member
      rw [Sink.requests, if_neg some_data] at member
      simp only [sent] at member
      rw [dif_neg moved] at member
      rcases List.mem_cons.mp member with first | further
      · rw [first]
        exact asks_self (List.length_pos_iff.mpr some_data)
      · refine (ih call further).mono ?_
        rw [List.length_drop]
        exact Nat.sub_le _ _

theorem Sink.push_calls (data : List α) (sink : Sink α) :
    (sink.push request data).2.calls = sink.calls + (sink.requests request data).length := by
  induction data, sink using Sink.push.induct request with
  | case1 sink =>
      rw [Sink.push_nil, Sink.requests, if_pos rfl]
      rfl
  | case2 data sink some_data later sent =>
      have calls := (sink.send_accepted (request data.length) data).2.2
      rw [sent] at calls
      rw [Sink.push, Sink.requests, if_neg some_data, if_neg some_data]
      simp only [sent]
      exact calls
  | case3 data sink some_data count later sent moved ih =>
      have calls := (sink.send_accepted (request data.length) data).2.2
      rw [sent] at calls
      rw [Sink.push, Sink.requests, if_neg some_data, if_neg some_data]
      simp only [sent] at calls ⊢
      rw [dif_neg moved, dif_neg moved, ih, calls, List.length_cons]
      omega

/-- Over a sink that takes one item at a time the loop comes to every length, as
long as it asks for something. -/
theorem Sink.slow_requests {data : List α} {sink : Sink α}
    (slow : sink.outcomes = fun _call => some 1) {remaining : Nat} (some_left : 0 < remaining)
    (inside : remaining ≤ data.length)
    (asking : ∀ call ∈ sink.requests request data, 0 < call.limit) :
    { remaining := remaining
      limit := request remaining } ∈ sink.requests request data := by
  induction data, sink using Sink.push.induct request with
  | case1 sink =>
      rw [List.length_nil] at inside
      omega
  | case2 data sink some_data later sent =>
      have positive := asking _ (Sink.mem_requests_self some_data sink)
      have moved := sink.send_count_pos some_data positive (by rw [slow]; simp)
      rw [sent] at moved
      exact absurd moved (Nat.lt_irrefl 0)
  | case3 data sink some_data count later sent moved ih =>
      by_cases whole : remaining = data.length
      · rw [whole]
        exact Sink.mem_requests_self some_data sink
      · have kept := (sink.send_accepted (request data.length) data).2.1
        have one : (sink.send (request data.length) data).1 ≤ 1 := by
          unfold Sink.send
          simp only [slow, pieceSize, List.length_take]
          omega
        rw [sent] at kept one
        rw [Sink.requests, if_neg some_data] at asking ⊢
        simp only [sent] at asking ⊢
        rw [dif_neg moved] at asking ⊢
        apply List.mem_cons_of_mem
        apply ih (kept.trans slow)
        · rw [List.length_drop]
          simp only at one
          omega
        · intro call member
          exact asking call (List.mem_cons_of_mem _ member)

end Sinks

end Transmission
