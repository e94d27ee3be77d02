/-
Buffered input streams over a fixed content.

The stream has the states a standard file stream shows to its reader: a
position and the failure bit.  A read that cannot be filled delivers what is
left and sets the failure bit, and a failed stream delivers nothing.  The block
loop below reads until neither the stream nor the last read has anything left,
and feeds the pieces it reads to a state.
-/

import Mathlib.Data.List.Basic

/-- A stream positioned in a content; `good` is the negated failure bit. -/
structure InputStream (α : Type) where
  content : List α
  position : Nat
  good : Bool

namespace InputStream

variable {α β : Type}

def start (content : List α) : InputStream α :=
  { content := content
    position := 0
    good := true }

/-- What a sequence of reads can still deliver. -/
def remaining (stream : InputStream α) : List α :=
  if stream.good then stream.content.drop stream.position else []

/-- Move to an absolute offset.  A negative offset fails; an offset past the
end does not. -/
def seek (stream : InputStream α) (offset : Int) : InputStream α :=
  if 0 ≤ offset then { stream with position := offset.toNat }
  else { stream with good := false }

def delivered (stream : InputStream α) (count : Nat) : List α :=
  stream.remaining.take count

def afterRead (stream : InputStream α) (count : Nat) : InputStream α :=
  { stream with
    position := stream.position + (stream.delivered count).length
    good := stream.good && decide ((stream.delivered count).length = count) }

@[simp] theorem remaining_start (content : List α) :
    (start content).remaining = content :=
  rfl

theorem remaining_afterRead (stream : InputStream α) (count : Nat) :
    (stream.afterRead count).remaining = stream.remaining.drop count := by
  cases good : stream.good with
  | false =>
      simp [remaining, afterRead, good]
  | true =>
      by_cases full : count ≤ stream.content.length - stream.position
      · simp [remaining, afterRead, delivered, good, full, List.drop_drop]
      · -- A short read fails the stream at the end of the content.
        have notFull : min count (stream.content.length - stream.position) ≠ count := by
          omega
        have atEnd : stream.content.length ≤ stream.position + count := by
          omega
        simp [remaining, afterRead, delivered, good, List.drop_drop, notFull, atEnd]

theorem remaining_length_afterRead_lt (stream : InputStream α) {count : Nat}
    (some_delivered : stream.delivered count ≠ []) :
    (stream.afterRead count).remaining.length < stream.remaining.length := by
  rw [remaining_afterRead, List.length_drop]
  have count_ne : count ≠ 0 := by
    intro zero
    exact some_delivered (by simp [delivered, zero])
  have remaining_ne : stream.remaining.length ≠ 0 := by
    intro zero
    exact some_delivered (by simp [delivered, List.length_eq_zero_iff.mp zero])
  omega

/-- `while (stream.read(buffer) || stream.gcount()) state = feed(state, buffer)`
for a buffer of `size > 0` elements.  A read that leaves the stream good has
filled the buffer, so the loop goes on exactly while something is delivered. -/
def readBlocks (size : Nat) (feed : β → List α → β) (state : β)
    (stream : InputStream α) : β :=
  if _stopped : stream.delivered size = [] then state
  else readBlocks size feed (feed state (stream.delivered size)) (stream.afterRead size)
termination_by stream.remaining.length
decreasing_by exact remaining_length_afterRead_lt stream _stopped

/-! ### The blocks of a stream -/

def blocks (size : Nat) (stream : InputStream α) : List (List α) :=
  if _stopped : stream.delivered size = [] then []
  else stream.delivered size :: blocks size (stream.afterRead size)
termination_by stream.remaining.length
decreasing_by exact remaining_length_afterRead_lt stream _stopped

theorem flatten_blocks {size : Nat} (positive : 0 < size) (stream : InputStream α) :
    (stream.blocks size).flatten = stream.remaining := by
  induction stream using blocks.induct size with
  | case1 stream stopped =>
      rw [blocks, dif_pos stopped, List.flatten_nil]
      rcases List.take_eq_nil_iff.mp stopped with zero | nil
      · omega
      · exact nil.symm
  | case2 stream continued ih =>
      rw [blocks, dif_neg continued, List.flatten_cons, ih, remaining_afterRead, delivered,
        List.take_append_drop]

theorem mem_blocks {size : Nat} {stream : InputStream α} {piece : List α}
    (member : piece ∈ stream.blocks size) : piece ≠ [] ∧ piece.length ≤ size := by
  induction stream using blocks.induct size with
  | case1 stream stopped =>
      rw [blocks, dif_pos stopped] at member
      cases member
  | case2 stream continued ih =>
      rw [blocks, dif_neg continued, List.mem_cons] at member
      rcases member with first | later
      · rw [first]
        exact ⟨continued, List.length_take_le _ _⟩
      · exact ih later

theorem readBlocks_eq_foldl (size : Nat) (feed : β → List α → β) (state : β)
    (stream : InputStream α) :
    readBlocks size feed state stream = (stream.blocks size).foldl feed state := by
  induction state, stream using readBlocks.induct size feed with
  | case1 state stream stopped =>
      rw [readBlocks, blocks, dif_pos stopped, dif_pos stopped, List.foldl_nil]
  | case2 state stream continued ih =>
      rw [readBlocks, blocks, dif_neg continued, dif_neg continued, List.foldl_cons, ih]

theorem foldl_feed {feed : β → List α → β} (feed_nil : ∀ state, feed state [] = state)
    (feed_append : ∀ state left right,
      feed (feed state left) right = feed state (left ++ right))
    (state : β) (pieces : List (List α)) :
    pieces.foldl feed state = feed state pieces.flatten := by
  induction pieces generalizing state with
  | nil => exact (feed_nil state).symm
  | cons piece rest ih => rw [List.foldl_cons, ih, feed_append, List.flatten_cons]

/-- The block loop feeds every remaining element once and in order. -/
theorem readBlocks_eq {size : Nat} (positive : 0 < size) {feed : β → List α → β}
    (feed_nil : ∀ state, feed state [] = state)
    (feed_append : ∀ state left right,
      feed (feed state left) right = feed state (left ++ right))
    (state : β) (stream : InputStream α) :
    readBlocks size feed state stream = feed state stream.remaining := by
  rw [readBlocks_eq_foldl, foldl_feed feed_nil feed_append, flatten_blocks positive]

/-! ### The loop by its test -/

def goesOn (size : Nat) (stream : InputStream α) : Bool :=
  (stream.afterRead size).good || decide ((stream.delivered size).length ≠ 0)

theorem goesOn_iff {size : Nat} (positive : 0 < size) (stream : InputStream α) :
    stream.goesOn size = true ↔ stream.delivered size ≠ [] := by
  rw [goesOn, Bool.or_eq_true, decide_eq_true_eq, ne_eq, List.length_eq_zero_iff]
  constructor
  · rintro (good | some_delivered)
    · intro nothing
      have full : (stream.delivered size).length = size := by
        rw [afterRead, Bool.and_eq_true, decide_eq_true_eq] at good
        exact good.2
      rw [nothing, List.length_nil] at full
      omega
    · exact some_delivered
  · exact .inr

/-- The loop with its test as it is written, for up to `fuel` tests. -/
def readLoop (size : Nat) (feed : β → List α → β) : Nat → β → InputStream α → Option β
  | 0, _, _ => none
  | fuel + 1, state, stream =>
      if stream.goesOn size then
        readLoop size feed fuel (feed state (stream.delivered size)) (stream.afterRead size)
      else some state

theorem readLoop_eq {size : Nat} (positive : 0 < size) (feed : β → List α → β) {fuel : Nat}
    (state : β) {stream : InputStream α} (enough : (stream.blocks size).length < fuel) :
    readLoop size feed fuel state stream = some (readBlocks size feed state stream) := by
  induction fuel generalizing state stream with
  | zero => exact absurd enough (Nat.not_lt_zero _)
  | succ fuel ih =>
      by_cases stopped : stream.delivered size = []
      · have test : ¬ stream.goesOn size = true := fun goes =>
          (goesOn_iff positive stream).mp goes stopped
        rw [readLoop, if_neg test, readBlocks, dif_pos stopped]
      · rw [blocks, dif_neg stopped, List.length_cons] at enough
        have test := (goesOn_iff positive stream).mpr stopped
        rw [readLoop, if_pos test, readBlocks, dif_neg stopped]
        exact ih _ (Nat.lt_of_succ_lt_succ enough)

end InputStream
