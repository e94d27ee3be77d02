/-
Attempts that are repeated until one succeeds.

The world decides the outcome of every attempt, by its number.  A loop with a
limit stops behind the first success or when the limit is used up, and pauses
before every attempt but the first.  Where the loop is a program, what it asks
for is determined by the number of attempts it makes.
-/

import Mathlib.Data.ENat.Lattice
import Shr.Library.Interaction

namespace Attempts

/-! ### Counting -/

structure First (outcome : Nat → Bool) (index : Nat) : Prop where
  succeeds : outcome index = true
  earlier : ∀ before, before < index → outcome before = false

theorem exists_first {outcome : Nat → Bool} {index : Nat} (success : outcome index = true) :
    ∃ first, first ≤ index ∧ First outcome first := by
  have some_success : ∃ index, outcome index = true := ⟨index, success⟩
  refine ⟨Nat.find some_success, Nat.find_min' some_success success, ?_⟩
  exact
    { succeeds := Nat.find_spec some_success
      earlier := fun before lower =>
        Bool.eq_false_iff.mpr (Nat.find_min some_success lower) }

/-- The attempts a loop makes from attempt `number` on, when `left` are left. -/
def made (outcome : Nat → Bool) (number : Nat) : Nat → Nat
  | 0 => 0
  | left + 1 => if outcome number then 1 else made outcome (number + 1) left + 1

theorem made_of_first {outcome : Nat → Bool} {first : Nat} (isFirst : First outcome first)
    {number : Nat} (reached : number ≤ first) (left : Nat) :
    made outcome number left = min left (first + 1 - number) := by
  induction left generalizing number with
  | zero => rw [made, Nat.zero_min]
  | succ left ih =>
      rw [made]
      by_cases here : number = first
      · rw [if_pos (here ▸ isFirst.succeeds)]
        omega
      · have failed := isFirst.earlier number (by omega)
        rw [if_neg (Bool.eq_false_iff.mp failed), ih (by omega)]
        omega

theorem made_of_failed {outcome : Nat → Bool} (failed : ∀ index, outcome index = false)
    (number left : Nat) : made outcome number left = left := by
  induction left generalizing number with
  | zero => rfl
  | succ left ih => rw [made, if_neg (Bool.eq_false_iff.mp (failed number)), ih]

theorem made_eq_made_iff (outcome : Nat → Bool) (left right : Nat) :
    made outcome 0 left = made outcome 0 right ↔
      left = right ∨ ∃ index, index < min left right ∧ outcome index = true := by
  by_cases some_success : ∃ index, outcome index = true
  · obtain ⟨success, succeeds⟩ := some_success
    obtain ⟨first, _atMost, isFirst⟩ := exists_first succeeds
    rw [made_of_first isFirst (Nat.zero_le _), made_of_first isFirst (Nat.zero_le _)]
    constructor
    · intro same
      by_cases within : first < min left right
      · exact .inr ⟨first, within, isFirst.succeeds⟩
      · exact .inl (by omega)
    · rintro (same | ⟨index, within, succeedsThere⟩)
      · rw [same]
      · have notEarlier : ¬ index < first := fun earlier =>
          Bool.eq_false_iff.mp (isFirst.earlier index earlier) succeedsThere
        omega
  · have failed : ∀ index, outcome index = false := fun index =>
      Bool.eq_false_iff.mpr fun succeeds => some_success ⟨index, succeeds⟩
    rw [made_of_failed failed, made_of_failed failed]
    constructor
    · exact .inl
    · rintro (same | ⟨index, _within, succeeds⟩)
      · exact same
      · exact absurd ⟨index, succeeds⟩ some_success

open Classical in
/-- The number, from 1 on, of the first attempt that succeeds. -/
noncomputable def firstSuccess (outcome : Nat → Bool) : ℕ∞ :=
  if some_success : ∃ index, outcome index = true then
    ((Nat.find some_success + 1 : Nat) : ℕ∞)
  else ⊤

theorem made_eq_min (outcome : Nat → Bool) (limit : Nat) :
    (made outcome 0 limit : ℕ∞) = min (limit : ℕ∞) (firstSuccess outcome) := by
  unfold firstSuccess
  split
  · rename_i some_success
    have isFirst : First outcome (Nat.find some_success) :=
      { succeeds := Nat.find_spec some_success
        earlier := fun before lower =>
          Bool.eq_false_iff.mpr (Nat.find_min some_success lower) }
    rw [made_of_first isFirst (Nat.zero_le _), Nat.sub_zero]
    exact Monotone.map_min Nat.mono_cast
  · rename_i never
    have failed : ∀ index, outcome index = false := fun index =>
      Bool.eq_false_iff.mpr fun succeeds => never ⟨index, succeeds⟩
    rw [made_of_failed failed, min_eq_left le_top]

/-! ### Programs -/

variable {σ : Signature}

/-- Up to `left` more attempts, with a pause before each but attempt 0. -/
def retry (pause : Program σ Unit) (attempt : Program σ Bool) (number : Nat) :
    Nat → Program σ Bool
  | 0 => return false
  | left + 1 => do
      if 0 < number then
        pause
      let ok ← attempt
      if ok then
        return true
      else
        retry pause attempt (number + 1) left

def recorded (reply : (op : σ.Op) → List σ.Op → σ.Reply op) (op : σ.Op) (asked : List σ.Op) :
    σ.Reply op × List σ.Op :=
  (reply op asked, asked ++ [op])

def asking {Op : Type} (pauses attempts : Op) (number : Nat) : Nat → List Op
  | 0 => []
  | count + 1 => (if 0 < number then [pauses] else []) ++
      attempts :: asking pauses attempts (number + 1) count

theorem asking_succ {Op : Type} (pauses attempts : Op) (number count : Nat) :
    attempts :: asking pauses attempts (number + 1) count =
      (List.replicate (count + 1) attempts).intersperse pauses := by
  induction count generalizing number with
  | zero => rfl
  | succ count ih =>
      rw [asking, if_pos (Nat.succ_pos number), ih (number + 1)]
      rfl

theorem asking_zero {Op : Type} (pauses attempts : Op) (count : Nat) :
    asking pauses attempts 0 count = (List.replicate count attempts).intersperse pauses := by
  cases count with
  | zero => rfl
  | succ count => exact asking_succ pauses attempts 0 count

theorem intersperse_replicate_inj {Op : Type} {pauses attempts : Op} {left right : Nat}
    (same : (List.replicate left attempts).intersperse pauses =
      (List.replicate right attempts).intersperse pauses) : left = right := by
  have lengths := congrArg List.length same
  rw [List.length_intersperse, List.length_intersperse, List.length_replicate,
    List.length_replicate] at lengths
  omega

/-- The operations are those of a loop that makes `min limit (firstSuccess outcome)`
attempts and pauses before each but the first. -/
def Limited {Op : Type} (pauses attempts : Op) (limit : Nat) (outcome : Nat → Bool)
    (asked : List Op) : Prop :=
  ∃ count : Nat, (count : ℕ∞) = min (limit : ℕ∞) (firstSuccess outcome) ∧
    asked = (List.replicate count attempts).intersperse pauses

theorem limited_iff {Op : Type} {pauses attempts : Op} {inForce : Nat} (limit : Nat)
    {outcome : Nat → Bool} {asked : List Op}
    (loop : asked = asking pauses attempts 0 (made outcome 0 inForce)) :
    Limited pauses attempts limit outcome asked ↔
      inForce = limit ∨ ∃ index, index < min inForce limit ∧ outcome index = true := by
  rw [← made_eq_made_iff]
  rw [asking_zero] at loop
  unfold Limited
  rw [← made_eq_min, loop]
  constructor
  · rintro ⟨count, exactly, same⟩
    rw [intersperse_replicate_inj same]
    exact Nat.cast_injective exactly
  · intro same
    exact ⟨_, rfl, by rw [same]⟩

section Run

variable {reply : (op : σ.Op) → List σ.Op → σ.Reply op} (isAttempt : σ.Op → Bool)
variable {outcome : Nat → Bool} {pause : Program σ Unit} {attempt : Program σ Bool}
variable {pauses attempts : σ.Op}

theorem retry_run
    (paused : ∀ asked, pause.run (recorded reply) asked = ((), asked ++ [pauses]))
    (attempted : ∀ asked, attempt.run (recorded reply) asked =
      (outcome (asked.countP isAttempt), asked ++ [attempts]))
    (isPause : isAttempt pauses = false) (isAttempt_attempts : isAttempt attempts = true)
    {number : Nat} (left : Nat) {asked : List σ.Op} (before : asked.countP isAttempt = number) :
    ((retry pause attempt number left).run (recorded reply) asked).2 =
      asked ++ asking pauses attempts number (made outcome number left) := by
  induction left generalizing number asked with
  | zero => exact (List.append_nil asked).symm
  | succ left ih =>
      have first : ∀ pre, pre.countP isAttempt = number →
          ((attempt >>= fun ok =>
              if ok then return true else retry pause attempt (number + 1) left :
                Program σ Bool).run (recorded reply) pre).2 =
            pre ++ attempts :: asking pauses attempts (number + 1)
              (made outcome number (left + 1) - 1) := by
        intro pre count
        rw [Program.run_bind, attempted, count, made]
        cases outcome number with
        | true => rfl
        | false =>
            have next : (pre ++ [attempts]).countP isAttempt = number + 1 := by
              rw [List.countP_append, count, List.countP_singleton, if_pos isAttempt_attempts]
            have rest := ih next
            rw [List.append_assoc] at rest
            exact rest
      have some_made : made outcome number (left + 1) =
          made outcome number (left + 1) - 1 + 1 := by
        rw [made]
        split <;> rfl
      rw [some_made, asking]
      by_cases later : 0 < number
      · have count : (asked ++ [pauses]).countP isAttempt = number := by
          rw [List.countP_append, before, List.countP_singleton, isPause]
          rfl
        have paused_first := first (asked ++ [pauses]) count
        rw [if_pos later, ← List.append_assoc, ← paused_first]
        conv_lhs => rw [retry, if_pos later, Program.run_bind, paused]
      · rw [if_neg later, List.nil_append, ← first asked before]
        conv_lhs => rw [retry, if_neg later]

end Run

end Attempts
