/-
What a program spends.

Every operation has a price.  A program can afford itself from a budget if each
of its runs pays for its operations and is left with what its result still
owes: what is owed is paid by the program that goes on with the result, so the
costs of a loop that ends in several ways need not be taken together.
-/

import Shr.Library.Interaction
import Shr.Library.Runs
import Mathlib.Algebra.BigOperators.Group.List.Basic
import Mathlib.Algebra.GroupWithZero.Nat

namespace Program

variable {σ : Signature} {α β : Type} (price : σ.Op → Nat)

/-- Whatever the replies are, the budget pays for the operations and leaves what
the result owes. -/
def Affords (owed : α → Nat) : Nat → Program σ α → Prop
  | budget, .done result => owed result ≤ budget
  | budget, .call op next =>
      price op ≤ budget ∧ ∀ reply, Affords owed (budget - price op) (next reply)

variable {price} {owed : α → Nat}

theorem Affords.mono {program : Program σ α} {budget larger : Nat}
    (affords : program.Affords price owed budget) (more : budget ≤ larger) :
    program.Affords price owed larger := by
  induction program generalizing budget larger with
  | done result => exact Nat.le_trans affords more
  | call op next ih =>
      obtain ⟨paid, rest⟩ := affords
      refine ⟨Nat.le_trans paid more, fun reply => ih reply (rest reply) ?_⟩
      omega

theorem affords_done {result : α} {budget : Nat} (paid : owed result ≤ budget) :
    (Program.done result : Program σ α).Affords price owed budget :=
  paid

theorem affords_call {op : σ.Op} {next : σ.Reply op → Program σ α} {budget total : Nat}
    (paid : price op + budget ≤ total) (rest : ∀ reply, (next reply).Affords price owed budget) :
    (Program.call op next).Affords price owed total := by
  refine ⟨Nat.le_trans (Nat.le_add_right _ _) paid, fun reply => (rest reply).mono ?_⟩
  omega

theorem Affords.bind {program : Program σ α} {following : α → Program σ β} {later : β → Nat}
    {budget : Nat} (first : program.Affords price owed budget)
    (second : ∀ result, (following result).Affords price later (owed result)) :
    (program >>= following).Affords price later budget := by
  induction program generalizing budget with
  | done result => exact (second result).mono first
  | call op next ih => exact ⟨first.1, fun reply => ih reply (first.2 reply)⟩

/-! ### A program among other events -/

section Runs

variable {τ ε : Type} {step : τ → ε → τ} {asks : τ → ε → Option σ.Op}
  {view : τ → Option (Program σ α)}

/-- A program that is advanced one operation at a time, between any other events,
spends no more than its budget. -/
theorem Affords.spent
    (steps : ∀ state event program, view state = some program →
      asks state event = none ∧ view (step state event) = some program ∨
        ∃ op next reply, program = .call op next ∧ asks state event = some op ∧
          view (step state event) = some (next reply))
    {program : Program σ α} {budget : Nat} (affords : program.Affords price owed budget)
    {state : τ} (here : view state = some program) (events : List ε) :
    ((EventRun.emitted step asks state events).map price).sum ≤ budget := by
  induction events generalizing state program budget with
  | nil => exact Nat.zero_le budget
  | cons event rest ih =>
      rw [EventRun.emitted, List.map_append, List.sum_append]
      rcases steps state event program here with
        ⟨quiet, same⟩ | ⟨op, next, reply, isCall, asked, goes⟩
      · rw [quiet]
        simpa using ih affords same
      · rw [isCall] at affords
        have later := ih (affords.2 reply) goes
        have paid := affords.1
        rw [asked]
        simp only [Option.toList_some, List.map_cons, List.map_nil, List.sum_cons, List.sum_nil]
        omega

end Runs

end Program
