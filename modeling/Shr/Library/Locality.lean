/-
Programs that run at once on one state.

Each program has a part of the state, and asks only for operations on its part.
Then it does not matter when the other programs take their steps: at every
moment a program would come to the same end if it went on alone, and what the
programs leave behind is what they leave when they run one after the other.
-/

import Mathlib.Logic.Function.Basic
import Shr.Library.Contracts
import Shr.Library.Runs

/-- The parts of a state.  `agrees` compares two states on a part, `owns` tells
the operations on it, and `good` is what these may rely on. -/
structure Parts {σ : Signature} {S : Type} (answer : (op : σ.Op) → S → σ.Reply op × S)
    (ι : Type) where
  agrees : ι → S → S → Prop
  equivalence : ∀ part, Equivalence (agrees part)
  owns : ι → σ.Op → Prop
  good : ι → S → Prop
  good_of_agrees : ∀ {part left right}, agrees part left right → good part left → good part right
  good_kept : ∀ {part op state}, owns part op → good part state →
    good part (answer op state).2
  own_step : ∀ {part op left right}, owns part op → agrees part left right →
    (answer op left).1 = (answer op right).1 ∧
      agrees part (answer op left).2 (answer op right).2
  other_step : ∀ {part other op} (state : S), part ≠ other → owns other op →
    agrees part state (answer op state).2

namespace Parts

variable {σ : Signature} {S ι α : Type} {answer : (op : σ.Op) → S → σ.Reply op × S}
variable (parts : Parts answer ι)

/-- A program of a part asks for operations on it, whatever a good state answers. -/
def owned (part : ι) : Contract σ Unit :=
  { allowed := fun _known op => parts.owns part op
    possible := fun _known op reply => ∃ state, parts.good part state ∧
      reply = (answer op state).1
    learned := fun _known _op _reply => () }

def Owned (part : ι) (program : Program σ α) : Prop :=
  program.Meets (parts.owned part) (fun _known _result => True) ()

variable {parts} {part : ι} {program : Program σ α} {left right state : S}

theorem Owned.next {op : σ.Op} {next : σ.Reply op → Program σ α}
    (owned : parts.Owned part (.call op next)) (good : parts.good part state) :
    parts.Owned part (next (answer op state).1) :=
  owned.2 _ ⟨state, good, rfl⟩

/-! ### One program -/

theorem Owned.run_agrees (owned : parts.Owned part program) (good : parts.good part left)
    (agrees : parts.agrees part left right) :
    (program.run answer left).1 = (program.run answer right).1 ∧
      parts.agrees part (program.run answer left).2 (program.run answer right).2 := by
  induction program generalizing left right with
  | done result => exact ⟨rfl, agrees⟩
  | call op next ih =>
      obtain ⟨sameReply, after⟩ := parts.own_step owned.1 agrees
      have further := ih _ (owned.next good) (parts.good_kept owned.1 good) after
      rw [sameReply] at further
      simp only [Program.run, sameReply]
      exact further

theorem Owned.run_other (owned : parts.Owned part program) (good : parts.good part state)
    {other : ι} (different : other ≠ part) :
    parts.agrees other state (program.run answer state).2 := by
  induction program generalizing state with
  | done result => exact (parts.equivalence other).refl state
  | call op next ih =>
      have first := parts.other_step state different owned.1
      exact (parts.equivalence other).trans first
        (ih _ (owned.next good) (parts.good_kept owned.1 good))

theorem Owned.run_good (owned : parts.Owned part program) (good : parts.good part state) :
    parts.good part (program.run answer state).2 := by
  induction program generalizing state with
  | done result => exact good
  | call op next ih => exact ih _ (owned.next good) (parts.good_kept owned.1 good)

theorem Owned.run_all_good (owned : parts.Owned part program)
    (good : ∀ other, parts.good other state) (other : ι) :
    parts.good other (program.run answer state).2 := by
  by_cases same : other = part
  · subst same
    exact owned.run_good (good other)
  · exact parts.good_of_agrees (owned.run_other (good part) same) (good other)

end Parts

/-! ### All programs at once -/

structure Threads (σ : Signature) (S ι α : Type) where
  programs : ι → Program σ α
  state : S

namespace Threads

variable {σ : Signature} {S ι α : Type}

def serially (answer : (op : σ.Op) → S → σ.Reply op × S) (programs : ι → Program σ α) (state : S)
    (order : List ι) : S :=
  order.foldl (fun state part => ((programs part).run answer state).2) state

variable {answer : (op : σ.Op) → S → σ.Reply op × S} {parts : Parts answer ι}

structure Apart (parts : Parts answer ι) (threads : Threads σ S ι α) : Prop where
  owned : ∀ part, parts.Owned part (threads.programs part)
  good : ∀ part, parts.good part threads.state

theorem Apart.serially_other {threads : Threads σ S ι α} (apart : Apart parts threads)
    {order : List ι} {part : ι} (absent : part ∉ order) {state : S}
    (good : ∀ other, parts.good other state) :
    parts.agrees part state (serially answer threads.programs state order) := by
  induction order generalizing state with
  | nil => exact (parts.equivalence part).refl state
  | cons first rest ih =>
      have owned := apart.owned first
      have different : part ≠ first := fun same => absent (same ▸ List.mem_cons_self)
      exact (parts.equivalence part).trans (owned.run_other (good first) different)
        (ih (fun member => absent (List.mem_cons_of_mem first member)) (owned.run_all_good good))

/-- In an order in which every program runs once, each leaves its part as if it had
run alone. -/
theorem Apart.serially_agrees {threads : Threads σ S ι α} (apart : Apart parts threads)
    {order : List ι} {part : ι} (once : order.Nodup) (present : part ∈ order) {state : S}
    (good : ∀ other, parts.good other state) :
    parts.agrees part ((threads.programs part).run answer state).2
      (serially answer threads.programs state order) := by
  induction order generalizing state with
  | nil => cases present
  | cons first rest ih =>
      obtain ⟨absent, restOnce⟩ := List.nodup_cons.mp once
      have owned := apart.owned first
      have goodLater := owned.run_all_good good
      by_cases same : part = first
      · subst same
        exact apart.serially_other absent goodLater
      · have later : part ∈ rest := (List.mem_cons.mp present).resolve_left same
        have moved := (apart.owned part).run_agrees (good part)
          (owned.run_other (good first) same)
        exact (parts.equivalence part).trans moved.2 (ih restOnce later goodLater)

variable [DecidableEq ι]

def step (answer : (op : σ.Op) → S → σ.Reply op × S) (threads : Threads σ S ι α) (part : ι) :
    Threads σ S ι α :=
  match threads.programs part with
  | .done _ => threads
  | .call op next =>
      { programs := Function.update threads.programs part (next (answer op threads.state).1)
        state := (answer op threads.state).2 }

theorem can_finish (threads : Threads σ S ι α) (part : ι) :
    ∃ schedule result,
      (EventRun.run (Threads.step answer) threads schedule).programs part = .done result := by
  induction program : threads.programs part generalizing threads with
  | done result => exact ⟨[], result, program⟩
  | call op next ih =>
      have goesOn : (threads.step answer part).programs part =
          next (answer op threads.state).1 := by
        unfold Threads.step
        rw [program]
        exact Function.update_self _ _ _
      obtain ⟨schedule, result, done⟩ := ih _ (threads.step answer part) goesOn
      exact ⟨part :: schedule, result, done⟩

theorem Apart.step {threads : Threads σ S ι α} (apart : Apart parts threads) (moving : ι) :
    Apart parts (threads.step answer moving) := by
  unfold Threads.step
  cases asks : threads.programs moving with
  | done result => exact apart
  | call op next =>
      have owned := apart.owned moving
      rw [asks] at owned
      constructor
      · intro part
        by_cases same : part = moving
        · subst same
          simp only [Function.update_self]
          exact owned.next (apart.good part)
        · simp only [Function.update_of_ne same]
          exact apart.owned part
      · intro part
        by_cases same : part = moving
        · subst same
          exact parts.good_kept owned.1 (apart.good part)
        · exact parts.good_of_agrees (parts.other_step threads.state same owned.1)
            (apart.good part)

/-- A step of any program leaves open no other end to a program than before. -/
theorem Apart.step_run {threads : Threads σ S ι α} (apart : Apart parts threads)
    (moving part : ι) :
    ((threads.programs part).run answer threads.state).1 =
        (((threads.step answer moving).programs part).run answer
          (threads.step answer moving).state).1 ∧
      parts.agrees part ((threads.programs part).run answer threads.state).2
        (((threads.step answer moving).programs part).run answer
          (threads.step answer moving).state).2 := by
  have equivalence := parts.equivalence part
  unfold Threads.step
  cases asks : threads.programs moving with
  | done result => exact ⟨rfl, equivalence.refl _⟩
  | call op next =>
      by_cases same : part = moving
      · subst same
        simp only [Function.update_self, asks, Program.run]
        exact ⟨trivial, equivalence.refl _⟩
      · have owned := apart.owned moving
        rw [asks] at owned
        simp only [Function.update_of_ne same]
        exact (apart.owned part).run_agrees (apart.good part)
          (parts.other_step threads.state same owned.1)

/-- Whatever the order of the steps, a program that goes on alone comes to the end
it would have come to from the start. -/
theorem Apart.run_schedule {threads : Threads σ S ι α} (apart : Apart parts threads)
    (schedule : List ι) (part : ι) :
    ((threads.programs part).run answer threads.state).1 =
        (((EventRun.run (Threads.step answer) threads schedule).programs part).run answer
          (EventRun.run (Threads.step answer) threads schedule).state).1 ∧
      parts.agrees part ((threads.programs part).run answer threads.state).2
        (((EventRun.run (Threads.step answer) threads schedule).programs part).run answer
          (EventRun.run (Threads.step answer) threads schedule).state).2 := by
  induction schedule generalizing threads with
  | nil => exact ⟨rfl, (parts.equivalence part).refl _⟩
  | cons moving rest ih =>
      obtain ⟨sameResult, agrees⟩ := apart.step_run moving part
      obtain ⟨sameLater, agreesLater⟩ := ih (apart.step moving)
      exact ⟨sameResult.trans sameLater, (parts.equivalence part).trans agrees agreesLater⟩

theorem Apart.finished {threads : Threads σ S ι α} (apart : Apart parts threads)
    {schedule : List ι} {part : ι} {result : α}
    (done : (EventRun.run (Threads.step answer) threads schedule).programs part = .done result) :
    ((threads.programs part).run answer threads.state).1 = result ∧
      parts.agrees part ((threads.programs part).run answer threads.state).2
        (EventRun.run (Threads.step answer) threads schedule).state := by
  have along := apart.run_schedule schedule part
  rw [done] at along
  exact along

end Threads
