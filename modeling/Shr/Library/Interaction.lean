/-
Programs that interact with a world they do not own.

A program is either finished or waits for the reply to one operation.  What an
operation does, and which replies are possible, is left to whoever runs the
program: the same program can be run to its end against a script of replies or
be advanced one operation at a time between the steps of other parties.  An
automaton that a program follows names the points between its operations.
-/

import Mathlib.Logic.Relation
import Mathlib.Order.WellFounded

structure Signature where
  Op : Type
  Reply : Op → Type

/-- A program over a signature: a result, or an operation and what follows
each of its replies. -/
inductive Program (σ : Signature) (α : Type) where
  | done (result : α)
  | call (op : σ.Op) (next : σ.Reply op → Program σ α)

namespace Program

variable {σ : Signature} {α β : Type}

def bind : Program σ α → (α → Program σ β) → Program σ β
  | .done result, following => following result
  | .call op next, following => .call op fun reply => (next reply).bind following

def perform (op : σ.Op) : Program σ (σ.Reply op) :=
  .call op .done

instance : Monad (Program σ) where
  pure := .done
  bind := Program.bind

@[simp] theorem call_bind (op : σ.Op) (next : σ.Reply op → Program σ α)
    (following : α → Program σ β) :
    (Program.call op next >>= following) = .call op fun reply => next reply >>= following :=
  rfl

theorem assoc_bind {γ : Type} (program : Program σ α) (first : α → Program σ β)
    (second : β → Program σ γ) :
    (program >>= first) >>= second = program >>= fun result => first result >>= second := by
  induction program with
  | done result => rfl
  | call op next ih =>
      simp only [call_bind]
      congr 1
      funext reply
      exact ih reply

/-! ### What a program may ever ask -/

/-- Every operation the program can come to satisfies `allowed`. -/
def Asks (allowed : σ.Op → Prop) : Program σ α → Prop
  | .done _ => True
  | .call op next => allowed op ∧ ∀ reply, (next reply).Asks allowed

@[simp] theorem asks_done (allowed : σ.Op → Prop) (result : α) :
    (Program.done result : Program σ α).Asks allowed :=
  trivial

theorem asks_perform {allowed : σ.Op → Prop} {op : σ.Op} (permitted : allowed op) :
    (perform op).Asks allowed :=
  ⟨permitted, fun _reply => trivial⟩

theorem Asks.bind {allowed : σ.Op → Prop} {program : Program σ α}
    {following : α → Program σ β} (first : program.Asks allowed)
    (second : ∀ result, (following result).Asks allowed) :
    (program >>= following).Asks allowed := by
  induction program with
  | done result => exact second result
  | call op next ih => exact ⟨first.1, fun reply => ih reply (first.2 reply)⟩

/-- Of the operations that are not allowed, the program asks for one at most. -/
def AsksOnce (allowed : σ.Op → Prop) : Program σ α → Prop
  | .done _ => True
  | .call op next =>
      (allowed op ∧ ∀ reply, (next reply).AsksOnce allowed) ∨ ∀ reply, (next reply).Asks allowed

theorem Asks.once {allowed : σ.Op → Prop} {program : Program σ α} (asks : program.Asks allowed) :
    program.AsksOnce allowed := by
  induction program with
  | done result => trivial
  | call op next ih => exact Or.inl ⟨asks.1, fun reply => ih reply (asks.2 reply)⟩

/-! ### Programs that follow an automaton -/

/-- What an automaton does at a point: it ends, or it asks for an operation and
goes on at a point that depends on the reply. -/
inductive Move (σ : Signature) (α ρ : Type) where
  | finish (result : α)
  | ask (op : σ.Op) (after : σ.Reply op → ρ)

inductive Follows {ρ : Type} (move : ρ → Move σ α ρ) : ρ → Program σ α → Prop where
  | done {point : ρ} {result : α} (ends : move point = .finish result) :
      Follows move point (.done result)
  | call {point : ρ} {op : σ.Op} {after : σ.Reply op → ρ} {next : σ.Reply op → Program σ α}
      (asks : move point = .ask op after)
      (rest : ∀ reply, Follows move (after reply) (next reply)) :
      Follows move point (.call op next)

section Follows

variable {ρ : Type} {move : ρ → Move σ α ρ} {point : ρ}

theorem Follows.of_ask {program : Program σ α} (follows : Follows move point program)
    {op : σ.Op} {after : σ.Reply op → ρ} (asks : move point = .ask op after) :
    ∃ next, program = .call op next ∧ ∀ reply, Follows move (after reply) (next reply) := by
  cases follows with
  | done ends =>
      rw [asks] at ends
      cases ends
  | call sameAsks rest =>
      rw [asks] at sameAsks
      cases sameAsks
      exact ⟨_, rfl, rest⟩

theorem Follows.of_finish {program : Program σ α} (follows : Follows move point program)
    {result : α} (ends : move point = .finish result) : program = .done result := by
  cases follows with
  | done sameEnds =>
      rw [ends] at sameEnds
      cases sameEnds
      rfl
  | call asks rest =>
      rw [ends] at asks
      cases asks

theorem Follows.asks {op : σ.Op} {next : σ.Reply op → Program σ α}
    (follows : Follows move point (.call op next)) :
    ∃ after, move point = .ask op after ∧
      ∀ reply, Follows move (after reply) (next reply) := by
  cases follows with
  | call asks rest => exact ⟨_, asks, rest⟩

theorem Follows.next {op : σ.Op} {next : σ.Reply op → Program σ α} {after : σ.Reply op → ρ}
    (follows : Follows move point (.call op next)) (asks : move point = .ask op after)
    (reply : σ.Reply op) : Follows move (after reply) (next reply) := by
  cases follows with
  | call sameAsks rest =>
      rw [asks] at sameAsks
      cases sameAsks
      exact rest reply

/-- A set of points that is never left, and at which only allowed operations are
asked for, bounds what a program from there on asks. -/
theorem Follows.asks_of_closed {inside : ρ → Prop} {allowed : σ.Op → Prop}
    (closed : ∀ {point : ρ} {op : σ.Op} {after : σ.Reply op → ρ}, inside point →
      move point = .ask op after → allowed op ∧ ∀ reply, inside (after reply))
    {program : Program σ α} (follows : Follows move point program) (holds : inside point) :
    program.Asks allowed := by
  induction follows with
  | done _ends => trivial
  | call asks _rest ih =>
      obtain ⟨permitted, stays⟩ := closed holds asks
      exact ⟨permitted, fun reply => ih reply (stays reply)⟩

theorem Follows.ends {result : α} (follows : Follows move point (.done result)) :
    move point = .finish result := by
  cases follows with
  | done ends => exact ends

end Follows

/-! ### Running to the end -/

/-- Run a program against a world that answers every operation at once. -/
def run {W : Type} (answer : (op : σ.Op) → W → σ.Reply op × W) : Program σ α → W → α × W
  | .done result, world => (result, world)
  | .call op next, world => (next (answer op world).1).run answer (answer op world).2

/-- The world after the first operations of a program. -/
def midway {W : Type} (answer : (op : σ.Op) → W → σ.Reply op × W) :
    Nat → Program σ α → W → W
  | 0, _, world => world
  | _ + 1, .done _, world => world
  | count + 1, .call op next, world =>
      (next (answer op world).1).midway answer count (answer op world).2

theorem run_bind {W : Type} (answer : (op : σ.Op) → W → σ.Reply op × W) (program : Program σ α)
    (following : α → Program σ β) (world : W) :
    (program >>= following).run answer world =
      (following (program.run answer world).1).run answer (program.run answer world).2 := by
  induction program generalizing world with
  | done result => rfl
  | call op next ih => exact ih (answer op world).1 (answer op world).2

theorem Asks.run_kept {W T : Type} {answer : (op : σ.Op) → W → σ.Reply op × W} {observe : W → T}
    {allowed : σ.Op → Prop}
    (kept : ∀ op world, allowed op → observe (answer op world).2 = observe world)
    {program : Program σ α} (asks : program.Asks allowed) (world : W) :
    observe (program.run answer world).2 = observe world := by
  induction program generalizing world with
  | done result => rfl
  | call op next ih => exact (ih _ (asks.2 _) _).trans (kept op world asks.1)

theorem Asks.midway_kept {W T : Type} {answer : (op : σ.Op) → W → σ.Reply op × W}
    {observe : W → T} {allowed : σ.Op → Prop}
    (kept : ∀ op world, allowed op → observe (answer op world).2 = observe world)
    {program : Program σ α} (asks : program.Asks allowed) (count : Nat) (world : W) :
    observe (program.midway answer count world) = observe world := by
  induction program generalizing world count with
  | done result => cases count <;> rfl
  | call op next ih =>
      cases count with
      | zero => rfl
      | succ count => exact (ih _ (asks.2 _) count _).trans (kept op world asks.1)

/-- What only one operation of a program can change is, at every moment, as before the
program or as after it. -/
theorem AsksOnce.midway {W T : Type} {answer : (op : σ.Op) → W → σ.Reply op × W}
    (observe : W → T) {allowed : σ.Op → Prop}
    (kept : ∀ op world, allowed op → observe (answer op world).2 = observe world)
    {program : Program σ α} (once : program.AsksOnce allowed) (count : Nat) (world : W) :
    observe (program.midway answer count world) = observe world ∨
      observe (program.midway answer count world) = observe (program.run answer world).2 := by
  induction program generalizing world count with
  | done result =>
      left
      cases count <;> rfl
  | call op next ih =>
      cases count with
      | zero => exact Or.inl rfl
      | succ count =>
          rcases once with ⟨allowedOp, rest⟩ | rest
          · have first := kept op world allowedOp
            rw [← first]
            exact ih _ (rest _) count _
          · right
            exact ((rest _).midway_kept kept count _).trans ((rest _).run_kept kept _).symm

theorem Follows.run {W ρ : Type} {move : ρ → Move σ α ρ} {inside : ρ → W → Prop}
    {answer : (op : σ.Op) → W → σ.Reply op × W}
    (kept : ∀ {point : ρ} {op : σ.Op} {after : σ.Reply op → ρ} {world : W}, inside point world →
      move point = .ask op after → inside (after (answer op world).1) (answer op world).2)
    {point : ρ} {program : Program σ α} (follows : Follows move point program) {world : W}
    (holds : inside point world) :
    ∃ last, move last = .finish (program.run answer world).1 ∧
      inside last (program.run answer world).2 := by
  induction follows generalizing world with
  | done ends => exact ⟨_, ends, holds⟩
  | call asks _rest ih => exact ih _ (kept holds asks)

/-! ### Every run of a program ends -/

/-- `Program.After later earlier`: `later` is what `earlier` becomes when its
operation is answered. -/
inductive After : Program σ α → Program σ α → Prop where
  | reply (op : σ.Op) (next : σ.Reply op → Program σ α) (reply : σ.Reply op) :
      After (next reply) (.call op next)

theorem after_wellFounded : WellFounded (After (σ := σ) (α := α)) := by
  refine ⟨fun program => ?_⟩
  induction program with
  | done result => exact ⟨_, fun _later impossible => by cases impossible⟩
  | call op next ih =>
      refine ⟨_, fun later answered => ?_⟩
      cases answered with
      | reply _ _ reply => exact ih reply

end Program
