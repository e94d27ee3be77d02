/-
Contracts between a program and its world.

A contract speaks about what a program has learned so far: which operations it
may ask for then, which replies its world may give, and what it knows after a
reply.  A program meets the contract if every operation it comes to is allowed,
as long as the world gives possible replies only.  What relates a world to what
is known, and is kept by every allowed operation, relates them at the end of a
run; and a contract can be read off another one that knows more.
-/

import Mathlib.Data.List.Forall2
import Shr.Library.Interaction

/-- `κ` is what a program knows. -/
structure Contract (σ : Signature) (κ : Type) where
  allowed : κ → σ.Op → Prop
  possible : κ → (op : σ.Op) → σ.Reply op → Prop
  learned : κ → (op : σ.Op) → σ.Reply op → κ

namespace Program

variable {σ : Signature} {κ α β : Type}

def Meets (contract : Contract σ κ) (post : κ → α → Prop) : κ → Program σ α → Prop
  | known, .done result => post known result
  | known, .call op next =>
      contract.allowed known op ∧ ∀ reply, contract.possible known op reply →
        (next reply).Meets contract post (contract.learned known op reply)

variable {contract : Contract σ κ} {post : κ → α → Prop}

@[simp] theorem meets_done {known : κ} {result : α} :
    (Program.done result : Program σ α).Meets contract post known ↔ post known result :=
  Iff.rfl

theorem meets_call {known : κ} {op : σ.Op} {next : σ.Reply op → Program σ α} :
    (Program.call op next).Meets contract post known ↔
      contract.allowed known op ∧ ∀ reply, contract.possible known op reply →
        (next reply).Meets contract post (contract.learned known op reply) :=
  Iff.rfl

theorem Meets.mono {weaker : κ → α → Prop} {program : Program σ α} {known : κ}
    (meets : program.Meets contract post known)
    (implies : ∀ known result, post known result → weaker known result) :
    program.Meets contract weaker known := by
  induction program generalizing known with
  | done result => exact implies known result meets
  | call op next ih =>
      exact ⟨meets.1, fun reply possible => ih reply (meets.2 reply possible)⟩

theorem Meets.bind {middle : κ → β → Prop} {program : Program σ β}
    {following : β → Program σ α} {known : κ} (first : program.Meets contract middle known)
    (second : ∀ known result, middle known result →
      (following result).Meets contract post known) :
    (program >>= following).Meets contract post known := by
  induction program generalizing known with
  | done result => exact second known result first
  | call op next ih =>
      exact ⟨first.1, fun reply possible => ih reply (first.2 reply possible)⟩

theorem Asks.meets {asked : σ.Op → Prop}
    (allowed : ∀ known op, asked op → contract.allowed known op) {program : Program σ α}
    (asks : program.Asks asked) (known : κ) :
    program.Meets contract (fun _known _result => True) known := by
  induction program generalizing known with
  | done result => trivial
  | call op next ih =>
      exact ⟨allowed known op asks.1, fun reply _possible => ih reply (asks.2 reply) _⟩

/-- A set of points that possible replies never leave, and at which only allowed
operations are asked for, binds what a program does from there on. -/
theorem Follows.meets {ρ : Type} {move : ρ → Move σ α ρ} {inside : κ → ρ → Prop}
    (closed : ∀ {known : κ} {point : ρ} {op : σ.Op} {after : σ.Reply op → ρ},
      inside known point → move point = .ask op after → contract.allowed known op ∧
        ∀ reply, contract.possible known op reply →
          inside (contract.learned known op reply) (after reply))
    {point : ρ} {program : Program σ α} (follows : Follows move point program) {known : κ}
    (holds : inside known point) :
    program.Meets contract (fun _known _result => True) known := by
  induction follows generalizing known with
  | done _ends => trivial
  | call asks _rest ih =>
      obtain ⟨allowed, stays⟩ := closed holds asks
      exact ⟨allowed, fun reply possible => ih reply (stays reply possible)⟩

/-- A relation between the world and what is known, kept by every operation that
is allowed, holds at the end of a run of a program that meets the contract. -/
theorem Meets.run {W : Type} {answer : (op : σ.Op) → W → σ.Reply op × W}
    {related : W → κ → Prop}
    (answers : ∀ world known op, related world known → contract.allowed known op →
      contract.possible known op (answer op world).1 ∧
        related (answer op world).2 (contract.learned known op (answer op world).1))
    {program : Program σ α} {world : W} {known : κ}
    (meets : program.Meets contract post known) (initially : related world known) :
    ∃ last, related (program.run answer world).2 last ∧
      post last (program.run answer world).1 := by
  induction program generalizing world known with
  | done result => exact ⟨known, initially, meets⟩
  | call op next ih =>
      obtain ⟨possible, stays⟩ := answers world known op initially meets.1
      exact ih _ (meets.2 _ possible) stays

theorem Meets.view {κ' : Type} {other : Contract σ κ'} (view : κ → κ')
    (allowed : ∀ known op, contract.allowed known op → other.allowed (view known) op)
    (possible : ∀ known op reply, other.possible (view known) op reply →
      contract.possible known op reply)
    (learned : ∀ known op reply,
      view (contract.learned known op reply) = other.learned (view known) op reply)
    {program : Program σ α} {known : κ} (meets : program.Meets contract post known) :
    program.Meets other (fun seen result => ∃ known, view known = seen ∧ post known result)
      (view known) := by
  induction program generalizing known with
  | done result => exact ⟨known, rfl, meets⟩
  | call op next ih =>
      refine ⟨allowed known op meets.1, ?_⟩
      intro reply given
      rw [← learned]
      exact ih reply (meets.2 reply (possible known op reply given))

/-! ### Many programs at once -/

def asksOnly (allowed : σ.Op → Prop) : Contract σ Unit :=
  { allowed := fun _known op => allowed op
    possible := fun _known _op _reply => True
    learned := fun _known _op _reply => () }

/-- Programs under way next to what each was started with: every one meets the
contract that goes with it. -/
def AllMeet {β : Type} (contract : β → Contract σ Unit) (programs : List (Program σ α))
    (started : List β) : Prop :=
  List.Forall₂ (fun program input =>
    program.Meets (contract input) (fun _known _result => True) ()) programs started

namespace AllMeet

variable {β : Type} {contract : β → Contract σ Unit} {programs : List (Program σ α)}
variable {started : List β}

theorem launch (all : AllMeet contract programs started) {program : Program σ α} {input : β}
    (meets : program.Meets (contract input) (fun _known _result => True) ()) :
    AllMeet contract (programs ++ [program]) (started ++ [input]) :=
  List.rel_append all (.cons meets .nil)

theorem advance (all : AllMeet contract programs started) {index : Nat} {op : σ.Op}
    {next : σ.Reply op → Program σ α} (found : programs[index]? = some (.call op next)) :
    ∃ input, started[index]? = some input ∧ (contract input).allowed () op ∧
      ∀ reply, (contract input).possible () op reply →
        AllMeet contract (programs.set index (next reply)) started := by
  induction all generalizing index with
  | nil => cases found
  | @cons program input programs started meets rest ih =>
      cases index with
      | zero =>
          rw [List.getElem?_cons_zero, Option.some.injEq] at found
          rw [found] at meets
          exact ⟨input, rfl, meets.1, fun reply possible => .cons (meets.2 reply possible) rest⟩
      | succ index =>
          rw [List.getElem?_cons_succ] at found
          obtain ⟨other, same, allowed, stays⟩ := ih found
          exact ⟨other, same, allowed, fun reply possible => .cons meets (stays reply possible)⟩

end AllMeet

end Program
