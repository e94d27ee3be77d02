/-
FIFO channels that can be cut.

What a channel holds is described from its ends: by the sequence handed to it
and by the number of items taken from it.  A channel that is intact holds all
the rest of the sequence; one that has been cut holds some beginning of it, and
never anything else.
-/

import Mathlib.Data.List.Basic

namespace Fifo

variable {α : Type}

/-- The queue is what a channel can hold of a sequence of which a number of
items has been taken; while it is intact, it is all the rest. -/
structure Carries (intact : Prop) (handed : List α) (taken : Nat) (queue : List α) : Prop where
  order : queue <+: handed.drop taken
  whole : intact → queue = handed.drop taken

namespace Carries

variable {intact later : Prop} {handed queue : List α} {taken : Nat}

theorem nothing (intact : Prop) : Carries intact ([] : List α) 0 [] where
  order := List.prefix_rfl
  whole := fun _intact => rfl

theorem push (carries : Carries intact handed taken queue) (unbroken : intact)
    (inside : taken ≤ handed.length) (items : List α) :
    Carries later (handed ++ items) taken (queue ++ items) := by
  have same : queue ++ items = (handed ++ items).drop taken := by
    rw [carries.whole unbroken, List.drop_append_of_le_length inside]
  constructor
  · exact ⟨[], by rw [List.append_nil, same]⟩
  · intro _later
    exact same

theorem lose (carries : Carries intact handed taken queue) (broken : ¬later)
    (inside : taken ≤ handed.length) (items : List α) :
    Carries later (handed ++ items) taken queue where
  order := by
    rw [List.drop_append_of_le_length inside]
    exact carries.order.trans (List.prefix_append _ _)
  whole := fun unbroken => absurd unbroken broken

theorem head {item : α} {rest : List α} (carries : Carries intact handed taken (item :: rest)) :
    handed[taken]? = some item := by
  obtain ⟨tail, whole⟩ := carries.order
  rw [← List.head?_drop, ← whole]
  rfl

theorem pop {item : α} {rest : List α} (carries : Carries intact handed taken (item :: rest)) :
    Carries intact handed (taken + 1) rest where
  order := by
    obtain ⟨tail, whole⟩ := carries.order
    refine ⟨tail, ?_⟩
    rw [← List.tail_drop, ← whole]
    rfl
  whole := by
    intro unbroken
    rw [← List.tail_drop, ← carries.whole unbroken]
    rfl

theorem inside {item : α} {rest : List α}
    (carries : Carries intact handed taken (item :: rest)) : taken < handed.length := by
  have present := carries.head
  exact (List.getElem?_eq_some_iff.mp present).choose

theorem cut (carries : Carries intact handed taken queue) (broken : ¬later)
    {kept : List α} (beginning : kept <+: queue) : Carries later handed taken kept where
  order := beginning.trans carries.order
  whole := fun unbroken => absurd unbroken broken

theorem restore (carries : Carries intact handed taken queue) (all : handed.length ≤ taken) :
    Carries later handed taken queue where
  order := carries.order
  whole := by
    intro _later
    have exhausted : handed.drop taken = [] := List.drop_eq_nil_of_le all
    have order := carries.order
    rw [exhausted] at order ⊢
    exact List.prefix_nil.mp order

end Carries

end Fifo
