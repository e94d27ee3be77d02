/-
Runs of state machines.

`EventRun` is for a machine that is a function of the event, `Steps` for one
that is a relation.  Each comes with the rule by which an invariant of one
step holds along a whole run; the function also with the rules that turn a
fact about one step into a fact about every step of a run, and a relation that
ignores some events into one between an interleaved run and its part.
-/

import Mathlib.Logic.Relation
import Mathlib.Order.WellFounded

/-! ### Step functions -/

namespace EventRun

variable {σ ε : Type}

def run (step : σ → ε → σ) (state : σ) (events : List ε) : σ :=
  events.foldl step state

/-- Each event of a run meets a condition in the state in which it happens. -/
def Along (step : σ → ε → σ) (condition : σ → ε → Prop) : σ → List ε → Prop
  | _, [] => True
  | state, event :: rest => condition state event ∧ Along step condition (step state event) rest

variable {step : σ → ε → σ}

@[simp] theorem run_nil (state : σ) : run step state [] = state :=
  rfl

@[simp] theorem run_cons (state : σ) (event : ε) (rest : List ε) :
    run step state (event :: rest) = run step (step state event) rest :=
  rfl

theorem run_append (state : σ) (first second : List ε) :
    run step state (first ++ second) = run step (run step state first) second :=
  List.foldl_append

@[simp] theorem along_nil (condition : σ → ε → Prop) (state : σ) :
    Along step condition state [] :=
  trivial

@[simp] theorem along_cons (condition : σ → ε → Prop) (state : σ) (event : ε)
    (rest : List ε) :
    Along step condition state (event :: rest) ↔
      condition state event ∧ Along step condition (step state event) rest :=
  Iff.rfl

theorem along_append (condition : σ → ε → Prop) (state : σ) (first second : List ε) :
    Along step condition state (first ++ second) ↔
      Along step condition state first ∧ Along step condition (run step state first) second := by
  induction first generalizing state with
  | nil => simp
  | cons event rest ih => simp [ih, and_assoc]

theorem along_iff {condition : σ → ε → Prop} {state : σ} {events : List ε} :
    Along step condition state events ↔
      ∀ front event back, events = front ++ event :: back →
        condition (run step state front) event := by
  induction events generalizing state with
  | nil => simp
  | cons event rest ih =>
      rw [along_cons, ih]
      constructor
      · rintro ⟨first, later⟩ front other back split
        cases front with
        | nil =>
            cases split
            exact first
        | cons head front =>
            cases split
            exact later front other back rfl
      · intro every
        refine ⟨every [] event rest rfl, ?_⟩
        rintro front other back rfl
        exact every (event :: front) other back rfl

/-- What one event keeps while it meets the condition, a run of such events
keeps. -/
theorem Along.invariant {condition : σ → ε → Prop} {invariant : σ → Prop}
    (kept : ∀ state event, invariant state → condition state event →
      invariant (step state event))
    {state : σ} {events : List ε} (along : Along step condition state events)
    (holds : invariant state) : invariant (run step state events) := by
  induction events generalizing state with
  | nil => exact holds
  | cons event rest ih => exact ih along.2 (kept state event holds along.1)

theorem Along.and_mem {condition : σ → ε → Prop} {every : ε → Prop} {state : σ}
    {events : List ε} (along : Along step condition state events)
    (all : ∀ event ∈ events, every event) :
    Along step (fun state event => every event ∧ condition state event) state events := by
  induction events generalizing state with
  | nil => trivial
  | cons event rest ih =>
      rw [List.forall_mem_cons] at all
      exact ⟨⟨all.1, along.1⟩, ih along.2 all.2⟩

theorem along_of_mem {every : ε → Prop} {events : List ε} (all : ∀ event ∈ events, every event)
    (state : σ) : Along step (fun _state event => every event) state events := by
  induction events generalizing state with
  | nil => trivial
  | cons event rest ih =>
      rw [List.forall_mem_cons] at all
      exact ⟨all.1, ih all.2 (step state event)⟩

theorem run_invariant {invariant : σ → Prop}
    (kept : ∀ state event, invariant state → invariant (step state event))
    {state : σ} (holds : invariant state) (events : List ε) :
    invariant (run step state events) := by
  induction events generalizing state with
  | nil => exact holds
  | cons event rest ih => exact ih (kept state event holds)

theorem Along.mono {invariant : σ → Prop} {left right : σ → ε → Prop}
    (kept : ∀ state event, invariant state → invariant (step state event))
    (weaker : ∀ state event, invariant state → left state event → right state event)
    {state : σ} (holds : invariant state) {events : List ε}
    (along : Along step left state events) : Along step right state events := by
  induction events generalizing state with
  | nil => trivial
  | cons event rest ih =>
      constructor
      · exact weaker state event holds along.1
      · exact ih (kept state event holds) along.2

/-- What holds after an event that sets it and until an event that does not leave it
holds at the end of a run if it has been set or held at first, and has been left
since. -/
theorem holds_run_iff {invariant holds : σ → Prop} {sets : ε → Prop} {leaves : σ → ε → Prop}
    (kept : ∀ state event, invariant state → invariant (step state event))
    (steps : ∀ state event, invariant state →
      (holds (step state event) ↔ sets event ∨ holds state ∧ leaves state event))
    {state : σ} (sound : invariant state) (events : List ε) :
    holds (run step state events) ↔
      (∃ front event back, events = front ++ event :: back ∧ sets event ∧
        Along step leaves (run step state (front ++ [event])) back) ∨
      holds state ∧ Along step leaves state events := by
  induction events generalizing state with
  | nil => simp
  | cons event rest ih =>
      rw [run_cons, ih (kept state event sound), steps state event sound]
      constructor
      · rintro (⟨front, setter, back, rfl, isSet, left⟩ | ⟨isSet | ⟨held, leaves⟩, left⟩)
        · exact .inl ⟨event :: front, setter, back, rfl, isSet, left⟩
        · exact .inl ⟨[], event, rest, rfl, isSet, left⟩
        · exact .inr ⟨held, leaves, left⟩
      · rintro (⟨front, setter, back, split, isSet, left⟩ | ⟨held, leaves, left⟩)
        · cases front with
          | nil =>
              cases split
              exact .inr ⟨.inl isSet, left⟩
          | cons first front =>
              cases split
              exact .inl ⟨front, setter, back, rfl, isSet, left⟩
        · exact .inr ⟨.inr ⟨held, leaves⟩, left⟩

/-! ### Parts of a larger machine -/

/-- An event that may be none for this machine. -/
def optionally (step : σ → ε → σ) (state : σ) (event : Option ε) : σ :=
  event.elim state (step state)

@[simp] theorem optionally_none (state : σ) : optionally step state none = state :=
  rfl

@[simp] theorem optionally_some (state : σ) (event : ε) :
    optionally step state (some event) = step state event :=
  rfl

theorem optionally_kept (invariant : σ → Prop) {state : σ} (holds : invariant state)
    {event : Option ε} (kept : ∀ happens, event = some happens → invariant (step state happens)) :
    invariant (optionally step state event) := by
  cases event with
  | none => exact holds
  | some happens => exact kept happens rfl

/-- A part of a larger machine makes a run of its own: of what each event is for
this part. -/
theorem part_run {τ δ : Type} {whole : τ → δ → τ} (view : τ → σ) (part : δ → Option ε)
    (views : ∀ state event, view (whole state event) = optionally step (view state) (part event))
    (state : τ) (events : List δ) :
    view (run whole state events) = run step (view state) (events.filterMap part) := by
  induction events generalizing state with
  | nil => rfl
  | cons event rest ih =>
      rw [run_cons, ih, views]
      cases happens : part event with
      | none => rw [List.filterMap_cons_none happens, optionally_none]
      | some happened =>
          rw [List.filterMap_cons_some happens, optionally_some, run_cons]

theorem run_push (earlier events : List ε) :
    run (fun list event => list ++ [event]) earlier events = earlier ++ events := by
  induction events generalizing earlier with
  | nil => exact (List.append_nil earlier).symm
  | cons event rest ih => rw [run_cons, ih, List.append_assoc, List.singleton_append]

theorem part_split {δ : Type} {part : δ → Option ε} {events : List δ} {front back : List ε}
    {event : ε} (split : events.filterMap part = front ++ event :: back) :
    ∃ before whole after, events = before ++ whole :: after ∧
      before.filterMap part = front ∧ part whole = some event := by
  obtain ⟨before, rest, rfl, fronts, rests⟩ := List.filterMap_eq_append_iff.mp split
  obtain ⟨skipped, whole, after, rfl, nothing, isEvent, _backs⟩ :=
    List.filterMap_eq_cons_iff.mp rests
  refine ⟨before ++ skipped, whole, after, by simp, ?_, isEvent⟩
  rw [List.filterMap_append, fronts, List.filterMap_eq_nil_iff.mpr nothing, List.append_nil]

/-! ### Every state of a run -/

/-- The property holds in every state of a run, its first and its last included. -/
def Always (step : σ → ε → σ) (property : σ → Prop) : σ → List ε → Prop
  | state, [] => property state
  | state, event :: rest => property state ∧ Always step property (step state event) rest

@[simp] theorem always_nil {property : σ → Prop} {state : σ} :
    Always step property state [] ↔ property state :=
  Iff.rfl

@[simp] theorem always_cons {property : σ → Prop} {state : σ} {event : ε} {rest : List ε} :
    Always step property state (event :: rest) ↔
      property state ∧ Always step property (step state event) rest :=
  Iff.rfl

theorem Always.first {property : σ → Prop} {state : σ} {events : List ε}
    (always : Always step property state events) : property state := by
  cases events with
  | nil => exact always
  | cons event rest => exact always.1

theorem Always.last {property : σ → Prop} {state : σ} {events : List ε}
    (always : Always step property state events) : property (run step state events) := by
  induction events generalizing state with
  | nil => exact always
  | cons event rest ih => exact ih always.2

theorem always_iff {property : σ → Prop} {state : σ} {events : List ε} :
    Always step property state events ↔
      ∀ front back, events = front ++ back → property (run step state front) := by
  induction events generalizing state with
  | nil =>
      constructor
      · intro holds front back split
        rw [(List.append_eq_nil_iff.mp split.symm).1]
        exact holds
      · intro every
        exact every [] [] rfl
  | cons event rest ih =>
      rw [always_cons, ih]
      constructor
      · rintro ⟨holds, later⟩ front back split
        cases front with
        | nil => exact holds
        | cons first front =>
            rw [List.cons_append, List.cons.injEq] at split
            rw [run_cons, ← split.1]
            exact later front back split.2
      · intro every
        refine ⟨every [] (event :: rest) rfl, ?_⟩
        intro front back split
        have whole : event :: rest = (event :: front) ++ back := by rw [split, List.cons_append]
        exact every (event :: front) back whole

/-- Where the condition of an event is exactly what keeps a property, under an
invariant of its own, the property holds in every state of a run if and only if
every event of it meets the condition. -/
theorem always_iff_along {invariant property : σ → Prop} {every : ε → Prop}
    {condition : σ → ε → Prop}
    (kept : ∀ state event, every event → invariant state → invariant (step state event))
    (exact : ∀ state event, every event → invariant state → property state →
      (property (step state event) ↔ condition state event))
    {state : σ} {events : List ε} (all : ∀ event ∈ events, every event) (holds : invariant state)
    (initially : property state) :
    Always step property state events ↔ Along step condition state events := by
  induction events generalizing state with
  | nil => exact ⟨fun _always => trivial, fun _along => initially⟩
  | cons event rest ih =>
      rw [List.forall_mem_cons] at all
      have next := exact state event all.1 holds initially
      have later := kept state event all.1 holds
      rw [always_cons, along_cons]
      constructor
      · rintro ⟨_here, always⟩
        have stays := always.first
        exact ⟨next.mp stays, (ih all.2 later stays).mp always⟩
      · rintro ⟨met, along⟩
        have stays := next.mpr met
        exact ⟨initially, (ih all.2 later stays).mpr along⟩

/-! ### Emissions -/

def emitted {β : Type} (step : σ → ε → σ) (emit : σ → ε → Option β) : σ → List ε → List β
  | _, [] => []
  | state, event :: rest =>
      (emit state event).toList ++ emitted step emit (step state event) rest

theorem mem_emitted_iff {β : Type} {emit : σ → ε → Option β} {item : β} {state : σ}
    {events : List ε} :
    item ∈ emitted step emit state events ↔
      ∃ front event back, events = front ++ event :: back ∧
        emit (run step state front) event = some item := by
  induction events generalizing state with
  | nil => simp [emitted]
  | cons event rest ih =>
      rw [emitted, List.mem_append, Option.mem_toList, ih]
      constructor
      · rintro (first | ⟨front, later, back, rfl, emits⟩)
        · exact ⟨[], event, rest, rfl, first⟩
        · exact ⟨event :: front, later, back, rfl, emits⟩
      · rintro ⟨front, later, back, split, emits⟩
        cases front with
        | nil =>
            cases split
            exact .inl emits
        | cons first front =>
            cases split
            exact .inr ⟨front, later, back, rfl, emits⟩

/-- What every event keeps, together with what has been emitted, a run keeps. -/
theorem emitted_invariant {β : Type} {emit : σ → ε → Option β} {invariant : List β → σ → Prop}
    (kept : ∀ past state event, invariant past state →
      invariant (past ++ (emit state event).toList) (step state event))
    {past : List β} {state : σ} (holds : invariant past state) (events : List ε) :
    invariant (past ++ emitted step emit state events) (run step state events) := by
  induction events generalizing past state with
  | nil =>
      rw [emitted, List.append_nil]
      exact holds
  | cons event rest ih =>
      rw [emitted, ← List.append_assoc]
      exact ih (kept past state event holds)

/-- What a state shows, when it never changes once there is something to show and
is otherwise set by the first emission that is chosen. -/
theorem view_run {β γ : Type} {emit : σ → ε → Option β} {chosen : β → Bool} {shown : β → γ}
    (view : σ → Option γ)
    (shows : ∀ state event, view (step state event) =
      (view state).or (((emit state event).filter chosen).map shown))
    (state : σ) (events : List ε) :
    view (run step state events) =
      (view state).or (((emitted step emit state events).find? chosen).map shown) := by
  induction events generalizing state with
  | nil => simp [emitted]
  | cons event rest ih =>
      rw [run_cons, ih, shows, Option.or_assoc, emitted, List.find?_append]
      congr 1
      cases emission : emit state event with
      | none => rfl
      | some item =>
          cases selected : chosen item <;>
            simp [Option.filter, selected]

/-! ### Interleavings -/

/-- `Interleaves own others whole`: `whole` merges the two lists, each in its
own order. -/
inductive Interleaves : List ε → List ε → List ε → Prop where
  | nil : Interleaves [] [] []
  | own {event : ε} {own others whole : List ε} (rest : Interleaves own others whole) :
      Interleaves (event :: own) others (event :: whole)
  | other {event : ε} {own others whole : List ε} (rest : Interleaves own others whole) :
      Interleaves own (event :: others) (event :: whole)

theorem Interleaves.append (own others : List ε) : Interleaves own others (own ++ others) := by
  induction own with
  | nil =>
      induction others with
      | nil => exact .nil
      | cons event others ih => exact .other ih
  | cons event own ih => exact .own ih

/-- A relation that own events keep when both sides take them, and other
events keep when one side takes them alone, relates an interleaved run to the
run of the own events. -/
theorem Interleaves.related {related : σ → σ → Prop} {isOwn isOther : ε → Prop}
    (both : ∀ left right event, isOwn event → related left right →
      related (step left event) (step right event))
    (skipped : ∀ left right event, isOther event → related left right →
      related (step left event) right)
    {own others whole : List ε} (interleaves : Interleaves own others whole)
    (allOwn : ∀ event ∈ own, isOwn event) (allOther : ∀ event ∈ others, isOther event)
    {left right : σ} (holds : related left right) :
    related (run step left whole) (run step right own) := by
  induction interleaves generalizing left right with
  | nil => exact holds
  | own rest ih =>
      rw [List.forall_mem_cons] at allOwn
      exact ih allOwn.2 allOther (both _ _ _ allOwn.1 holds)
  | other rest ih =>
      rw [List.forall_mem_cons] at allOther
      exact ih allOwn allOther.2 (skipped _ _ _ allOther.1 holds)

end EventRun

/-! ### Step relations -/

inductive Steps {σ ε : Type} (step : σ → ε → σ → Prop) : σ → List ε → σ → Prop where
  | nil (state : σ) : Steps step state [] state
  | cons {before between after : σ} {event : ε} {events : List ε}
      (first : step before event between) (rest : Steps step between events after) :
      Steps step before (event :: events) after

namespace Steps

variable {σ ε : Type} {step : σ → ε → σ → Prop}

theorem single {before after : σ} {event : ε} (first : step before event after) :
    Steps step before [event] after :=
  .cons first (.nil after)

theorem append {before between after : σ} {first second : List ε}
    (front : Steps step before first between) (back : Steps step between second after) :
    Steps step before (first ++ second) after := by
  induction front with
  | nil state => exact back
  | cons first rest ih => exact .cons first (ih back)

theorem invariant {invariant : σ → Prop}
    (kept : ∀ before event after, invariant before → step before event after →
      invariant after)
    {before after : σ} {events : List ε} (run : Steps step before events after)
    (holds : invariant before) : invariant after := by
  induction run with
  | nil state => exact holds
  | cons first rest ih => exact ih (kept _ _ _ holds first)

theorem mono {other : σ → ε → σ → Prop} {before after : σ} {events : List ε}
    (run : Steps step before events after)
    (weaker : ∀ before event after, step before event after → other before event after) :
    Steps other before events after := by
  induction run with
  | nil state => exact .nil state
  | cons first rest ih => exact .cons (weaker _ _ _ first) ih

def Stuck (step : σ → ε → σ → Prop) (state : σ) : Prop :=
  ∀ event after, ¬step state event after

theorem exists_stuck
    (ends : WellFounded fun after before : σ => ∃ event, step before event after) (before : σ) :
    ∃ events after, Steps step before events after ∧ Stuck step after := by
  induction before using ends.induction with
  | h before ih =>
      by_cases stuck : Stuck step before
      · exact ⟨[], before, .nil before, stuck⟩
      · simp only [Stuck, not_forall, not_not] at stuck
        obtain ⟨event, between, first⟩ := stuck
        obtain ⟨events, after, rest, stuckAfter⟩ := ih between ⟨event, first⟩
        exact ⟨event :: events, after, .cons first rest, stuckAfter⟩

end Steps
