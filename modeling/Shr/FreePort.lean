/-
The search for a free port, after `find_free_port` of `utils.cxx`.

The loop counter has the type of the bound it is compared with, so nothing is
above the greatest bound and the counter starts over at 0 behind it.  A loop
that need not end is run for a number of iterations.
-/

import Shr.Library.Attempts

namespace Shr

/-- What the system answers: whether it gives a socket, and whether it would
bind one to a port, by the number of the call. -/
structure Sockets where
  created : Bool
  free : Nat → UInt16 → Bool

def Sockets.bind (sockets : Sockets) (call : Nat) (port : UInt16) : Bool :=
  sockets.created && sockets.free call port

/-- A returned port and the ports that were tried for it, in order. -/
structure PortSearch where
  port : UInt16
  tried : List UInt16

section Search

variable (sockets : Sockets) (start last : UInt16)

/-- `for (uint16_t p = start; p <= end; ++p)`; `none` while it still runs. -/
def findFreePortFrom : Nat → UInt16 → List UInt16 → Option PortSearch
  | 0, _, _ => none
  | fuel + 1, port, tried =>
      if port ≤ last then
        if sockets.bind tried.length port then
          some
            { port := port
              tried := tried ++ [port] }
        else findFreePortFrom fuel (port + 1) (tried ++ [port])
      else
        some
          { port := 0
            tried := tried }

def findFreePort (fuel : Nat) : Option PortSearch :=
  findFreePortFrom sockets last fuel start []

def bindOf (port : UInt16) : Bool :=
  sockets.bind (port.toNat - start.toNat) port

/-- No port is tried beyond the range, and the answer is the smallest port of
the range whose bind succeeds, or 0 when there is none. -/
structure PortSearch.Sound (search : PortSearch) : Prop where
  bounded : search.tried.length ≤ last.toNat + 1 - start.toNat
  answer :
    (start ≤ search.port ∧ search.port ≤ last ∧ bindOf sockets start search.port = true ∧
      ∀ port, start ≤ port → port < search.port → bindOf sockets start port = false) ∨
    (search.port = 0 ∧
      ∀ port, start ≤ port → port ≤ last → bindOf sockets start port = false)

def Answers : Prop :=
  ∃ fuel search, findFreePort sockets start last fuel = some search ∧
    search.Sound sockets start last

end Search

/-! ### The ports in order -/

def portAt (start : UInt16) (index : Nat) : UInt16 :=
  start + UInt16.ofNat index

def portsBefore (start : UInt16) (count : Nat) : List UInt16 :=
  (List.range count).map (portAt start)

theorem toNat_portAt {start : UInt16} {index : Nat} (fits : start.toNat + index < 65536) :
    (portAt start index).toNat = start.toNat + index := by
  rw [portAt, UInt16.toNat_add, UInt16.toNat_ofNat', Nat.add_mod_mod]
  exact Nat.mod_eq_of_lt fits

theorem portAt_succ (start : UInt16) (index : Nat) :
    portAt start (index + 1) = portAt start index + 1 := by
  rw [portAt, portAt, UInt16.ofNat_add, UInt16.add_assoc]
  rfl

theorem portsBefore_succ (start : UInt16) (count : Nat) :
    portsBefore start (count + 1) = portsBefore start count ++ [portAt start count] := by
  rw [portsBefore, portsBefore, List.range_succ, List.map_append]
  rfl

@[simp] theorem length_portsBefore (start : UInt16) (count : Nat) :
    (portsBefore start count).length = count := by
  rw [portsBefore, List.length_map, List.length_range]

theorem exists_portAt {start port : UInt16} (inside : start ≤ port) :
    port = portAt start (port.toNat - start.toNat) := by
  have lower : start.toNat ≤ port.toNat := inside
  have bounded := port.toNat_lt
  apply UInt16.toNat_inj.mp
  rw [toNat_portAt (by omega)]
  omega

theorem bindOf_portAt {sockets : Sockets} {start : UInt16} {index : Nat}
    (fits : start.toNat + index < 65536) :
    bindOf sockets start (portAt start index) = sockets.bind index (portAt start index) := by
  rw [bindOf, toNat_portAt fits, Nat.add_sub_cancel_left]

/-! ### Runs of the loop -/

section Runs

variable {sockets : Sockets} {start last : UInt16}

theorem findFreePortFrom_failed {count : Nat}
    (failed : ∀ index, index < count → portAt start index ≤ last ∧
      sockets.bind index (portAt start index) = false) (fuel : Nat) :
    findFreePort sockets start last (fuel + count) =
      findFreePortFrom sockets last fuel (portAt start count) (portsBefore start count) := by
  induction count generalizing fuel with
  | zero =>
      have first : portAt start 0 = start := UInt16.add_zero start
      rw [first]
      rfl
  | succ count ih =>
      obtain ⟨inside, fails⟩ := failed count (Nat.lt_succ_self count)
      have before := ih (fun index lower => failed index (by omega)) (fuel + 1)
      rw [show fuel + (count + 1) = fuel + 1 + count by omega, before, findFreePortFrom,
        if_pos inside, length_portsBefore, fails, portAt_succ, portsBefore_succ]
      rfl

theorem findFreePortFrom_tries (greatest : last = 65535) {fuel : Nat} {port : UInt16}
    {tried : List UInt16} {search : PortSearch}
    (ended : findFreePortFrom sockets last fuel port tried = some search) :
    tried.length < search.tried.length := by
  have never : ∀ port : UInt16, port ≤ last := by
    intro port
    rw [greatest]
    exact Nat.le_of_lt_succ port.toNat_lt
  induction fuel generalizing port tried with
  | zero => cases ended
  | succ fuel ih =>
      rw [findFreePortFrom, if_pos (never port)] at ended
      split at ended
      · cases ended
        rw [List.length_append]
        exact Nat.lt_succ_self _
      · have later := ih ended
        rw [List.length_append] at later
        exact Nat.lt_of_succ_lt later

theorem portAt_le {index : Nat} (inside : index < last.toNat + 1 - start.toNat) :
    start.toNat + index < 65536 ∧ portAt start index ≤ last := by
  have bounded := last.toNat_lt
  have fits : start.toNat + index < 65536 := by omega
  have value := toNat_portAt fits
  refine ⟨fits, ?_⟩
  change (portAt start index).toNat ≤ last.toNat
  omega

theorem answers_of_bound {port : UInt16} (above : start ≤ port) (below : port ≤ last)
    (bound : bindOf sockets start port = true) : Answers sockets start last := by
  have lower : start.toNat ≤ port.toNat := above
  have upper : port.toNat ≤ last.toNat := below
  have isPort := exists_portAt above
  have succeeds : sockets.bind (port.toNat - start.toNat)
      (portAt start (port.toNat - start.toNat)) = true := by
    rw [← isPort]
    exact bound
  obtain ⟨first, atMost, isFirst⟩ := @Attempts.exists_first
    (fun index => sockets.bind index (portAt start index)) _ succeeds
  have inside : first < last.toNat + 1 - start.toNat := by omega
  obtain ⟨fits, firstBelow⟩ := portAt_le inside
  have value := toNat_portAt fits
  have failed : ∀ index, index < first → portAt start index ≤ last ∧
      sockets.bind index (portAt start index) = false := by
    intro index earlier
    exact ⟨(portAt_le (by omega)).2, isFirst.earlier index earlier⟩
  refine ⟨1 + first,
    { port := portAt start first
      tried := portsBefore start first ++ [portAt start first] }, ?_, ?_⟩
  · rw [findFreePortFrom_failed failed, findFreePortFrom, if_pos firstBelow, length_portsBefore,
      if_pos isFirst.succeeds]
  · refine ⟨?_, .inl ⟨?_, firstBelow, ?_, ?_⟩⟩
    · rw [List.length_append, length_portsBefore, List.length_singleton]
      exact inside
    · change start.toNat ≤ (portAt start first).toNat
      omega
    · rw [bindOf_portAt fits]
      exact isFirst.succeeds
    · intro earlier notBefore before
      have beforeFirst : earlier.toNat < (portAt start first).toNat := before
      have notLower : start.toNat ≤ earlier.toNat := notBefore
      have isEarlier := exists_portAt notBefore
      have fails := isFirst.earlier (earlier.toNat - start.toNat) (by omega)
      rw [← isEarlier] at fails
      exact fails

theorem failed_of_unbound
    (unbound : ∀ port, start ≤ port → port ≤ last → bindOf sockets start port = false) :
    ∀ index, index < last.toNat + 1 - start.toNat →
      portAt start index ≤ last ∧ sockets.bind index (portAt start index) = false := by
  intro index inside
  obtain ⟨fits, below⟩ := portAt_le inside
  have value := toNat_portAt fits
  refine ⟨below, ?_⟩
  rw [← bindOf_portAt fits]
  apply unbound _ _ below
  change start.toNat ≤ (portAt start index).toNat
  omega

theorem answers_of_last (lower : last ≠ 65535)
    (unbound : ∀ port, start ≤ port → port ≤ last → bindOf sockets start port = false) :
    Answers sockets start last := by
  have failed := failed_of_unbound unbound
  have bounded := last.toNat_lt
  have notGreatest : last.toNat ≠ 65535 := fun same => lower (UInt16.toNat_inj.mp same)
  have behind : ¬ portAt start (last.toNat + 1 - start.toNat) ≤ last := by
    intro inside
    have atMost : (portAt start (last.toNat + 1 - start.toNat)).toNat ≤ last.toNat := inside
    have startBounded := start.toNat_lt
    by_cases empty : last.toNat < start.toNat
    · rw [show last.toNat + 1 - start.toNat = 0 by omega, toNat_portAt startBounded] at atMost
      omega
    · rw [toNat_portAt (by omega)] at atMost
      omega
  refine ⟨1 + (last.toNat + 1 - start.toNat),
    { port := 0
      tried := portsBefore start (last.toNat + 1 - start.toNat) }, ?_, ?_⟩
  · rw [findFreePortFrom_failed failed, findFreePortFrom, if_neg behind]
  · exact ⟨Nat.le_of_eq (length_portsBefore start _), .inr ⟨rfl, unbound⟩⟩

/-- Behind the greatest port the counter starts over, so that a call which has
bound no port goes on trying. -/
theorem not_answers_of_greatest
    (unbound : ∀ port, start ≤ port → port ≤ 65535 → bindOf sockets start port = false) :
    ¬ Answers sockets start 65535 := by
  rintro ⟨fuel, search, ended, sound⟩
  have failed := failed_of_unbound unbound
  have bounded := sound.bounded
  by_cases short : fuel ≤ (65535 : UInt16).toNat + 1 - start.toNat
  · have running := findFreePortFrom_failed
      (fun index (earlier : index < fuel) => failed index (Nat.lt_of_lt_of_le earlier short)) 0
    rw [Nat.zero_add, ended] at running
    cases running
  · have more := findFreePortFrom_failed failed
      (fuel - ((65535 : UInt16).toNat + 1 - start.toNat))
    rw [Nat.sub_add_cancel (Nat.le_of_not_le short), ended] at more
    have tries := findFreePortFrom_tries rfl more.symm
    rw [length_portsBefore] at tries
    omega

end Runs

/-- The search answers within its range exactly when the range ends below the
greatest port or one of its ports can be bound. -/
theorem find_free_port_iff (sockets : Sockets) (start last : UInt16) :
    Answers sockets start last ↔
      last ≠ 65535 ∨
        ∃ port, start ≤ port ∧ port ≤ last ∧ bindOf sockets start port = true := by
  constructor
  · intro answers
    by_cases greatest : last = 65535
    · subst greatest
      refine .inr ?_
      by_contra none_bound
      refine not_answers_of_greatest (fun port above below => ?_) answers
      exact Bool.eq_false_iff.mpr fun bound => none_bound ⟨port, above, below, bound⟩
    · exact .inl greatest
  · intro condition
    by_cases some_bound :
        ∃ port, start ≤ port ∧ port ≤ last ∧ bindOf sockets start port = true
    · obtain ⟨port, above, below, bound⟩ := some_bound
      exact answers_of_bound above below bound
    · refine answers_of_last (condition.resolve_right some_bound) ?_
      intro port above below
      exact Bool.eq_false_iff.mpr fun bound => some_bound ⟨port, above, below, bound⟩

/-- Without a socket, the search of the greatest port alone does not end. -/
theorem greatest_port_never_found :
    ¬ Answers
      { created := false
        free := fun _call _port => false } 65535 65535 :=
  not_answers_of_greatest fun _port _above _below => rfl

end Shr
