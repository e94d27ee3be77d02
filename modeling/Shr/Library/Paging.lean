/-
Pages of a list.

A page is a run of at most `size` entries that starts at a multiple of `size`.
The pages in order are the list, and where the entries are all different a run
says where it starts.
-/

import Mathlib.Algebra.Group.Nat.Defs
import Mathlib.Data.List.Nodup

namespace Paging

variable {α : Type}

def page (entries : List α) (size index : Nat) : List α :=
  (entries.drop (size * index)).take size

def pageCount (size length : Nat) : Nat :=
  (length + size - 1) / size

theorem length_page (entries : List α) (size index : Nat) :
    (page entries size index).length = min size (entries.length - size * index) := by
  simp [page]

theorem take_append_page (entries : List α) (size index : Nat) :
    entries.take (size * index) ++ page entries size index =
      entries.take (size * (index + 1)) := by
  rw [Nat.mul_succ, List.take_add]
  rfl

theorem flatMap_page (entries : List α) (size count : Nat) :
    (List.range count).flatMap (page entries size) = entries.take (size * count) := by
  induction count with
  | zero => simp
  | succ count ih =>
      rw [List.range_succ, List.flatMap_append, ih, List.flatMap_singleton, take_append_page]

theorem length_le_pageCount {size : Nat} (positive : 0 < size) (length : Nat) :
    length ≤ size * pageCount size length := by
  have bound := Nat.lt_mul_div_succ (length + size - 1) positive
  rw [Nat.mul_add, Nat.mul_one] at bound
  unfold pageCount
  omega

theorem le_of_lt_pageCount {size index length : Nat} (positive : 0 < size)
    (before : index < pageCount size length) : size * index < length := by
  unfold pageCount at before
  have bound := (Nat.le_div_iff_mul_le positive).mp before
  rw [Nat.succ_mul, Nat.mul_comm] at bound
  omega

/-- Runs of a list without repetitions differ as their starts do, as long as the
earlier one is not empty. -/
theorem take_drop_ne {entries : List α} (distinct : entries.Nodup) {size early late : Nat}
    (positive : 0 < size) (before : early < late) (inside : early < entries.length) :
    (entries.drop early).take size ≠ (entries.drop late).take size := by
  intro same
  have first : entries[early] ∈ (entries.drop early).take size := by
    rw [List.drop_eq_getElem_cons inside, ← Nat.succ_pred_eq_of_pos positive, List.take_succ_cons]
    exact List.mem_cons_self
  rw [same] at first
  obtain ⟨index, bound, found⟩ := List.mem_iff_getElem.mp (List.mem_of_mem_take first)
  rw [List.getElem_drop] at found
  have sameIndex := distinct.getElem_inj_iff.mp found
  omega

end Paging
