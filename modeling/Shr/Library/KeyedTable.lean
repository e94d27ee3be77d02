/-
Tables with a primary key.

A table is the list of its rows in storage order, together with the fact that
no two rows share a key.  The operations are the keyed statements of a
relational store: look a row up, replace the row of a key, and change the row
of a key in place.  Each operation is determined by what it leaves at its own
key and by what it leaves at every other key.
-/

import Mathlib.Data.List.Nodup

/-- Rows in storage order; a key occurs at most once. -/
structure KeyedTable {ρ κ : Type} (key : ρ → κ) where
  rows : List ρ
  distinct : (rows.map key).Nodup

namespace KeyedTable

variable {ρ κ : Type} [DecidableEq κ] {key : ρ → κ}

def empty : KeyedTable key :=
  { rows := []
    distinct := List.nodup_nil }

def find (table : KeyedTable key) (wanted : κ) : Option ρ :=
  table.rows.find? (fun row => key row = wanted)

private theorem nodup_replace (table : KeyedTable key) (row : ρ) :
    ((table.rows.filter (fun old => key old ≠ key row) ++ [row]).map key).Nodup := by
  rw [List.map_append, List.map_singleton, List.nodup_append]
  refine ⟨?_, List.nodup_singleton _, ?_⟩
  · exact (List.filter_sublist.map key).nodup table.distinct
  · intro left leftMember right rightMember
    obtain ⟨old, oldMember, rfl⟩ := List.mem_map.mp leftMember
    rw [List.mem_singleton] at rightMember
    subst rightMember
    simpa using (List.mem_filter.mp oldMember).2

/-- Insert a row; a row with the same key is deleted first. -/
def replace (table : KeyedTable key) (row : ρ) : KeyedTable key :=
  { rows := table.rows.filter (fun old => key old ≠ key row) ++ [row]
    distinct := nodup_replace table row }

private theorem map_key_modify (rows : List ρ) (wanted : κ) (change : ρ → ρ)
    (keeps : ∀ row, key (change row) = key row) :
    (rows.map (fun row => if key row = wanted then change row else row)).map key =
      rows.map key := by
  rw [List.map_map]
  apply List.map_congr_left
  intro row _member
  by_cases selected : key row = wanted
  · simp only [Function.comp_apply, if_pos selected, keeps]
  · simp only [Function.comp_apply, if_neg selected]

/-- Change the row of a key in place.  The change may not touch the key. -/
def modify (table : KeyedTable key) (wanted : κ) (change : ρ → ρ)
    (keeps : ∀ row, key (change row) = key row) : KeyedTable key :=
  { rows := table.rows.map (fun row => if key row = wanted then change row else row)
    distinct := by
      rw [map_key_modify table.rows wanted change keeps]
      exact table.distinct }

theorem find_eq_none_iff {table : KeyedTable key} {wanted : κ} :
    table.find wanted = none ↔ wanted ∉ table.rows.map key := by
  simp [find]

private theorem nodup_insertNew (table : KeyedTable key) (row : ρ)
    (absent : table.find (key row) = none) :
    ((table.rows ++ [row]).map key).Nodup := by
  rw [List.map_append, List.map_singleton, List.nodup_append]
  refine ⟨table.distinct, List.nodup_singleton _, ?_⟩
  intro left leftMember right rightMember same
  rw [List.mem_singleton] at rightMember
  rw [same, rightMember] at leftMember
  exact find_eq_none_iff.mp absent leftMember

/-- Insert a row, unless its key is taken. -/
def insertNew (table : KeyedTable key) (row : ρ) : KeyedTable key :=
  if absent : table.find (key row) = none then
    { rows := table.rows ++ [row]
      distinct := nodup_insertNew table row absent }
  else table

def keep (table : KeyedTable key) (kept : ρ → Bool) : KeyedTable key :=
  { rows := table.rows.filter kept
    distinct := (List.filter_sublist.map key).nodup table.distinct }

def remove (table : KeyedTable key) (wanted : κ) : KeyedTable key :=
  { rows := table.rows.filter (fun row => key row ≠ wanted)
    distinct := (List.filter_sublist.map key).nodup table.distinct }

theorem key_of_find {table : KeyedTable key} {wanted : κ} {row : ρ}
    (found : table.find wanted = some row) : key row = wanted := by
  simpa using List.find?_some found

theorem find_of_mem {table : KeyedTable key} {row : ρ} (member : row ∈ table.rows) :
    table.find (key row) = some row := by
  obtain ⟨rows, distinct⟩ := table
  simp only [find] at member ⊢
  induction rows with
  | nil => cases member
  | cons head tail ih =>
      rw [List.map_cons, List.nodup_cons] at distinct
      rcases List.mem_cons.mp member with first | later
      · rw [← first]
        simp
      · have different : key head ≠ key row := by
          intro same
          exact distinct.1 (same ▸ List.mem_map_of_mem later)
        rw [List.find?_cons_of_neg (by simpa using different)]
        exact ih distinct.2 later

theorem find_eq_some_iff {table : KeyedTable key} {wanted : κ} {row : ρ} :
    table.find wanted = some row ↔ row ∈ table.rows ∧ key row = wanted := by
  constructor
  · intro found
    exact ⟨List.mem_of_find?_eq_some found, key_of_find found⟩
  · rintro ⟨member, rfl⟩
    exact find_of_mem member

@[simp] theorem find_replace_self (table : KeyedTable key) (row : ρ) :
    (table.replace row).find (key row) = some row := by
  unfold find replace
  rw [List.find?_append]
  have absent : (table.rows.filter (fun old => key old ≠ key row)).find?
      (fun old => key old = key row) = none := by
    rw [List.find?_eq_none]
    intro old member
    simpa using (List.mem_filter.mp member).2
  rw [absent]
  simp

theorem find_replace_of_ne (table : KeyedTable key) (row : ρ) {wanted : κ}
    (different : wanted ≠ key row) :
    (table.replace row).find wanted = table.find wanted := by
  unfold find replace
  rw [List.find?_append, List.find?_filter]
  have sameTest : (fun old : ρ => decide (decide (key old ≠ key row) = true ∧
      decide (key old = wanted) = true)) = fun old => decide (key old = wanted) := by
    funext old
    by_cases selected : key old = wanted
    · simp [selected, different]
    · simp [selected]
  rw [sameTest]
  simp [Ne.symm different]

theorem find_modify_self (table : KeyedTable key) (wanted : κ) (change : ρ → ρ)
    (keeps : ∀ row, key (change row) = key row) :
    (table.modify wanted change keeps).find wanted = (table.find wanted).map change := by
  unfold find modify
  simp only
  induction table.rows with
  | nil => rfl
  | cons head tail ih =>
      by_cases selected : key head = wanted
      · simp [selected, keeps]
      · simp [selected, ih]

theorem find_modify_of_ne (table : KeyedTable key) {selected wanted : κ} (change : ρ → ρ)
    (keeps : ∀ row, key (change row) = key row) (different : wanted ≠ selected) :
    (table.modify selected change keeps).find wanted = table.find wanted := by
  unfold find modify
  simp only
  induction table.rows with
  | nil => rfl
  | cons head tail ih =>
      by_cases atSelected : key head = selected
      · have notWanted : ¬key head = wanted := fun same =>
          different (same.symm.trans atSelected)
        simp [atSelected, keeps, Ne.symm different, ih]
      · by_cases atWanted : key head = wanted
        · simp [atWanted, different]
        · simp [atSelected, atWanted, ih]

theorem find_insertNew_self (table : KeyedTable key) (row : ρ) :
    (table.insertNew row).find (key row) = some ((table.find (key row)).getD row) := by
  unfold insertNew
  split
  next absent =>
      rw [absent, Option.getD_none]
      unfold find at absent ⊢
      simp only
      rw [List.find?_append, absent]
      simp
  next present =>
      obtain ⟨old, found⟩ := Option.ne_none_iff_exists'.mp present
      rw [found, Option.getD_some]

theorem find_insertNew_of_ne (table : KeyedTable key) (row : ρ) {wanted : κ}
    (different : wanted ≠ key row) :
    (table.insertNew row).find wanted = table.find wanted := by
  unfold insertNew
  split
  next =>
      unfold find
      simp only
      rw [List.find?_append]
      simp [Ne.symm different]
  next => rfl

@[simp] theorem find_remove_self (table : KeyedTable key) (wanted : κ) :
    (table.remove wanted).find wanted = none := by
  simp [find_eq_none_iff, remove]

theorem find_remove_of_ne (table : KeyedTable key) {removed wanted : κ}
    (different : wanted ≠ removed) :
    (table.remove removed).find wanted = table.find wanted := by
  unfold find remove
  rw [List.find?_filter]
  congr 1
  funext row
  by_cases selected : key row = wanted
  · simp [selected, different]
  · simp [selected]

theorem eq_of_rows {ρ κ : Type} {key : ρ → κ} {left right : KeyedTable key}
    (same : left.rows = right.rows) : left = right := by
  cases left
  cases right
  congr

theorem find_keep (table : KeyedTable key) (kept : ρ → Bool) (wanted : κ) :
    (table.keep kept).find wanted = (table.find wanted).filter kept := by
  ext row
  rw [find_eq_some_iff, Option.filter_eq_some_iff, find_eq_some_iff, keep, List.mem_filter]
  tauto

theorem rows_modify_replace (table : KeyedTable key) {row : ρ}
    (absent : table.find (key row) = none) (change : ρ → ρ) (keeps : ∀ row, key (change row) = key row) :
    ((table.replace row).modify (key row) change keeps).rows = table.rows ++ [change row] := by
  have others : ∀ old ∈ table.rows, key old ≠ key row := by
    intro old member same
    exact find_eq_none_iff.mp absent (same ▸ List.mem_map_of_mem member)
  have kept : table.rows.filter (fun old => key old ≠ key row) = table.rows :=
    List.filter_eq_self.mpr fun old member => decide_eq_true (others old member)
  simp only [modify, replace, kept, List.map_append, List.map_cons, List.map_nil, if_true]
  congr 1
  conv_rhs => rw [← List.map_id table.rows]
  exact List.map_congr_left fun old member => if_neg (others old member)

theorem keep_eq_keep_keys (table : KeyedTable key) (kept : ρ → Bool) :
    table.keep kept =
      table.keep fun row =>
        decide (key row ∉ (table.rows.filter fun row => !kept row).map key) := by
  apply eq_of_rows
  apply List.filter_congr
  intro row member
  cases keeps : kept row with
  | false =>
      symm
      rw [decide_eq_false_iff_not, not_not]
      apply List.mem_map_of_mem
      rw [List.mem_filter, keeps]
      exact ⟨member, rfl⟩
  | true =>
      symm
      rw [decide_eq_true_eq]
      intro dropped
      obtain ⟨other, otherMember, same⟩ := List.mem_map.mp dropped
      obtain ⟨stored, notKept⟩ := List.mem_filter.mp otherMember
      have found := find_of_mem stored
      rw [same, find_of_mem member, Option.some.injEq] at found
      rw [← found, keeps] at notKept
      cases notKept

theorem keep_replace (table : KeyedTable key) {keeps : κ → Bool} {row : ρ}
    (kept : keeps (key row) = true) :
    (table.replace row).keep (fun row => keeps (key row)) =
      (table.keep fun row => keeps (key row)).replace row := by
  apply eq_of_rows
  simp only [keep, replace, List.filter_append, List.filter_cons, kept, if_true, List.filter_nil,
    List.filter_filter]
  congr 2
  funext old
  exact Bool.and_comm _ _

theorem keep_modify (table : KeyedTable key) (keeps : κ → Bool) (wanted : κ) (change : ρ → ρ)
    (same : ∀ row, key (change row) = key row) :
    (table.modify wanted change same).keep (fun row => keeps (key row)) =
      (table.keep fun row => keeps (key row)).modify wanted change same := by
  apply eq_of_rows
  simp only [keep, modify, List.filter_map]
  congr 2
  funext row
  simp only [Function.comp]
  split
  · rw [same]
  · rfl

end KeyedTable
