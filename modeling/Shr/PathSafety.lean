/-
Containment of paths, after `path_is_safe` of `utils.cxx`.

The target is made relative to the base, and the text of the relative path is
searched for two dots in a row.  A relative path that leaves the base starts with
`..`, but two dots may as well be a part of a name.
-/

import Shr.Paths

namespace Shr

/-! ### Text of a path -/

def elementText : LexPath.Element Bytes → Bytes
  | .here => ascii "."
  | .up => ascii ".."
  | .name text => text

/-- `path.native()` -/
def nativeText (path : LexPath Bytes) : Bytes :=
  (if path.rooted then [slash] else []) ++
    ([slash].intercalate (path.elements.map elementText) ++
      if path.trailing ∧ path.elements ≠ [] then [slash] else [])

/-- `text.find("..") != npos` -/
def ContainsDots (text : Bytes) : Prop :=
  ascii ".." <:+: text

instance (text : Bytes) : Decidable (ContainsDots text) :=
  inferInstanceAs (Decidable (_ <:+: _))

/-- `none` where a path cannot be resolved. -/
def pathIsSafe (tree : FileTree Bytes) (base target : Text) : Option Bool := do
  let b ← tree.canonical (pathOf base.val)
  let t ← tree.weaklyCanonical (pathOf target.val)
  let rel := t.lexicallyRelative b
  return decide (nativeText rel ≠ []) && !decide (ContainsDots (nativeText rel))

/-! ### Dots between separators -/

theorem not_containsDots_nil : ¬ ContainsDots [] := by
  decide

theorem containsDots_iff (text : Bytes) : ContainsDots text ↔ [46, 46] <:+: text :=
  Iff.rfl

theorem containsDots_append_slash (front back : Bytes) :
    ContainsDots (front ++ slash :: back) ↔ ContainsDots front ∨ ContainsDots back := by
  induction front with
  | nil =>
      rw [List.nil_append, containsDots_iff, List.infix_cons_iff]
      simp [slash, containsDots_iff]
  | cons first rest ih =>
      rw [containsDots_iff] at ih
      rw [List.cons_append, containsDots_iff, List.infix_cons_iff, ih,
        containsDots_iff (first :: rest), List.infix_cons_iff, ← or_assoc]
      cases rest with
      | nil => simp [slash, containsDots_iff]
      | cons second others => simp [containsDots_iff]

theorem containsDots_intercalate (parts : List Bytes) :
    ContainsDots ([slash].intercalate parts) ↔ ∃ part ∈ parts, ContainsDots part := by
  induction parts with
  | nil => simpa using not_containsDots_nil
  | cons first rest ih =>
      cases rest with
      | nil => simp
      | cons second others =>
          rw [List.intercalate_cons_cons, List.append_assoc, List.singleton_append,
            containsDots_append_slash, ih]
          simp

theorem containsDots_nativeText (path : LexPath Bytes) :
    ContainsDots (nativeText path) ↔
      ∃ element ∈ path.elements, ContainsDots (elementText element) := by
  have inside := containsDots_intercalate (path.elements.map elementText)
  have atEnd : ContainsDots ([slash].intercalate (path.elements.map elementText) ++
      if path.trailing ∧ path.elements ≠ [] then [slash] else []) ↔
      ∃ element ∈ path.elements, ContainsDots (elementText element) := by
    split
    · rw [containsDots_append_slash, inside, or_iff_left not_containsDots_nil]
      simp
    · rw [List.append_nil, inside]
      simp
  unfold nativeText
  split
  · rw [List.singleton_append, ← List.nil_append (slash :: _), containsDots_append_slash, atEnd,
      or_iff_right not_containsDots_nil]
  · rw [List.nil_append, atEnd]

/-! ### What is safe -/

theorem nativeText_names_ne_nil {text : Bytes} (nonempty : text ≠ []) (names : List Bytes)
    (trailing : Bool) :
    nativeText
      { rooted := false
        elements := (text :: names).map .name
        trailing := trailing } ≠ [] := by
  intro nothing
  unfold nativeText at nothing
  rw [List.append_eq_nil_iff, List.append_eq_nil_iff] at nothing
  have inner := nothing.2.1
  cases names with
  | nil => exact nonempty (by simpa [elementText] using inner)
  | cons second others =>
      rw [List.map_cons, List.map_cons, List.map_cons, List.map_cons,
        List.intercalate_cons_cons] at inner
      simp at inner

/-- A relative path from one place to another is safe if it names a place inside
and no name in it has two dots in a row. -/
theorem relative_safe_iff {path : LexPath Bytes} {base names : List Bytes}
    (rooted : path.rooted = true) (elements : path.elements = names.map .name)
    (nonempty : ∀ text ∈ names, text ≠ []) :
    nativeText (path.lexicallyRelative (LexPath.located base)) ≠ [] ∧
        ¬ ContainsDots (nativeText (path.lexicallyRelative (LexPath.located base))) ↔
      ∃ rest, names = base ++ rest ∧ ∀ text ∈ rest, ¬ ContainsDots text := by
  rw [containsDots_nativeText]
  by_cases inside : base <+: names
  · obtain ⟨rest, rfl⟩ := inside
    rw [LexPath.lexicallyRelative_inside rooted elements]
    have same : (∃ others, base ++ rest = base ++ others ∧
        ∀ text ∈ others, ¬ ContainsDots text) ↔ ∀ text ∈ rest, ¬ ContainsDots text := by
      constructor
      · rintro ⟨others, joined, noDots⟩
        rw [List.append_cancel_left joined]
        exact noDots
      · intro noDots
        exact ⟨rest, rfl, noDots⟩
    rw [same]
    cases rest with
    | nil =>
        rw [if_pos rfl]
        have current : nativeText LexPath.current ≠ [] ∧
            ¬ ∃ element ∈ (LexPath.current : LexPath Bytes).elements,
              ContainsDots (elementText element) := by
          refine ⟨by decide, ?_⟩
          rintro ⟨element, member, dots⟩
          rw [List.mem_singleton.mp member] at dots
          exact absurd dots (by decide)
        exact iff_of_true current fun _text member => absurd member List.not_mem_nil
    | cons text others =>
        rw [if_neg (List.cons_ne_nil text others)]
        have some_text := nonempty text (List.mem_append_right base List.mem_cons_self)
        rw [and_iff_right (nativeText_names_ne_nil some_text others path.trailing)]
        constructor
        · intro noDots name member dots
          exact noDots ⟨.name name, List.mem_map.mpr ⟨name, member, rfl⟩, dots⟩
        · rintro noDots ⟨element, member, dots⟩
          obtain ⟨name, present, rfl⟩ := List.mem_map.mp member
          exact noDots name present dots
  · have outside := LexPath.lexicallyRelative_outside rooted elements inside
    constructor
    · rintro ⟨_some, noDots⟩
      exact absurd ⟨.up, outside, by decide⟩ noDots
    · rintro ⟨rest, rfl, _noDots⟩
      exact absurd (List.prefix_append base rest) inside

theorem name_nonempty {text name : Bytes} (member : name ∈ (pathOf text).place) : name ≠ [] := by
  obtain ⟨component, present, same⟩ := List.mem_map.mp (LexPath.mem_place member)
  have some_component : component ≠ [] := by
    simpa using (List.mem_filter.mp present).2
  unfold pathElement at same
  split at same
  · cases same
  · split at same
    · cases same
    · cases same
      exact some_component

structure BaseDirectory (tree : FileTree Bytes) (base : Text) : Prop where
  absolute : (pathOf base.val).rooted = true
  existing : ∃ place, tree.lookup (pathOf base.val) = some place ∧
    tree.kind place = some .directory

theorem pathIsSafe_iff {tree : FileTree Bytes} {base target : Text}
    (directory : BaseDirectory tree base) (absolute : (pathOf target.val).rooted = true) :
    pathIsSafe tree base target = some true ↔
      ∃ rest, (pathOf target.val).place = (pathOf base.val).place ++ rest ∧
        ∀ name ∈ rest, ¬ ContainsDots name := by
  obtain ⟨place, leads, _isDirectory⟩ := directory.existing
  have found : (tree.lookup (pathOf base.val)).isSome = true := by
    rw [leads]
    rfl
  obtain ⟨result, resolved, rooted, elements⟩ := tree.weaklyCanonical_rooted absolute
  have safe := @relative_safe_iff _ (pathOf base.val).place _ rooted elements
    fun text member => name_nonempty member
  rw [← safe, pathIsSafe, FileTree.canonical_of_lookup directory.absolute found, resolved]
  simp

/-- The decision is containment of the normalised paths exactly when no name
between the base and a target inside it has two dots in a row. -/
theorem path_is_safe_iff {tree : FileTree Bytes} {base target : Text}
    (directory : BaseDirectory tree base) (absolute : (pathOf target.val).rooted = true) :
    (pathIsSafe tree base target = some true ↔
        (pathOf base.val).lexicallyNormal.elements <+:
          (pathOf target.val).lexicallyNormal.elements) ↔
      ∀ rest, (pathOf target.val).lexicallyNormal.elements =
          (pathOf base.val).lexicallyNormal.elements ++ rest →
        ∀ name, .name name ∈ rest → ¬ ContainsDots name := by
  rw [pathIsSafe_iff directory absolute, (LexPath.lexicallyNormal_rooted directory.absolute).2,
    (LexPath.lexicallyNormal_rooted absolute).2]
  constructor
  · intro exactly rest joined name member dots
    obtain ⟨others, place, noDots⟩ := exactly.mpr ⟨rest, joined.symm⟩
    rw [place, List.map_append, List.append_cancel_left_eq] at joined
    rw [← joined] at member
    obtain ⟨text, present, same⟩ := List.mem_map.mp member
    cases same
    exact noDots _ present dots
  · intro noDots
    constructor
    · rintro ⟨rest, place, _noDots⟩
      rw [place, List.map_append]
      exact List.prefix_append _ _
    · rintro ⟨rest, joined⟩
      obtain ⟨front, back, place, isFront, isBack⟩ := List.map_eq_append_iff.mp joined.symm
      have sameFront : front = (pathOf base.val).place :=
        List.map_injective_iff.mpr (fun _left _right => LexPath.Element.name.inj) isFront
      refine ⟨back, by rw [place, sameFront], fun name member => ?_⟩
      refine noDots rest joined.symm name ?_
      rw [← isBack]
      exact List.mem_map.mpr ⟨name, member, rfl⟩

namespace Reference

def receivedPlace : List Bytes :=
  [ascii "srv", ascii "received"]

def receivedTree : FileTree Bytes :=
  { kind := fun place => if place <+: receivedPlace then some .directory else none
    root := if_pos List.nil_prefix
    inDirectory := by
      intro place name exists_below
      by_cases below : place ++ [name] <+: receivedPlace
      · exact if_pos ((List.prefix_append place [name]).trans below)
      · exact absurd (if_neg below) exists_below
    current := []
    currentDirectory := if_pos List.nil_prefix }

def receivedBase : Text :=
  ⟨ascii "/srv/received", by decide⟩

theorem receivedBase_directory : BaseDirectory receivedTree receivedBase where
  absolute := by decide
  existing := ⟨receivedPlace, by decide, by decide⟩

/-- A path that does not exist, with a way up in it. -/
def plainTarget : Text :=
  ⟨ascii "/srv/received/sub/../notes.txt", by decide⟩

def dottedTarget : Text :=
  ⟨ascii "/srv/received/a..b", by decide⟩

theorem receivedBase_place : (pathOf receivedBase.val).place = receivedPlace := by
  decide +kernel

theorem plainTarget_place :
    (pathOf plainTarget.val).place = receivedPlace ++ [ascii "notes.txt"] := by
  decide +kernel

theorem dottedTarget_place :
    (pathOf dottedTarget.val).place = receivedPlace ++ [ascii "a..b"] := by
  decide +kernel

theorem plain_target_contained :
    BaseDirectory receivedTree receivedBase ∧ (pathOf plainTarget.val).rooted = true ∧
      (pathIsSafe receivedTree receivedBase plainTarget = some true ↔
        (pathOf receivedBase.val).lexicallyNormal.elements <+:
          (pathOf plainTarget.val).lexicallyNormal.elements) := by
  have absolute : (pathOf plainTarget.val).rooted = true := by decide
  refine ⟨receivedBase_directory, absolute, ?_⟩
  apply (path_is_safe_iff receivedBase_directory absolute).mpr
  rw [(LexPath.lexicallyNormal_rooted receivedBase_directory.absolute).2,
    (LexPath.lexicallyNormal_rooted absolute).2, receivedBase_place, plainTarget_place,
    List.map_append]
  intro rest joined name member
  rw [List.append_cancel_left_eq] at joined
  rw [← joined] at member
  have isNotes := LexPath.Element.name.inj (List.mem_singleton.mp member)
  rw [isNotes]
  decide +kernel

/-- A name with two dots in it is turned away. -/
theorem dotted_name_unsafe :
    BaseDirectory receivedTree receivedBase ∧ (pathOf dottedTarget.val).rooted = true ∧
      ¬ (pathIsSafe receivedTree receivedBase dottedTarget = some true ↔
        (pathOf receivedBase.val).lexicallyNormal.elements <+:
          (pathOf dottedTarget.val).lexicallyNormal.elements) := by
  have absolute : (pathOf dottedTarget.val).rooted = true := by decide
  refine ⟨receivedBase_directory, absolute, ?_⟩
  rw [pathIsSafe_iff receivedBase_directory absolute,
    (LexPath.lexicallyNormal_rooted receivedBase_directory.absolute).2,
    (LexPath.lexicallyNormal_rooted absolute).2, receivedBase_place, dottedTarget_place,
    List.map_append]
  intro exactly
  obtain ⟨rest, joined, noDots⟩ := exactly.mpr (List.prefix_append _ _)
  rw [List.append_cancel_left_eq] at joined
  have dots : ContainsDots (ascii "a..b") := by
    decide +kernel
  exact noDots (ascii "a..b") (joined ▸ List.mem_singleton_self _) dots

end Reference

end Shr
