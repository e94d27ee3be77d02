/-
Paths, and where they lead in a tree without links.

A path is a list of elements, behind a root or not, and may end with a
separator.  Its normal form follows from the elements alone.  A tree of
directories decides which paths lead somewhere.  Without links the two agree: a
path from the root leads, if anywhere, to the place its normal form names.
-/

import Mathlib.Data.List.Basic

/-! ### Paths -/

inductive LexPath.Element (ν : Type) where
  | here
  | up
  | name (text : ν)
deriving DecidableEq

structure LexPath (ν : Type) where
  rooted : Bool
  elements : List (LexPath.Element ν)
  /-- There is a separator behind the last element. -/
  trailing : Bool
deriving DecidableEq

namespace LexPath

variable {ν : Type}

def empty : LexPath ν :=
  { rooted := false
    elements := []
    trailing := false }

def current : LexPath ν :=
  { rooted := false
    elements := [.here]
    trailing := false }

def located (place : List ν) : LexPath ν :=
  { rooted := true
    elements := place.map .name
    trailing := false }

def isEmpty (path : LexPath ν) : Bool :=
  !path.rooted && path.elements.isEmpty

/-- What an iteration passes behind the root; `none` is the empty element behind
a last separator. -/
def items (path : LexPath ν) : List (Option (Element ν)) :=
  path.elements.map some ++ if path.trailing then [none] else []

/-- `path /= item` -/
def append (path : LexPath ν) : Option (Element ν) → LexPath ν
  | none => { path with trailing := !path.elements.isEmpty }
  | some element =>
      { path with
        elements := path.elements ++ [element]
        trailing := false }

def parentPath (path : LexPath ν) : LexPath ν :=
  if path.trailing then { path with trailing := false }
  else { path with elements := path.elements.dropLast }

/-- `path.filename()`: nothing behind a last separator. -/
def filename (path : LexPath ν) : Option (Element ν) :=
  if path.trailing then none else path.elements.getLast?

/-! ### Normal form -/

/-- Elements that are in normal form, and whether a separator follows them. -/
def normalStep (rooted : Bool) (done : List (Element ν) × Bool) :
    Option (Element ν) → List (Element ν) × Bool
  | none | some .here => (done.1, !done.1.isEmpty)
  | some .up =>
      match done.1.getLast? with
      | some (.name _) => (done.1.dropLast, !done.1.dropLast.isEmpty)
      | some _ => (done.1 ++ [.up], false)
      | none => if rooted then (done.1, false) else (done.1 ++ [.up], false)
  | some (.name text) => (done.1 ++ [.name text], false)

variable [DecidableEq ν]

def lexicallyNormal (path : LexPath ν) : LexPath ν :=
  if path.isEmpty then path
  else
    let done := path.items.foldl (normalStep path.rooted) ([], false)
    if path.rooted = false ∧ done.1 = [] then current
    else
      { rooted := path.rooted
        elements := done.1
        trailing := done.2 && decide (done.1.getLast? ≠ some .up) }

/-! ### Relative paths -/

/-- What is left of two lists behind their longest common beginning. -/
def dropCommon {α : Type} [DecidableEq α] : List α → List α → List α × List α
  | first :: rest, other :: others =>
      if first = other then dropCommon rest others else (first :: rest, other :: others)
  | left, right => (left, right)

/-- How far an element leads down. -/
def depth : Option (Element ν) → Int
  | some .up => -1
  | some (.name _) => 1
  | _ => 0

def lexicallyRelative (path base : LexPath ν) : LexPath ν :=
  if path.rooted ≠ base.rooted then empty
  else
    let left := dropCommon path.items base.items
    if left.1 = [] ∧ left.2 = [] then current
    else
      let count := left.2.foldl (fun count item => count + depth item) 0
      if count = 0 ∧ (left.1 = [] ∨ left.1.head? = some none) then current
      else if 0 ≤ count then
        left.1.foldl append
          { rooted := false
            elements := List.replicate count.toNat .up
            trailing := false }
      else empty

end LexPath

/-! ### Trees -/

inductive NodeKind where
  | directory
  | other
deriving DecidableEq

/-- What stands at every place; whatever is in a tree is in a directory. -/
structure FileTree (ν : Type) where
  kind : List ν → Option NodeKind
  root : kind [] = some .directory
  inDirectory : ∀ (place : List ν) (name : ν), kind (place ++ [name]) ≠ none →
    kind place = some .directory
  current : List ν
  currentDirectory : kind current = some .directory

namespace FileTree

open LexPath (Element)

variable {ν : Type} (tree : FileTree ν)

/-- Follow the items of a path from a place; only a directory can be left. -/
def walk : List ν → List (Option (Element ν)) → Option (List ν)
  | place, [] => some place
  | place, item :: rest =>
      if tree.kind place = some .directory then
        match item with
        | none | some .here => walk place rest
        | some .up => walk place.dropLast rest
        | some (.name text) =>
            if tree.kind (place ++ [text]) = none then none else walk (place ++ [text]) rest
      else none

def lookup (path : LexPath ν) : Option (List ν) :=
  if path.isEmpty then none
  else tree.walk (if path.rooted then [] else tree.current) path.items

/-- `canonical(path)`; `none` where it throws, because the path does not exist. -/
def canonical (path : LexPath ν) : Option (LexPath ν) :=
  (tree.lookup path).map LexPath.located

def leading (result : LexPath ν) :
    List (Option (Element ν)) → LexPath ν × List (Option (Element ν))
  | [] => (result, [])
  | item :: rest =>
      if (tree.lookup (result.append item)).isSome then leading (result.append item) rest
      else (result, item :: rest)

/-- `weakly_canonical(path)`.  The root exists, so the search for what exists
starts behind it. -/
def weaklyCanonical [DecidableEq ν] (path : LexPath ν) : Option (LexPath ν) :=
  if (tree.lookup path).isSome then tree.canonical path
  else
    let found := tree.leading { LexPath.empty with rooted := path.rooted } path.items
    let start := if found.1.isEmpty then some found.1 else tree.canonical found.1
    start.map fun start => (found.2.foldl LexPath.append start).lexicallyNormal

end FileTree

namespace LexPath

variable {ν : Type}

/-! ### Places -/

/-- Where an item leads from a place when everything is a directory. -/
def resolveStep (place : List ν) : Option (Element ν) → List ν
  | none | some .here => place
  | some .up => place.dropLast
  | some (.name text) => place ++ [text]

def place (path : LexPath ν) : List ν :=
  path.items.foldl resolveStep []

@[simp] theorem foldl_resolveStep_names (place names : List ν) :
    (names.map fun text => some (.name text)).foldl resolveStep place = place ++ names := by
  induction names generalizing place with
  | nil => exact (List.append_nil place).symm
  | cons text rest ih =>
      rw [List.map_cons, List.foldl_cons, ih]
      exact List.append_assoc place [text] rest

@[simp] theorem place_located (place : List ν) : (located place).place = place := by
  unfold LexPath.place items located
  rw [List.map_map]
  simp only [Bool.false_eq_true, if_false, List.append_nil]
  exact foldl_resolveStep_names [] place

theorem place_append (path : LexPath ν) (item : Option (Element ν)) :
    (path.append item).place = resolveStep path.place item := by
  have trailed : path.place = (path.elements.map some).foldl resolveStep [] := by
    unfold place items
    rw [List.foldl_append]
    split <;> rfl
  rw [trailed]
  unfold place items
  cases item with
  | none =>
      rw [append, List.foldl_append]
      split <;> rfl
  | some element =>
      rw [append, if_neg Bool.false_ne_true, List.append_nil, List.map_append,
        List.foldl_append]
      rfl

theorem place_foldl_append (path : LexPath ν) (items : List (Option (Element ν))) :
    (items.foldl append path).place = items.foldl resolveStep path.place := by
  induction items generalizing path with
  | nil => rfl
  | cons item rest ih => rw [List.foldl_cons, List.foldl_cons, ih, place_append]

theorem mem_place {path : LexPath ν} {text : ν} (member : text ∈ path.place) :
    Element.name text ∈ path.elements := by
  have among : ∀ (items : List (Option (Element ν))) (start : List ν),
      text ∈ items.foldl resolveStep start →
        text ∈ start ∨ some (Element.name text) ∈ items := by
    intro items
    induction items with
    | nil => exact fun start member => .inl member
    | cons item rest ih =>
        intro start member
        rcases ih _ member with before | later
        · match item with
          | none => exact .inl before
          | some .here => exact .inl before
          | some .up => exact .inl (List.dropLast_subset _ before)
          | some (.name other) =>
              rcases List.mem_append.mp before with old | new
              · exact .inl old
              · rw [List.mem_singleton.mp new]
                exact .inr List.mem_cons_self
        · exact .inr (List.mem_cons_of_mem _ later)
  rcases among path.items [] member with impossible | inItems
  · cases impossible
  · rcases List.mem_append.mp inItems with inElements | last
    · obtain ⟨element, present, same⟩ := List.mem_map.mp inElements
      cases same
      exact present
    · split at last
      · cases List.mem_singleton.mp last
      · cases last

theorem rooted_foldl_append (path : LexPath ν) (items : List (Option (Element ν))) :
    (items.foldl append path).rooted = path.rooted := by
  induction items generalizing path with
  | nil => rfl
  | cons item rest ih =>
      rw [List.foldl_cons, ih]
      cases item <;> rfl

theorem normalStep_rooted (place : List ν) (trailing : Bool) (item : Option (Element ν)) :
    (normalStep true (place.map .name, trailing) item).1 = (resolveStep place item).map .name := by
  match item with
  | none => rfl
  | some .here => rfl
  | some (.name text) => exact (@List.map_append _ _ _ place [text]).symm
  | some .up =>
      rcases List.eq_nil_or_concat place with empty | ⟨front, last, rfl⟩
      · rw [empty]
        rfl
      · simp [normalStep, resolveStep]

theorem foldl_normalStep_rooted (place : List ν) (trailing : Bool)
    (items : List (Option (Element ν))) :
    (items.foldl (normalStep true) (place.map .name, trailing)).1 =
      (items.foldl resolveStep place).map .name := by
  induction items generalizing place trailing with
  | nil => rfl
  | cons item rest ih =>
      rw [List.foldl_cons, List.foldl_cons, ← ih,
        ← normalStep_rooted place trailing item]

/-! ### Below a directory -/

def normalElements (path : LexPath ν) : List (Element ν) :=
  (path.items.foldl (normalStep path.rooted) ([], false)).1

/-- Two spellings of one directory differ in `.` and in a last separator only. -/
def SameDirectory [DecidableEq ν] (left right : LexPath ν) : Prop :=
  left.rooted = right.rooted ∧
    left.elements.filter (· ≠ .here) = right.elements.filter (· ≠ .here)

theorem normalElements_eq (path : LexPath ν) :
    path.normalElements =
      ((path.elements.map some).foldl (normalStep path.rooted) ([], false)).1 := by
  unfold normalElements items
  rw [List.foldl_append]
  cases path.trailing <;> rfl

theorem here_notMem_normalElements (path : LexPath ν) : Element.here ∉ path.normalElements := by
  have kept (items : List (Option (Element ν))) (done : List (Element ν) × Bool)
      (absent : Element.here ∉ done.1) :
      Element.here ∉ (items.foldl (normalStep path.rooted) done).1 := by
    induction items generalizing done with
    | nil => exact absent
    | cons item rest ih =>
        apply ih
        cases item with
        | none => exact absent
        | some element =>
            cases element with
            | here => exact absent
            | name text => simpa [normalStep] using absent
            | up =>
                simp only [normalStep]
                split
                · exact fun member => absent (List.dropLast_subset _ member)
                · simpa using absent
                · split <;> simpa using absent
  exact kept path.items ([], false) List.not_mem_nil

theorem normalElements_append_name (path : LexPath ν) (text : ν) :
    (path.append (some (.name text))).items.foldl (normalStep path.rooted) ([], false) =
      (path.normalElements ++ [.name text], false) := by
  rw [normalElements_eq]
  unfold items append
  rw [if_neg Bool.false_ne_true, List.append_nil, List.map_append, List.foldl_append]
  rfl

section NormalForm

variable [DecidableEq ν]

theorem lexicallyNormal_append_name (path : LexPath ν) (text : ν) :
    (path.append (some (.name text))).lexicallyNormal =
      { rooted := path.rooted
        elements := path.normalElements ++ [.name text]
        trailing := false } := by
  have notEmpty : (path.append (some (.name text))).isEmpty = false := by
    simp [isEmpty, append]
  have rooted : (path.append (some (.name text))).rooted = path.rooted := rfl
  rw [lexicallyNormal, if_neg (Bool.eq_false_iff.mp notEmpty), rooted,
    normalElements_append_name]
  have some_left : path.normalElements ++ [Element.name text] ≠ [] := by simp
  exact if_neg fun both => some_left both.2

/-- The normal form of a path that is not empty has the normal elements, or is
`.` where there are none and no root. -/
theorem lexicallyNormal_cases (path : LexPath ν) :
    (path.rooted = false ∧ path.elements = [] ∧ path.lexicallyNormal = path) ∨
      (path.rooted = false ∧ path.normalElements = [] ∧ path.lexicallyNormal = current) ∨
      ∃ trailing, path.lexicallyNormal =
        { rooted := path.rooted
          elements := path.normalElements
          trailing := trailing } := by
  by_cases nothing : path.isEmpty = true
  · have parts : path.rooted = false ∧ path.elements = [] := by
      simpa [isEmpty] using nothing
    exact .inl ⟨parts.1, parts.2, if_pos nothing⟩
  · refine .inr ?_
    by_cases atStart : path.rooted = false ∧ path.normalElements = []
    · refine .inl ⟨atStart.1, atStart.2, ?_⟩
      exact (if_neg nothing).trans (if_pos atStart)
    · have done : path.lexicallyNormal = _ := (if_neg nothing).trans (if_neg atStart)
      exact .inr ⟨_, done⟩

/-- A name below a directory is the last name of the joined path, and the parent
of the joined path is the directory, in the same spelling where that is without `.`
and without a last separator. -/
theorem parentPath_append_name (path : LexPath ν) (text : ν) :
    (path.append (some (.name text))).lexicallyNormal.filename = some (.name text) ∧
      SameDirectory (path.append (some (.name text))).lexicallyNormal.parentPath
        path.lexicallyNormal ∧
      ((path.append (some (.name text))).lexicallyNormal.parentPath = path.lexicallyNormal ↔
        path.lexicallyNormal.trailing = false ∧ path.lexicallyNormal ≠ current) := by
  have parent : (path.append (some (.name text))).lexicallyNormal.parentPath =
      { rooted := path.rooted
        elements := path.normalElements
        trailing := false } := by
    rw [lexicallyNormal_append_name, parentPath, if_neg Bool.false_ne_true,
      List.dropLast_concat]
  have spelled : ({ rooted := path.rooted, elements := path.normalElements, trailing := false } :
      LexPath ν) = path.lexicallyNormal →
        path.lexicallyNormal.trailing = false ∧ path.lexicallyNormal ≠ current := by
    intro same
    rw [← same]
    refine ⟨rfl, fun isCurrent => ?_⟩
    have only : path.normalElements = [.here] := congrArg elements isCurrent
    exact here_notMem_normalElements path (only ▸ List.mem_singleton_self _)
  have directory : SameDirectory
      ({ rooted := path.rooted, elements := path.normalElements, trailing := false } : LexPath ν)
        path.lexicallyNormal ∧
      (path.lexicallyNormal.trailing = false ∧ path.lexicallyNormal ≠ current →
        ({ rooted := path.rooted, elements := path.normalElements, trailing := false } :
          LexPath ν) = path.lexicallyNormal) := by
    rcases lexicallyNormal_cases path with ⟨unrooted, nothing, normal⟩ |
      ⟨unrooted, nothing, normal⟩ | ⟨trailing, normal⟩
    · have noElements : path.normalElements = [] := by
        rw [normalElements_eq, nothing]
        rfl
      rw [normal, noElements]
      refine ⟨⟨rfl, congrArg _ nothing.symm⟩, ?_⟩
      rintro ⟨plain, _notCurrent⟩
      rw [← nothing, ← plain]
    · rw [normal, unrooted, nothing]
      exact ⟨⟨rfl, rfl⟩, fun both => absurd rfl both.2⟩
    · rw [normal]
      refine ⟨⟨rfl, rfl⟩, ?_⟩
      rintro ⟨plain, _notCurrent⟩
      exact congrArg _ plain.symm
  rw [parent, lexicallyNormal_append_name]
  exact ⟨List.getLast?_concat, directory.1, spelled, directory.2⟩

end NormalForm

theorem lexicallyNormal_rooted [DecidableEq ν] {path : LexPath ν} (rooted : path.rooted = true) :
    path.lexicallyNormal.rooted = true ∧
      path.lexicallyNormal.elements = path.place.map .name := by
  have notEmpty : path.isEmpty = false := by rw [isEmpty, rooted]; rfl
  have named := foldl_normalStep_rooted ([] : List ν) false path.items
  rw [lexicallyNormal, if_neg (Bool.eq_false_iff.mp notEmpty), rooted]
  exact ⟨rfl, named⟩

end LexPath

/-! ### Paths that exist -/

namespace FileTree

open LexPath (Element)

variable {ν : Type} {tree : FileTree ν}

theorem walk_place {place found : List ν} {items : List (Option (Element ν))}
    (leads : tree.walk place items = some found) :
    found = items.foldl LexPath.resolveStep place := by
  induction items generalizing place with
  | nil => exact (Option.some.inj leads).symm
  | cons item rest ih =>
      unfold walk at leads
      split at leads
      · split at leads
        · exact ih leads
        · exact ih leads
        · exact ih leads
        · split at leads
          · cases leads
          · exact ih leads
      · cases leads

theorem lookup_place {path : LexPath ν} (rooted : path.rooted = true) {found : List ν}
    (leads : tree.lookup path = some found) : found = path.place := by
  unfold lookup at leads
  split at leads
  · cases leads
  · exact walk_place leads

theorem canonical_of_lookup {path : LexPath ν} (rooted : path.rooted = true)
    (leads : (tree.lookup path).isSome = true) :
    tree.canonical path = some (LexPath.located path.place) := by
  obtain ⟨found, found_eq⟩ := Option.isSome_iff_exists.mp leads
  rw [canonical, found_eq, lookup_place rooted found_eq, Option.map_some]

theorem leading_place {result : LexPath ν} {items : List (Option (Element ν))}
    (rooted : result.rooted = true) (leads : (tree.lookup result).isSome = true) :
    (tree.leading result items).1.rooted = true ∧
      (tree.lookup (tree.leading result items).1).isSome = true ∧
      (tree.leading result items).2.foldl LexPath.resolveStep
          (tree.leading result items).1.place =
        items.foldl LexPath.resolveStep result.place := by
  induction items generalizing result with
  | nil => exact ⟨rooted, leads, rfl⟩
  | cons item rest ih =>
      rw [leading]
      split
      · rename_i further
        have stays : (result.append item).rooted = true :=
          (LexPath.rooted_foldl_append result [item]).trans rooted
        have later := ih stays further
        rw [LexPath.place_append] at later
        exact later
      · exact ⟨rooted, leads, rfl⟩

theorem root_exists (tree : FileTree ν) :
    (tree.lookup { LexPath.empty with rooted := true }).isSome = true :=
  rfl

/-- `weakly_canonical` of a path from the root names the place of the path. -/
theorem weaklyCanonical_rooted [DecidableEq ν] {path : LexPath ν} (rooted : path.rooted = true) :
    ∃ result, tree.weaklyCanonical path = some result ∧ result.rooted = true ∧
      result.elements = path.place.map .name := by
  unfold weaklyCanonical
  by_cases found : (tree.lookup path).isSome = true
  · rw [if_pos found, canonical_of_lookup rooted found]
    exact ⟨_, rfl, rfl, rfl⟩
  · rw [if_neg found, rooted]
    obtain ⟨stays, leads, same⟩ := @leading_place _ tree _ path.items rfl tree.root_exists
    simp only
    generalize tree.leading { LexPath.empty with rooted := true } path.items = front at *
    have notEmpty : front.1.isEmpty = false := by rw [LexPath.isEmpty, stays]; rfl
    rw [if_neg (Bool.eq_false_iff.mp notEmpty), canonical_of_lookup stays leads]
    have whole : (front.2.foldl LexPath.append (LexPath.located front.1.place)).rooted = true :=
      LexPath.rooted_foldl_append _ _
    obtain ⟨normalRooted, elements⟩ := LexPath.lexicallyNormal_rooted whole
    refine ⟨_, rfl, normalRooted, ?_⟩
    rw [elements, LexPath.place_foldl_append, LexPath.place_located, same]
    rfl

end FileTree

/-! ### Relative to a place -/

namespace LexPath

section DropCommon

variable {α : Type} [DecidableEq α]

theorem dropCommon_append (common left right : List α) :
    dropCommon (common ++ left) (common ++ right) = dropCommon left right := by
  induction common with
  | nil => rfl
  | cons first rest ih => rw [List.cons_append, List.cons_append, dropCommon, if_pos rfl, ih]

@[simp] theorem dropCommon_nil (left : List α) : dropCommon left [] = (left, []) := by
  cases left <;> rfl

theorem dropCommon_spec (left right : List α) :
    ∃ common, left = common ++ (dropCommon left right).1 ∧
      right = common ++ (dropCommon left right).2 := by
  induction left, right using dropCommon.induct with
  | case1 rest first others ih =>
      obtain ⟨common, leftParts, rightParts⟩ := ih
      rw [dropCommon, if_pos rfl]
      refine ⟨first :: common, ?_, ?_⟩
      · exact congrArg (List.cons first) leftParts
      · exact congrArg (List.cons first) rightParts
  | case2 first rest other others different =>
      rw [dropCommon, if_neg different]
      exact ⟨[], rfl, rfl⟩
  | case3 left right short =>
      rw [dropCommon]
      · exact ⟨[], rfl, rfl⟩
      · exact short

end DropCommon

variable {ν : Type}

def named (names : List ν) : List (Option (Element ν)) :=
  names.map fun text => some (.name text)

theorem items_of_names {path : LexPath ν} {names : List ν}
    (elements : path.elements = names.map .name) :
    path.items = named names ++ if path.trailing then [none] else [] := by
  rw [items, elements, List.map_map]
  rfl

theorem foldl_depth_named (names : List ν) (count : Int) :
    (named names).foldl (fun count item => count + depth item) count = count + names.length := by
  induction names generalizing count with
  | nil => exact (Int.add_zero count).symm
  | cons text rest ih =>
      change (named rest).foldl (fun count item => count + depth item) (count + 1) = _
      rw [ih, List.length_cons]
      omega

theorem prefix_of_named {left right : List ν} {others : List (Option (Element ν))}
    (no_name : ∀ text, some (.name text) ∉ others)
    (inside : named left <+: named right ++ others) : left <+: right := by
  induction left generalizing right with
  | nil => exact List.nil_prefix
  | cons text rest ih =>
      cases right with
      | nil =>
          have first : some (Element.name text) ∈ others := inside.subset List.mem_cons_self
          exact absurd first (no_name text)
      | cons next more =>
          obtain ⟨same, later⟩ := List.cons_prefix_cons.mp inside
          cases same
          exact List.cons_prefix_cons.mpr ⟨rfl, ih later⟩

theorem foldl_append_named (path : LexPath ν) (text : ν) (names : List ν) :
    (named (text :: names)).foldl append path =
      { path with
        elements := path.elements ++ (text :: names).map .name
        trailing := false } := by
  induction names generalizing path text with
  | nil => rfl
  | cons next rest ih =>
      change (named (next :: rest)).foldl append (path.append (some (.name text))) = _
      rw [ih]
      simp [append]

theorem elements_foldl_append (path : LexPath ν) (items : List (Option (Element ν))) :
    path.elements <+: (items.foldl append path).elements := by
  induction items generalizing path with
  | nil => exact List.prefix_rfl
  | cons item rest ih =>
      refine List.IsPrefix.trans ?_ (ih (path.append item))
      cases item with
      | none => exact List.prefix_rfl
      | some element => exact List.prefix_append _ _

variable [DecidableEq ν]

/-- The relative path of a place inside is what lies behind the base. -/
theorem lexicallyRelative_inside {path : LexPath ν} {base rest : List ν}
    (rooted : path.rooted = true) (elements : path.elements = (base ++ rest).map .name) :
    path.lexicallyRelative (located base) =
      if rest = [] then current
      else
        { rooted := false
          elements := rest.map .name
          trailing := path.trailing } := by
  have baseItems : (located base).items = named base ++ [] := items_of_names rfl
  have pathItems : path.items =
      named base ++ (named rest ++ if path.trailing then [none] else []) := by
    rw [items_of_names elements, named, List.map_append, List.append_assoc]
    rfl
  have left : dropCommon path.items (located base).items =
      (named rest ++ (if path.trailing then [none] else []), []) := by
    rw [baseItems, pathItems, dropCommon_append, dropCommon_nil]
  have sameRoot : ¬ path.rooted ≠ (located base).rooted := not_not.mpr rooted
  unfold lexicallyRelative
  rw [if_neg sameRoot, left]
  cases rest with
  | nil => cases path.trailing <;> rfl
  | cons text names =>
      have notHere : ¬ ((named (text :: names) ++ if path.trailing then [none] else []) = [] ∨
          (named (text :: names) ++ if path.trailing then [none] else []).head? = some none) := by
        rintro (impossible | impossible) <;> cases impossible
      rw [if_neg (fun both => notHere (.inl both.1)), if_neg (List.cons_ne_nil text names)]
      refine (if_neg (fun both => notHere both.2)).trans ((if_pos (Int.le_refl 0)).trans ?_)
      rw [List.foldl_append, foldl_append_named]
      cases path.trailing <;> rfl

theorem lexicallyRelative_outside {path : LexPath ν} {base names : List ν}
    (rooted : path.rooted = true) (elements : path.elements = names.map .name)
    (outside : ¬ base <+: names) :
    .up ∈ (path.lexicallyRelative (located base)).elements := by
  have baseItems : (located base).items = named base ++ [] := items_of_names rfl
  have pathItems := items_of_names elements
  have sameRoot : ¬ path.rooted ≠ (located base).rooted := not_not.mpr rooted
  obtain ⟨common, inPath, inBase⟩ := dropCommon_spec path.items (located base).items
  unfold lexicallyRelative
  rw [if_neg sameRoot]
  simp only
  generalize dropCommon path.items (located base).items = left at *
  -- What is left of the base are names, at least one of them.
  obtain ⟨front, back, base_eq, front_eq, back_eq⟩ :
      ∃ front back, base = front ++ back ∧ named front = common ∧ named back = left.2 := by
    rw [baseItems, List.append_nil] at inBase
    exact List.map_eq_append_iff.mp inBase
  have some_back : back ≠ [] := by
    intro nothing
    rw [nothing, List.append_nil] at base_eq
    refine outside (@prefix_of_named _ _ _ (if path.trailing then [none] else []) ?_ ?_)
    · intro text member
      cases trailing : path.trailing <;> simp [trailing] at member
    · rw [← pathItems, inPath, ← front_eq, base_eq]
      exact List.prefix_append _ _
  have positive := List.length_pos_iff.mpr some_back
  have some_left : left.2 ≠ [] := by
    rw [← back_eq]
    exact fun nothing => some_back (List.map_eq_nil_iff.mp nothing)
  rw [if_neg (fun both => some_left both.2), ← back_eq, foldl_depth_named, Int.zero_add,
    if_neg (fun both => absurd both.1 (by omega)), if_pos (Int.natCast_nonneg _)]
  refine (elements_foldl_append _ left.1).subset ?_
  exact List.mem_replicate.mpr ⟨by omega, rfl⟩

end LexPath
