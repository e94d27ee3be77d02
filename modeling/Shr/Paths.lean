/-
Paths as `std::filesystem` reads them from text, and the names joined to them.

A sanitized name is one component of a path.  Whatever directory it is joined
to, the normal form of the joined path is that name in that directory.
-/

import Shr.Library.LexicalPath
import Shr.Utils

namespace Shr

/-! ### Text -/

def pathElement (component : Bytes) : LexPath.Element Bytes :=
  if component = ascii "." then .here
  else if component = ascii ".." then .up
  else .name component

/-- The components of a text, between runs of separators. -/
def pathComponents (text : Bytes) : List Bytes :=
  (text.splitOn slash).filter (· ≠ [])

/-- `std::filesystem::path(text)` -/
def pathOf (text : Bytes) : LexPath Bytes :=
  { rooted := decide (text.head? = some slash)
    elements := (pathComponents text).map pathElement
    trailing := decide (text.getLast? = some slash ∧ pathComponents text ≠ []) }

theorem pathComponents_append_slash (front : Bytes) {name : Bytes} (noSlash : slash ∉ name)
    (nonempty : name ≠ []) :
    pathComponents (front ++ slash :: name) = pathComponents front ++ [name] := by
  unfold pathComponents
  rw [List.splitOn_append_cons_self, List.splitOn_eq_singleton noSlash, List.filter_append]
  rw [List.filter_singleton, decide_eq_true nonempty]
  rfl

theorem pathComponents_slash (front : Bytes) :
    pathComponents (front ++ [slash]) = pathComponents front := by
  unfold pathComponents
  rw [List.splitOn_append_cons_self, List.splitOn_nil, List.filter_append]
  exact List.append_nil _

theorem pathComponents_joinPath (directory : Bytes) {name : Bytes}
    (component : FileComponent name) :
    pathComponents (joinPath directory name) = pathComponents directory ++ [name] := by
  rw [joinPath_of_noSlash directory component.noSlash]
  split
  · rename_i joined
    rcases joined with nothing | trailing
    · rw [nothing]
      unfold pathComponents
      rw [List.nil_append, List.splitOn_eq_singleton component.noSlash, List.filter_singleton,
        decide_eq_true component.nonempty]
      rfl
    · obtain ⟨front, rfl⟩ : ∃ front, directory = front ++ [slash] :=
        ⟨directory.dropLast, (List.dropLast_append_getLast? slash trailing).symm⟩
      rw [List.append_assoc, pathComponents_slash]
      exact pathComponents_append_slash front component.noSlash component.nonempty
  · exact pathComponents_append_slash directory component.noSlash component.nonempty

theorem head_joinPath (directory : Bytes) {name : Bytes} (component : FileComponent name) :
    (joinPath directory name).head? = some slash ↔ directory.head? = some slash := by
  have notFirst : name.head? ≠ some slash := fun first =>
    component.noSlash (List.mem_of_head? first)
  rw [joinPath_of_noSlash directory component.noSlash]
  cases directory with
  | nil => simpa using notFirst
  | cons first rest => split <;> rfl

theorem last_joinPath (directory : Bytes) {name : Bytes} (component : FileComponent name) :
    (joinPath directory name).getLast? ≠ some slash := by
  intro last
  have inName : slash ∈ name := by
    rw [joinPath_of_noSlash directory component.noSlash] at last
    split at last
    · rw [List.getLast?_append_of_ne_nil _ component.nonempty] at last
      exact List.mem_of_getLast? last
    · rw [List.getLast?_append_of_ne_nil _ (List.cons_ne_nil _ _),
        List.getLast?_cons_of_ne_nil component.nonempty] at last
      exact List.mem_of_getLast? last
  exact component.noSlash inName

theorem pathOf_joinPath (directory : Bytes) {name : Bytes} (component : FileComponent name) :
    pathOf (joinPath directory name) = (pathOf directory).append (some (.name name)) := by
  have element : pathElement name = .name name :=
    (if_neg component.notDot).trans (if_neg component.notDotDot)
  unfold pathOf LexPath.append
  simp only [pathComponents_joinPath directory component, head_joinPath directory component,
    last_joinPath directory component, List.map_append, List.map_cons, List.map_nil, element,
    false_and, decide_false]

/-! ### Sanitized names -/

structure SafeName (name : Bytes) : Prop where
  nonempty : name ≠ []
  allowed : ∀ byte ∈ name, isForbidden byte = false
  notDot : name ≠ ascii "."
  notDotDot : name ≠ ascii ".."

theorem SafeName.sanitizeFilename_eq {name : Bytes} (safe : SafeName name) :
    sanitizeFilename name = name := by
  have unchanged : name.map (fun byte => if isForbidden byte then 95 else byte) = name := by
    conv_rhs => rw [← List.map_id name]
    refine List.map_congr_left fun byte member => ?_
    rw [safe.allowed byte member]
    rfl
  unfold sanitizeFilename
  simp only [unchanged]
  rw [if_neg]
  rintro (nothing | dot | dotDot)
  · exact safe.nonempty nothing
  · exact safe.notDot dot
  · exact safe.notDotDot dotDot

theorem safeName_sanitizeFilename (name : Bytes) : SafeName (sanitizeFilename name) := by
  have component := fileComponent_sanitizeFilename name
  refine ⟨component.nonempty, ?_, component.notDot, component.notDotDot⟩
  unfold sanitizeFilename
  simp only
  split
  · have allowed : (ascii "received_file").all (fun byte => !isForbidden byte) = true := by
      decide
    intro byte member
    have unforbidden := List.all_eq_true.mp allowed byte member
    rwa [Bool.not_eq_true'] at unforbidden
  · intro byte member
    obtain ⟨source, _present, same⟩ := List.mem_map.mp member
    rw [← same]
    split
    · rfl
    · rename_i notForbidden
      exact Bool.eq_false_iff.mpr notForbidden

/-- A sanitized name is safe, is kept when it is sanitized again, is the name
itself where that is safe, and is a name in whatever directory it is joined to.  The
parent of the joined path is the directory, in the same spelling exactly where the
normal form of the directory is not `.` and ends in no separator. -/
theorem sanitized_name_single (name directory : Bytes) :
    SafeName (sanitizeFilename name) ∧
      sanitizeFilename (sanitizeFilename name) = sanitizeFilename name ∧
      (SafeName name → sanitizeFilename name = name) ∧
      (pathOf (joinPath directory (sanitizeFilename name))).lexicallyNormal.filename =
        some (.name (sanitizeFilename name)) ∧
      LexPath.SameDirectory
        (pathOf (joinPath directory (sanitizeFilename name))).lexicallyNormal.parentPath
        (pathOf directory).lexicallyNormal ∧
      ((pathOf (joinPath directory (sanitizeFilename name))).lexicallyNormal.parentPath =
          (pathOf directory).lexicallyNormal ↔
        (pathOf directory).lexicallyNormal.trailing = false ∧
          (pathOf directory).lexicallyNormal ≠ LexPath.current) := by
  have safe := safeName_sanitizeFilename name
  have joined := LexPath.parentPath_append_name (pathOf directory) (sanitizeFilename name)
  rw [← pathOf_joinPath directory (fileComponent_sanitizeFilename name)] at joined
  exact ⟨safe, safe.sanitizeFilename_eq, SafeName.sanitizeFilename_eq, joined⟩

/-- The normal form of `a/` keeps its separator; the parent of `a/s` is `a`. -/
theorem separator_kept :
    ¬∀ name directory : Bytes,
      (pathOf (joinPath directory (sanitizeFilename name))).lexicallyNormal.parentPath =
        (pathOf directory).lexicallyNormal := by
  intro same
  have spelled := same (ascii "s") (ascii "a/")
  exact absurd spelled (by decide)

end Shr
