/-
Identifiers, digests, names and paths, after `utils.cxx`.

Paths are strings.  Joining follows `std::filesystem::path::operator/`, and a
path whose last component is empty, `.` or `..` can only name a directory.
-/

import Shr.Library.InputStream
import Shr.Vendor

namespace Shr

/-! ### Hexadecimal and digests -/

def hexDigit (value : Nat) : UInt8 :=
  if value < 10 then UInt8.ofNat (48 + value) else UInt8.ofNat (87 + value)

/-- One byte as two digits, as `setw(2) << setfill('0') << hex` prints it. -/
def hexByte (byte : UInt8) : Bytes :=
  [hexDigit (byte.toNat / 16), hexDigit (byte.toNat % 16)]

def hexEncode (data : Bytes) : Bytes :=
  data.flatMap hexByte

@[elab_as_elim]
theorem every_byte {property : UInt8 → Prop}
    (each : ∀ value : Fin 256, property (UInt8.ofFin value)) (byte : UInt8) : property byte :=
  each byte.toFin

theorem hexDigit_bounds {value : Nat} (bounded : value < 16) :
    hexDigit value ≠ 0 ∧ hexDigit value < 0x80 := by
  revert bounded value
  decide

theorem mem_hexByte {byte digit : UInt8} (member : digit ∈ hexByte byte) :
    ∃ value, value < 16 ∧ digit = hexDigit value := by
  have bounded := byte.toNat_lt
  rcases List.mem_cons.mp member with high | low
  · exact ⟨byte.toNat / 16, by omega, high⟩
  · exact ⟨byte.toNat % 16, Nat.mod_lt _ (by decide), List.mem_singleton.mp low⟩

section Digests

variable (vendor : Vendor)

def sha256Bytes (data : Bytes) : Bytes :=
  hexEncode (vendor.digestFinal (vendor.digestUpdate vendor.digestInit data))

/-- `contents` is what reading the file yields, `none` when it cannot be
opened; the hash of such a file is the empty string. -/
def sha256File (contents : Option Bytes) : Bytes :=
  match contents with
  | none => []
  | some bytes =>
      hexEncode (vendor.digestFinal
        ((InputStream.start bytes).readBlocks 65536 vendor.digestUpdate vendor.digestInit))

@[simp] theorem sha256File_some (bytes : Bytes) :
    sha256File vendor (some bytes) = sha256Bytes vendor bytes := by
  unfold sha256File sha256Bytes
  simp only
  rw [InputStream.readBlocks_eq (by decide) vendor.digestUpdate_nil
    vendor.digestUpdate_append, InputStream.remaining_start]

/-- Hashing a file that can be read ends, feeds its bytes to the digest once and
in order, and gives the hash of its bytes. -/
theorem sha256_file_hashes_bytes (bytes : Bytes) :
    ∃ pieces : List Bytes, pieces.flatten = bytes ∧
      (∀ piece ∈ pieces, piece ≠ [] ∧ piece.length ≤ 65536) ∧
      (∀ fuel, pieces.length < fuel →
        (InputStream.start bytes).readLoop 65536 vendor.digestUpdate fuel vendor.digestInit =
          some (pieces.foldl vendor.digestUpdate vendor.digestInit)) ∧
      sha256File vendor (some bytes) =
        hexEncode (vendor.digestFinal (pieces.foldl vendor.digestUpdate vendor.digestInit)) ∧
      sha256File vendor (some bytes) = sha256Bytes vendor bytes := by
  have positive : 0 < 65536 := by decide
  have fed := InputStream.readBlocks_eq_foldl 65536 vendor.digestUpdate vendor.digestInit
    (InputStream.start bytes)
  refine ⟨(InputStream.start bytes).blocks 65536, ?_, ?_, ?_, ?_, sha256File_some vendor bytes⟩
  · exact InputStream.flatten_blocks positive _
  · intro piece member
    exact InputStream.mem_blocks member
  · intro fuel enough
    rw [InputStream.readLoop_eq positive _ _ enough, fed]
  · rw [← fed]
    rfl

end Digests

/-! ### Identifiers -/

/-- The random bytes behind one identifier. -/
abbrev Random := Fin 16 → UInt8

def uuidByte (random : Random) (index : Fin 16) : UInt8 :=
  if index = 6 then (random 6 &&& 0x0F) ||| 0x40
  else if index = 8 then (random 8 &&& 0x3F) ||| 0x80
  else random index

/-- The bits of a random byte that are not overwritten. -/
def keptBits (index : Fin 16) : UInt8 :=
  if index = 6 then 0x0F else if index = 8 then 0x3F else 0xFF

def generateUuid (random : Random) : Bytes :=
  (List.finRange 16).flatMap fun index =>
    (if index = 4 ∨ index = 6 ∨ index = 8 ∨ index = 10 then ascii "-" else []) ++
      hexByte (uuidByte random index)

def BeginsGroup (index : Fin 16) : Prop :=
  index = 4 ∨ index = 6 ∨ index = 8 ∨ index = 10

instance (index : Fin 16) : Decidable (BeginsGroup index) :=
  inferInstanceAs (Decidable (_ ∨ _))

def uuidPiece (random : Random) (index : Fin 16) : Bytes :=
  (if BeginsGroup index then ascii "-" else []) ++ hexByte (uuidByte random index)

theorem generateUuid_eq (random : Random) :
    generateUuid random = (List.finRange 16).flatMap (uuidPiece random) :=
  rfl

theorem generateUuid_bounds {random : Random} {byte : UInt8}
    (member : byte ∈ generateUuid random) : byte ≠ 0 ∧ byte < 0x80 := by
  obtain ⟨index, _present, inByte⟩ := List.mem_flatMap.mp member
  rcases List.mem_append.mp inByte with dash | digits
  · split at dash
    · have isDash : byte = 45 := List.mem_singleton.mp dash
      rw [isDash]
      decide
    · cases dash
  · obtain ⟨value, bounded, isDigit⟩ := mem_hexByte digits
    rw [isDigit]
    exact hexDigit_bounds bounded

theorem generateUuid_nulFree (random : Random) : NulFree (generateUuid random) := by
  intro member
  exact (generateUuid_bounds member).1 rfl

def isHexDigit (byte : UInt8) : Bool :=
  (48 ≤ byte && byte ≤ 57) || (97 ≤ byte && byte ≤ 102) || (65 ≤ byte && byte ≤ 70)

def matchesGroups : List Nat → Bytes → Bool
  | [], text => text.isEmpty
  | [size], text => decide (text.length = size) && text.all isHexDigit
  | size :: sizes, text =>
      decide ((text.take size).length = size) && (text.take size).all isHexDigit &&
        decide ((text.drop size).head? = some 45) && matchesGroups sizes (text.drop (size + 1))

/-- `[0-9a-f]{8}-[0-9a-f]{4}-[0-9a-f]{4}-[0-9a-f]{4}-[0-9a-f]{12}`, any case. -/
def isValidUuid (text : Bytes) : Bool :=
  matchesGroups [8, 4, 4, 4, 12] text

theorem isHexDigit_ne_zero {byte : UInt8} (digit : isHexDigit byte = true) : byte ≠ 0 := by
  rintro rfl
  exact absurd digit (by decide)

private theorem all_hexDigit_nulFree {text : Bytes} (digits : text.all isHexDigit = true) :
    NulFree text := by
  intro member
  exact isHexDigit_ne_zero (List.all_eq_true.mp digits 0 member) rfl

theorem matchesGroups_nulFree {sizes : List Nat} {text : Bytes}
    (matched : matchesGroups sizes text = true) : NulFree text := by
  induction sizes, text using matchesGroups.induct with
  | case1 text =>
      rw [matchesGroups, List.isEmpty_iff] at matched
      rw [matched]
      exact List.not_mem_nil
  | case2 size text =>
      rw [matchesGroups, Bool.and_eq_true] at matched
      exact all_hexDigit_nulFree matched.2
  | case3 size sizes text more ih =>
      rw [matchesGroups, Bool.and_eq_true, Bool.and_eq_true, Bool.and_eq_true] at matched
      · obtain ⟨⟨⟨_length, digits⟩, dash⟩, rest⟩ := matched
        intro member
        rw [← List.take_append_drop size text, List.mem_append] at member
        rcases member with before | after
        · exact all_hexDigit_nulFree digits before
        · cases tail : text.drop size with
          | nil =>
              rw [tail] at after
              cases after
          | cons first others =>
              have isDash : first = 45 := by simpa [tail] using dash
              have others_eq : text.drop (size + 1) = others := by
                rw [← List.drop_drop, tail, List.drop_one, List.tail_cons]
              rw [tail, List.mem_cons] at after
              rcases after with zero | later
              · rw [isDash] at zero
                exact absurd zero (by decide)
              · exact ih rest (others_eq ▸ later)
      · exact more

theorem isValidUuid_nulFree {text : Bytes} (valid : isValidUuid text = true) : NulFree text :=
  matchesGroups_nulFree valid

/-! ### Names and paths -/

def slash : UInt8 := 47

/-- The characters `sanitize_filename` replaces: `/ \ : * ? " < > |`. -/
def isForbidden (byte : UInt8) : Bool :=
  byte ∈ [47, 92, 58, 42, 63, 34, 60, 62, 124]

def sanitizeFilename (name : Bytes) : Bytes :=
  let out := name.map fun byte => if isForbidden byte then 95 else byte
  if out = [] ∨ out = ascii "." ∨ out = ascii ".." then ascii "received_file" else out

/-- `std::filesystem::path(directory) / name`. -/
def joinPath (directory name : Bytes) : Bytes :=
  if name.head? = some slash then name
  else if directory = [] ∨ directory.getLast? = some slash then directory ++ name
  else directory ++ slash :: name

/-- `path.filename()`: what follows the last separator. -/
def pathFilename (path : Bytes) : Bytes :=
  (path.reverse.takeWhile (· ≠ slash)).reverse

/-- A single path component that is neither empty nor a directory alias. -/
structure FileComponent (name : Bytes) : Prop where
  noSlash : slash ∉ name
  nonempty : name ≠ []
  notDot : name ≠ ascii "."
  notDotDot : name ≠ ascii ".."

/-- Only such a path can be opened for writing: every other one names a
directory. -/
def namesFile (path : Bytes) : Bool :=
  let name := pathFilename path
  name ≠ [] && name ≠ ascii "." && name ≠ ascii ".."

def ChildOf (directory path : Bytes) : Prop :=
  ∃ name, FileComponent name ∧ NulFree name ∧ path = joinPath directory name

theorem sanitizeFilename_noSlash (name : Bytes) : slash ∉ sanitizeFilename name := by
  unfold sanitizeFilename
  simp only
  split
  · decide
  · intro member
    obtain ⟨byte, _present, same⟩ := List.mem_map.mp member
    split at same
    · exact absurd same (by decide)
    · rename_i allowed
      subst same
      exact allowed (by decide)

theorem fileComponent_sanitizeFilename (name : Bytes) :
    FileComponent (sanitizeFilename name) := by
  have noSlash := sanitizeFilename_noSlash name
  unfold sanitizeFilename at noSlash ⊢
  simp only at noSlash ⊢
  split
  · constructor <;> decide
  · rename_i shape
    rw [if_neg shape] at noSlash
    rw [not_or, not_or] at shape
    exact ⟨noSlash, shape.1, shape.2.1, shape.2.2⟩

theorem sanitizeFilename_nulFree {name : Bytes} (nulFree : NulFree name) :
    NulFree (sanitizeFilename name) := by
  unfold sanitizeFilename
  simp only
  split
  · decide
  · intro member
    obtain ⟨byte, present, same⟩ := List.mem_map.mp member
    split at same
    · exact absurd same (by decide)
    · exact nulFree (same ▸ present)

theorem pathFilename_of_noSlash {name : Bytes} (noSlash : slash ∉ name) :
    pathFilename name = name := by
  unfold pathFilename
  rw [List.takeWhile_eq_self_iff.mpr, List.reverse_reverse]
  intro byte member
  rw [decide_eq_true_eq]
  intro same
  exact noSlash (same ▸ List.mem_reverse.mp member)

theorem pathFilename_append_slash (directory : Bytes) {name : Bytes} (noSlash : slash ∉ name) :
    pathFilename (directory ++ slash :: name) = name := by
  unfold pathFilename
  rw [List.reverse_append, List.reverse_cons, List.append_assoc,
    List.takeWhile_append_of_pos]
  · simp
  · intro byte member
    rw [decide_eq_true_eq]
    intro same
    exact noSlash (same ▸ List.mem_reverse.mp member)

private theorem head_ne_slash {name : Bytes} (noSlash : slash ∉ name) :
    name.head? ≠ some slash := by
  intro first
  exact noSlash (List.mem_of_head? first)

theorem joinPath_of_noSlash (directory : Bytes) {name : Bytes} (noSlash : slash ∉ name) :
    joinPath directory name =
      if directory = [] ∨ directory.getLast? = some slash then directory ++ name
      else directory ++ slash :: name := by
  unfold joinPath
  rw [if_neg (head_ne_slash noSlash)]

theorem pathFilename_joinPath (directory : Bytes) {name : Bytes} (noSlash : slash ∉ name) :
    pathFilename (joinPath directory name) = name := by
  rw [joinPath_of_noSlash directory noSlash]
  split
  · rename_i joined
    rcases joined with empty | trailing
    · subst empty
      exact pathFilename_of_noSlash noSlash
    · obtain ⟨front, rfl⟩ : ∃ front, directory = front ++ [slash] := by
        exact ⟨directory.dropLast, (List.dropLast_append_getLast? slash trailing).symm⟩
      rw [List.append_assoc]
      exact pathFilename_append_slash front noSlash
  · exact pathFilename_append_slash directory noSlash

theorem cstr_joinPath {directory : Bytes} (nulFree : NulFree directory) {name : Bytes}
    (noSlash : slash ∉ name) :
    cstr (joinPath directory name) = joinPath directory (cstr name) := by
  have noSlashCut : slash ∉ cstr name := fun member =>
    noSlash ((List.takeWhile_prefix _).subset member)
  rw [joinPath_of_noSlash directory noSlash, joinPath_of_noSlash directory noSlashCut]
  split
  · exact cstr_append nulFree name
  · have nulFreeSlash : NulFree (directory ++ [slash]) := by
      intro member
      rcases List.mem_append.mp member with inDirectory | isSlash
      · exact nulFree inDirectory
      · exact absurd isSlash (by decide)
    have cut := cstr_append nulFreeSlash name
    simpa only [List.append_assoc, List.singleton_append] using cut

theorem childOf_of_namesFile (directory : Bytes) {name : Bytes} (noSlash : slash ∉ name)
    (nulFree : NulFree name) (file : namesFile (joinPath directory name) = true) :
    ChildOf directory (joinPath directory name) := by
  have shape : name ≠ [] ∧ name ≠ ascii "." ∧ name ≠ ascii ".." := by
    simpa [namesFile, pathFilename_joinPath directory noSlash, and_assoc] using file
  exact ⟨name, ⟨noSlash, shape.1, shape.2.1, shape.2.2⟩, nulFree, rfl⟩

theorem namesFile_joinPath (directory : Bytes) {name : Bytes} (component : FileComponent name) :
    namesFile (joinPath directory name) = true := by
  simp [namesFile, pathFilename_joinPath directory component.noSlash, component.nonempty,
    component.notDot, component.notDotDot]

end Shr
