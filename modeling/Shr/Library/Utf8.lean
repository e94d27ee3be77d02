/-
Well-formed UTF-8.

A byte sequence is read from left to right.  Between characters any first byte
may stand; inside a character so many bytes are owed, and the next one lies
between two bounds that rule out overlong forms, surrogates and what lies past
the last code point.
-/

import Mathlib.Algebra.Group.Nat.Defs
import Mathlib.Data.List.Basic

namespace Utf8

/-- What a first byte calls for: the bytes owed and the bounds of the next. -/
def owed (byte : UInt8) : Option (Nat × UInt8 × UInt8) :=
  if byte < 0x80 then some (0, 0x80, 0xBF)
  else if byte < 0xC2 then none
  else if byte < 0xE0 then some (1, 0x80, 0xBF)
  else if byte = 0xE0 then some (2, 0xA0, 0xBF)
  else if byte = 0xED then some (2, 0x80, 0x9F)
  else if byte < 0xF0 then some (2, 0x80, 0xBF)
  else if byte = 0xF0 then some (3, 0x90, 0xBF)
  else if byte < 0xF4 then some (3, 0x80, 0xBF)
  else if byte = 0xF4 then some (3, 0x80, 0x8F)
  else none

/-- The rest of a sequence, where `left` bytes are owed. -/
def completes : Nat → UInt8 → UInt8 → List UInt8 → Bool
  | 0, _, _, [] => true
  | _ + 1, _, _, [] => false
  | 0, _, _, byte :: rest =>
      match owed byte with
      | none => false
      | some (left, low, high) => completes left low high rest
  | left + 1, low, high, byte :: rest =>
      (low ≤ byte ∧ byte ≤ high) && completes left 0x80 0xBF rest

def Valid (bytes : List UInt8) : Prop :=
  completes 0 0x80 0xBF bytes = true

instance (bytes : List UInt8) : Decidable (Valid bytes) :=
  inferInstanceAs (Decidable (_ = true))

theorem valid_nil : Valid [] :=
  rfl

theorem valid_cons_of_lt {byte : UInt8} (single : byte < 0x80) (rest : List UInt8) :
    Valid (byte :: rest) ↔ Valid rest := by
  have alone : owed byte = some (0, 0x80, 0xBF) := if_pos single
  simp only [Valid, completes, alone]

theorem valid_of_ascii {bytes : List UInt8} (single : ∀ byte ∈ bytes, byte < 0x80) :
    Valid bytes := by
  induction bytes with
  | nil => exact valid_nil
  | cons byte rest ih =>
      rw [valid_cons_of_lt (single byte List.mem_cons_self)]
      exact ih fun later member => single later (List.mem_cons_of_mem _ member)

end Utf8
