/-
Decimal numerals as bytes.

The digits of a number, most significant first, and the number that a run of
digits spells.
-/

import Mathlib.Algebra.Group.Nat.Defs
import Mathlib.Data.List.Basic

namespace Decimal

def isDigit (byte : UInt8) : Bool :=
  48 ≤ byte ∧ byte ≤ 57

def digitValue (byte : UInt8) : Nat :=
  byte.toNat - 48

def digit (value : Nat) : UInt8 :=
  UInt8.ofNat (48 + value)

/-- The number spelled by `digits` after the digits of `front`. -/
def number (front : Nat) (digits : List UInt8) : Nat :=
  digits.foldl (fun value byte => 10 * value + digitValue byte) front

def digits (value : Nat) : List UInt8 :=
  (Nat.toDigits 10 value).map fun char => UInt8.ofNat char.toNat

theorem isDigit_digit {value : Nat} (small : value < 10) : isDigit (digit value) = true := by
  revert value small
  decide

theorem digitValue_digit {value : Nat} (small : value < 10) :
    digitValue (digit value) = value := by
  revert value small
  decide

private theorem ofNat_digitChar {value : Nat} (small : value < 10) :
    UInt8.ofNat value.digitChar.toNat = digit value := by
  revert value small
  decide

theorem digits_eq (value : Nat) :
    digits value =
      if value < 10 then [digit value] else digits (value / 10) ++ [digit (value % 10)] := by
  unfold digits
  rw [Nat.toDigits_eq_if (by omega)]
  split
  next small =>
      rw [List.map_singleton, ofNat_digitChar small]
  next =>
      rw [List.map_append, List.map_singleton, ofNat_digitChar (Nat.mod_lt _ (by omega))]

theorem digits_ne_nil (value : Nat) : digits value ≠ [] := by
  rw [digits_eq]
  split <;> simp

theorem digits_isDigit (value : Nat) : ∀ byte ∈ digits value, isDigit byte = true := by
  induction value using Nat.strongRecOn with
  | ind value ih =>
      intro byte member
      rw [digits_eq] at member
      split at member
      next small =>
          rw [List.mem_singleton.mp member]
          exact isDigit_digit small
      next large =>
          rcases List.mem_append.mp member with front | last
          · exact ih (value / 10) (by omega) byte front
          · rw [List.mem_singleton.mp last]
            exact isDigit_digit (Nat.mod_lt _ (by omega))

theorem number_append (front : Nat) (first second : List UInt8) :
    number front (first ++ second) = number (number front first) second := by
  simp [number]

@[simp] theorem number_digits (value : Nat) : number 0 (digits value) = value := by
  induction value using Nat.strongRecOn with
  | ind value ih =>
      rw [digits_eq]
      split
      next small => simp [number, digitValue_digit small]
      next large =>
          rw [number_append, ih (value / 10) (by omega)]
          simp only [number, List.foldl_cons, List.foldl_nil]
          rw [digitValue_digit (Nat.mod_lt _ (by omega))]
          omega

end Decimal
