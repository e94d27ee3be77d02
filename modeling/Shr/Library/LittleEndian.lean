/-
Numbers in a fixed number of bytes, least significant first.
-/

import Mathlib.Algebra.Group.Nat.Defs
import Mathlib.Data.List.Basic

namespace LittleEndian

def bytes : Nat → Nat → List UInt8
  | 0, _ => []
  | width + 1, value => UInt8.ofNat (value % 256) :: bytes width (value / 256)

def value : List UInt8 → Nat
  | [] => 0
  | byte :: rest => byte.toNat + 256 * value rest

@[simp] theorem bytes_length (width number : Nat) : (bytes width number).length = width := by
  induction width generalizing number with
  | zero => rfl
  | succ width ih => simp [bytes, ih]

theorem value_bytes (width number : Nat) : value (bytes width number) = number % 256 ^ width := by
  induction width generalizing number with
  | zero => simp [bytes, value, Nat.mod_one]
  | succ width ih =>
      have low : (UInt8.ofNat (number % 256)).toNat = number % 256 := by
        rw [UInt8.toNat_ofNat']
        omega
      rw [bytes, value, low, ih, Nat.pow_succ, Nat.mul_comm (256 ^ width), Nat.mod_mul]

theorem value_lt (data : List UInt8) : value data < 256 ^ data.length := by
  induction data with
  | nil => simp [value]
  | cons byte rest ih =>
      have bounded := byte.toNat_lt
      rw [value, List.length_cons, Nat.pow_succ]
      omega

theorem bytes_value (data : List UInt8) : bytes data.length (value data) = data := by
  induction data with
  | nil => rfl
  | cons byte rest ih =>
      have bounded := byte.toNat_lt
      have low : (byte.toNat + 256 * value rest) % 256 = byte.toNat := by omega
      have high : (byte.toNat + 256 * value rest) / 256 = value rest := by omega
      rw [List.length_cons, bytes, value, low, high, ih, UInt8.ofNat_toNat]

end LittleEndian
