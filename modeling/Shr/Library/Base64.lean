/-
Base64 without line breaks.

Three bytes become four characters of the standard alphabet; a final group of
one or two bytes is padded with `=`.  Decoding undoes encoding on every input.
-/

import Mathlib.Data.List.Basic

namespace Base64

def character (value : Nat) : UInt8 :=
  if value < 26 then UInt8.ofNat (65 + value)
  else if value < 52 then UInt8.ofNat (71 + value)
  else if value < 62 then UInt8.ofNat (value - 4)
  else if value = 62 then 43
  else 47

/-- The six-bit value of a character; `=` and foreign characters count as 0. -/
def sextet (char : UInt8) : Nat :=
  let code := char.toNat
  if 65 ≤ code ∧ code ≤ 90 then code - 65
  else if 97 ≤ code ∧ code ≤ 122 then code - 71
  else if 48 ≤ code ∧ code ≤ 57 then code + 4
  else if code = 43 then 62
  else if code = 47 then 63
  else 0

def padding : UInt8 := 61

def encode : List UInt8 → List UInt8
  | [] => []
  | [a] =>
      [character (a.toNat / 4), character (a.toNat % 4 * 16), padding, padding]
  | [a, b] =>
      [ character (a.toNat / 4),
        character (a.toNat % 4 * 16 + b.toNat / 16),
        character (b.toNat % 16 * 4),
        padding ]
  | a :: b :: c :: rest =>
      character (a.toNat / 4) ::
        character (a.toNat % 4 * 16 + b.toNat / 16) ::
        character (b.toNat % 16 * 4 + c.toNat / 64) ::
        character (c.toNat % 64) :: encode rest

def firstByte (w x : UInt8) : UInt8 :=
  UInt8.ofNat (sextet w * 4 + sextet x / 16)

def secondByte (x y : UInt8) : UInt8 :=
  UInt8.ofNat (sextet x % 16 * 16 + sextet y / 4)

def thirdByte (y z : UInt8) : UInt8 :=
  UInt8.ofNat (sextet y % 4 * 64 + sextet z)

def decode : List UInt8 → List UInt8
  | w :: x :: y :: z :: rest =>
      if y = padding then [firstByte w x]
      else if z = padding then [firstByte w x, secondByte x y]
      else firstByte w x :: secondByte x y :: thirdByte y z :: decode rest
  | _ => []

private theorem character_table :
    ∀ value : Fin 64, sextet (character value) = value ∧ character value ≠ padding := by
  decide

theorem sextet_character {value : Nat} (bounded : value < 64) :
    sextet (character value) = value :=
  (character_table ⟨value, bounded⟩).1

theorem character_ne_padding {value : Nat} (bounded : value < 64) :
    character value ≠ padding :=
  (character_table ⟨value, bounded⟩).2

private theorem firstByte_encoded (a : UInt8) {low : Nat} (bounded : low < 16) :
    firstByte (character (a.toNat / 4)) (character (a.toNat % 4 * 16 + low)) = a := by
  have byte := a.toNat_lt
  unfold firstByte
  rw [sextet_character (by omega), sextet_character (by omega)]
  have whole : a.toNat / 4 * 4 + (a.toNat % 4 * 16 + low) / 16 = a.toNat := by omega
  rw [whole, UInt8.ofNat_toNat]

private theorem secondByte_encoded (high b : UInt8) {low : Nat} (bounded : low < 4) :
    secondByte (character (high.toNat % 4 * 16 + b.toNat / 16))
      (character (b.toNat % 16 * 4 + low)) = b := by
  have byte := b.toNat_lt
  unfold secondByte
  rw [sextet_character (by omega), sextet_character (by omega)]
  have whole : (high.toNat % 4 * 16 + b.toNat / 16) % 16 * 16 + (b.toNat % 16 * 4 + low) / 4 =
      b.toNat := by omega
  rw [whole, UInt8.ofNat_toNat]

private theorem thirdByte_encoded (high c : UInt8) :
    thirdByte (character (high.toNat % 16 * 4 + c.toNat / 64)) (character (c.toNat % 64)) =
      c := by
  have byte := c.toNat_lt
  unfold thirdByte
  rw [sextet_character (by omega), sextet_character (by omega)]
  have whole : (high.toNat % 16 * 4 + c.toNat / 64) % 4 * 64 + c.toNat % 64 = c.toNat := by
    omega
  rw [whole, UInt8.ofNat_toNat]

theorem decode_encode (data : List UInt8) : decode (encode data) = data := by
  induction data using encode.induct with
  | case1 => rfl
  | case2 a =>
      have first := firstByte_encoded a (show 0 < 16 by decide)
      simpa [encode, decode] using first
  | case3 a b =>
      have byteA := a.toNat_lt
      have byteB := b.toNat_lt
      have first := firstByte_encoded a (show b.toNat / 16 < 16 by omega)
      have second := secondByte_encoded a b (show 0 < 4 by decide)
      have unpadded := character_ne_padding (show b.toNat % 16 * 4 < 64 by omega)
      simp only [Nat.add_zero] at second
      simp [encode, decode, unpadded, first, second]
  | case4 a b c rest ih =>
      have byteB := b.toNat_lt
      have byteC := c.toNat_lt
      have first := firstByte_encoded a (show b.toNat / 16 < 16 by omega)
      have second := secondByte_encoded a b (show c.toNat / 64 < 4 by omega)
      have third := thirdByte_encoded b c
      have unpaddedThird :=
        character_ne_padding (show b.toNat % 16 * 4 + c.toNat / 64 < 64 by omega)
      have unpaddedFourth := character_ne_padding (show c.toNat % 64 < 64 by omega)
      simp [encode, decode, unpaddedThird, unpaddedFourth, first, second, third, ih]

end Base64
