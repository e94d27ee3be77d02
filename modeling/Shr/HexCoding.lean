/-
Hexadecimal decoding, after `hex_decode` of `utils.cxx`.

Every two characters go through `std::stoul`, which takes blanks, a sign and a
`0x` and stops at the first character that is not a digit.  So two characters
that are not two digits may still be read, and a last character without a
partner is left out.
-/

import Shr.Atoi
import Shr.Utils

namespace Shr

/-! ### Digits -/

def hexValue (byte : UInt8) : Nat :=
  if byte ≤ 57 then byte.toNat - 48
  else if byte ≤ 70 then byte.toNat - 55
  else byte.toNat - 87

/-- `std::tolower` of the C locale. -/
def toLower (byte : UInt8) : UInt8 :=
  if 65 ≤ byte ∧ byte ≤ 90 then byte + 32 else byte

theorem hexDigit_facts {value : Nat} (bounded : value < 16) :
    isHexDigit (hexDigit value) = true ∧ hexValue (hexDigit value) = value ∧
      toLower (hexDigit value) = hexDigit value := by
  revert bounded value
  decide

theorem hexValue_facts {byte : UInt8} (digit : isHexDigit byte = true) :
    hexValue byte < 16 ∧ hexDigit (hexValue byte) = toLower byte := by
  revert digit
  refine every_byte ?_ byte
  decide +kernel

theorem hexDigit_first {byte : UInt8} (digit : isHexDigit byte = true) :
    isBlank byte = false ∧ byte ≠ 45 ∧ byte ≠ 43 := by
  revert digit
  refine every_byte ?_ byte
  decide +kernel

theorem hexValue_byte (byte : UInt8) :
    16 * hexValue (hexDigit (byte.toNat / 16)) + hexValue (hexDigit (byte.toNat % 16)) =
      byte.toNat := by
  have bounded := byte.toNat_lt
  rw [(hexDigit_facts (show byte.toNat / 16 < 16 by omega)).2.1,
    (hexDigit_facts (Nat.mod_lt byte.toNat (by decide))).2.1]
  omega

theorem hexByte_ofNat {high low : UInt8} (isHigh : isHexDigit high = true)
    (isLow : isHexDigit low = true) :
    hexByte (UInt8.ofNat (16 * hexValue high + hexValue low)) = [toLower high, toLower low] := by
  obtain ⟨highBounded, highDigit⟩ := hexValue_facts isHigh
  obtain ⟨lowBounded, lowDigit⟩ := hexValue_facts isLow
  have value : (UInt8.ofNat (16 * hexValue high + hexValue low)).toNat =
      16 * hexValue high + hexValue low := by
    rw [UInt8.toNat_ofNat']
    omega
  rw [hexByte, value, ← highDigit, ← lowDigit]
  congr 2
  · omega
  · congr 1
    omega

/-! ### Numbers in base 16 -/

/-- The number the digits at the front of a text spell, if there are any. -/
def leadingHex (text : Bytes) : Option Nat :=
  let digits := text.takeWhile isHexDigit
  if digits = [] then none
  else some (digits.foldl (fun value digit => 16 * value + hexValue digit) 0)

/-- `0x` or `0X`, where a digit follows. -/
def skipHexPrefix : Bytes → Bytes
  | zero :: letter :: digit :: rest =>
      if zero = 48 ∧ (letter = 120 ∨ letter = 88) ∧ isHexDigit digit = true then digit :: rest
      else zero :: letter :: digit :: rest
  | text => text

def isSign (byte : UInt8) : Bool :=
  byte = 43 ∨ byte = 45

/-- `std::stoul(text, nullptr, 16)`; `none` where it throws, because there is no
digit or the number has more than 64 bits. -/
def stoul16 (text : Bytes) : Option Nat :=
  let rest := text.dropWhile isBlank
  let unsigned := if rest.head?.any isSign then rest.tail else rest
  match leadingHex (skipHexPrefix unsigned) with
  | none => none
  | some value =>
      if 2 ^ 64 ≤ value then none
      else if rest.head? = some 45 then some ((2 ^ 64 - value) % 2 ^ 64)
      else some value

/-- `for (i = 0; i + 1 < hex.size(); i += 2)`; `none` where a number throws. -/
def hexDecode : Bytes → Option Bytes
  | high :: low :: rest => do
      let byte ← stoul16 [high, low]
      let out ← hexDecode rest
      return UInt8.ofNat byte :: out
  | _ => some []

/-! ### Two characters -/

/-- What `stoul` makes of two characters: a number if and only if there is a
digit in front, or behind a blank or a sign. -/
def ReadablePair (pair : UInt8 × UInt8) : Prop :=
  isHexDigit pair.1 = true ∨
    (isBlank pair.1 = true ∨ isSign pair.1 = true) ∧ isHexDigit pair.2 = true

instance (pair : UInt8 × UInt8) : Decidable (ReadablePair pair) :=
  inferInstanceAs (Decidable (_ ∨ _))

theorem foldl_hexValue_lt {digits : Bytes} (isDigit : ∀ digit ∈ digits, isHexDigit digit = true)
    (value : Nat) :
    digits.foldl (fun value digit => 16 * value + hexValue digit) value <
      (value + 1) * 16 ^ digits.length := by
  induction digits generalizing value with
  | nil =>
      rw [List.foldl_nil, List.length_nil, Nat.pow_zero, Nat.mul_one]
      exact Nat.lt_succ_self value
  | cons digit rest ih =>
      rw [List.forall_mem_cons] at isDigit
      have bounded := (hexValue_facts isDigit.1).1
      have later := ih isDigit.2 (16 * value + hexValue digit)
      rw [List.foldl_cons, List.length_cons, Nat.pow_succ']
      refine Nat.lt_of_lt_of_le later ?_
      rw [← Nat.mul_assoc]
      exact Nat.mul_le_mul_right _ (by omega)

theorem leadingHex_isSome_iff (text : Bytes) :
    (leadingHex text).isSome = true ↔ text.head?.any isHexDigit = true := by
  unfold leadingHex
  cases text with
  | nil => simp
  | cons first rest =>
      by_cases digit : isHexDigit first = true
      · simp [digit]
      · simp [digit]

theorem leadingHex_lt {text : Bytes} {value : Nat} (read : leadingHex text = some value) :
    value < 16 ^ text.length := by
  unfold leadingHex at read
  simp only at read
  split at read
  · cases read
  · cases read
    have isDigit : ∀ digit ∈ text.takeWhile isHexDigit, isHexDigit digit = true :=
      fun _digit member => List.mem_takeWhile_imp member
    have bounded := foldl_hexValue_lt isDigit 0
    rw [Nat.zero_add, Nat.one_mul] at bounded
    have shorter := (List.takeWhile_prefix isHexDigit (l := text)).length_le
    exact Nat.lt_of_lt_of_le bounded (Nat.pow_le_pow_right (by decide) shorter)

theorem skipHexPrefix_short {text : Bytes} (short : text.length ≤ 2) :
    skipHexPrefix text = text := by
  match text, short with
  | [], _ => rfl
  | [_], _ => rfl
  | [_, _], _ => rfl

def unsignedPart (text : Bytes) : Bytes :=
  let rest := text.dropWhile isBlank
  if rest.head?.any isSign then rest.tail else rest

theorem stoul16_pair (high low : UInt8) :
    (stoul16 [high, low]).isSome = true ↔
      (unsignedPart [high, low]).head?.any isHexDigit = true := by
  have shorter : (unsignedPart [high, low]).length ≤ 2 := by
    have dropped := (List.dropWhile_suffix isBlank (l := [high, low])).length_le
    unfold unsignedPart
    simp only
    split
    · rw [List.length_tail]
      exact Nat.le_trans (Nat.sub_le _ _) dropped
    · exact dropped
  have same : stoul16 [high, low] =
      match leadingHex (unsignedPart [high, low]) with
      | none => none
      | some value =>
          if 2 ^ 64 ≤ value then none
          else if ([high, low].dropWhile isBlank).head? = some 45 then
            some ((2 ^ 64 - value) % 2 ^ 64)
          else some value := by
    conv_rhs => rw [← skipHexPrefix_short shorter]
    rfl
  rw [← leadingHex_isSome_iff, same]
  cases read : leadingHex (unsignedPart [high, low]) with
  | none => rfl
  | some value =>
      have bounded := leadingHex_lt read
      have small : 16 ^ (unsignedPart [high, low]).length ≤ 16 ^ 2 :=
        Nat.pow_le_pow_right (by decide) shorter
      have fits : ¬ 2 ^ 64 ≤ value := by omega
      simp only [if_neg fits]
      split <;> rfl

theorem unsignedPart_one (byte : UInt8) :
    (unsignedPart [byte]).head?.any isHexDigit = isHexDigit byte := by
  by_cases digit : isHexDigit byte = true
  · obtain ⟨notBlank, notMinus, notPlus⟩ := hexDigit_first digit
    simp [unsignedPart, notBlank, isSign, notMinus, notPlus]
  · by_cases blank : isBlank byte = true
    · simp [unsignedPart, blank, digit]
    · by_cases sign : isSign byte = true <;> simp [unsignedPart, blank, sign, digit]

theorem stoul16_isSome_iff (high low : UInt8) :
    (stoul16 [high, low]).isSome = true ↔ ReadablePair (high, low) := by
  rw [stoul16_pair]
  unfold ReadablePair
  by_cases digit : isHexDigit high = true
  · obtain ⟨notBlank, notMinus, notPlus⟩ := hexDigit_first digit
    simp [unsignedPart, notBlank, isSign, notMinus, notPlus, digit]
  · by_cases blank : isBlank high = true
    · have behind : unsignedPart [high, low] = unsignedPart [low] := by
        simp [unsignedPart, blank]
      rw [behind, unsignedPart_one]
      simp [digit, blank]
    · by_cases sign : isSign high = true
      · simp [unsignedPart, blank, sign, digit]
      · simp [unsignedPart, blank, sign, digit]

theorem stoul16_digits {high low : UInt8} (isHigh : isHexDigit high = true)
    (isLow : isHexDigit low = true) :
    stoul16 [high, low] = some (16 * hexValue high + hexValue low) := by
  obtain ⟨notBlank, notMinus, notPlus⟩ := hexDigit_first isHigh
  have bounded := (hexValue_facts isHigh).1
  have lowBounded := (hexValue_facts isLow).1
  have small : 16 * hexValue high + hexValue low < 18446744073709551616 := by omega
  simp [stoul16, notBlank, isSign, notMinus, notPlus, skipHexPrefix, leadingHex, isHigh,
    isLow, small]

/-! ### Whole texts -/

/-- Hexadecimal digits of either case, in pairs. -/
def IsHexText (text : Bytes) : Prop :=
  text.length % 2 = 0 ∧ ∀ byte ∈ text, isHexDigit byte = true

instance (text : Bytes) : Decidable (IsHexText text) :=
  @instDecidableAnd _ _ _ (List.decidableBAll _ text)

def pairs : Bytes → List (UInt8 × UInt8)
  | high :: low :: rest => (high, low) :: pairs rest
  | _ => []

theorem hexDecode_isSome_iff (text : Bytes) :
    (hexDecode text).isSome = true ↔ ∀ pair ∈ pairs text, ReadablePair pair := by
  induction text using hexDecode.induct with
  | case1 high low rest ih =>
      rw [pairs, List.forall_mem_cons, ← ih, ← stoul16_isSome_iff, hexDecode]
      cases stoul16 [high, low] with
      | none => simp
      | some byte => cases hexDecode rest <;> simp
  | case2 text short =>
      have noPair : pairs text = [] := by
        rw [pairs]
        exact short
      have nothing : hexDecode text = some [] := by
        rw [hexDecode]
        exact short
      rw [nothing, noPair]
      simp

theorem hexDecode_hexEncode (data : Bytes) : hexDecode (hexEncode data) = some data := by
  induction data with
  | nil => rfl
  | cons byte rest ih =>
      have bounded := byte.toNat_lt
      have isHigh := (hexDigit_facts (show byte.toNat / 16 < 16 by omega)).1
      have isLow := (hexDigit_facts (Nat.mod_lt byte.toNat (show 0 < 16 by decide))).1
      change hexDecode (hexDigit (byte.toNat / 16) :: hexDigit (byte.toNat % 16) ::
        hexEncode rest) = _
      rw [hexDecode, stoul16_digits isHigh isLow, ih, hexValue_byte]
      simp

theorem hexDecode_of_isHexText {text : Bytes} (isText : IsHexText text) :
    ∃ data, hexDecode text = some data ∧ hexEncode data = text.map toLower := by
  induction text using hexDecode.induct with
  | case1 high low rest ih =>
      obtain ⟨even, digits⟩ := isText
      rw [List.forall_mem_cons, List.forall_mem_cons] at digits
      obtain ⟨isHigh, isLow, later⟩ := digits
      rw [List.length_cons, List.length_cons] at even
      obtain ⟨data, decoded, encoded⟩ := ih ⟨by omega, later⟩
      refine ⟨UInt8.ofNat (16 * hexValue high + hexValue low) :: data, ?_, ?_⟩
      · rw [hexDecode, stoul16_digits isHigh isLow, decoded]
        rfl
      · change hexByte _ ++ hexEncode data = _
        rw [hexByte_ofNat isHigh isLow, encoded]
        rfl
  | case2 text short =>
      match text, isText, short with
      | [], _, _ => exact ⟨[], rfl, rfl⟩
      | [_byte], isText, _ => exact absurd isText.1 Nat.one_ne_zero
      | high :: low :: rest, _, short => exact absurd rfl (short high low rest)

/-- A text is decoded if it is hexadecimal, to the bytes that are written like it
in lower case, and turned away if it is not. -/
structure DecodedExactly (text : Bytes) : Prop where
  accepts : IsHexText text →
    ∃ data, hexDecode text = some data ∧ hexEncode data = text.map toLower
  rejects : ¬ IsHexText text → hexDecode text = none

theorem decodedExactly_iff (text : Bytes) :
    DecodedExactly text ↔ IsHexText text ∨ ∃ pair ∈ pairs text, ¬ ReadablePair pair := by
  have read := hexDecode_isSome_iff text
  constructor
  · intro exactly
    by_cases isText : IsHexText text
    · exact .inl isText
    · have nothing := exactly.rejects isText
      rw [nothing] at read
      have unread : ¬ ∀ pair ∈ pairs text, ReadablePair pair := fun all => by
        cases read.mpr all
      refine .inr ?_
      by_contra none_unread
      refine unread fun pair member => ?_
      by_contra notReadable
      exact none_unread ⟨pair, member, notReadable⟩
  · intro condition
    refine ⟨hexDecode_of_isHexText, fun notText => ?_⟩
    obtain ⟨pair, member, notReadable⟩ := condition.resolve_left notText
    cases decoded : hexDecode text with
    | none => rfl
    | some data =>
        rw [decoded] at read
        exact absurd (read.mp rfl pair member) notReadable

/-- Coding is exact on a text exactly when the text is hexadecimal or one of its
pairs is no number. -/
theorem hex_coding_exact_iff (data text : Bytes) :
    (hexDecode (hexEncode data) = some data ∧ DecodedExactly text) ↔
      IsHexText text ∨ ∃ pair ∈ pairs text, ¬ ReadablePair pair := by
  rw [decodedExactly_iff, and_iff_right (hexDecode_hexEncode data)]

/-- The last of three digits is left out, and the letter of `fg` and the sign of
`+f` are passed over. -/
theorem short_texts_decoded :
    ¬ DecodedExactly (ascii "abc") ∧ ¬ DecodedExactly (ascii "fg") ∧
      ¬ DecodedExactly (ascii "+f") := by
  have misread : ∀ text, ¬ IsHexText text → (∀ pair ∈ pairs text, ReadablePair pair) →
      ¬ DecodedExactly text := by
    intro text notText readable exactly
    rcases (decodedExactly_iff text).mp exactly with isText | ⟨pair, member, notReadable⟩
    · exact notText isText
    · exact notReadable (readable pair member)
  refine ⟨misread _ (by decide) ?_, misread _ (by decide) ?_, misread _ (by decide) ?_⟩
  · exact List.forall_mem_singleton.mpr (by decide)
  · exact List.forall_mem_singleton.mpr (by decide)
  · exact List.forall_mem_singleton.mpr (by decide)

end Shr
