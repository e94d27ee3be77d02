/-
Numbers in text, as `std::atoi` reads them.

The library reads a `long`, saturated to 64 bits, and returns its low 32 bits.
-/

import Shr.Library.Decimal
import Shr.Types

namespace Shr

/-- `isspace` of the C locale. -/
def isBlank (byte : UInt8) : Bool :=
  byte = 32 ∨ 9 ≤ byte ∧ byte ≤ 13

def leadingNumber (text : Bytes) : Nat :=
  Decimal.number 0 (text.takeWhile Decimal.isDigit)

/-- The number at the front of a text, behind blanks and a sign. -/
def scanNumber (text : Bytes) : Int :=
  match text.dropWhile isBlank with
  | [] => 0
  | byte :: rest =>
      if byte = 45 then -(leadingNumber rest)
      else if byte = 43 then leadingNumber rest
      else leadingNumber (byte :: rest)

def saturate (number : Int) : Int :=
  max (-2 ^ 63) (min number (2 ^ 63 - 1))

def atoi (text : Bytes) : Int32 :=
  Int32.ofInt (saturate (scanNumber (cstr text)))

/-- `static_cast<uint16_t>(std::atoi(text))` -/
def atoiPort (text : Bytes) : UInt16 :=
  UInt16.ofInt (atoi text).toInt

/-! ### Texts of integers -/

def IsNumeral (digits : Bytes) : Prop :=
  digits ≠ [] ∧ ∀ byte ∈ digits, Decimal.isDigit byte = true

instance (digits : Bytes) : Decidable (IsNumeral digits) :=
  @instDecidableAnd _ _ _ (List.decidableBAll _ digits)

/-- Blanks, a sign or none, and digits that end with the text. -/
inductive Spells : Bytes → Int → Prop where
  | unsigned {blanks digits : Bytes} (blank : ∀ byte ∈ blanks, isBlank byte = true)
      (numeral : IsNumeral digits) :
      Spells (blanks ++ digits) (Decimal.number 0 digits)
  | plus {blanks digits : Bytes} (blank : ∀ byte ∈ blanks, isBlank byte = true)
      (numeral : IsNumeral digits) :
      Spells (blanks ++ 43 :: digits) (Decimal.number 0 digits)
  | minus {blanks digits : Bytes} (blank : ∀ byte ∈ blanks, isBlank byte = true)
      (numeral : IsNumeral digits) :
      Spells (blanks ++ 45 :: digits) (-(Decimal.number 0 digits))

theorem spells_numeral {digits : Bytes} (numeral : IsNumeral digits) {number : Nat}
    (same : Decimal.number 0 digits = number) : Spells digits number :=
  same ▸ @Spells.unsigned [] digits nofun numeral

theorem digit_bounds {byte : UInt8} (digit : Decimal.isDigit byte = true) :
    48 ≤ byte.toNat ∧ byte.toNat ≤ 57 := by
  unfold Decimal.isDigit at digit
  exact of_decide_eq_true digit

theorem IsNumeral.leadingNumber {digits : Bytes} (numeral : IsNumeral digits) :
    Shr.leadingNumber digits = Decimal.number 0 digits := by
  unfold Shr.leadingNumber
  rw [List.takeWhile_eq_self_iff.mpr numeral.2]

theorem dropWhile_blanks {blanks : Bytes} (blank : ∀ byte ∈ blanks, isBlank byte = true)
    {byte : UInt8} (other : isBlank byte = false) (rest : Bytes) :
    (blanks ++ byte :: rest).dropWhile isBlank = byte :: rest := by
  rw [List.dropWhile_append_of_pos blank, List.dropWhile_cons_of_neg]
  rw [other]
  exact Bool.false_ne_true

theorem isBlank_of_digit {byte : UInt8} (digit : Decimal.isDigit byte = true) :
    isBlank byte = false := by
  have bounds := digit_bounds digit
  unfold isBlank
  rw [decide_eq_false_iff_not]
  intro blank
  rcases blank with same | range
  · rw [same] at bounds
    exact absurd bounds.1 (by decide)
  · have upper : byte.toNat ≤ 13 := UInt8.le_iff_toNat_le.mp range.2
    omega

theorem scanNumber_spells {text : Bytes} {number : Int} (spells : Spells text number) :
    scanNumber text = number := by
  unfold scanNumber
  cases spells with
  | unsigned blank numeral =>
      rename_i blanks digits
      obtain ⟨first, rest, same⟩ := List.exists_cons_of_ne_nil numeral.1
      have digit := numeral.2 first (by rw [same]; exact List.mem_cons_self)
      have bounds := digit_bounds digit
      have notMinus : first ≠ 45 := by
        intro minus
        rw [minus] at bounds
        exact absurd bounds.1 (by decide)
      have notPlus : first ≠ 43 := by
        intro plus
        rw [plus] at bounds
        exact absurd bounds.1 (by decide)
      rw [same, dropWhile_blanks blank (isBlank_of_digit digit)]
      simp only [if_neg notMinus, if_neg notPlus]
      rw [← same, numeral.leadingNumber]
  | plus blank numeral =>
      rw [dropWhile_blanks blank (by decide)]
      exact congrArg Nat.cast numeral.leadingNumber
  | minus blank numeral =>
      rw [dropWhile_blanks blank (by decide)]
      exact congrArg (fun value : Nat => -(value : Int)) numeral.leadingNumber

theorem Spells.nulFree {text : Bytes} {number : Int} (spells : Spells text number) :
    NulFree text := by
  have blankZero : isBlank 0 = false := by decide
  have digitZero : Decimal.isDigit 0 = false := by decide
  have blanksFree : ∀ {blanks : Bytes}, (∀ byte ∈ blanks, isBlank byte = true) →
      NulFree blanks := by
    intro blanks blank member
    rw [blank 0 member] at blankZero
    cases blankZero
  have digitsFree : ∀ {digits : Bytes}, IsNumeral digits → NulFree digits := by
    intro digits numeral member
    rw [numeral.2 0 member] at digitZero
    cases digitZero
  intro member
  cases spells with
  | unsigned blank numeral =>
      rcases List.mem_append.mp member with front | back
      · exact blanksFree blank front
      · exact digitsFree numeral back
  | plus blank numeral | minus blank numeral =>
      rcases List.mem_append.mp member with front | back
      · exact blanksFree blank front
      · rcases List.mem_cons.mp back with sign | back
        · cases sign
        · exact digitsFree numeral back

theorem atoi_spells {text : Bytes} {number : Int} (spells : Spells text number) :
    atoi text = Int32.ofInt (saturate number) := by
  rw [atoi, cstr_of_nulFree spells.nulFree, scanNumber_spells spells]

def IsPort (number : Int) : Prop :=
  1 ≤ number ∧ number ≤ 65535

instance (number : Int) : Decidable (IsPort number) :=
  inferInstanceAs (Decidable (_ ∧ _))

theorem atoiPort_spells {text : Bytes} {number : Int} (spells : Spells text number)
    (isPort : IsPort number) : ((atoiPort text).toNat : Int) = number := by
  obtain ⟨lower, upper⟩ := isPort
  have unsaturated : saturate number = number := by
    unfold saturate
    omega
  have kept : (Int32.ofInt number).toInt = number :=
    Int32.toInt_ofInt_of_le (by omega) (by omega)
  rw [atoiPort, atoi_spells spells, unsaturated, kept, UInt16.ofInt, UInt16.toNat_ofNat']
  omega

end Shr
