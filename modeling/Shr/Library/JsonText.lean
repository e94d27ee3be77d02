/-
JSON text for flat objects with scalar fields.

The writer indents by two spaces and refuses strings that are not UTF-8.  The
reader takes any spacing and stops behind the object; it knows the escapes the
writer produces, and integers only.  What a reader has accepted it accepts in
front of any other text, so a written object that was cut off is not read.
-/

import Shr.Library.Decimal
import Shr.Library.Utf8

namespace JsonText

inductive Item where
  | text (bytes : List UInt8)
  | integer (value : Int)
  | boolean (value : Bool)
  | null
deriving DecidableEq

/-! ### Readers -/

abbrev Reader (α : Type) := List UInt8 → Option (α × List UInt8)

namespace Reader

variable {α β : Type}

def value (result : α) : Reader α := fun text =>
  some (result, text)

def fail : Reader α := fun _text =>
  none

def andThen (first : Reader α) (second : α → Reader β) : Reader β := fun text =>
  (first text).bind fun answer => second answer.1 answer.2

def onByte (next : UInt8 → Reader α) : Reader α
  | [] => none
  | byte :: rest => next byte rest

/-- The reader does not look behind what it takes. -/
def Stable (reader : Reader α) : Prop :=
  ∀ text result rest more, reader text = some (result, rest) →
    reader (text ++ more) = some (result, rest ++ more)

theorem andThen_of_eq {first : Reader α} {second : α → Reader β} {text rest : List UInt8}
    {result : α} (read : first text = some (result, rest)) :
    andThen first second text = second result rest := by
  rw [andThen, read, Option.bind_some]

theorem andThen_eq_some {first : Reader α} {second : α → Reader β} {text rest : List UInt8}
    {result : β} (read : andThen first second text = some (result, rest)) :
    ∃ answer after, first text = some (answer, after) ∧
      second answer after = some (result, rest) := by
  obtain ⟨answer, taken, finish⟩ := Option.bind_eq_some_iff.mp read
  exact ⟨answer.1, answer.2, taken, finish⟩

theorem stable_value (result : α) : Stable (value result) := by
  intro text other rest more read
  cases read
  rfl

theorem stable_fail : Stable (fail : Reader α) := by
  intro text result rest more read
  cases read

theorem Stable.andThen {first : Reader α} {second : α → Reader β} (firstStable : Stable first)
    (secondStable : ∀ result, Stable (second result)) : Stable (andThen first second) := by
  intro text result rest more read
  obtain ⟨answer, after, taken, finish⟩ := andThen_eq_some read
  rw [andThen_of_eq (firstStable text answer after more taken)]
  exact secondStable answer after result rest more finish

theorem stable_onByte {next : UInt8 → Reader α} (nextStable : ∀ byte, Stable (next byte)) :
    Stable (onByte next) := by
  intro text result rest more read
  cases text with
  | nil => cases read
  | cons byte text => exact nextStable byte text result rest more read

theorem stable_ite {condition : Prop} [Decidable condition] {first second : Reader α}
    (firstStable : Stable first) (secondStable : Stable second) :
    Stable (if condition then first else second) := by
  split
  · exact firstStable
  · exact secondStable

end Reader

open Reader

/-! ### Tokens -/

def isSpace (byte : UInt8) : Bool :=
  byte = 32 ∨ byte = 9 ∨ byte = 10 ∨ byte = 13

def nextByte : Reader UInt8
  | [] => none
  | byte :: rest => if isSpace byte then nextByte rest else some (byte, rest)

theorem stable_nextByte : Stable nextByte := by
  intro text result rest more read
  induction text with
  | nil => cases read
  | cons byte text ih =>
      rw [nextByte] at read
      rw [List.cons_append, nextByte]
      split at read
      next space =>
          rw [if_pos space]
          exact ih read
      next other =>
          cases read
          rw [if_neg other]

theorem nextByte_of_not_space {byte : UInt8} (other : isSpace byte = false) (rest : List UInt8) :
    nextByte (byte :: rest) = some (byte, rest) := by
  rw [nextByte, other]
  rfl

theorem nextByte_space {byte : UInt8} (space : isSpace byte = true) (rest : List UInt8) :
    nextByte (byte :: rest) = nextByte rest := by
  rw [nextByte, space]
  rfl

def expect : List UInt8 → Reader Unit
  | [] => value ()
  | wanted :: more => onByte fun byte => if byte = wanted then expect more else fail

theorem stable_expect (wanted : List UInt8) : Stable (expect wanted) := by
  induction wanted with
  | nil => exact stable_value ()
  | cons wanted more ih =>
      exact stable_onByte fun byte => stable_ite ih stable_fail

theorem expect_append (wanted rest : List UInt8) :
    expect wanted (wanted ++ rest) = some ((), rest) := by
  induction wanted with
  | nil => rfl
  | cons wanted more ih =>
      simp only [expect, onByte, List.cons_append, if_true]
      exact ih

/-! ### Strings -/

def hexDigit (value : Nat) : UInt8 :=
  if value < 10 then UInt8.ofNat (48 + value) else UInt8.ofNat (87 + value)

def hexValue (byte : UInt8) : Option Nat :=
  if 48 ≤ byte ∧ byte ≤ 57 then some (byte.toNat - 48)
  else if 97 ≤ byte ∧ byte ≤ 102 then some (byte.toNat - 87)
  else none

theorem hexValue_hexDigit {value : Nat} (small : value < 16) :
    hexValue (hexDigit value) = some value := by
  revert value small
  decide

def shortEscape (byte : UInt8) : Option UInt8 :=
  if byte = 34 then some 34
  else if byte = 92 then some 92
  else if byte = 8 then some 98
  else if byte = 12 then some 102
  else if byte = 10 then some 110
  else if byte = 13 then some 114
  else if byte = 9 then some 116
  else none

def unescape (letter : UInt8) : Option UInt8 :=
  if letter = 34 then some 34
  else if letter = 92 then some 92
  else if letter = 98 then some 8
  else if letter = 102 then some 12
  else if letter = 110 then some 10
  else if letter = 114 then some 13
  else if letter = 116 then some 9
  else none

theorem unescape_shortEscape {byte letter : UInt8} (short : shortEscape byte = some letter) :
    letter ≠ 117 ∧ unescape letter = some byte := by
  unfold shortEscape at short
  repeat' split at short
  all_goals
    cases short
  all_goals
    subst byte
    decide

def escaped (byte : UInt8) : List UInt8 :=
  match shortEscape byte with
  | some letter => [92, letter]
  | none =>
      if byte < 32 then
        [92, 117, 48, 48, hexDigit (byte.toNat / 16), hexDigit (byte.toNat % 16)]
      else [byte]

def escapedByte (first second third fourth : UInt8) : Option UInt8 := do
  let high ← hexValue third
  let low ← hexValue fourth
  if first = 48 ∧ second = 48 ∧ high < 8 then some (UInt8.ofNat (16 * high + low)) else none

/-- What follows the opening quote of a string. -/
def readBody : Reader (List UInt8)
  | [] => none
  | byte :: rest =>
      if byte = 34 then some ([], rest)
      else if byte = 92 then
        match rest with
        | [] => none
        | letter :: rest =>
            if letter = 117 then
              match rest with
              | first :: second :: third :: fourth :: rest =>
                  (escapedByte first second third fourth).bind fun byte =>
                    (readBody rest).map fun answer => (byte :: answer.1, answer.2)
              | _ => none
            else
              (unescape letter).bind fun byte =>
                (readBody rest).map fun answer => (byte :: answer.1, answer.2)
      else if byte < 32 then none
      else (readBody rest).map fun answer => (byte :: answer.1, answer.2)

def readString : Reader (List UInt8) :=
  readBody.andThen fun bytes => if Utf8.Valid bytes then value bytes else fail

def writeString (bytes : List UInt8) : List UInt8 :=
  34 :: (bytes.flatMap escaped ++ [34])

theorem readBody_quote (rest : List UInt8) : readBody (34 :: rest) = some ([], rest) := by
  rw [readBody.eq_def]
  rfl

theorem readBody_short {letter : UInt8} (short : letter ≠ 117) (rest : List UInt8) :
    readBody (92 :: letter :: rest) = (unescape letter).bind fun byte =>
      (readBody rest).map fun answer => (byte :: answer.1, answer.2) := by
  rw [readBody.eq_def]
  simp only [if_neg short]
  rfl

theorem readBody_unicode (first second third fourth : UInt8) (rest : List UInt8) :
    readBody (92 :: 117 :: first :: second :: third :: fourth :: rest) =
      (escapedByte first second third fourth).bind fun byte =>
        (readBody rest).map fun answer => (byte :: answer.1, answer.2) := by
  rw [readBody.eq_def]
  rfl

theorem readBody_plain {byte : UInt8} (notQuote : byte ≠ 34) (notEscape : byte ≠ 92)
    (printed : ¬byte < 32) (rest : List UInt8) :
    readBody (byte :: rest) = (readBody rest).map fun answer => (byte :: answer.1, answer.2) := by
  rw [readBody.eq_def]
  simp only [if_neg notQuote, if_neg notEscape, if_neg printed]

theorem stable_readBody : Stable readBody := by
  intro text result rest more read
  fun_induction readBody text generalizing result with
  | case1 => cases read
  | case2 text =>
      cases read
      exact readBody_quote _
  | case3 => cases read
  | case4 first second third fourth text notQuote ih =>
      obtain ⟨decoded, isByte, further⟩ := Option.bind_eq_some_iff.mp read
      obtain ⟨answer, taken, same⟩ := Option.map_eq_some_iff.mp further
      cases same
      simp only [List.cons_append]
      rw [readBody_unicode, isByte, Option.bind_some, ih _ taken, Option.map_some]
  | case5 => cases read
  | case6 letter text short notQuote ih =>
      obtain ⟨decoded, isByte, further⟩ := Option.bind_eq_some_iff.mp read
      obtain ⟨answer, taken, same⟩ := Option.map_eq_some_iff.mp further
      cases same
      simp only [List.cons_append]
      rw [readBody_short short, isByte, Option.bind_some, ih _ taken, Option.map_some]
  | case7 => cases read
  | case8 byte text notQuote notEscape printed ih =>
      obtain ⟨answer, taken, same⟩ := Option.map_eq_some_iff.mp read
      cases same
      rw [List.cons_append, readBody_plain notQuote notEscape printed, ih _ taken,
        Option.map_some]

theorem stable_readString : Stable readString :=
  stable_readBody.andThen fun bytes => stable_ite (stable_value bytes) stable_fail

theorem escapedByte_hexDigit {byte : UInt8} (control : byte < 32) :
    escapedByte 48 48 (hexDigit (byte.toNat / 16)) (hexDigit (byte.toNat % 16)) = some byte := by
  have small : byte.toNat < 32 := UInt8.lt_iff_toNat_lt.mp control
  have whole : 16 * (byte.toNat / 16) + byte.toNat % 16 = byte.toNat := by omega
  unfold escapedByte
  rw [hexValue_hexDigit (by omega), hexValue_hexDigit (Nat.mod_lt _ (by omega))]
  simp only [Option.bind_eq_bind, Option.bind_some]
  rw [if_pos ⟨trivial, trivial, by omega⟩, whole, UInt8.ofNat_toNat]

theorem readBody_escaped (byte : UInt8) (rest : List UInt8) :
    readBody (escaped byte ++ rest) =
      (readBody rest).map fun answer => (byte :: answer.1, answer.2) := by
  unfold escaped
  cases short : shortEscape byte with
  | some letter =>
      obtain ⟨notUnicode, decoded⟩ := unescape_shortEscape short
      change readBody (92 :: letter :: rest) = _
      rw [readBody_short notUnicode, decoded, Option.bind_some]
  | none =>
      simp only
      by_cases control : byte < 32
      · rw [if_pos control]
        simp only [List.cons_append, List.nil_append]
        rw [readBody_unicode, escapedByte_hexDigit control, Option.bind_some]
      · rw [if_neg control]
        apply readBody_plain _ _ control
        · intro quote
          rw [quote] at short
          cases short
        · intro escape
          rw [escape] at short
          cases short

theorem readBody_write (bytes rest : List UInt8) :
    readBody (bytes.flatMap escaped ++ 34 :: rest) = some (bytes, rest) := by
  induction bytes with
  | nil => exact readBody_quote rest
  | cons byte bytes ih =>
      rw [List.flatMap_cons, List.append_assoc, readBody_escaped, ih, Option.map_some]

theorem readString_write {bytes : List UInt8} (valid : Utf8.Valid bytes) (rest : List UInt8) :
    readString (bytes.flatMap escaped ++ 34 :: rest) = some (bytes, rest) := by
  rw [readString, andThen_of_eq (readBody_write bytes rest), if_pos valid]
  rfl

/-! ### Numbers -/

/-- The rest of a numeral; some other byte has to follow it. -/
def readDigits (front : Nat) : Reader Nat
  | [] => none
  | byte :: rest =>
      if Decimal.isDigit byte then readDigits (10 * front + Decimal.digitValue byte) rest
      else some (front, byte :: rest)

theorem stable_readDigits (front : Nat) : Stable (readDigits front) := by
  intro text result rest more read
  induction text generalizing front with
  | nil => cases read
  | cons byte text ih =>
      rw [readDigits] at read
      rw [List.cons_append, readDigits]
      split at read
      next digit =>
          rw [if_pos digit]
          exact ih _ read
      next other =>
          cases read
          rw [if_neg other]
          rfl

theorem readDigits_write {run : List UInt8} (all : ∀ byte ∈ run, Decimal.isDigit byte = true)
    {byte : UInt8} (ends : Decimal.isDigit byte = false) (front : Nat) (rest : List UInt8) :
    readDigits front (run ++ byte :: rest) = some (Decimal.number front run, byte :: rest) := by
  induction run generalizing front with
  | nil =>
      rw [List.nil_append, readDigits, ends]
      rfl
  | cons digit run ih =>
      rw [List.cons_append, readDigits, if_pos (all digit List.mem_cons_self)]
      exact ih (fun later member => all later (List.mem_cons_of_mem _ member)) _

/-! ### Fields -/

def literal (text : String) : List UInt8 :=
  text.toList.map fun char => UInt8.ofNat char.toNat

def readItem (first : UInt8) : Reader Item :=
  if first = 34 then readString.andThen fun bytes => value (.text bytes)
  else if first = 116 then (expect (literal "rue")).andThen fun _ => value (.boolean true)
  else if first = 102 then (expect (literal "alse")).andThen fun _ => value (.boolean false)
  else if first = 110 then (expect (literal "ull")).andThen fun _ => value .null
  else if first = 45 then
    onByte fun digit =>
      if Decimal.isDigit digit then
        (readDigits (Decimal.digitValue digit)).andThen fun number => value (.integer (-number))
      else fail
  else if Decimal.isDigit first then
    (readDigits (Decimal.digitValue first)).andThen fun number => value (.integer number)
  else fail

def writeItem : Item → List UInt8
  | .text bytes => writeString bytes
  | .integer (.ofNat number) => Decimal.digits number
  | .integer (.negSucc number) => 45 :: Decimal.digits (number + 1)
  | .boolean true => literal "true"
  | .boolean false => literal "false"
  | .null => literal "null"

def Item.Valid : Item → Prop
  | .text bytes => Utf8.Valid bytes
  | _ => True

instance (item : Item) : Decidable item.Valid :=
  match item with
  | .text bytes => inferInstanceAs (Decidable (Utf8.Valid bytes))
  | .integer _ | .boolean _ | .null => inferInstanceAs (Decidable True)

abbrev Field := List UInt8 × Item

def FieldValid (field : Field) : Prop :=
  Utf8.Valid field.1 ∧ field.2.Valid

instance (field : Field) : Decidable (FieldValid field) :=
  inferInstanceAs (Decidable (_ ∧ _))

def readField (first : UInt8) : Reader Field :=
  if first = 34 then
    readString.andThen fun key =>
      nextByte.andThen fun colon =>
        if colon = 58 then
          nextByte.andThen fun first =>
            (readItem first).andThen fun item => value (key, item)
        else fail
  else fail

theorem stable_readItem (first : UInt8) : Stable (readItem first) := by
  unfold readItem
  refine stable_ite (stable_readString.andThen fun _bytes => stable_value _) ?_
  refine stable_ite ((stable_expect _).andThen fun _end => stable_value _) ?_
  refine stable_ite ((stable_expect _).andThen fun _end => stable_value _) ?_
  refine stable_ite ((stable_expect _).andThen fun _end => stable_value _) ?_
  refine stable_ite (stable_onByte fun digit => ?_) ?_
  · exact stable_ite ((stable_readDigits _).andThen fun _number => stable_value _) stable_fail
  · exact stable_ite ((stable_readDigits _).andThen fun _number => stable_value _) stable_fail

theorem stable_readField (first : UInt8) : Stable (readField first) := by
  unfold readField
  refine stable_ite (stable_readString.andThen fun key => ?_) stable_fail
  refine stable_nextByte.andThen fun colon => stable_ite ?_ stable_fail
  refine stable_nextByte.andThen fun first => ?_
  exact (stable_readItem first).andThen fun _item => stable_value _

/-- A byte that may follow a scalar in an object. -/
def Ends (byte : UInt8) : Prop :=
  Decimal.isDigit byte = false

theorem readDigits_digits {number : Nat} {first byte : UInt8} {run : List UInt8}
    (written : Decimal.digits number = first :: run) (ends : Ends byte) (rest : List UInt8) :
    Decimal.isDigit first = true ∧
      readDigits (Decimal.digitValue first) (run ++ byte :: rest) =
        some (number, byte :: rest) := by
  have all := Decimal.digits_isDigit number
  have spelled := Decimal.number_digits number
  rw [written] at all spelled
  refine ⟨all first List.mem_cons_self, ?_⟩
  have front : Decimal.number (Decimal.digitValue first) run = number := by
    rw [← spelled]
    simp [Decimal.number]
  rw [readDigits_write (fun later member => all later (List.mem_cons_of_mem _ member)) ends, front]

theorem readItem_digit {first : UInt8} (digit : Decimal.isDigit first = true) :
    readItem first = (readDigits (Decimal.digitValue first)).andThen fun number =>
      value (.integer number) := by
  have different : ∀ byte : UInt8, Decimal.isDigit byte = false → first ≠ byte := by
    intro byte other same
    rw [same, other] at digit
    cases digit
  unfold readItem
  rw [if_neg (different 34 rfl), if_neg (different 116 rfl), if_neg (different 102 rfl),
    if_neg (different 110 rfl), if_neg (different 45 rfl), if_pos digit]

theorem readItem_write {item : Item} (valid : item.Valid) {byte : UInt8} (ends : Ends byte)
    (rest : List UInt8) :
    ∃ first tail, writeItem item = first :: tail ∧ isSpace first = false ∧
      readItem first (tail ++ byte :: rest) = some (item, byte :: rest) := by
  cases item with
  | text bytes =>
      refine ⟨34, _, rfl, rfl, ?_⟩
      have read := readString_write valid (byte :: rest)
      rw [List.append_assoc, List.singleton_append, readItem, if_pos rfl, andThen_of_eq read]
      rfl
  | integer number =>
      cases number with
      | ofNat number =>
          obtain ⟨first, run, written⟩ := List.exists_cons_of_ne_nil (Decimal.digits_ne_nil number)
          obtain ⟨digit, read⟩ := readDigits_digits written ends rest
          refine ⟨first, run, written, ?_, ?_⟩
          · unfold isSpace
            unfold Decimal.isDigit at digit
            simp only [decide_eq_true_eq, decide_eq_false_iff_not] at digit ⊢
            intro space
            rcases space with same | same | same | same
            all_goals
              rw [same] at digit
              revert digit
              decide
          · rw [readItem_digit digit, andThen_of_eq read]
            rfl
      | negSucc number =>
          obtain ⟨first, run, written⟩ :=
            List.exists_cons_of_ne_nil (Decimal.digits_ne_nil (number + 1))
          obtain ⟨digit, read⟩ := readDigits_digits written ends rest
          refine ⟨45, first :: run, congrArg (List.cons 45) written, rfl, ?_⟩
          rw [readItem, if_neg (by decide), if_neg (by decide), if_neg (by decide),
            if_neg (by decide), if_pos rfl, List.cons_append, onByte, if_pos digit,
            andThen_of_eq read]
          rfl
  | boolean truth =>
      cases truth with
      | true =>
          refine ⟨116, literal "rue", rfl, rfl, ?_⟩
          rw [readItem, if_neg (by decide), if_pos rfl, andThen_of_eq (expect_append _ _)]
          rfl
      | false =>
          refine ⟨102, literal "alse", rfl, rfl, ?_⟩
          rw [readItem, if_neg (by decide), if_neg (by decide), if_pos rfl,
            andThen_of_eq (expect_append _ _)]
          rfl
  | null =>
      refine ⟨110, literal "ull", rfl, rfl, ?_⟩
      rw [readItem, if_neg (by decide), if_neg (by decide), if_neg (by decide), if_pos rfl,
        andThen_of_eq (expect_append _ _)]
      rfl

def writeField (field : Field) : List UInt8 :=
  field.1.flatMap escaped ++ 34 :: 58 :: 32 :: writeItem field.2

theorem readField_write {field : Field} (valid : FieldValid field) {byte : UInt8}
    (ends : Ends byte) (rest : List UInt8) :
    readField 34 (writeField field ++ byte :: rest) = some (field, byte :: rest) := by
  obtain ⟨first, tail, written, notSpace, read⟩ := readItem_write valid.2 ends rest
  unfold writeField
  rw [written, List.append_assoc]
  simp only [List.cons_append]
  rw [readField, if_pos rfl, andThen_of_eq (readString_write valid.1 _),
    andThen_of_eq (nextByte_of_not_space (by decide) _), if_pos rfl]
  have spaced : nextByte (32 :: first :: (tail ++ byte :: rest)) =
      some (first, tail ++ byte :: rest) := by
    rw [nextByte_space (by decide), nextByte_of_not_space notSpace]
  rw [andThen_of_eq spaced, andThen_of_eq read]
  rfl

/-! ### Objects -/

/-- The fields of an object, from the first byte of the first one. -/
def readFields : Nat → UInt8 → Reader (List Field)
  | 0, _ => fail
  | fuel + 1, first =>
      (readField first).andThen fun field =>
        nextByte.andThen fun separator =>
          if separator = 44 then
            nextByte.andThen fun first =>
              (readFields fuel first).andThen fun fields => value (field :: fields)
          else if separator = 125 then value [field]
          else fail

def readObject (fuel : Nat) : Reader (List Field) :=
  nextByte.andThen fun brace =>
    if brace = 123 then
      nextByte.andThen fun first => if first = 125 then value [] else readFields fuel first
    else fail

/-- Read an object; what follows it is left alone. -/
def parse (text : List UInt8) : Option (List Field) :=
  (readObject text.length text).map Prod.fst

/-- The fields of an object behind the opening quote of the first one. -/
def writeFields : Field → List Field → List UInt8
  | field, [] => writeField field
  | field, next :: rest => writeField field ++ 44 :: 10 :: 32 :: 32 :: 34 :: writeFields next rest

def writeObject : List Field → List UInt8
  | [] => [123, 125]
  | field :: rest => 123 :: 10 :: 32 :: 32 :: 34 :: (writeFields field rest ++ [10, 125])

/-- Write an object, unless one of its strings is not UTF-8. -/
def dump (fields : List Field) : Option (List UInt8) :=
  if ∀ field ∈ fields, FieldValid field then some (writeObject fields) else none

theorem stable_readFields (fuel : Nat) (first : UInt8) : Stable (readFields fuel first) := by
  induction fuel generalizing first with
  | zero => exact stable_fail
  | succ fuel ih =>
      refine (stable_readField first).andThen fun field => ?_
      refine stable_nextByte.andThen fun separator => ?_
      refine stable_ite ?_ (stable_ite (stable_value _) stable_fail)
      refine stable_nextByte.andThen fun first => ?_
      exact (ih first).andThen fun _fields => stable_value _

theorem stable_readObject (fuel : Nat) : Stable (readObject fuel) := by
  refine stable_nextByte.andThen fun brace => stable_ite ?_ stable_fail
  refine stable_nextByte.andThen fun first => ?_
  exact stable_ite (stable_value _) (stable_readFields fuel first)

theorem readFields_mono {fuel more : Nat} (enough : fuel ≤ more) {first : UInt8}
    {text rest : List UInt8} {fields : List Field}
    (read : readFields fuel first text = some (fields, rest)) :
    readFields more first text = some (fields, rest) := by
  induction fuel generalizing more first text fields rest with
  | zero => cases read
  | succ fuel ih =>
      cases more with
      | zero => omega
      | succ more =>
          obtain ⟨field, text, takenField, read⟩ := andThen_eq_some read
          rw [readFields, andThen_of_eq takenField]
          obtain ⟨separator, text, takenSeparator, read⟩ := andThen_eq_some read
          rw [andThen_of_eq takenSeparator]
          split at read
          next comma =>
              rw [if_pos comma]
              obtain ⟨next, text, takenNext, read⟩ := andThen_eq_some read
              rw [andThen_of_eq takenNext]
              obtain ⟨later, text, takenLater, read⟩ := andThen_eq_some read
              rw [andThen_of_eq (ih (by omega) takenLater)]
              exact read
          next other =>
              rw [if_neg other]
              exact read

theorem readObject_mono {fuel more : Nat} (enough : fuel ≤ more) {text rest : List UInt8}
    {fields : List Field} (read : readObject fuel text = some (fields, rest)) :
    readObject more text = some (fields, rest) := by
  obtain ⟨brace, text, takenBrace, read⟩ := andThen_eq_some read
  rw [readObject, andThen_of_eq takenBrace]
  split at read
  next opens =>
      rw [if_pos opens]
      obtain ⟨first, text, takenFirst, read⟩ := andThen_eq_some read
      rw [andThen_of_eq takenFirst]
      split at read
      next closes =>
          rw [if_pos closes]
          exact read
      next field =>
          rw [if_neg field]
          exact readFields_mono enough read
  next => cases read

theorem readFields_write {field : Field} {fields : List Field}
    (valid : ∀ other ∈ field :: fields, FieldValid other) (rest : List UInt8) {fuel : Nat}
    (enough : fields.length < fuel) :
    readFields fuel 34 (writeFields field fields ++ 10 :: 125 :: rest) =
      some (field :: fields, rest) := by
  induction fields generalizing field fuel with
  | nil =>
      cases fuel with
      | zero => cases enough
      | succ fuel =>
          have fieldRead := readField_write (valid field List.mem_cons_self) (by rfl : Ends 10)
            (125 :: rest)
          rw [readFields, writeFields, andThen_of_eq fieldRead,
            andThen_of_eq (nextByte_space (by decide) (125 :: rest)), if_neg (by decide),
            if_pos rfl]
          rfl
  | cons next fields ih =>
      cases fuel with
      | zero => cases enough
      | succ fuel =>
          have later : ∀ other ∈ next :: fields, FieldValid other := fun other member =>
            valid other (List.mem_cons_of_mem _ member)
          have fieldsRead := ih later (Nat.lt_of_succ_lt_succ enough)
          have fieldRead := readField_write (valid field List.mem_cons_self) (by rfl : Ends 44)
            (10 :: 32 :: 32 :: 34 :: (writeFields next fields ++ 10 :: 125 :: rest))
          have spaced : nextByte
              (10 :: 32 :: 32 :: 34 :: (writeFields next fields ++ 10 :: 125 :: rest)) =
                some (34, writeFields next fields ++ 10 :: 125 :: rest) := by
            rw [nextByte_space (by decide), nextByte_space (by decide), nextByte_space (by decide),
              nextByte_of_not_space (by decide)]
          rw [readFields, writeFields, List.append_assoc]
          simp only [List.cons_append]
          rw [andThen_of_eq fieldRead, andThen_of_eq (nextByte_of_not_space (by decide) _),
            if_pos rfl, andThen_of_eq spaced, andThen_of_eq fieldsRead]
          rfl

theorem length_le_writeFields (field : Field) (fields : List Field) :
    fields.length ≤ (writeFields field fields).length := by
  induction fields generalizing field with
  | nil => exact Nat.zero_le _
  | cons next fields ih =>
      have rest := ih next
      simp only [writeFields, List.length_append, List.length_cons]
      omega

theorem readObject_write {fields : List Field} (valid : ∀ field ∈ fields, FieldValid field) :
    readObject (writeObject fields).length (writeObject fields) = some (fields, []) := by
  cases fields with
  | nil => rfl
  | cons field fields =>
      have enough := length_le_writeFields field fields
      have spaced : nextByte (10 :: 32 :: 32 :: 34 :: (writeFields field fields ++ [10, 125])) =
          some (34, writeFields field fields ++ [10, 125]) := by
        rw [nextByte_space (by decide), nextByte_space (by decide), nextByte_space (by decide),
          nextByte_of_not_space (by decide)]
      rw [readObject, writeObject, andThen_of_eq (nextByte_of_not_space (by decide) _), if_pos rfl,
        andThen_of_eq spaced, if_neg (by decide)]
      apply readFields_write valid
      simp only [List.length_cons, List.length_append]
      omega

/-! ### Writing and reading -/

theorem dump_isSome_iff (fields : List Field) :
    (dump fields).isSome = true ↔ ∀ field ∈ fields, FieldValid field := by
  unfold dump
  split
  next valid => exact iff_of_true rfl valid
  next invalid => exact iff_of_false (by simp) invalid

theorem dump_eq_some {fields : List Field} {text : List UInt8} (written : dump fields = some text) :
    (∀ field ∈ fields, FieldValid field) ∧ text = writeObject fields := by
  unfold dump at written
  split at written
  next valid => exact ⟨valid, (Option.some.inj written).symm⟩
  next => cases written

/-- Reading undoes writing. -/
theorem parse_dump {fields : List Field} {text : List UInt8} (written : dump fields = some text) :
    parse text = some fields := by
  obtain ⟨valid, whole⟩ := dump_eq_some written
  rw [whole, parse, readObject_write valid]
  rfl

theorem parse_take {fields : List Field} {text : List UInt8} (written : dump fields = some text)
    {count : Nat} (short : count < text.length) : parse (text.take count) = none := by
  obtain ⟨valid, whole⟩ := dump_eq_some written
  by_contra accepted
  obtain ⟨other, parsed⟩ := Option.ne_none_iff_exists'.mp accepted
  obtain ⟨⟨_other, rest⟩, read, _same⟩ := Option.map_eq_some_iff.mp parsed
  have fewer : (text.take count).length ≤ text.length := List.length_take_le' _ _
  have extended := stable_readObject _ _ _ _ (text.drop count) (readObject_mono fewer read)
  rw [List.take_append_drop, whole, readObject_write valid] at extended
  have nothing : rest ++ (writeObject fields).drop count = [] :=
    (congrArg Prod.snd (Option.some.inj extended)).symm
  have length := congrArg List.length (List.append_eq_nil_iff.mp nothing).2
  rw [List.length_drop, List.length_nil, ← whole] at length
  omega

end JsonText
