/-
CBOR for flat maps from text keys to scalars.

Only definite lengths are produced, each in the shortest head that holds it.
The head of a length that does not fit 64 bits has no standard form; a reserved
code with a unary length stands in for it, so that decoding undoes encoding
without a side condition.
-/

import Mathlib.Algebra.Group.Nat.Defs
import Mathlib.Data.List.Basic

namespace Cbor

inductive Item where
  | text (bytes : List UInt8)
  | integer (value : Int)
  | boolean (value : Bool)
  | null
deriving DecidableEq

/-! ### Heads -/

/-- A number in `width` bytes, most significant first. -/
def bigEndian : Nat → Nat → List UInt8
  | 0, _ => []
  | width + 1, value => bigEndian width (value / 256) ++ [UInt8.ofNat (value % 256)]

def readBigEndian (bytes : List UInt8) : Nat :=
  bytes.foldl (fun value byte => value * 256 + byte.toNat) 0

theorem bigEndian_length (width value : Nat) : (bigEndian width value).length = width := by
  induction width generalizing value with
  | zero => rfl
  | succ width ih => simp [bigEndian, ih]

theorem readBigEndian_bigEndian (width value : Nat) (bounded : value < 256 ^ width) :
    readBigEndian (bigEndian width value) = value := by
  induction width generalizing value with
  | zero =>
      have zero : value = 0 := by simpa using bounded
      subst zero
      rfl
  | succ width ih =>
      have high : value / 256 < 256 ^ width := by
        rw [Nat.pow_succ] at bounded
        exact Nat.div_lt_of_lt_mul (by omega)
      have front := ih (value / 256) high
      unfold readBigEndian at front ⊢
      rw [bigEndian, List.foldl_append, front]
      simp only [List.foldl_cons, List.foldl_nil, UInt8.toNat_ofNat']
      omega

def initialByte (major info : Nat) : UInt8 :=
  UInt8.ofNat (major * 32 + info)

def head (major value : Nat) : List UInt8 :=
  if value < 24 then [initialByte major value]
  else if value < 256 ^ 1 then initialByte major 24 :: bigEndian 1 value
  else if value < 256 ^ 2 then initialByte major 25 :: bigEndian 2 value
  else if value < 256 ^ 4 then initialByte major 26 :: bigEndian 4 value
  else if value < 256 ^ 8 then initialByte major 27 :: bigEndian 8 value
  else initialByte major 28 :: (List.replicate value 1 ++ [0])

def readFixed (width : Nat) (bytes : List UInt8) : Option (Nat × List UInt8) :=
  if bytes.length < width then none
  else some (readBigEndian (bytes.take width), bytes.drop width)

def readUnary : List UInt8 → Option (Nat × List UInt8)
  | [] => none
  | byte :: rest =>
      if byte = 0 then some (0, rest)
      else (readUnary rest).map fun result => (result.1 + 1, result.2)

def readArgument (info : Nat) (bytes : List UInt8) : Option (Nat × List UInt8) :=
  if info < 24 then some (info, bytes)
  else if info = 24 then readFixed 1 bytes
  else if info = 25 then readFixed 2 bytes
  else if info = 26 then readFixed 4 bytes
  else if info = 27 then readFixed 8 bytes
  else if info = 28 then readUnary bytes
  else none

/-- The major type, the argument and what follows the head. -/
def readHead : List UInt8 → Option (Nat × Nat × List UInt8)
  | [] => none
  | byte :: rest =>
      (readArgument (byte.toNat % 32) rest).map fun result =>
        (byte.toNat / 32, result.1, result.2)

theorem readFixed_bigEndian (width value : Nat) (bounded : value < 256 ^ width)
    (rest : List UInt8) : readFixed width (bigEndian width value ++ rest) = some (value, rest) := by
  have length := bigEndian_length width value
  unfold readFixed
  rw [if_neg (by rw [List.length_append, length]; omega),
    List.take_append_of_le_length (by omega), List.drop_append_of_le_length (by omega),
    List.take_of_length_le (by omega), List.drop_of_length_le (by omega),
    readBigEndian_bigEndian width value bounded, List.nil_append]

theorem readUnary_replicate (value : Nat) (rest : List UInt8) :
    readUnary (List.replicate value 1 ++ 0 :: rest) = some (value, rest) := by
  induction value with
  | zero => simp [readUnary]
  | succ value ih => simp [List.replicate_succ, readUnary, ih]

private theorem initialByte_toNat {major info : Nat} (majorBound : major < 8)
    (infoBound : info < 32) : (initialByte major info).toNat = major * 32 + info := by
  unfold initialByte
  rw [UInt8.toNat_ofNat']
  omega

private theorem readHead_initialByte {major info : Nat} (majorBound : major < 8)
    (infoBound : info < 32) (bytes : List UInt8) :
    readHead (initialByte major info :: bytes) =
      (readArgument info bytes).map fun result => (major, result.1, result.2) := by
  have whole := initialByte_toNat majorBound infoBound
  have quotient : (major * 32 + info) / 32 = major := by omega
  have remainder : (major * 32 + info) % 32 = info := by omega
  rw [readHead, whole, quotient, remainder]

theorem readHead_head {major : Nat} (majorBound : major < 8) (value : Nat)
    (rest : List UInt8) : readHead (head major value ++ rest) = some (major, value, rest) := by
  have fixed (info width : Nat) (infoBound : info < 32) (bounded : value < 256 ^ width)
      (reads : ∀ bytes, readArgument info bytes = readFixed width bytes) :
      readHead (initialByte major info :: (bigEndian width value ++ rest)) =
        some (major, value, rest) := by
    rw [readHead_initialByte majorBound infoBound, reads,
      readFixed_bigEndian width value bounded, Option.map_some]
  unfold head
  split
  · rename_i direct
    rw [List.singleton_append, readHead_initialByte majorBound (by omega), readArgument,
      if_pos direct, Option.map_some]
  · split
    · rename_i bounded
      exact fixed 24 1 (by decide) bounded fun _bytes => rfl
    · split
      · rename_i bounded
        exact fixed 25 2 (by decide) bounded fun _bytes => rfl
      · split
        · rename_i bounded
          exact fixed 26 4 (by decide) bounded fun _bytes => rfl
        · split
          · rename_i bounded
            exact fixed 27 8 (by decide) bounded fun _bytes => rfl
          · rw [List.cons_append, readHead_initialByte majorBound (by decide),
              List.append_assoc, List.singleton_append]
            have unary : readArgument 28 (List.replicate value 1 ++ 0 :: rest) =
                some (value, rest) := readUnary_replicate value rest
            rw [unary, Option.map_some]

/-! ### Items and maps -/

def encodeText (bytes : List UInt8) : List UInt8 :=
  head 3 bytes.length ++ bytes

def encodeItem : Item → List UInt8
  | .text bytes => encodeText bytes
  | .integer value =>
      if 0 ≤ value then head 0 value.toNat else head 1 (-1 - value).toNat
  | .boolean false => head 7 20
  | .boolean true => head 7 21
  | .null => head 7 22

def encodeEntries : List (List UInt8 × Item) → List UInt8
  | [] => []
  | entry :: rest => encodeText entry.1 ++ encodeItem entry.2 ++ encodeEntries rest

def encodeMap (entries : List (List UInt8 × Item)) : List UInt8 :=
  head 5 entries.length ++ encodeEntries entries

def readText (count : Nat) (bytes : List UInt8) : Option (List UInt8 × List UInt8) :=
  if bytes.length < count then none else some (bytes.take count, bytes.drop count)

def readItem (bytes : List UInt8) : Option (Item × List UInt8) :=
  match readHead bytes with
  | some (0, value, rest) => some (.integer value, rest)
  | some (1, value, rest) => some (.integer (-1 - value), rest)
  | some (3, count, rest) =>
      (readText count rest).map fun result => (.text result.1, result.2)
  | some (7, 20, rest) => some (.boolean false, rest)
  | some (7, 21, rest) => some (.boolean true, rest)
  | some (7, 22, rest) => some (.null, rest)
  | _ => none

def readKey (bytes : List UInt8) : Option (List UInt8 × List UInt8) :=
  match readItem bytes with
  | some (.text key, rest) => some (key, rest)
  | _ => none

def readEntries : Nat → List UInt8 → Option (List (List UInt8 × Item) × List UInt8)
  | 0, bytes => some ([], bytes)
  | count + 1, bytes =>
      (readKey bytes).bind fun key =>
        (readItem key.2).bind fun item =>
          (readEntries count item.2).map fun rest => ((key.1, item.1) :: rest.1, rest.2)

/-- A map that is the whole input. -/
def decodeMap (bytes : List UInt8) : Option (List (List UInt8 × Item)) :=
  match readHead bytes with
  | some (5, count, body) =>
      match readEntries count body with
      | some (entries, []) => some entries
      | _ => none
  | _ => none

theorem readText_append (text rest : List UInt8) :
    readText text.length (text ++ rest) = some (text, rest) := by
  simp [readText]

theorem readItem_encodeItem (item : Item) (rest : List UInt8) :
    readItem (encodeItem item ++ rest) = some (item, rest) := by
  cases item with
  | text bytes =>
      simp only [encodeItem, encodeText, List.append_assoc, readItem,
        readHead_head (by decide : 3 < 8), readText_append, Option.map_some]
  | integer value =>
      by_cases nonnegative : 0 ≤ value
      · have whole : ((value.toNat : Nat) : Int) = value := Int.toNat_of_nonneg nonnegative
        simp only [encodeItem, if_pos nonnegative, readItem, readHead_head (by decide : 0 < 8),
          whole]
      · have whole : (-1 : Int) - ((-1 - value).toNat : Nat) = value := by omega
        simp only [encodeItem, if_neg nonnegative, readItem, readHead_head (by decide : 1 < 8),
          whole]
  | boolean value =>
      cases value <;>
        simp only [encodeItem, readItem, readHead_head (by decide : 7 < 8)]
  | null =>
      simp only [encodeItem, readItem, readHead_head (by decide : 7 < 8)]

theorem readKey_encodeText (key rest : List UInt8) :
    readKey (encodeText key ++ rest) = some (key, rest) := by
  unfold readKey
  have item : readItem (encodeText key ++ rest) = some (.text key, rest) :=
    readItem_encodeItem (.text key) rest
  rw [item]

theorem readEntries_encodeEntries (entries : List (List UInt8 × Item)) (rest : List UInt8) :
    readEntries entries.length (encodeEntries entries ++ rest) = some (entries, rest) := by
  induction entries with
  | nil => rfl
  | cons entry entries ih =>
      simp only [List.length_cons, readEntries, encodeEntries, List.append_assoc,
        readKey_encodeText, Option.bind_some, readItem_encodeItem, ih, Option.map_some]

theorem decodeMap_encodeMap (entries : List (List UInt8 × Item)) :
    decodeMap (encodeMap entries) = some entries := by
  have body := readEntries_encodeEntries entries []
  rw [List.append_nil] at body
  simp only [decodeMap, encodeMap, readHead_head (by decide : 5 < 8), body]

end Cbor
