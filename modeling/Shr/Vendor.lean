/-
The libraries the node is linked with.

JSON values are kept as far as the handlers can tell them apart: a handler
reads named fields of an object as a string or as a number, and every other
shape only makes a read throw.  The CBOR and Base64 codecs and the digest are
the operations of one structure whose laws are the documented behaviour the
node relies on: decoding undoes encoding, and a digest fed in pieces is the
digest of their concatenation.
-/

import Shr.Types

namespace Shr

/-! ### JSON -/

/-- A field of an object.  `number` stands for any numeric value, by the
integer that a conversion to an integer type starts from. -/
inductive JsonValue where
  | string (text : Bytes)
  | number (value : Int)
  | boolean (value : Bool)
  | other
deriving DecidableEq

inductive Json where
  | object (fields : List (Bytes × JsonValue))
  | other
deriving DecidableEq

def JsonValue.asString : JsonValue → Option Bytes
  | .string text => some text
  | _ => none

/-- Conversion to `uint64_t` is a `static_cast` of the number. -/
def JsonValue.asUInt64 : JsonValue → Option UInt64
  | .number value => some (UInt64.ofInt value)
  | _ => none

def JsonValue.asInt64 : JsonValue → Option Int64
  | .number value => some (Int64.ofInt value)
  | _ => none

/-- Conversion to `uint16_t` takes a boolean too: the library refuses one only
for its own number types. -/
def JsonValue.asUInt16 : JsonValue → Option UInt16
  | .number value => some (UInt16.ofInt value)
  | .boolean value => some (if value then 1 else 0)
  | _ => none

theorem JsonValue.asUInt16_number (port : UInt16) :
    (JsonValue.number port.toNat).asUInt16 = some port := by
  have bounded := port.toNat_lt
  have inRange : ((port.toNat : Int) % 2 ^ 16).toNat = port.toNat := by
    omega
  rw [asUInt16, UInt16.ofInt, inRange, UInt16.ofNat_toNat]

/-- `json::value(key, fallback)`; `none` is a thrown exception, for a value
that is no object or a field that does not convert. -/
def Json.value {α : Type} (json : Json) (key : String)
    (convert : JsonValue → Option α) (fallback : α) : Option α :=
  match json with
  | .other => none
  | .object fields =>
      match fields.lookup (ascii key) with
      | none => some fallback
      | some field => convert field

/-- What a codec can be expected to carry: text, 64-bit integers, booleans. -/
def JsonValue.Transmissible : JsonValue → Prop
  | .string _ => True
  | .number value => -2 ^ 63 ≤ value ∧ value < 2 ^ 64
  | .boolean _ => True
  | .other => False

/-- An object as the library holds it: keys sorted and pairwise different. -/
structure Transmissible (fields : List (Bytes × JsonValue)) : Prop where
  sorted : (fields.map Prod.fst).Pairwise (· < ·)
  values : ∀ field ∈ fields, field.2.Transmissible

theorem JsonValue.transmissible_uint64 (value : UInt64) :
    (JsonValue.number value.toNat).Transmissible := by
  have bounded := value.toNat_lt
  simp only [JsonValue.Transmissible]
  omega

theorem JsonValue.transmissible_int64 (value : Int64) :
    (JsonValue.number value.toInt).Transmissible := by
  have lower := value.le_toInt
  have upper := value.toInt_lt
  simp only [JsonValue.Transmissible]
  omega

@[simp] theorem JsonValue.asInt64_toInt (value : Int64) :
    (JsonValue.number value.toInt).asInt64 = some value := by
  rw [JsonValue.asInt64, Int64.ofInt_toInt]

@[simp] theorem JsonValue.asUInt64_toNat (value : UInt64) :
    (JsonValue.number value.toNat).asUInt64 = some value := by
  have inRange : ((value.toNat : Int) % 2 ^ 64).toNat = value.toNat := by
    have bounded := value.toNat_lt
    omega
  simp only [JsonValue.asUInt64, UInt64.ofInt, inRange, UInt64.ofNat_toNat]

/-! ### Codecs and digest -/

/-- The library functions the node calls.  `fromCbor` is `none` where decoding
throws. -/
structure Vendor where
  fromCbor : Bytes → Option Json
  toCbor : List (Bytes × JsonValue) → Bytes
  base64Encode : Bytes → Bytes
  base64Decode : Bytes → Bytes
  Digest : Type
  digestInit : Digest
  digestUpdate : Digest → Bytes → Digest
  digestFinal : Digest → Bytes
  fromCbor_toCbor : ∀ fields, Transmissible fields →
    fromCbor (toCbor fields) = some (.object fields)
  base64Decode_encode : ∀ data, base64Decode (base64Encode data) = data
  digestUpdate_nil : ∀ digest, digestUpdate digest [] = digest
  digestUpdate_append : ∀ digest first second,
    digestUpdate (digestUpdate digest first) second = digestUpdate digest (first ++ second)

end Shr
