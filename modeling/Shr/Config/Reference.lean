/-
A concrete JSON library, and a home directory.

The text of flat objects.  Concrete runs of the configuration are stated over
these.
-/

import Shr.Config.Settings
import Shr.Library.JsonText

namespace Shr

namespace Reference

def jsonItem : JsonValue → JsonText.Item
  | .string text => .text text
  | .number value => .integer value
  | .boolean value => .boolean value
  | .other => .null

def jsonValue : JsonText.Item → JsonValue
  | .text text => .string text
  | .integer value => .number value
  | .boolean value => .boolean value
  | .null => .other

def textField (field : Bytes × JsonValue) : JsonText.Field :=
  (field.1, jsonItem field.2)

def jsonField (field : JsonText.Field) : Bytes × JsonValue :=
  (field.1, jsonValue field.2)

theorem jsonField_textField (field : Bytes × JsonValue) : jsonField (textField field) = field := by
  obtain ⟨key, value⟩ := field
  cases value <;> rfl

theorem map_jsonField_textField (fields : List (Bytes × JsonValue)) :
    (fields.map textField).map jsonField = fields := by
  have undone : jsonField ∘ textField = id := funext jsonField_textField
  rw [List.map_map, undone, List.map_id]

theorem fieldValid_iff (field : Bytes × JsonValue) :
    JsonText.FieldValid (textField field) ↔ Utf8.Valid field.1 ∧ field.2.Encodable := by
  obtain ⟨key, value⟩ := field
  cases value <;> exact Iff.rfl

def parseJson (text : Bytes) : Option Json :=
  (JsonText.parse text).map fun fields => .object (fields.map jsonField)

def dumpJson (fields : List (Bytes × JsonValue)) : Option Bytes :=
  JsonText.dump (fields.map textField)

def writeJson (fields : List (Bytes × JsonValue)) : Bytes :=
  JsonText.writeObject (fields.map textField)

theorem parseJson_writeJson {fields : List (Bytes × JsonValue)} (encodable : Encodable fields) :
    parseJson (writeJson fields) = some (.object fields) := by
  have valid : ∀ field ∈ fields.map textField, JsonText.FieldValid field := by
    rw [List.forall_mem_map]
    intro field member
    exact (fieldValid_iff field).mpr (encodable field member)
  unfold parseJson writeJson
  rw [JsonText.parse_dump (if_pos valid), Option.map_some, map_jsonField_textField]

def jsonLibrary : JsonLibrary :=
  { parse := parseJson
    dump := dumpJson
    dump_isSome_iff := by
      intro fields _transmissible
      unfold dumpJson
      rw [JsonText.dump_isSome_iff, List.forall_mem_map]
      exact forall₂_congr fun field _member => fieldValid_iff field
    parse_dump := by
      intro fields text _transmissible written
      unfold parseJson
      rw [JsonText.parse_dump written, Option.map_some, map_jsonField_textField]
    parse_take := by
      intro fields text count _transmissible written short
      unfold parseJson
      rw [JsonText.parse_take written short, Option.map_none]
    parse_nil := rfl }

theorem jsonLibrary_parse {fields : List (Bytes × JsonValue)} (encodable : Encodable fields) :
    jsonLibrary.parse (writeJson fields) = some (.object fields) :=
  parseJson_writeJson encodable

def home : Home :=
  { configDir := ascii "/home/user/.shr"
    receivedDir := ascii "/home/user/shr_received" }

def portEnvironment (value : Text) : Environment :=
  { Environment.empty with shrPort := some value }

end Reference

end Shr
