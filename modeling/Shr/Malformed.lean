/-
Malformed payloads.

A handler reads its payload before it does anything, and every field it reads is
read before the first effect.  So a payload that does not decode, is no object or
has one field of a wrong type leaves the node as it was, without an answer.
-/

import Shr.Messaging.Operations
import Shr.Peers.Operations
import Shr.Reference

namespace Shr

/-! ### Fields -/

inductive FieldType where
  | text
  | uint64
  | int64
  | uint16
deriving DecidableEq

def FieldType.converts : FieldType → JsonValue → Bool
  | .text, value => value.asString.isSome
  | .uint64, value => value.asUInt64.isSome
  | .int64, value => value.asInt64.isSome
  | .uint16, value => value.asUInt16.isSome

structure Field where
  key : String
  type : FieldType
deriving DecidableEq

/-- The payload is no CBOR, or no object, or has a field that does not convert to
the type a reader expects. -/
inductive Malformed (vendor : Vendor) (reads : List Field) (payload : Bytes) : Prop where
  | undecodable (broken : vendor.fromCbor payload = none)
  | notObject (decoded : vendor.fromCbor payload = some .other)
  | mistyped {fields : List (Bytes × JsonValue)} {field : Field} {value : JsonValue}
      (decoded : vendor.fromCbor payload = some (.object fields)) (expected : field ∈ reads)
      (present : fields.lookup (ascii field.key) = some value)
      (refused : field.type.converts value = false)

def Json.Readable (json : Json) (field : Field) : Prop :=
  ∃ fields, json = .object fields ∧
    ∀ value, fields.lookup (ascii field.key) = some value → field.type.converts value = true

/-- What is read from the value has every listed field in its type. -/
def ReadsFrom {α : Type} (json : Json) (reads : List Field) (read : Option α) : Prop :=
  ∀ result, read = some result → ∀ field ∈ reads, json.Readable field

def ReadsAll {α : Type} (vendor : Vendor) (reads : List Field) (read : Bytes → Option α) : Prop :=
  ∀ payload result, read payload = some result →
    ∃ json, vendor.fromCbor payload = some json ∧ ∀ field ∈ reads, json.Readable field

section Fields

variable {vendor : Vendor} {reads : List Field} {payload : Bytes} {α : Type}

theorem Malformed.unread (malformed : Malformed vendor reads payload) (nonempty : reads ≠ [])
    {read : Bytes → Option α} (readsAll : ReadsAll vendor reads read) : read payload = none := by
  rw [Option.eq_none_iff_forall_ne_some]
  intro result success
  obtain ⟨json, decoded, readable⟩ := readsAll payload result success
  cases malformed with
  | undecodable broken =>
      rw [broken] at decoded
      cases decoded
  | notObject other =>
      obtain ⟨first, rest, shape⟩ := List.exists_cons_of_ne_nil nonempty
      rw [other] at decoded
      cases decoded
      obtain ⟨fields, impossible, _typed⟩ := readable first (shape ▸ List.mem_cons_self)
      cases impossible
  | @mistyped fields field value object expected present refused =>
      rw [object] at decoded
      cases decoded
      obtain ⟨same, isObject, typed⟩ := readable field expected
      cases isObject
      rw [typed value present] at refused
      cases refused

theorem Json.readable_of_value {json : Json} {key : String} {type : FieldType}
    {convert : JsonValue → Option α} {fallback result : α}
    (converts : ∀ value, type.converts value = (convert value).isSome)
    (read : json.value key convert fallback = some result) :
    json.Readable { key := key, type := type } := by
  cases json with
  | other => cases read
  | object fields =>
      refine ⟨fields, rfl, ?_⟩
      intro value present
      simp only [Json.value, present] at read
      rw [converts, read, Option.isSome_some]

variable {β : Type} {json : Json}

theorem ReadsFrom.nil {read : Option α} : ReadsFrom json [] read := by
  intro result _success field impossible
  cases impossible

theorem ReadsFrom.cons {key : String} {type : FieldType} {convert : JsonValue → Option β}
    {fallback : β} {next : β → Option α}
    (converts : ∀ value, type.converts value = (convert value).isSome)
    (rest : ∀ first, ReadsFrom json reads (next first)) :
    ReadsFrom json ({ key := key, type := type } :: reads)
      (json.value key convert fallback >>= next) := by
  intro result success
  obtain ⟨first, read, later⟩ := Option.bind_eq_some_iff.mp success
  rw [List.forall_mem_cons]
  exact ⟨Json.readable_of_value converts read, rest first result later⟩

theorem ReadsFrom.last {key : String} {type : FieldType} {convert : JsonValue → Option α}
    {fallback : α} (converts : ∀ value, type.converts value = (convert value).isSome) :
    ReadsFrom json [{ key := key, type := type }] (json.value key convert fallback) := by
  intro result success
  rw [List.forall_mem_cons]
  exact ⟨Json.readable_of_value converts success, ReadsFrom.nil result success⟩

theorem readsAll_of_decoded {read : Json → Option α}
    (readsFrom : ∀ json, ReadsFrom json reads (read json)) :
    ReadsAll vendor reads fun payload => vendor.fromCbor payload >>= read := by
  intro payload result success
  obtain ⟨json, decoded, fromJson⟩ := Option.bind_eq_some_iff.mp success
  exact ⟨json, decoded, readsFrom json result fromJson⟩

end Fields

/-! ### What the handlers read -/

def offerReads : List Field :=
  [ { key := "transfer_id", type := .text },
    { key := "filename", type := .text },
    { key := "size", type := .uint64 },
    { key := "checksum", type := .text },
    { key := "sender_id", type := .text } ]

def chunkReads : List Field :=
  [ { key := "transfer_id", type := .text },
    { key := "offset", type := .uint64 },
    { key := "data", type := .text },
    { key := "checksum", type := .text } ]

def completeReads : List Field :=
  [ { key := "transfer_id", type := .text },
    { key := "checksum", type := .text } ]

def messageReads : List Field :=
  [ { key := "id", type := .text },
    { key := "sender_id", type := .text },
    { key := "recipient_id", type := .text },
    { key := "content", type := .text },
    { key := "timestamp", type := .int64 } ]

def announcementReads : List Field :=
  [ { key := "id", type := .text },
    { key := "port", type := .uint16 } ]

def livenessReads : List Field :=
  [{ key := "from", type := .text }]

section Readers

variable (vendor : Vendor)

theorem readFileOffer_readsAll (random : Random) :
    ReadsAll vendor offerReads (readFileOffer vendor random) :=
  readsAll_of_decoded fun _json =>
    .cons (fun _value => rfl) fun _xferId => .cons (fun _value => rfl) fun _filename =>
      .cons (fun _value => rfl) fun _fileSize => .cons (fun _value => rfl) fun _checksum =>
        .cons (fun _value => rfl) fun _senderId => .nil

theorem readFileChunk_readsAll : ReadsAll vendor chunkReads (readFileChunk vendor) :=
  readsAll_of_decoded fun _json =>
    .cons (fun _value => rfl) fun _xferId => .cons (fun _value => rfl) fun _offset =>
      .cons (fun _value => rfl) fun _b64data => .cons (fun _value => rfl) fun _checksum => .nil

theorem readFileComplete_readsAll : ReadsAll vendor completeReads (readFileComplete vendor) :=
  readsAll_of_decoded fun _json =>
    .cons (fun _value => rfl) fun _xferId => .cons (fun _value => rfl) fun _checksum => .nil

theorem readMessage_readsAll (ownId : Bytes) (arrival : Messaging.Arrival) :
    ReadsAll vendor messageReads (Messaging.readMessage vendor ownId arrival) :=
  readsAll_of_decoded fun _json =>
    .cons (fun _value => rfl) fun _id => .cons (fun _value => rfl) fun _senderId =>
      .cons (fun _value => rfl) fun _recipientId => .cons (fun _value => rfl) fun _content =>
        .cons (fun _value => rfl) fun _timestamp => .nil

theorem readAnnouncement_readsAll :
    ReadsAll vendor announcementReads (Peers.readAnnouncement vendor) :=
  readsAll_of_decoded fun _json =>
    .cons (fun _value => rfl) fun _id => .cons (fun _value => rfl) fun _port => .nil

theorem readFrom_readsAll : ReadsAll vendor livenessReads (Peers.readFrom vendor) :=
  readsAll_of_decoded fun _json => .last fun _value => rfl

end Readers

/-! ### Handlers -/

inductive Handler where
  | fileOffer
  | fileChunk
  | fileComplete
  | msgReceive
  | discover
  | announce
  | ping
  | pong
deriving DecidableEq

def Handler.reads : Handler → List Field
  | .fileOffer => offerReads
  | .fileChunk => chunkReads
  | .fileComplete => completeReads
  | .msgReceive => messageReads
  | .discover => announcementReads
  | .announce => announcementReads
  | .ping => livenessReads
  | .pong => livenessReads

theorem Handler.reads_ne_nil (handler : Handler) : handler.reads ≠ [] := by
  cases handler <;> exact List.cons_ne_nil _ _

/-- The handler returns at once: it leaves the node and its tables as they are,
opens no file and sends nothing.  `handle_msg_receive` has no connection, and a
handler of the peers that is done asks neither the store nor the network. -/
def Handler.Ignores (vendor : Vendor) (payload : Bytes) : Handler → Prop
  | .fileOffer => ∀ (host : Host) (arrival : Arrival) (node : Node),
      handleFileOffer vendor host arrival payload node = Handled.quiet node
  | .fileChunk => ∀ (host : Host) (arrival : Arrival) (node : Node),
      handleFileChunk vendor host arrival payload node = Handled.quiet node
  | .fileComplete => ∀ (host : Host) (arrival : Arrival) (node : Node),
      handleFileComplete vendor host arrival payload node = Handled.quiet node
  | .msgReceive => ∀ (ownId : Bytes) (arrival : Messaging.Arrival) (table : MessageTable),
      Messaging.handleMsgReceive vendor ownId arrival payload table = table
  | .discover => ∀ (ownId : Bytes) (listenPort : UInt16),
      Peers.handleDiscover vendor ownId listenPort payload = .done ()
  | .announce => ∀ ownId : Bytes, Peers.handleAnnounce vendor ownId payload = .done ()
  | .ping => ∀ ownId : Bytes, Peers.handlePing vendor ownId payload = .done ()
  | .pong => Peers.handlePong vendor payload = .done ()

/-- A payload that is malformed for what a handler reads changes nothing. -/
theorem malformed_ignored (vendor : Vendor) (handler : Handler) (payload : Bytes)
    (malformed : Malformed vendor handler.reads payload) : handler.Ignores vendor payload := by
  have nonempty := handler.reads_ne_nil
  cases handler with
  | fileOffer =>
      intro host arrival node
      have unread := malformed.unread nonempty (readFileOffer_readsAll vendor arrival.random)
      rw [handleFileOffer, unread]
  | fileChunk =>
      intro host arrival node
      have unread := malformed.unread nonempty (readFileChunk_readsAll vendor)
      rw [handleFileChunk, unread]
  | fileComplete =>
      intro host arrival node
      have unread := malformed.unread nonempty (readFileComplete_readsAll vendor)
      rw [handleFileComplete, unread]
  | msgReceive =>
      intro ownId arrival table
      have unread := malformed.unread nonempty (readMessage_readsAll vendor ownId arrival)
      rw [Messaging.handleMsgReceive, unread]
  | discover =>
      intro ownId listenPort
      have unread := malformed.unread nonempty (readAnnouncement_readsAll vendor)
      rw [Peers.handleDiscover, unread]
      rfl
  | announce =>
      intro ownId
      have unread := malformed.unread nonempty (readAnnouncement_readsAll vendor)
      rw [Peers.handleAnnounce, unread]
      rfl
  | ping =>
      intro ownId
      have unread := malformed.unread nonempty (readFrom_readsAll vendor)
      rw [Peers.handlePing, unread]
      rfl
  | pong =>
      have unread := malformed.unread nonempty (readFrom_readsAll vendor)
      change Peers.handlePong vendor payload = .done ()
      rw [Peers.handlePong, unread]
      rfl

namespace Reference

def numberedFields : List (Bytes × JsonValue) :=
  [(ascii "transfer_id", .number 7)]

theorem numbered_malformed :
    Malformed vendor Handler.fileComplete.reads (toCbor numberedFields) :=
  .mistyped (fromCbor_toCbor numberedFields) List.mem_cons_self
    (List.lookup_cons_self : numberedFields.lookup (ascii "transfer_id") = some (.number 7)) rfl

theorem numbered_completion_ignored :
    Handler.fileComplete.Ignores vendor (toCbor numberedFields) :=
  malformed_ignored vendor .fileComplete _ numbered_malformed

end Reference

end Shr
