/-
The payloads of the transfer packets, after `transfer.cxx`.

For each packet there is the object its sender encodes and, where a handler
decodes it, the record of the fields that handler reads.  A decoder has no
result exactly when the source throws while it reads.
-/

import Shr.Utils

namespace Shr

/-! ### What the handlers read -/

structure FileOffer where
  xferId : Bytes
  filename : Bytes
  fileSize : UInt64
  checksum : Bytes
  senderId : Bytes
deriving DecidableEq

structure FileChunk where
  xferId : Bytes
  offset : UInt64
  b64data : Bytes
  checksum : Bytes
deriving DecidableEq

structure FileComplete where
  xferId : Bytes
  checksum : Bytes
deriving DecidableEq

section Decoders

variable (vendor : Vendor)

def readFileOffer (random : Random) (payload : Bytes) : Option FileOffer := do
  let json ← vendor.fromCbor payload
  let xferId ← json.value "transfer_id" JsonValue.asString (generateUuid random)
  let filename ← json.value "filename" JsonValue.asString (ascii "unknown")
  let fileSize ← json.value "size" JsonValue.asUInt64 0
  let checksum ← json.value "checksum" JsonValue.asString []
  let senderId ← json.value "sender_id" JsonValue.asString []
  return { xferId, filename, fileSize, checksum, senderId }

def readFileChunk (payload : Bytes) : Option FileChunk := do
  let json ← vendor.fromCbor payload
  let xferId ← json.value "transfer_id" JsonValue.asString []
  let offset ← json.value "offset" JsonValue.asUInt64 0
  let b64data ← json.value "data" JsonValue.asString []
  let checksum ← json.value "checksum" JsonValue.asString []
  return { xferId, offset, b64data, checksum }

def readFileComplete (payload : Bytes) : Option FileComplete := do
  let json ← vendor.fromCbor payload
  let xferId ← json.value "transfer_id" JsonValue.asString []
  let checksum ← json.value "checksum" JsonValue.asString []
  return { xferId, checksum }

/-- The offset of a `FileResume`; a payload that throws leaves the offset 0. -/
def readFileResume (payload : Bytes) : UInt64 :=
  ((vendor.fromCbor payload).bind fun json =>
    json.value "offset" JsonValue.asUInt64 0).getD 0

end Decoders

/-! ### What the senders encode

The library keeps the keys of an object sorted. -/

def offerFields (offer : FileOffer) : List (Bytes × JsonValue) :=
  [ (ascii "checksum", .string offer.checksum),
    (ascii "filename", .string offer.filename),
    (ascii "sender_id", .string offer.senderId),
    (ascii "size", .number offer.fileSize.toNat),
    (ascii "transfer_id", .string offer.xferId) ]

def chunkFields (chunk : FileChunk) (index size : UInt64) : List (Bytes × JsonValue) :=
  [ (ascii "checksum", .string chunk.checksum),
    (ascii "data", .string chunk.b64data),
    (ascii "index", .number index.toNat),
    (ascii "offset", .number chunk.offset.toNat),
    (ascii "size", .number size.toNat),
    (ascii "transfer_id", .string chunk.xferId) ]

def completeFields (complete : FileComplete) : List (Bytes × JsonValue) :=
  [ (ascii "checksum", .string complete.checksum),
    (ascii "transfer_id", .string complete.xferId) ]

def acceptFields (xferId : Bytes) : List (Bytes × JsonValue) :=
  [(ascii "transfer_id", .string xferId)]

def resumeFields (offset : UInt64) : List (Bytes × JsonValue) :=
  [(ascii "offset", .number offset.toNat)]

def ackFields (xferId : Bytes) (offset : UInt64) : List (Bytes × JsonValue) :=
  [ (ascii "offset", .number offset.toNat),
    (ascii "transfer_id", .string xferId) ]

theorem offerFields_transmissible (offer : FileOffer) : Transmissible (offerFields offer) where
  sorted := by
    change List.Pairwise _ [ascii "checksum", ascii "filename", ascii "sender_id",
      ascii "size", ascii "transfer_id"]
    decide
  values := by
    simp only [offerFields, List.mem_cons, List.not_mem_nil, or_false]
    rintro field (rfl | rfl | rfl | rfl | rfl)
    case inr.inr.inr.inl => exact JsonValue.transmissible_uint64 offer.fileSize
    all_goals trivial

theorem chunkFields_transmissible (chunk : FileChunk) (index size : UInt64) :
    Transmissible (chunkFields chunk index size) where
  sorted := by
    change List.Pairwise _ [ascii "checksum", ascii "data", ascii "index", ascii "offset",
      ascii "size", ascii "transfer_id"]
    decide
  values := by
    simp only [chunkFields, List.mem_cons, List.not_mem_nil, or_false]
    rintro field (rfl | rfl | rfl | rfl | rfl | rfl)
    case inr.inr.inl => exact JsonValue.transmissible_uint64 index
    case inr.inr.inr.inl => exact JsonValue.transmissible_uint64 chunk.offset
    case inr.inr.inr.inr.inl => exact JsonValue.transmissible_uint64 size
    all_goals trivial

theorem completeFields_transmissible (complete : FileComplete) :
    Transmissible (completeFields complete) where
  sorted := by
    change List.Pairwise _ [ascii "checksum", ascii "transfer_id"]
    decide
  values := by
    simp only [completeFields, List.mem_cons, List.not_mem_nil, or_false]
    rintro field (rfl | rfl)
    all_goals trivial

theorem resumeFields_transmissible (offset : UInt64) : Transmissible (resumeFields offset) where
  sorted := List.pairwise_singleton _ _
  values := by
    simp only [resumeFields, List.mem_singleton]
    rintro field rfl
    exact JsonValue.transmissible_uint64 offset

theorem ackFields_transmissible (xferId : Bytes) (offset : UInt64) :
    Transmissible (ackFields xferId offset) where
  sorted := by
    change List.Pairwise _ [ascii "offset", ascii "transfer_id"]
    decide
  values := by
    intro field member
    rcases List.mem_cons.mp member with isOffset | isId
    · rw [isOffset]
      exact JsonValue.transmissible_uint64 offset
    · rw [List.mem_singleton.mp isId]
      trivial

/-! ### Decoding undoes encoding -/

section RoundTrips

variable (vendor : Vendor)

@[simp] theorem readFileOffer_toCbor (random : Random) (offer : FileOffer) :
    readFileOffer vendor random (vendor.toCbor (offerFields offer)) = some offer := by
  unfold readFileOffer
  rw [vendor.fromCbor_toCbor _ (offerFields_transmissible offer)]
  have size := JsonValue.asUInt64_toNat offer.fileSize
  change ((JsonValue.number offer.fileSize.toNat).asUInt64).bind
    (fun fileSize => some { offer with fileSize := fileSize }) = _
  rw [size, Option.bind_some]

@[simp] theorem readFileChunk_toCbor (chunk : FileChunk) (index size : UInt64) :
    readFileChunk vendor (vendor.toCbor (chunkFields chunk index size)) = some chunk := by
  unfold readFileChunk
  rw [vendor.fromCbor_toCbor _ (chunkFields_transmissible chunk index size)]
  have offset := JsonValue.asUInt64_toNat chunk.offset
  change ((JsonValue.number chunk.offset.toNat).asUInt64).bind
    (fun offset => some { chunk with offset := offset }) = _
  rw [offset, Option.bind_some]

@[simp] theorem readFileComplete_toCbor (complete : FileComplete) :
    readFileComplete vendor (vendor.toCbor (completeFields complete)) = some complete := by
  unfold readFileComplete
  rw [vendor.fromCbor_toCbor _ (completeFields_transmissible complete)]
  rfl

@[simp] theorem readFileResume_toCbor (offset : UInt64) :
    readFileResume vendor (vendor.toCbor (resumeFields offset)) = offset := by
  unfold readFileResume
  rw [vendor.fromCbor_toCbor _ (resumeFields_transmissible offset), Option.bind_some]
  change ((JsonValue.number offset.toNat).asUInt64).getD 0 = offset
  rw [JsonValue.asUInt64_toNat, Option.getD_some]

end RoundTrips

end Shr
