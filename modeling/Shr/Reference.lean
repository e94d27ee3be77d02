/-
A concrete instance of the libraries.

CBOR for the flat objects of the node, Base64 and SHA-256, a machine whose
paths all name different files, and a call of `send_file`.  Concrete runs are
stated over these.
-/

import Shr.Library.Base64
import Shr.Library.Cbor
import Shr.Library.Sha256
import Shr.Transfer.NodeRun

namespace Shr

namespace Reference

def itemOfValue : JsonValue → Cbor.Item
  | .string text => .text text
  | .number value => .integer value
  | .boolean value => .boolean value
  | .other => .null

def valueOfItem : Cbor.Item → JsonValue
  | .text text => .string text
  | .integer value => .number value
  | .boolean value => .boolean value
  | .null => .other

@[simp] theorem valueOfItem_itemOfValue (value : JsonValue) :
    valueOfItem (itemOfValue value) = value := by
  cases value <;> rfl

def toCbor (fields : List (Bytes × JsonValue)) : Bytes :=
  Cbor.encodeMap (fields.map fun field => (field.1, itemOfValue field.2))

def fromCbor (payload : Bytes) : Option Json :=
  (Cbor.decodeMap payload).map fun entries =>
    .object (entries.map fun entry => (entry.1, valueOfItem entry.2))

theorem fromCbor_toCbor (fields : List (Bytes × JsonValue)) :
    fromCbor (toCbor fields) = some (.object fields) := by
  have sameFields : fields.map ((fun entry : Bytes × Cbor.Item =>
      (entry.1, valueOfItem entry.2)) ∘ fun field => (field.1, itemOfValue field.2)) = fields := by
    simp [Function.comp_def]
  simp only [fromCbor, toCbor, Cbor.decodeMap_encodeMap, Option.map_some, List.map_map,
    sameFields]

/-- The state of a digest is what it has been fed. -/
def vendor : Vendor :=
  { fromCbor := fromCbor
    toCbor := toCbor
    base64Encode := Base64.encode
    base64Decode := Base64.decode
    Digest := Bytes
    digestInit := []
    digestUpdate := fun digest data => digest ++ data
    digestFinal := Sha256.digest
    fromCbor_toCbor := fun fields _transmissible => fromCbor_toCbor fields
    base64Decode_encode := Base64.decode_encode
    digestUpdate_nil := List.append_nil
    digestUpdate_append := List.append_assoc }

/-- Every path names a file of its own. -/
def host : Host :=
  { configDir := ascii "/home/user/.shr"
    receivedDir := ascii "/home/user/shr_received"
    receivedDir_nulFree := by decide
    resolve := fun path => path }

def sentPath : Bytes :=
  ascii "/home/user/notes.txt"

def peer : PeerInfo :=
  { id := ascii "a1b2c3d4-e5f6-7890-abcd-ef1234567890"
    ip := ascii "192.168.1.20"
    port := 7777
    online := true
    lastSeen := 0
    «alias» := ascii "laptop" }

def ownId : Bytes :=
  ascii "0f1e2d3c-4b5a-4978-8695-a4b3c2d1e0ff"

def sendInputs (contents : Bytes) (random : Random) : SendInputs :=
  { recipientId := peer.id
    canonical := some sentPath
    isRegular := true
    peer := some peer
    fileSize := UInt64.ofNat contents.length
    checksum := sha256Bytes vendor contents
    random := random
    createdAt := 0
    updatedAt := 0
    ownId := ownId
    contents := some contents
    retryDelayMs := 2000 }

theorem sendInputs_sendable (contents : Bytes) (random : Random) :
    Sendable (sendInputs contents random) sentPath peer where
  recipient := by
    change isValidUuid peer.id = true
    decide
  known := rfl
  regular := rfl
  registered := rfl
  addressed := by decide

/-! ### Packets that arrive -/

def arrival : Arrival :=
  Arrival.sound (fun _index => 0) 0 0

theorem arrival_sound : arrival.Sound where
  opens := rfl
  wrote := rfl
  stores := rfl

def offerArrives (offer : FileOffer) : NodeEvent :=
  .packet arrival
    { type := .fileOffer
      payload := vendor.toCbor (offerFields offer) }

def receivedOffer : FileOffer :=
  { xferId := ascii "5d0cf0a4-5c39-4f0c-9a3a-0d6fd1c3a1b2"
    filename := ascii "notes.txt"
    fileSize := 1
    checksum := sha256Bytes vendor (ascii "x")
    senderId := peer.id }

def chunkArrives (xferId : Bytes) (offset : UInt64) (data : Bytes) : NodeEvent :=
  .packet arrival
    { type := .fileChunk
      payload := vendor.toCbor
        (chunkFields (chunkOf vendor xferId offset data) 0 (UInt64.ofNat data.length)) }

def completeArrives (xferId checksum : Bytes) : NodeEvent :=
  .packet arrival
    { type := .fileComplete
      payload := vendor.toCbor (completeFields
        { xferId := xferId
          checksum := checksum }) }

theorem node_after_offer {state : NodeState} {offer : FileOffer}
    (notPaused : pausedRecord state.node offer.xferId = none) :
    (state.step vendor host (offerArrives offer)).node =
      { state.node with
        transfers := state.node.transfers.upsertTransfer (offeredRecord host arrival offer) } := by
  simp only [offerArrives, NodeState.step]
  rw [handleTransferPacket_offer rfl,
    handleFileOffer_stored rfl (readFileOffer_toCbor vendor _ offer) notPaused]

def offeredState : NodeState :=
  (NodeState.initial fun _path => none).step vendor host (offerArrives receivedOffer)

theorem offeredState_record :
    offeredState.node.transfers.getTransfer receivedOffer.xferId =
      some (offeredRecord host arrival receivedOffer).stored := by
  rw [offeredState, node_after_offer rfl]
  exact TransferTable.getTransfer_upsert_self _ _ rfl

theorem node_after_chunk {state : NodeState} {xferId : Bytes} {offset : UInt64} {data : Bytes}
    {record : TransferRecord} (found : state.node.transfers.getTransfer xferId = some record)
    (file : namesFile record.filepath = true) :
    (state.step vendor host (chunkArrives xferId offset data)).node =
      (state.node.write host record.filepath
        (chunkedContent (state.node.read host record.filepath) offset data)).update arrival
          xferId (newTransferred offset data) .inProgress := by
  simp only [chunkArrives, NodeState.step]
  rw [handleTransferPacket_chunk rfl,
    handleFileChunk_whole rfl (arrival_sound.written _) (readFileChunk_toCbor vendor _ _ _)
      found file]

end Reference

end Shr
