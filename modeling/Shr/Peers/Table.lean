/-
The peers table, after `database.cxx`.

Peers are written as whole rows: the only statements on the table are
`INSERT OR REPLACE`, `DELETE` and two queries.
-/

import Shr.Library.KeyedTable
import Shr.Types

namespace Shr

/-! ### Rows -/

structure PeerRow where
  id : Text
  ip : Text
  port : Int64
  online : Int64
  lastSeen : Int64
  «alias» : Text
deriving DecidableEq

def bindPeer (peer : PeerInfo) : PeerRow :=
  { id := bindText peer.id
    ip := bindText peer.ip
    port := peer.port.toUInt64.toInt64
    online := if peer.online then 1 else 0
    lastSeen := peer.lastSeen
    «alias» := bindText peer.alias }

/-- A row as it is read; numbers are cut to the width of their fields. -/
def rowToPeer (row : PeerRow) : PeerInfo :=
  { id := row.id.val
    ip := row.ip.val
    port := row.port.toUInt64.toUInt16
    online := row.online.toInt32 ≠ 0
    lastSeen := row.lastSeen
    «alias» := row.alias.val }

def PeerInfo.stored (peer : PeerInfo) : PeerInfo :=
  { peer with
    id := cstr peer.id
    ip := cstr peer.ip
    «alias» := cstr peer.alias }

theorem rowToPeer_bindPeer (peer : PeerInfo) : rowToPeer (bindPeer peer) = peer.stored := by
  cases peer with
  | mk id ip port online lastSeen «alias» =>
      cases online <;> simp [rowToPeer, bindPeer, PeerInfo.stored, bindText]

/-! ### Statements -/

/-- The peers table, keyed by the text of the `id` column. -/
abbrev PeerTable := KeyedTable PeerRow.id

namespace PeerTable

def empty : PeerTable :=
  KeyedTable.empty

def upsertPeer (table : PeerTable) (peer : PeerInfo) : PeerTable :=
  table.replace (bindPeer peer)

def deletePeer (table : PeerTable) (id : Bytes) : PeerTable :=
  table.remove (bindText id)

def allPeers (table : PeerTable) : List PeerInfo :=
  table.rows.map rowToPeer

def getPeer (table : PeerTable) (id : Bytes) : Option PeerInfo :=
  (table.find (bindText id)).map rowToPeer

@[simp] theorem getPeer_empty (id : Bytes) : empty.getPeer id = none :=
  rfl

theorem getPeer_upsert_self (table : PeerTable) (peer : PeerInfo) {id : Bytes}
    (same : bindText id = bindText peer.id) :
    (table.upsertPeer peer).getPeer id = some peer.stored := by
  unfold getPeer upsertPeer
  have found := KeyedTable.find_replace_self table (bindPeer peer)
  have keyed : (bindPeer peer).id = bindText id := same.symm
  rw [keyed] at found
  rw [found, Option.map_some, rowToPeer_bindPeer]

theorem getPeer_upsert_of_ne (table : PeerTable) (peer : PeerInfo) {id : Bytes}
    (different : bindText id ≠ bindText peer.id) :
    (table.upsertPeer peer).getPeer id = table.getPeer id := by
  unfold getPeer upsertPeer
  rw [KeyedTable.find_replace_of_ne table (bindPeer peer) different]

theorem getPeer_delete_self (table : PeerTable) {id deleted : Bytes}
    (same : bindText id = bindText deleted) : (table.deletePeer deleted).getPeer id = none := by
  unfold getPeer deletePeer
  rw [same, KeyedTable.find_remove_self, Option.map_none]

theorem getPeer_delete_of_ne (table : PeerTable) {id deleted : Bytes}
    (different : bindText id ≠ bindText deleted) :
    (table.deletePeer deleted).getPeer id = table.getPeer id := by
  unfold getPeer deletePeer
  rw [KeyedTable.find_remove_of_ne table different]

theorem getPeer_congr (table : PeerTable) {left right : Bytes}
    (same : bindText left = bindText right) : table.getPeer left = table.getPeer right := by
  unfold getPeer
  rw [same]

theorem id_of_getPeer {table : PeerTable} {id : Bytes} {peer : PeerInfo}
    (found : table.getPeer id = some peer) : bindText peer.id = bindText id := by
  obtain ⟨row, rowFound, rfl⟩ := Option.map_eq_some_iff.mp found
  have keyed : row.id = bindText id := KeyedTable.key_of_find rowFound
  rw [← keyed]
  exact bindText_val row.id

theorem stored_rowToPeer (row : PeerRow) : (rowToPeer row).stored = rowToPeer row := by
  unfold PeerInfo.stored rowToPeer
  simp only [cstr_of_nulFree row.id.property, cstr_of_nulFree row.ip.property,
    cstr_of_nulFree row.alias.property]

theorem stored_of_getPeer {table : PeerTable} {id : Bytes} {peer : PeerInfo}
    (found : table.getPeer id = some peer) : peer.stored = peer := by
  obtain ⟨row, _rowFound, rfl⟩ := Option.map_eq_some_iff.mp found
  exact stored_rowToPeer row

theorem mem_of_getPeer {table : PeerTable} {id : Bytes} {peer : PeerInfo}
    (found : table.getPeer id = some peer) : peer ∈ table.allPeers := by
  obtain ⟨row, rowFound, rfl⟩ := Option.map_eq_some_iff.mp found
  exact List.mem_map_of_mem (KeyedTable.find_eq_some_iff.mp rowFound).1

theorem mem_allPeers_upsert {table : PeerTable} {written peer : PeerInfo}
    (member : peer ∈ (table.upsertPeer written).allPeers) :
    peer = written.stored ∨ peer ∈ table.allPeers := by
  obtain ⟨row, rowMember, rfl⟩ := List.mem_map.mp member
  rcases List.mem_append.mp rowMember with earlier | last
  · exact .inr (List.mem_map_of_mem (List.mem_filter.mp earlier).1)
  · rw [List.mem_singleton.mp last]
    exact .inl (rowToPeer_bindPeer written)

theorem mem_allPeers_delete {table : PeerTable} {id : Bytes} {peer : PeerInfo}
    (member : peer ∈ (table.deletePeer id).allPeers) : peer ∈ table.allPeers := by
  obtain ⟨row, rowMember, rfl⟩ := List.mem_map.mp member
  exact List.mem_map_of_mem (List.mem_filter.mp rowMember).1

theorem getPeer_of_mem {table : PeerTable} {peer : PeerInfo} (member : peer ∈ table.allPeers) :
    table.getPeer peer.id = some peer := by
  obtain ⟨row, rowMember, rfl⟩ := List.mem_map.mp member
  have key : bindText (rowToPeer row).id = row.id := bindText_val row.id
  unfold getPeer
  rw [key, KeyedTable.find_of_mem rowMember, Option.map_some]

end PeerTable

end Shr
