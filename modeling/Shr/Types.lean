/-
Strings, limits, states and records of the node, after `types.h`.

A `std::string` is the list of its bytes and may hold a zero byte.  What the
rest of the world sees through `c_str()` ends at the first one, so a string is
kept apart from its C string.
-/

import Mathlib.Algebra.Group.Int.Defs
import Mathlib.Algebra.Group.Nat.Defs
import Mathlib.Data.List.TakeWhile

namespace Shr

/-- A `std::string`: any bytes, zero included. -/
abbrev Bytes := List UInt8

def ascii (text : String) : Bytes :=
  text.toList.map fun char => UInt8.ofNat char.toNat

/-! ### C strings -/

/-- What a reader of `text.c_str()` sees. -/
def cstr (text : Bytes) : Bytes :=
  text.takeWhile (· ≠ 0)

def NulFree (text : Bytes) : Prop :=
  (0 : UInt8) ∉ text

instance (text : Bytes) : Decidable (NulFree text) :=
  inferInstanceAs (Decidable (¬_))

private theorem nonzero_of_mem {text : Bytes} (nulFree : NulFree text) :
    ∀ byte ∈ text, (byte ≠ 0 : Bool) = true := by
  intro byte member
  rw [decide_eq_true_eq]
  intro zero
  exact nulFree (zero ▸ member)

theorem cstr_nulFree (text : Bytes) : NulFree (cstr text) := by
  intro member
  simpa using List.mem_takeWhile_imp member

@[simp] theorem cstr_of_nulFree {text : Bytes} (nulFree : NulFree text) : cstr text = text := by
  unfold cstr
  exact List.takeWhile_eq_self_iff.mpr (nonzero_of_mem nulFree)

theorem cstr_append {front : Bytes} (nulFree : NulFree front) (back : Bytes) :
    cstr (front ++ back) = front ++ cstr back := by
  unfold cstr
  exact List.takeWhile_append_of_pos (nonzero_of_mem nulFree)

/-- What a text column holds: it was bound as a C string. -/
abbrev Text := { text : Bytes // NulFree text }

def bindText (text : Bytes) : Text :=
  ⟨cstr text, cstr_nulFree text⟩

@[simp] theorem bindText_val (text : Text) : bindText text.val = text :=
  Subtype.ext (cstr_of_nulFree text.property)

theorem bindText_val_eq_iff {text : Bytes} : (bindText text).val = text ↔ NulFree text := by
  constructor
  · intro same
    exact same ▸ cstr_nulFree text
  · exact cstr_of_nulFree

/-! ### Conversions -/

/-- `static_cast<int>` of an unsigned number. -/
def castInt (number : Nat) : Int :=
  (Int32.ofNat number).toInt

theorem castInt_of_lt {number : Nat} (small : number < 2 ^ 31) : castInt number = number := by
  exact Int32.toInt_ofNat_of_lt small

theorem castInt_eq_iff {number : Nat} : castInt number = number ↔ number < 2 ^ 31 := by
  constructor
  · intro kept
    have bounded := (Int32.ofNat number).toInt_lt
    unfold castInt at kept
    omega
  · exact castInt_of_lt

/-! ### Limits -/

def shrChunkSize : Nat := 1024 * 1024

def shrMaxConcurrent : Int := 5

def shrRetryLimit : Nat := 5

def shrDefaultPort : UInt16 := 60000

theorem shrChunkSize_pos : 0 < shrChunkSize := by
  decide

/-! ### Transfers -/

inductive TransferState where
  | pending
  | inProgress
  | paused
  | completed
  | failed
  | cancelled
deriving DecidableEq, Repr

def transferStateStr : TransferState → Bytes
  | .pending => ascii "pending"
  | .inProgress => ascii "in_progress"
  | .paused => ascii "paused"
  | .completed => ascii "completed"
  | .failed => ascii "failed"
  | .cancelled => ascii "cancelled"

structure TransferRecord where
  id : Bytes
  peerId : Bytes
  filename : Bytes
  filepath : Bytes
  totalBytes : UInt64
  transferredBytes : UInt64
  state : TransferState
  checksum : Bytes
  createdAt : Int64
  updatedAt : Int64
  outbound : Bool
deriving DecidableEq

structure PeerInfo where
  id : Bytes
  ip : Bytes
  port : UInt16
  online : Bool
  lastSeen : Int64
  «alias» : Bytes
deriving DecidableEq

/-! ### Messages -/

structure Message where
  id : Bytes
  senderId : Bytes
  recipientId : Bytes
  content : Bytes
  timestamp : Int64
  read : Bool
deriving DecidableEq

/-! ### Packets -/

/-- `PacketType` is an enumeration over a byte: a received type byte need not
be one of the named values. -/
inductive PacketType where
  | handshake
  | handshakeAck
  | fileOffer
  | fileAccept
  | fileReject
  | fileChunk
  | fileChunkAck
  | fileComplete
  | fileResume
  | msgSend
  | msgAck
  | peerDiscover
  | peerAnnounce
  | peerList
  | ping
  | pong
  | error
  | unnamed (code : UInt8)
deriving DecidableEq, Repr

structure Packet where
  type : PacketType
  payload : Bytes
deriving DecidableEq

end Shr
