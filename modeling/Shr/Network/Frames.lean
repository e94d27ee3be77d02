/-
Frames on a connection, after `network.cxx` and the packed `PacketHeader`.

The host is little-endian.  A call of `::send` or `::recv` moves as much as the
world decides; `::recv` is handed nothing once what arrives has been used up,
by the end of the stream, an error or the timeout.
-/

import Shr.Library.LittleEndian
import Shr.Library.Transmission
import Shr.Types

namespace Shr

open Transmission (Source Sink)

/-! ### Type bytes -/

def PacketType.code : PacketType → UInt8
  | .handshake => 0x01
  | .handshakeAck => 0x02
  | .fileOffer => 0x10
  | .fileAccept => 0x11
  | .fileReject => 0x12
  | .fileChunk => 0x13
  | .fileChunkAck => 0x14
  | .fileComplete => 0x15
  | .fileResume => 0x16
  | .msgSend => 0x20
  | .msgAck => 0x21
  | .peerDiscover => 0x30
  | .peerAnnounce => 0x31
  | .peerList => 0x32
  | .ping => 0x40
  | .pong => 0x41
  | .error => 0xFF
  | .unnamed code => code

/-- `static_cast<PacketType>(code)` -/
def PacketType.ofCode : UInt8 → PacketType
  | 0x01 => .handshake
  | 0x02 => .handshakeAck
  | 0x10 => .fileOffer
  | 0x11 => .fileAccept
  | 0x12 => .fileReject
  | 0x13 => .fileChunk
  | 0x14 => .fileChunkAck
  | 0x15 => .fileComplete
  | 0x16 => .fileResume
  | 0x20 => .msgSend
  | 0x21 => .msgAck
  | 0x30 => .peerDiscover
  | 0x31 => .peerAnnounce
  | 0x32 => .peerList
  | 0x40 => .ping
  | 0x41 => .pong
  | 0xFF => .error
  | other => .unnamed other

@[simp] theorem PacketType.code_ofCode (code : UInt8) : (PacketType.ofCode code).code = code := by
  unfold PacketType.ofCode
  split <;> rfl

theorem PacketType.ofCode_injective {first second : UInt8}
    (same : PacketType.ofCode first = PacketType.ofCode second) : first = second := by
  rw [← PacketType.code_ofCode first, same, PacketType.code_ofCode]

/-! ### Headers -/

abbrev Block (size : Nat) := { data : Bytes // data.length = size }

def shrProtocolMagic : Bytes :=
  ascii "SHR1"

theorem shrProtocolMagic_length : shrProtocolMagic.length = 4 :=
  rfl

def zeroTag : Block 32 :=
  ⟨List.replicate 32 0, List.length_replicate⟩

structure PacketHeader where
  magic : Block 4
  type : UInt8
  payloadLen : UInt32
  hmac : Block 32
deriving DecidableEq

def headerSize : Nat := 41

/-- The packed struct in memory. -/
def PacketHeader.bytes (header : PacketHeader) : Bytes :=
  header.magic.val ++ header.type ::
    (LittleEndian.bytes 4 header.payloadLen.toNat ++ header.hmac.val)

/-- The struct that a copy of `headerSize` bytes makes. -/
def PacketHeader.ofBytes (buf : Block headerSize) : PacketHeader :=
  { magic := ⟨buf.val.take 4, by simp [buf.property, headerSize]⟩
    type := buf.val.get ⟨4, by simp [buf.property, headerSize]⟩
    payloadLen := UInt32.ofNat (LittleEndian.value ((buf.val.drop 5).take 4))
    hmac := ⟨(buf.val.drop 9), by simp [buf.property, headerSize]⟩ }

@[simp] theorem PacketHeader.bytes_length (header : PacketHeader) :
    header.bytes.length = headerSize := by
  have magic := header.magic.property
  have hmac := header.hmac.property
  simp only [PacketHeader.bytes, List.length_append, List.length_cons,
    LittleEndian.bytes_length, headerSize]
  omega

theorem PacketHeader.bytes_ofBytes (buf : Block headerSize) :
    (PacketHeader.ofBytes buf).bytes = buf.val := by
  obtain ⟨buf, size⟩ := buf
  unfold headerSize at size
  have word : ((buf.drop 5).take 4).length = 4 := by
    rw [List.length_take, List.length_drop]
    omega
  have bounded := LittleEndian.value_lt ((buf.drop 5).take 4)
  have number := LittleEndian.bytes_value ((buf.drop 5).take 4)
  rw [word] at bounded number
  have inside : 4 < buf.length := by omega
  have byte : buf.get ⟨4, inside⟩ :: buf.drop 5 = buf.drop 4 := by
    rw [List.get_eq_getElem, List.getElem_cons_drop]
  simp only [PacketHeader.bytes, PacketHeader.ofBytes]
  rw [UInt32.toNat_ofNat_of_lt' (by omega), number, ← List.drop_drop (i := 4) (j := 5),
    List.take_append_drop, byte, List.take_append_drop]

theorem PacketHeader.bytes_injective {first second : PacketHeader}
    (same : first.bytes = second.bytes) : first = second := by
  obtain ⟨⟨firstMagic, firstMagicSize⟩, firstType, firstLen, firstHmac⟩ := first
  obtain ⟨⟨secondMagic, secondMagicSize⟩, secondType, secondLen, secondHmac⟩ := second
  obtain ⟨magic, fromType⟩ := List.append_inj same (by rw [firstMagicSize, secondMagicSize])
  obtain ⟨type, fromLength⟩ := List.cons.inj fromType
  obtain ⟨word, hmac⟩ := List.append_inj fromLength
    (by rw [LittleEndian.bytes_length, LittleEndian.bytes_length])
  have length : firstLen = secondLen := by
    have values := congrArg LittleEndian.value word
    simp only at values
    rw [LittleEndian.value_bytes, LittleEndian.value_bytes] at values
    have firstBound := firstLen.toNat_lt
    have secondBound := secondLen.toNat_lt
    apply UInt32.toNat_inj.mp
    omega
  simp only at magic type hmac
  subst magic type length
  rw [Subtype.ext hmac]

/-- `parse_packet_header`; the size it also reports is always `headerSize`. -/
def parsePacketHeader (buf : Bytes) : Option PacketHeader :=
  if _short : buf.length < headerSize then none
  else
    let header := PacketHeader.ofBytes ⟨buf.take headerSize, by rw [List.length_take]; omega⟩
    if header.magic.val ≠ shrProtocolMagic then none else some header

theorem parsePacketHeader_eq_some_iff {buf : Bytes} {header : PacketHeader} :
    parsePacketHeader buf = some header ↔
      header.magic.val = shrProtocolMagic ∧ header.bytes <+: buf := by
  unfold parsePacketHeader
  by_cases short : buf.length < headerSize
  · rw [dif_pos short]
    constructor
    · intro impossible
      cases impossible
    · rintro ⟨_magic, rest, whole⟩
      rw [← whole, List.length_append, header.bytes_length] at short
      omega
  · have read := PacketHeader.bytes_ofBytes
      ⟨buf.take headerSize, by rw [List.length_take]; omega⟩
    rw [dif_neg short]
    constructor
    · intro parsed
      simp only at parsed
      split at parsed
      next => cases parsed
      next magic =>
          cases parsed
          exact ⟨not_not.mp magic, buf.drop headerSize, by rw [read, List.take_append_drop]⟩
    · rintro ⟨magic, rest, whole⟩
      have front : buf.take headerSize = header.bytes := by
        rw [← whole, ← header.bytes_length, List.take_left']
        rfl
      have same := PacketHeader.bytes_injective (read.trans front)
      simp only
      rw [same, if_neg (not_not.mpr magic)]

/-! ### Serializing -/

/-- OpenSSL's `HMAC` with SHA-256: the key, the length passed for it, the data. -/
abbrev Hmac := Bytes → Int → Bytes → Block 32

def hmacSha256 (hmac : Hmac) (data key : Bytes) : Block 32 :=
  hmac key (castInt key.length) data

/-- The `hmac` field: zeros when there is no key. -/
def packetTag (hmac : Hmac) (payload : Bytes) (hmacKey : Option Bytes) : Block 32 :=
  match hmacKey with
  | none => zeroTag
  | some key => if 0 < key.length then hmacSha256 hmac payload key else zeroTag

def serializePacket (hmac : Hmac) (type : PacketType) (payload : Bytes)
    (hmacKey : Option Bytes) : Bytes :=
  let header : PacketHeader :=
    { magic := ⟨shrProtocolMagic, rfl⟩
      type := type.code
      payloadLen := UInt32.ofNat payload.length
      hmac := packetTag hmac payload hmacKey }
  header.bytes ++ payload

/-! ### Frames -/

/-- What a reader takes for one packet: the length in the header is that of the
payload, and the tag is anything. -/
structure Frame where
  type : UInt8
  hmac : Block 32
  payload : Bytes
  fits : payload.length < 2 ^ 32

def Frame.header (frame : Frame) : PacketHeader :=
  { magic := ⟨shrProtocolMagic, rfl⟩
    type := frame.type
    payloadLen := UInt32.ofNat frame.payload.length
    hmac := frame.hmac }

def Frame.bytes (frame : Frame) : Bytes :=
  frame.header.bytes ++ frame.payload

def Frame.packet (frame : Frame) : Packet :=
  { type := PacketType.ofCode frame.type
    payload := frame.payload }

theorem Frame.payloadLen_toNat (frame : Frame) :
    frame.header.payloadLen.toNat = frame.payload.length := by
  have fits := frame.fits
  simp only [Frame.header]
  rw [UInt32.toNat_ofNat_of_lt' (by omega)]

theorem Frame.bytes_length (frame : Frame) :
    frame.bytes.length = headerSize + frame.payload.length := by
  rw [Frame.bytes, List.length_append, PacketHeader.bytes_length]

theorem Frame.bytes_eq (frame : Frame) :
    frame.bytes = ascii "SHR1" ++ [frame.type] ++
      LittleEndian.bytes 4 frame.payload.length ++ frame.hmac.val ++ frame.payload := by
  have length := frame.payloadLen_toNat
  rw [Frame.bytes, PacketHeader.bytes, length]
  simp [Frame.header, shrProtocolMagic]

/-- Frames cannot be confused with one another, whatever follows them. -/
theorem Frame.bytes_injective {first second : Frame} {firstRest secondRest : Bytes}
    (same : first.bytes ++ firstRest = second.bytes ++ secondRest) :
    first = second ∧ firstRest = secondRest := by
  have firstLength := first.payloadLen_toNat
  have secondLength := second.payloadLen_toNat
  rw [Frame.bytes, Frame.bytes, List.append_assoc, List.append_assoc] at same
  obtain ⟨header, payload⟩ := List.append_inj same
    (by rw [PacketHeader.bytes_length, PacketHeader.bytes_length])
  have headers := PacketHeader.bytes_injective header
  rw [headers, secondLength] at firstLength
  obtain ⟨payloads, rest⟩ := List.append_inj payload firstLength.symm
  obtain ⟨firstType, firstHmac, firstPayload, firstFits⟩ := first
  obtain ⟨secondType, secondHmac, secondPayload, secondFits⟩ := second
  have types := congrArg PacketHeader.type headers
  have tags := congrArg PacketHeader.hmac headers
  simp only [Frame.header] at types tags payloads
  subst types tags payloads
  exact ⟨rfl, rest⟩

theorem serializePacket_eq (hmac : Hmac) (code : UInt8) (payload : Bytes)
    (hmacKey : Option Bytes) (fits : payload.length < 2 ^ 32) :
    serializePacket hmac (PacketType.ofCode code) payload hmacKey =
      Frame.bytes
        { type := code
          hmac := packetTag hmac payload hmacKey
          payload := payload
          fits := fits } := by
  simp only [serializePacket, Frame.bytes, Frame.header, PacketType.code_ofCode]

/-! ### Reading -/

/-- `static_cast<int>(remaining)`, converted to the `size_t` the call takes. -/
def requestLength (remaining : Nat) : Nat :=
  (UInt64.ofInt (castInt remaining)).toNat

theorem requestLength_pos {remaining : Nat} (some_left : 0 < remaining)
    (fits : remaining < 2 ^ 32) : 0 < requestLength remaining := by
  have word : castInt remaining = (remaining : Int).bmod (2 ^ 32) := Int32.toInt_ofNat
  unfold requestLength UInt64.ofInt
  rw [word, UInt64.toNat_ofNat']
  simp only [Int.bmod]
  split <;> omega

theorem requestLength_of_lt {remaining : Nat} (small : remaining < 2 ^ 31) :
    requestLength remaining = remaining := by
  unfold requestLength UInt64.ofInt
  rw [castInt_of_lt small, UInt64.toNat_ofNat']
  omega

theorem asking_requestLength {length : Nat} (fits : length < 2 ^ 32) :
    Transmission.Asking requestLength length := by
  intro remaining some_left inside
  exact requestLength_pos some_left (by omega)

/-- A packet being read, and whom it comes from. -/
structure RawPacket extends Packet where
  peerIp : Bytes
deriving DecidableEq

namespace Network

/-- `read_raw`, with the bytes it has stored in the buffer. -/
def readRaw (conn : Source UInt8) (len : Nat) : Bool × Bytes × Source UInt8 :=
  conn.fill requestLength len

def resize (buffer : Bytes) (size : Nat) : Bytes :=
  buffer.take size ++ List.replicate (size - buffer.length) 0

@[simp] theorem resize_length (buffer : Bytes) (size : Nat) :
    (resize buffer size).length = size := by
  rw [resize, List.length_append, List.length_take, List.length_replicate]
  omega

/-- `read_packet`; `out` is overwritten as far as the read gets. -/
def readPacket (conn : Source UInt8) (out : RawPacket) : Bool × RawPacket × Source UInt8 :=
  let (ok, buf, conn) := readRaw conn headerSize
  if ok = false then (false, out, conn)
  else
    match parsePacketHeader buf with
    | none => (false, out, conn)
    | some header =>
        let size := header.payloadLen.toNat
        let out :=
          { out with
            type := PacketType.ofCode header.type
            payload := resize out.payload size }
        if 0 < size then
          let (ok, data, conn) := readRaw conn size
          (ok, { out with payload := data ++ out.payload.drop data.length }, conn)
        else (true, out, conn)

theorem readRaw_of_le {conn : Source UInt8} {len : Nat} (fits : len < 2 ^ 32)
    (enough : len ≤ conn.incoming.length) :
    (readRaw conn len).1 = true ∧ (readRaw conn len).2.1 = conn.incoming.take len ∧
      (readRaw conn len).2.2.incoming = conn.incoming.drop len :=
  Source.fill_of_le (asking_requestLength fits) conn enough

theorem length_of_readRaw {conn : Source UInt8} {len : Nat}
    (ok : (readRaw conn len).1 = true) : len ≤ conn.incoming.length := by
  by_contra tooFew
  have failed := @Source.fill_of_lt UInt8 requestLength len conn
    (Nat.lt_of_not_le tooFew)
  rw [readRaw, failed] at ok
  cases ok

theorem readPacket_of_frame {conn : Source UInt8} {frame : Frame} {rest : Bytes}
    (arrived : conn.incoming = frame.bytes ++ rest) (out : RawPacket) :
    (readPacket conn out).1 = true ∧
      (readPacket conn out).2.1 = { frame.packet with peerIp := out.peerIp } ∧
      (readPacket conn out).2.2.incoming = rest := by
  have fits := frame.fits
  have length := frame.payloadLen_toNat
  rw [Frame.bytes, List.append_assoc] at arrived
  have front : conn.incoming.take headerSize = frame.header.bytes := by
    rw [arrived, ← frame.header.bytes_length, List.take_left']
    rfl
  have back : conn.incoming.drop headerSize = frame.payload ++ rest := by
    rw [arrived, ← frame.header.bytes_length, List.drop_left']
    rfl
  have enough : headerSize ≤ conn.incoming.length := by
    rw [arrived, List.length_append, frame.header.bytes_length]
    omega
  obtain ⟨headerOk, headerRead, headerLeft⟩ :=
    readRaw_of_le (by decide : headerSize < 2 ^ 32) enough
  have parsed : parsePacketHeader (readRaw conn headerSize).2.1 = some frame.header := by
    rw [headerRead, front]
    exact parsePacketHeader_eq_some_iff.mpr ⟨rfl, List.prefix_rfl⟩
  unfold readPacket
  generalize readRaw conn headerSize = answer at headerOk headerLeft parsed ⊢
  obtain ⟨ok, buf, conn⟩ := answer
  simp only at headerOk headerLeft parsed ⊢
  rw [headerOk, parsed, if_neg (by decide)]
  rw [back] at headerLeft
  simp only [length]
  split
  next =>
      have inside : frame.payload.length ≤ conn.incoming.length := by
        rw [headerLeft, List.length_append]
        omega
      obtain ⟨payloadOk, payloadRead, payloadLeft⟩ := readRaw_of_le fits inside
      rw [headerLeft, List.take_left] at payloadRead
      rw [headerLeft, List.drop_left] at payloadLeft
      refine ⟨payloadOk, ?_, payloadLeft⟩
      have old : (resize out.payload frame.payload.length).drop frame.payload.length = [] :=
        List.drop_of_length_le (by rw [resize_length])
      rw [payloadRead, old, List.append_nil]
      rfl
  next empty =>
      have nothing : frame.payload = [] := List.length_eq_zero_iff.mp (by omega)
      rw [nothing, List.nil_append] at headerLeft
      refine ⟨rfl, ?_, headerLeft⟩
      simp [Frame.packet, Frame.header, resize, nothing]

private theorem frame_of_readPacket {conn : Source UInt8} {out : RawPacket}
    (ok : (readPacket conn out).1 = true) :
    ∃ (frame : Frame) (rest : Bytes), conn.incoming = frame.bytes ++ rest := by
  unfold readPacket at ok
  rcases received : readRaw conn headerSize with ⟨headerOk, buf, later⟩
  rw [received] at ok
  simp only at ok
  have headerRead := @readRaw_of_le conn headerSize (by decide)
  have headerLength := @length_of_readRaw conn headerSize
  rw [received] at headerRead headerLength
  cases headerOk with
  | false =>
      rw [if_pos rfl] at ok
      cases ok
  | true =>
      have enough := headerLength rfl
      obtain ⟨_ok, bufRead, left⟩ := headerRead enough
      simp only at bufRead left
      rw [if_neg (by decide)] at ok
      cases parsed : parsePacketHeader buf with
      | none =>
          rw [parsed] at ok
          cases ok
      | some header =>
          rw [parsed] at ok
          simp only at ok
          obtain ⟨magic, inBuf⟩ := parsePacketHeader_eq_some_iff.mp parsed
          have whole : header.bytes = conn.incoming.take headerSize := by
            rw [← bufRead]
            apply inBuf.eq_of_length
            rw [header.bytes_length, bufRead, List.length_take]
            omega
          have bounded := header.payloadLen.toNat_lt
          have inside : header.payloadLen.toNat ≤ (conn.incoming.drop headerSize).length := by
            rw [← left]
            split at ok
            next => exact length_of_readRaw ok
            next none_declared => omega
          have size : ((conn.incoming.drop headerSize).take header.payloadLen.toNat).length =
              header.payloadLen.toNat := by
            rw [List.length_take]
            omega
          refine ⟨{ type := header.type
                    hmac := header.hmac
                    payload := (conn.incoming.drop headerSize).take header.payloadLen.toNat
                    fits := by rw [size]; exact bounded },
            (conn.incoming.drop headerSize).drop header.payloadLen.toNat, ?_⟩
          have same : PacketHeader.bytes
              { magic := ⟨shrProtocolMagic, rfl⟩
                type := header.type
                payloadLen := header.payloadLen
                hmac := header.hmac } = header.bytes := by
            obtain ⟨magicBlock, type, payloadLen, tag⟩ := header
            simp only at magic
            rw [PacketHeader.bytes, PacketHeader.bytes, magic]
          rw [Frame.bytes, Frame.header]
          simp only
          rw [size, UInt32.ofNat_toNat, same, whole, List.append_assoc, List.take_append_drop,
            List.take_append_drop]

/-- What is read is the frame at the head of what arrives. -/
theorem readPacket_ok {conn : Source UInt8} {out : RawPacket}
    (ok : (readPacket conn out).1 = true) :
    ∃ frame : Frame, conn.incoming = frame.bytes ++ (readPacket conn out).2.2.incoming ∧
      (readPacket conn out).2.1 = { frame.packet with peerIp := out.peerIp } := by
  obtain ⟨frame, rest, arrived⟩ := frame_of_readPacket ok
  obtain ⟨_ok, packet, left⟩ := readPacket_of_frame arrived out
  exact ⟨frame, by rw [left, arrived], packet⟩

theorem readPacket_shorter {conn : Source UInt8} {out : RawPacket}
    (ok : (readPacket conn out).1 = true) :
    (readPacket conn out).2.2.incoming.length < conn.incoming.length := by
  obtain ⟨frame, arrived, _packet⟩ := readPacket_ok ok
  have length := congrArg List.length arrived
  rw [List.length_append, Frame.bytes_length, headerSize] at length
  omega

theorem readPacket_incoming_le (conn : Source UInt8) (out : RawPacket) :
    (readPacket conn out).2.2.incoming.length ≤ conn.incoming.length := by
  have first := Source.fill_incoming_le requestLength headerSize conn
  unfold readPacket readRaw
  rcases received : conn.fill requestLength headerSize with ⟨ok, buf, later⟩
  rw [received] at first
  simp only at first ⊢
  split
  next => exact first
  next =>
      cases parsePacketHeader buf with
      | none => exact first
      | some header =>
          have second := Source.fill_incoming_le requestLength
            header.payloadLen.toNat later
          simp only
          split
          next => exact Nat.le_trans second first
          next => exact first

def readPackets (conn : Source UInt8) (out : RawPacket) : List Packet × Source UInt8 :=
  if _ok : (readPacket conn out).1 = true then
    let (packets, last) := readPackets (readPacket conn out).2.2 (readPacket conn out).2.1
    ((readPacket conn out).2.1.toPacket :: packets, last)
  else ([], (readPacket conn out).2.2)
termination_by conn.incoming.length
decreasing_by exact readPacket_shorter _ok

/-! ### Writing -/

def writeRaw (conn : Sink UInt8) (data : Bytes) : Bool × Sink UInt8 :=
  conn.push requestLength data

def sendPacketConn (hmac : Hmac) (conn : Sink UInt8) (packet : Packet) : Bool × Sink UInt8 :=
  writeRaw conn (serializePacket hmac packet.type packet.payload none)

/-- A packet to be sent: its type byte, its payload and the key given for it. -/
structure Outgoing where
  code : UInt8
  payload : Bytes
  hmacKey : Option Bytes

def Outgoing.packet (outgoing : Outgoing) : Packet :=
  { type := PacketType.ofCode outgoing.code
    payload := outgoing.payload }

def writePackets (hmac : Hmac) : List Outgoing → Sink UInt8 → Bool × Sink UInt8
  | [], conn => (true, conn)
  | outgoing :: rest, conn =>
      let (ok, conn) := writeRaw conn (serializePacket hmac (PacketType.ofCode outgoing.code)
        outgoing.payload outgoing.hmacKey)
      if ok then writePackets hmac rest conn else (false, conn)

end Network

end Shr
