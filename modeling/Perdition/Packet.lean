import Perdition.Bytes

/-!
# Packets of the map daemon

`packet.c` of `db/daemon/lib`: the checks of a received packet, and the building of one that is sent.
A received packet is the bytes that were received; a field that lies beyond them cannot be read,
although the buffer goes on. A packet that is built is a whole `perdition_packet_t`.
-/
namespace Perdition

/-- `PERDITION_PACKET_MAGIC`. -/
def perditionPacketMagic : Nat := 0x07070707

/-- `PERDITION_PACKET_REQ`. -/
def perditionPacketReq : Nat := 0x0001

/-- `PERDITION_PACKET_RSP`. -/
def perditionPacketRsp : Nat := 0x0002

/-- `PERDITION_PACKET_STR_REQ`. -/
def perditionPacketStrReq : Nat := 0x0003

/-- `PERDITION_PACKET_CS_NONE`. -/
def perditionPacketCsNone : Nat := 0x0000

/-- `sizeof(perdition_packet_head_t)`, and with it the place of `body`. -/
def perditionPacketHeadLen : Nat := 24

/-- `PERDITION_PACKET_MAX_PACKET_LEN`. -/
def perditionPacketMaxPacketLen : Nat := 65000

/-- `PERDITION_PACKET_MAX_BODY_LEN`: the tail is as long as its longest checksum. -/
def perditionPacketMaxBodyLen : Nat := perditionPacketMaxPacketLen - 24

/-- Why a packet is not verified. -/
inductive PacketError where
  /-- It is refused. -/
  | invalid
  /-- Bytes that were not received are read. -/
  | beyond
  deriving DecidableEq, Repr

/-- A 16-bit field in network byte order at a place of the packet. -/
def ntohs (packet : List Byte) (place : Nat) : Except PacketError Nat :=
  match packet.drop place with
  | high :: low :: _ => .ok (high.toNat * 256 + low.toNat)
  | _ => .error .beyond

/-- A 32-bit field in network byte order at a place of the packet. -/
def ntohl (packet : List Byte) (place : Nat) : Except PacketError Nat := do
  return (← ntohs packet place) * 65536 + (← ntohs packet (place + 2))

namespace PacketHead

/-- `magic`. -/
def magic (packet : List Byte) : Except PacketError Nat := ntohl packet 0

/-- `flags`. -/
def flags (packet : List Byte) : Except PacketError Nat := ntohs packet 6

/-- `length`. -/
def length (packet : List Byte) : Except PacketError Nat := ntohs packet 8

/-- `cs_type`. -/
def csType (packet : List Byte) : Except PacketError Nat := ntohs packet 10

end PacketHead

/-- `perdition_packet_str_t`: a length, and the place of the bytes in the packet unless there are
none. -/
structure PacketStr where
  /-- `length`. -/
  length : Nat
  /-- `data`. -/
  data : Option Nat
  deriving DecidableEq

/-- `perdition_packet_verify_v1_head`. A length that is not that of the packet is only logged. -/
def perditionPacketVerifyV1Head (packet : List Byte) : Except PacketError Unit :=
  if packet.length < perditionPacketHeadLen then .error .invalid
  else do
    if (← PacketHead.magic packet) ≠ perditionPacketMagic then .error .invalid
    else if perditionPacketMaxPacketLen < packet.length then .error .invalid
    else
      let _length ← PacketHead.length packet
      if (← PacketHead.csType packet) ≠ perditionPacketCsNone then .error .invalid
      else .ok ()

/-- `packet_str_get`: the string at a place, and the place after it. -/
def packetStrGet (packet : List Byte) (place : Nat) : Except PacketError (PacketStr × Nat) := do
  let length ← ntohs packet place
  return (⟨length, if length = 0 then none else some (place + 2)⟩, place + 2 + length)

/-- `PACKET_STR_GET` of so many strings, one after another. -/
def packetStrsGet (packet : List Byte) : Nat → Nat → Except PacketError (List PacketStr × Nat)
  | 0, place => .ok ([], place)
  | count + 1, place => do
    let (str, place) ← packetStrGet packet place
    let (strs, place) ← packetStrsGet packet count place
    return (str :: strs, place)

/-- `perdition_packet_verify_v1_tail`. -/
def perditionPacketVerifyV1Tail (packet : List Byte) (bodyLen : Nat) : Except PacketError Unit :=
  if perditionPacketMaxBodyLen < bodyLen then .error .invalid
  else do
    if bodyLen + perditionPacketHeadLen ≠ (← PacketHead.length packet) then .error .invalid
    else .ok ()

/-- The checks of a packet with these flags and so many strings, which are returned. -/
def perditionPacketVerifyV1 (flags count : Nat) (packet : List Byte) :
    Except PacketError (List PacketStr) := do
  perditionPacketVerifyV1Head packet
  if (← PacketHead.flags packet) ≠ flags then .error .invalid
  else
    let (strs, place) ← packetStrsGet packet count perditionPacketHeadLen
    perditionPacketVerifyV1Tail packet (place - perditionPacketHeadLen)
    return strs

/-- `perdition_packet_verify_v1_req`: the key and the domain delimiter. -/
def perditionPacketVerifyV1Req (packet : List Byte) : Except PacketError (List PacketStr) :=
  perditionPacketVerifyV1 perditionPacketReq 2 packet

/-- `perdition_packet_verify_v1_str_req`: the key, the domain delimiter, and the addresses and ports
of the source and the destination. -/
def perditionPacketVerifyV1StrReq (packet : List Byte) : Except PacketError (List PacketStr) :=
  perditionPacketVerifyV1 perditionPacketStrReq 6 packet

/-- `perdition_packet_verify_v1_rsp`: the user, the server and the port. -/
def perditionPacketVerifyV1Rsp (packet : List Byte) : Except PacketError (List PacketStr) :=
  perditionPacketVerifyV1 perditionPacketRsp 3 packet

/-! ## Building a packet -/

/-- `PERDITION_PACKET_VERSION`. -/
def perditionPacketVersion : Nat := 0x00000001

/-- `sizeof(perdition_packet_tail_t)`. -/
def perditionPacketTailLen : Nat := 24

/-- A `perdition_packet_str_t` of a caller: its length is a `uint16_t`. -/
structure PacketText where
  /-- `data`, of `length` bytes. -/
  data : List Byte
  /-- The length has room in its field. -/
  fits : data.length < 2 ^ 16

/-- The bytes of a string that may be `NULL`. -/
def packetText : Option PacketText → List Byte
  | none => []
  | some str => str.data

/-- The bytes that `htons` puts into a field. -/
def htons (value : UInt16) : List Byte :=
  [UInt8.ofNat (value.toNat / 256), UInt8.ofNat value.toNat]

/-- The bytes that `htonl` puts into a field. -/
def htonl (value : UInt32) : List Byte :=
  [UInt8.ofNat (value.toNat / 16777216), UInt8.ofNat (value.toNat / 65536),
    UInt8.ofNat (value.toNat / 256), UInt8.ofNat value.toNat]

/-- `memcpy` to a place of the packet. -/
def memcpy (packet : List Byte) (place : Nat) (content : List Byte) : List Byte :=
  packet.take place ++ content ++ packet.drop (place + content.length)

/-- `PACKET_STR_SET`: the packet with a string at a place, and the place after it. -/
def packetStrSet (packet : List Byte) (place : Nat) (str : Option PacketText) : List Byte × Nat :=
  let length := (packetText str).length
  let packet := memcpy packet place (htons (UInt16.ofNat length))
  if length = 0 then (packet, place + 2)
  else (memcpy packet (place + 2) (packetText str), place + 2 + length)

/-- `PACKET_STR_SET` of strings, one after another. -/
def packetStrsSet (packet : List Byte) (place : Nat) : List (Option PacketText) → List Byte × Nat
  | [] => (packet, place)
  | str :: strs =>
    let (packet, place) := packetStrSet packet place str
    packetStrsSet packet place strs

/-- `perdition_packet_init_v1_head`: the packet of the caller is created where there is none, and
cleared otherwise, before its header is filled in. -/
def perditionPacketInitV1Head (packet : Option (List Byte)) (csType : UInt16) (flags : Nat)
    (saddr : UInt32) (sport : UInt16) (daddr : UInt32) (dport : UInt16) (bodyLen : Nat) :
    Int × Option (List Byte) :=
  if csType.toNat ≠ perditionPacketCsNone then (-1, packet)
  else if perditionPacketMaxBodyLen < bodyLen then (-1, packet)
  else
    let packet : List Byte := List.replicate
      (perditionPacketHeadLen + (perditionPacketMaxBodyLen + perditionPacketTailLen)) 0
    let packet := memcpy packet 0 (htonl (UInt32.ofNat perditionPacketMagic))
    let packet := memcpy packet 4 (htons (UInt16.ofNat perditionPacketVersion))
    let packet := memcpy packet 6 (htons (UInt16.ofNat flags))
    let packet := memcpy packet 8 (htons (UInt16.ofNat (perditionPacketHeadLen + bodyLen)))
    let packet := memcpy packet 10 (htons csType)
    let packet := memcpy packet 12 (htonl saddr)
    let packet := memcpy packet 20 (htons sport)
    let packet := memcpy packet 16 (htonl daddr)
    let packet := memcpy packet 22 (htons dport)
    (0, some packet)

/-- `body_len`: what strings take in a body. -/
def packetBodyLen (strs : List (Option PacketText)) : Nat :=
  (strs.map fun str => 2 + (packetText str).length).sum

/-- The packet with these flags and addresses, and with strings in its body. -/
def perditionPacketInitV1 (flags : Nat) (packet : Option (List Byte)) (csType : UInt16)
    (saddr : UInt32) (sport : UInt16) (daddr : UInt32) (dport : UInt16)
    (strs : List (Option PacketText)) : Int × Option (List Byte) :=
  match perditionPacketInitV1Head packet csType flags saddr sport daddr dport
    (packetBodyLen strs) with
  | (0, some packet) => (0, some (packetStrsSet packet perditionPacketHeadLen strs).1)
  | failed => failed

/-- `perdition_packet_init_v1_req`. -/
def perditionPacketInitV1Req (packet : Option (List Byte)) (csType : UInt16) (saddr : UInt32)
    (sport : UInt16) (daddr : UInt32) (dport : UInt16) (key domainDelimiter : Option PacketText) :
    Int × Option (List Byte) :=
  perditionPacketInitV1 perditionPacketReq packet csType saddr sport daddr dport
    [key, domainDelimiter]

/-- `perdition_packet_init_v1_str_req`. -/
def perditionPacketInitV1StrReq (packet : Option (List Byte)) (csType : UInt16)
    (saddr sport daddr dport key domainDelimiter : Option PacketText) : Int × Option (List Byte) :=
  perditionPacketInitV1 perditionPacketStrReq packet csType 0 0 0 0
    [key, domainDelimiter, saddr, sport, daddr, dport]

/-- `perdition_packet_init_v1_rsp`. -/
def perditionPacketInitV1Rsp (packet : Option (List Byte)) (csType : UInt16)
    (user server port : Option PacketText) : Int × Option (List Byte) :=
  perditionPacketInitV1 perditionPacketRsp packet csType 0 0 0 0 [user, server, port]

end Perdition
