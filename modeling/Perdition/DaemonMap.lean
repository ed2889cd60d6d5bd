import Perdition.Getserver
import Perdition.Packet
import Perdition.UnixSocket

/-!
# The daemon map

`perditiondb_daemon.c`, the map that asks a daemon, and `db/daemon/server.c`, a daemon that gives every
user the same server. Memory is always allocated here.
-/
namespace Perdition

/-- `PERDITION_UN_STR_LEN`. -/
def perditionUnStrLen : Nat := 108

/-- `PERDITION_UN_SERVER_SOCKET`. -/
def perditionUnServerSocket : CString := lit "/var/run/perdition.db"

/-! ## Options -/

/-- The static variables of `perditiondb_daemon.c`. -/
structure DaemonMap where
  /-- `a`. -/
  a : Option (List CString)
  /-- `server_socket`. -/
  serverSocket : CString
  /-- `timeout`. -/
  timeout : Int
  /-- `max_retry`. -/
  maxRetry : Int

/-- The variables before `dbserver_init` is called. -/
def DaemonMap.unset : DaemonMap := ⟨none, perditionUnServerSocket, 1, 5⟩

/-- `dbserver_init`, with `vanessa_dynamic_array_split_str` at colons. -/
def DaemonMap.dbserverInit (splitStr : CString → Option (List CString)) (map : DaemonMap)
    (optionsStr : Option CString) : Int × DaemonMap :=
  match optionsStr, map.a with
  | none, _ => (0, map)
  | some _, some _ => (0, map)
  | some optionsStr, none => match splitStr optionsStr with
    | none => (-1, map)
    | some elements => (0, {
        a := some elements
        serverSocket := elements[0]?.getD map.serverSocket
        timeout := (elements[1]?.map atoi).getD map.timeout
        maxRetry := (elements[2]?.map atoi).getD map.maxRetry })

/-! ## Requests -/

/-- `PERDITION_PACKET_STR_PACK`: the length is that of the string modulo 2^16. -/
def perditionPacketStrPack (buf : CString) : PacketText where
  data := buf.content.take (buf.length % 2 ^ 16)
  fits := (List.length_take_le _ _).trans_lt (Nat.mod_lt _ (by decide))

/-- A `struct sockaddr_storage`. -/
structure SockaddrStorage where
  /-- `ss_family` is `AF_INET6`. -/
  inet6 : Bool
  /-- `sin_addr.s_addr`. -/
  sAddr : UInt32
  /-- `sin_port`. -/
  sinPort : UInt16
  /-- The numeric host and service that `getnameinfo` gives, unless it fails. -/
  nameinfo : Option (CString × CString)

/-- The host and the service of an address, both empty where there is no address. -/
def SockaddrStorage.names : Option SockaddrStorage → Option (CString × CString)
  | none => some (.empty, .empty)
  | some address => address.nameinfo

/-- `perdition_packet_create`. -/
def perditionPacketCreate : List Byte :=
  List.replicate (perditionPacketHeadLen + (perditionPacketMaxBodyLen + perditionPacketTailLen)) 0

/-- The packet that `dbserver_get2` sends, unless it cannot be made. -/
def dbserverGet2Packet (domainDelimiter : CString) (peername sockname : Option SockaddrStorage)
    (keyStr : CString) : Option (List Byte) :=
  let keyPstr := some (perditionPacketStrPack keyStr)
  let domainDelimiterPstr := some (perditionPacketStrPack domainDelimiter)
  if peername.any (·.inet6) || sockname.any (·.inet6) then do
    let (saddr, sport) ← SockaddrStorage.names peername
    let (daddr, dport) ← SockaddrStorage.names sockname
    let (status, packet) := perditionPacketInitV1StrReq (some perditionPacketCreate) 0
      (some (perditionPacketStrPack saddr)) (some (perditionPacketStrPack sport))
      (some (perditionPacketStrPack daddr)) (some (perditionPacketStrPack dport)) keyPstr
      domainDelimiterPstr
    if status < 0 then none else packet
  else
    let (status, packet) := perditionPacketInitV1Req (some perditionPacketCreate) 0
      ((peername.map (·.sAddr)).getD 0) ((peername.map (·.sinPort)).getD 0)
      ((sockname.map (·.sAddr)).getD 0) ((sockname.map (·.sinPort)).getD 0) keyPstr
      domainDelimiterPstr
    if status < 0 then none else packet

/-- `ntohs(packet->head.length)` of a packet that was made. -/
def packetLength (packet : List Byte) : Nat := (PacketHead.length packet).toOption.getD 0

/-- What `dbserver_get2` calls `perdition_un_send_recv` with. -/
def DaemonMap.request (map : DaemonMap) (packet : List Byte) : UnRequest where
  peerName := cstr (map.serverSocket.content.take (perditionUnStrLen - 1))
  msg := packet
  sendLen := packetLength packet
  recvLen := perditionPacketMaxPacketLen
  timeout := map.timeout
  retry := map.maxRetry

/-- The bytes of a string in a packet. -/
def packetStrData (packet : List Byte) (str : PacketStr) : List Byte :=
  match str.data with
  | none => []
  | some place => (packet.drop place).take str.length

/-- What `dbserver_get2` returns once `perdition_un_send_recv` has returned a count of bytes: the bytes
at `packet` are then the reply and what it leaves of the request. -/
def dbserverGet2Return (packet : List Byte) (bytes : Int) : Except PacketError MapResult :=
  if bytes < 0 then .ok (.failed (-1))
  else
    let received := packet.take bytes.toNat
    match perditionPacketVerifyV1Rsp received with
    | .error .invalid => .ok (.failed (-1))
    | .error .beyond => .error .beyond
    | .ok strs =>
      -- `calloc` and `memcpy`: the string ends at its first NUL
      let text (i : Nat) : Option CString := strs[i]?.map fun str => cstr (packetStrData received str)
      .ok (.parts 0 (text 0) (text 1) (text 2))

/-! ## The daemon -/

/-- A string of a received packet as an argument of `perdition_packet_init_v1_rsp`. Its length is a
`uint16_t`. -/
def packetStrText (packet : List Byte) (str : PacketStr) : PacketText where
  data := (packetStrData packet str).take (str.length % 2 ^ 16)
  fits := (List.length_take_le _ _).trans_lt (Nat.mod_lt _ (by decide))

/-- The key that `main` of `server.c` finds in a packet of either kind, unless it goes on to the next
packet. -/
def serverKey (reqPacket : List Byte) : Except PacketError (Option PacketText) :=
  let key (strs : List PacketStr) : Option PacketText := strs.head?.map (packetStrText reqPacket)
  match perditionPacketVerifyV1Req reqPacket with
  | .ok strs => .ok (key strs)
  | .error .beyond => .error .beyond
  | .error .invalid => match perditionPacketVerifyV1StrReq reqPacket with
    | .ok strs => .ok (key strs)
    | .error .beyond => .error .beyond
    | .error .invalid => .ok none

/-- The datagram that `main` of `server.c` sends for one it has received, if it sends any. Of a longer
datagram only so much is received as the buffer holds. -/
def serverAnswer (response : CString) (datagram : List Byte) :
    Except PacketError (Option (List Byte)) := do
  match ← serverKey (datagram.take perditionPacketMaxPacketLen) with
  | none => return none
  | some key =>
    let (status, rspPacket) := perditionPacketInitV1Rsp (some perditionPacketCreate) 0
      (some key) (some (perditionPacketStrPack response)) none
    if status < 0 then return none
    else return rspPacket.map fun packet => packet.take (packetLength packet)

end Perdition
