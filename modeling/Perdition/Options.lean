import Perdition.Io

/-!
# Options and the code outside the program

The members of `options_t` that the modelled functions read, and the functions and facts of the
platform that they use.
-/
namespace Perdition

/-! ## States of the user name options -/

/-- `STATE_GET_SERVER`. -/
def stateGetServer : Flag := 0x1

/-- `STATE_LOCAL_AUTH`. -/
def stateLocalAuth : Flag := 0x2

/-- `STATE_REMOTE_LOGIN`. -/
def stateRemoteLogin : Flag := 0x4

/-! ## Bits of `ssl_mode` and `tls_state` -/

/-- `SSL_MODE_EMPTY`. -/
def sslModeEmpty : Flag := 0x00

/-- `SSL_MODE_SSL_LISTEN`. -/
def sslModeSslListen : Flag := 0x01

/-- `SSL_MODE_SSL_OUTGOING`. -/
def sslModeSslOutgoing : Flag := 0x02

/-- `SSL_MODE_TLS_LISTEN`. -/
def sslModeTlsListen : Flag := 0x04

/-- `SSL_MODE_TLS_OUTGOING`. -/
def sslModeTlsOutgoing : Flag := 0x08

/-- `SSL_MODE_TLS_LISTEN_FORCE`. -/
def sslModeTlsListenForce : Flag := 0x10

/-- `SSL_MODE_TLS_OUTGOING_FORCE`. -/
def sslModeTlsOutgoingForce : Flag := 0x20

/-- An entry of `outgoing_server`, or of a map: `user_server_port_t`. -/
structure UserServerPort where
  /-- `user`. -/
  user : Option CString
  /-- `server`. -/
  server : Option CString
  /-- `port`. -/
  port : Option CString
  deriving DecidableEq

/-- The options the modelled functions read. -/
structure Options where
  /-- States in which `add_domain` applies. -/
  addDomain : Flag
  /-- Levels of the host name that `add_domain` leaves out. -/
  addDomainStripDepth : Nat
  /-- `authenticate_in`. -/
  authenticateIn : Bool
  /-- `pop_capability`. -/
  popCapability : CString
  /-- `managesieve_capability`. -/
  managesieveCapability : CString
  /-- `imap_capability`. -/
  imapCapability : CString
  /-- `client_server_specification`. -/
  clientServerSpecification : Bool
  /-- `domain_delimiter`. -/
  domainDelimiter : CString
  /-- `explicit_domain`. -/
  explicitDomain : Option CString
  /-- `login_disabled`. -/
  loginDisabled : Bool
  /-- States in which `lower_case` applies. -/
  lowerCase : Flag
  /-- `outgoing_port`. -/
  outgoingPort : CString
  /-- `outgoing_server`; null is no list, and the list of an option string is not empty. -/
  outgoingServer : List UserServerPort
  /-- `ok_line`. -/
  okLine : CString
  /-- `server_resp_line`. -/
  serverRespLine : Bool
  /-- States in which `strip_domain` applies. -/
  stripDomain : Flag
  /-- `username_from_database`. -/
  usernameFromDatabase : Bool
  /-- `query_key`; null is no list. -/
  queryKey : Option (List CString)
  /-- `ssl_mode`. -/
  sslMode : Flag

/-- What the platform and other libraries contribute. -/
structure Platform where
  /-- `char` is signed. -/
  charSigned : Bool
  /-- `vanessa_socket_str_is_digit`. -/
  strIsDigit : CString → Bool
  /-- The value of `strcmp` for two strings that differ, of which only the sign is specified. -/
  strcmpDiff : CString → CString → Int
  /-- Base64 encoding without line breaks, by the BIO filter of `base64_encode`. -/
  base64Encode : List Byte → List Byte
  /-- What the BIO filter of `base64_decode` reads from a string, if it reads any byte. -/
  base64Decode : CString → Option (List Byte)
  /-- `saslprep`: stringprep where it is compiled in, else the string itself. -/
  saslprep : CString → Option CString
  /-- The name `getnameinfo` gives the address connected to, where there is an address. -/
  sockname : Option (Option CString)
  /-- The bytes of a new block, before anything is stored in it. -/
  malloc : Nat → List Byte
  /-- The value of `rand` at the start. -/
  rand : Nat
  /-- The host name of the greeting, where it can be determined. -/
  greetingHost : Option CString
  /-- The checksum of the option strings, eight digits. -/
  greetingChecksum : CString

/-- An ordinary platform, with nothing that needs a network. -/
def Platform.sample : Platform where
  charSigned := true
  strIsDigit text := text.content.all isDigit
  strcmpDiff _ _ := 1
  base64Encode content := content
  base64Decode text := if text.isEmpty then none else some text.content
  saslprep text := some text
  sockname := none
  malloc count := List.replicate count 0
  rand := 0
  greetingHost := some (lit "mail")
  greetingChecksum := lit "00000000"

/-- Options that set nothing but the real server. -/
def Options.sample : Options where
  addDomain := 0
  addDomainStripDepth := 1
  authenticateIn := false
  popCapability := lit "UIDL.USER"
  managesieveCapability := lit "\"IMPLEMENTATION\" \"perdition\""
  imapCapability := lit "IMAP4 IMAP4REV1"
  clientServerSpecification := false
  domainDelimiter := lit "@"
  explicitDomain := none
  loginDisabled := false
  lowerCase := 0
  outgoingPort := lit "110"
  outgoingServer := [⟨none, some (lit "real"), none⟩]
  okLine := lit "You are so in"
  serverRespLine := false
  stripDomain := 0
  usernameFromDatabase := false
  queryKey := none
  sslMode := sslModeEmpty

/-- `strcmp`. -/
def Platform.strcmp (platform : Platform) (left right : CString) : Int :=
  if left = right then 0
  else
    let diff := platform.strcmpDiff left right
    if diff = 0 then 1 else diff

end Perdition
