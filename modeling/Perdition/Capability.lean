import Perdition.Options
import Perdition.Str

/-!
# Capabilities and greetings

The capability strings of the three protocols, made from the configured ones and the state of the
connection, and the greeting, which `out_setup` compares with the greeting of the real server.
-/
namespace Perdition

/-- `protocol_capability` with `PROTOCOL_C_ADD` or `PROTOCOL_C_DEL`. -/
def protocolCapability (add : Bool) (existing capability delimiter : CString) : Option CString :=
  if add then strAppendSubstringIfMissing existing capability delimiter
  else strDeleteSubstring existing capability delimiter

/-- TLS is offered to the client and not yet in use. -/
def tlsOffered (tlsFlags tlsState : Flag) : Bool :=
  tlsFlags.has sslModeTlsListen && !tlsState.has sslModeTlsListen

/-! ## IMAP -/

/-- `IMAP4_CAPABILITY_DELIMITER`. -/
def imap4CapabilityDelimiter : CString := lit " "

/-- `imap4_capability`. -/
def imap4Capability (opt : Options) (tlsFlags tlsState : Flag) : Option CString := do
  let capability ← protocolCapability (tlsOffered tlsFlags tlsState) opt.imapCapability
    (lit "STARTTLS") imap4CapabilityDelimiter
  if !opt.loginDisabled && (!tlsFlags.has sslModeTlsListen ||
      !tlsFlags.has sslModeTlsListenForce) then
    return capability
  else
    protocolCapability (!tlsState.has sslModeTlsListen) capability (lit "LOGINDISABLED")
      imap4CapabilityDelimiter

/-! ## POP3 and ManageSieve -/

/-- The pieces of a string at its delimiters, joined by line ends. Every piece but the last ends at
a delimiter, so the length of the string bounds the pieces. -/
def mangleCapability (delimiter : List Byte) : Nat → List Byte → List Byte
  | 0, rest => rest
  | rounds + 1, rest =>
    match strstr rest delimiter with
    | none => rest
    | some place => rest.take place ++ crlf ++
        mangleCapability delimiter rounds (rest.drop (place + delimiter.length))

/-- `pop3_in_mangle_capability`. -/
def pop3InMangleCapability (capability delimiter : CString) : CString :=
  cstr (mangleCapability delimiter.content (capability.length + 1) capability.content ++ crlf ++
    bytes "." ++ crlf)

/-- `pop3_in_capability`. -/
def pop3InCapability (opt : Options) (tlsFlags tlsState : Flag) : Option CString := do
  let delimiter := if (strstr opt.popCapability.content (bytes ".")).isSome then lit "."
    else lit "  "
  let capability ← protocolCapability (tlsOffered tlsFlags tlsState) opt.popCapability
    (lit "STLS") delimiter
  return pop3InMangleCapability capability delimiter

/-- `MANAGESIEVE_CAPA_DELIMITER`. -/
def managesieveCapaDelimiter : CString := lit "  "

/-- `managesieve_mangle_capability`. -/
def managesieveMangleCapability (capability : CString) : CString :=
  cstr (mangleCapability managesieveCapaDelimiter.content (capability.length + 1)
    capability.content)

/-- `managesieve_capability`. -/
def managesieveCapability (opt : Options) (tlsFlags tlsState : Flag) : Option CString := do
  let capability ← protocolCapability (tlsOffered tlsFlags tlsState) opt.managesieveCapability
    (lit "\"STARTTLS\"") managesieveCapaDelimiter
  return managesieveMangleCapability capability

/-- `managesieve_capability_msg`. -/
def managesieveCapabilityMsg (opt : Options) (tlsFlags tlsState : Flag) (tail : CString) :
    Option CString := do
  let capability ← managesieveCapability opt tlsFlags tlsState
  return capability ++ lit "\r\nOK \"" ++ tail ++ lit "\""

/-! ## Greetings -/

/-- `greeting_str` with `GREETING_ADD_NODENAME`. -/
def greetingStr (platform : Platform) (base : CString) : Option CString := do
  let host ← platform.greetingHost
  return base ++ lit " " ++ host ++ lit " " ++ platform.greetingChecksum

/-- `imap4_greeting_str`. There is no result at all where the capability is read out of bounds, and
a null string where the host name cannot be determined. -/
def imap4GreetingStr (opt : Options) (platform : Platform) : Option (Option CString) := do
  let capability ← imap4Capability opt opt.sslMode sslModeEmpty
  return greetingStr platform (lit "[CAPABILITY " ++ capability ++ lit "] perdition ready on")

end Perdition
