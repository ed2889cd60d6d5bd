import Perdition.ManagesieveIn
import Perdition.Pop3In
import Perdition.Pop3Out

/-!
# Protocols

The functions of `protocol_t` for each protocol, and `quit`. The protocols over SSL differ from the
plain ones in their ports and their default encryption only.
-/
namespace Perdition

/-- The protocols of `protocol_initialise`. -/
inductive Protocol where
  /-- `PROTOCOL_POP3` and `PROTOCOL_POP3S`. -/
  | pop3
  /-- `PROTOCOL_IMAP4` and `PROTOCOL_IMAP4S`. -/
  | imap4
  /-- `PROTOCOL_MANAGESIEVE`. -/
  | managesieve
  deriving DecidableEq, Repr

/-- The indices of `protocol_t.type`. -/
inductive ReplyType where
  /-- `PROTOCOL_OK`. -/
  | ok
  /-- `PROTOCOL_NO` and `PROTOCOL_ERR`. -/
  | no
  deriving DecidableEq, Repr

namespace Protocol

/-- `type`. -/
def type : Protocol → ReplyType → CString
  | pop3, .ok => lit "+OK"
  | pop3, .no => lit "-ERR"
  | imap4, .ok => lit "OK"
  | imap4, .no => lit "NO"
  | managesieve, .ok => lit "OK"
  | managesieve, .no => lit "NO"

/-- `write_str`. -/
def writeStr (protocol : Protocol) (flag : Flag) (tag : Option Token)
    (command str : Option CString) : Dialogue Int :=
  match protocol with
  | pop3 => pop3WriteStr flag command str
  | imap4 => imap4WriteStr flag tag command str
  | managesieve => managesieveWriteStr flag command str

/-- `quit_string`. -/
def quitString : Protocol → CString
  | pop3 => lit "QUIT"
  | imap4 => lit "LOGOUT"
  | managesieve => lit "LOGOUT"

/-- `in_get_auth`. -/
def inGetAuth (protocol : Protocol) (opt : Options) (platform : Platform)
    (tlsFlags tlsState : Flag) : Dialogue InAuth :=
  match protocol with
  | pop3 => pop3InGetAuth opt tlsFlags tlsState
  | imap4 => imap4InGetAuth opt platform tlsFlags tlsState
  | managesieve => managesieveInGetAuth opt platform tlsFlags tlsState

/-- `out_setup`: the status and the tag. -/
def outSetup (protocol : Protocol) (opt : Options) (platform : Platform) (tag : Token) :
    Exchange (Int × Token) :=
  match protocol with
  | pop3 => do return (← pop3OutSetup opt platform, tag)
  | imap4 => imap4OutSetup opt platform tag
  | managesieve => do return (← managesieveOutSetup opt platform, tag)

/-- `out_authenticate`. -/
def outAuthenticate (protocol : Protocol) (platform : Platform) (tlsState : Flag) (auth : Auth)
    (saslMech : Int) (tag : Token) (capture : Option Capture) : Exchange OutAuth :=
  match protocol with
  | pop3 => pop3OutAuthenticate auth tag capture
  | imap4 => imap4OutAuthenticate auth tag capture
  | managesieve => managesieveOutAuthenticate platform tlsState auth saslMech tag capture

/-- `out_response` as `quit` calls it: nothing is relayed or captured. -/
def outResponse (protocol : Protocol) (tag : Token) (desired : Token) : Exchange Response :=
  match protocol with
  | imap4 => imap4OutResponse false (some tag) desired none
  | _ => pop3OutResponse desired none

/-- `greeting`. -/
def greeting (protocol : Protocol) (opt : Options) (platform : Platform) : Dialogue Int :=
  match protocol with
  | pop3 => match greetingStr platform (lit "POP3 perditon ready on") with
    | none => return -1
    | some message => pop3WriteStr nullFlag (some (lit "+OK")) (some message)
  | imap4 => match imap4GreetingStr opt platform with
    | none => fault .substring
    | some none => return -1
    | some (some message) => imap4WriteStr nullFlag none (some (lit "OK")) (some message)
  | managesieve => match greetingStr platform (lit "perdition ready on") with
    | none => return -1
    | some tail => match managesieveCapabilityMsg opt opt.sslMode sslModeEmpty tail with
      | none => fault .substring
      | some message => managesieveWriteRaw message

/-- The question of `quit` is written and its answer read, whatever it is. The tag moves on once the
question is written. -/
def quit (protocol : Protocol) (tag : Token) : Exchange Token := do
  if (← (protocol.writeStr nullFlag (some tag) (some protocol.quitString) none).with .server) < 0
    then return tag
  else
    let _ ← protocol.outResponse tag ⟨(protocol.type .ok).content, tokenDontCare⟩
    return imap4TagInc tag

end Protocol

end Perdition
