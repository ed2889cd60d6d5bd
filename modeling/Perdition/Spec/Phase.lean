import Perdition.Lib.Path
import Perdition.World

/-!
# The phases of a session

What a session is for, as a transition system over the events of a run. A phase says where the
session stands, which connections are open, whose bytes may be unread and which credentials are in
use; a step says what may happen there. How commands are parsed, what is written to the client and
what the real server answers are left open, so the paths of this system are those of any protocol.
-/
namespace Perdition

open Lib

/-! ## The set-up of a server -/

/-- A tag of the program: the first one, or the one after another. -/
inductive OurTag : Token → Prop where
  /-- The first tag. -/
  | create : OurTag imap4TagCreate
  /-- The next tag. -/
  | inc {tag : Token} (before : OurTag tag) : OurTag (imap4TagInc tag)

/-- The commands sent to a real server before credentials are. -/
def setupCommands : Protocol → List (List Byte)
  | .pop3 => [bytes "CAPA", bytes "STLS", bytes "QUIT"]
  | .imap4 => [bytes "CAPABILITY", bytes "STARTTLS", bytes "LOGOUT"]
  | .managesieve => [bytes "STARTTLS", bytes "LOGOUT"]

/-- What stands before a command: a tag of the program, where the protocol has tags. -/
def CommandFront (protocol : Protocol) (front : List Byte) : Prop :=
  if protocol = .imap4 then ∃ tag, OurTag tag ∧ front = tag.buf ++ [space] else front = []

/-- A line sent to a real server before credentials are. It is one of a family that is the same for
all credentials. -/
def SetupLine (protocol : Protocol) (content : List Byte) : Prop :=
  ∃ front command, CommandFront protocol front ∧ command ∈ setupCommands protocol ∧
    content = front ++ command ++ crlf

/-! ## Phases -/

/-- Where a session stands. -/
inductive Stage where
  /-- The client has been accepted and is being greeted. -/
  | starting
  /-- No attempt is under way. -/
  | idle
  /-- The commands of the client are read. -/
  | reading
  /-- They have been read, and the read buffer was emptied. -/
  | read
  /-- `in_get_auth` returned a status. -/
  | returned (status : Int)
  /-- The connection of the client was upgraded. -/
  | upgraded
  /-- Logins are allowed. -/
  | tested
  /-- Logins are disabled. -/
  | refused
  /-- The real server is chosen. -/
  | located
  /-- The client was authenticated locally. -/
  | admitted
  /-- The real server is connected. -/
  | connected
  /-- The real server is greeted and asked for TLS. -/
  | settingUp
  /-- TLS was started with it. -/
  | secured
  /-- The read buffer was emptied after that. -/
  | flushed
  /-- The credentials are sent. -/
  | authenticating
  /-- The client is told that the attempt failed. -/
  | failing
  /-- The loop is left. -/
  | left
  deriving DecidableEq

/-- The party whose bytes are read. -/
def Stage.reads : Stage → Option Party
  | reading => some .client
  | settingUp => some .server
  | authenticating => some .server
  | _ => none

/-- The client may be written to. -/
def Stage.answers : Stage → Bool
  | starting => true
  | reading => true
  | tested => true
  | located => true
  | settingUp => true
  | authenticating => true
  | failing => true
  | _ => false

/-- An attempt may be given up. -/
def Stage.fails : Stage → Bool
  | tested => true
  | settingUp => true
  | authenticating => true
  | failing => true
  | _ => false

/-- What is known of a session at a point of a run. -/
structure Phase where
  /-- Where it stands. -/
  stage : Stage
  /-- The connection of the client. -/
  client : IoId
  /-- The connection of the real server, where there is one. -/
  server : Option IoId
  /-- The connection the unread bytes were read from, unless there are none. -/
  source : Option IoId
  /-- What is known of the TLS of the client. -/
  tlsState : Flag
  /-- The credentials of the attempt. -/
  auth : Auth

namespace Phase

/-- A session that has just been accepted. -/
def start : Phase where
  stage := .starting
  client := ⟨.client, 0, 0⟩
  server := none
  source := none
  tlsState := sslModeEmpty
  auth := Auth.zero

/-- The connection of a party. -/
def conn (p : Phase) : Party → Option IoId
  | .client => some p.client
  | .server => p.server

/-- The credentials for a state of the user name options: the user name is mangled for it. -/
def Mangles (config : Config) (state : Flag) (auth mangled : Auth) : Prop :=
  ∃ name id, auth.getAuthorisationId = some name ∧
    usernameMangle config.opt config.platform name state = some id ∧
    mangled = auth.setAuthorisationId id.name

/-- The credentials of a real server: the map may have changed the user name. -/
def Locates (auth located : Auth) : Prop :=
  located = auth ∨ ∃ name, located = auth.setAuthorisationId name

/-- A connection to the real server may be made. -/
def Admits (config : Config) (p : Phase) : Prop :=
  p.stage = .admitted ∨ p.stage = .located ∧ config.opt.authenticateIn = false

/-- TLS with the real server is required. -/
def outgoingForced (config : Config) : Bool :=
  config.opt.sslMode.has sslModeTlsOutgoing && config.opt.sslMode.has sslModeTlsOutgoingForce

/-- A step of a session. -/
inductive Step (config : Config) : Phase → Event → Phase → Prop where
  /-- A byte is taken: one that is unread, or one that is read now. -/
  | took {p : Phase} {party : Party} {reader source : IoId} {b : Byte}
    (turn : p.stage.reads = some party) (reader_eq : p.conn party = some reader)
    (origin : source = reader ∨ p.source = some source) :
    Step config p (.took reader source b) { p with source := some source }
  /-- A read fails. -/
  | starved {p : Phase} {party : Party} {reader : IoId}
    (turn : p.stage.reads = some party) (reader_eq : p.conn party = some reader) :
    Step config p (.starved reader) p
  /-- The client is written to. -/
  | answered {p : Phase} {content : List Byte} {ok : Bool} (turn : p.stage.answers) :
    Step config p (.wrote p.client content ok) p
  /-- The real server is asked for TLS, or told that nothing follows. -/
  | setUp {p : Phase} {id : IoId} {content : List Byte} {ok : Bool}
    (turn : p.stage = .settingUp) (server : p.server = some id)
    (line : SetupLine config.protocol content) :
    Step config p (.wrote id content ok) p
  /-- The credentials are sent. -/
  | sent {p : Phase} {id : IoId} {content : List Byte} {ok : Bool}
    (turn : p.stage = .authenticating) (server : p.server = some id) :
    Step config p (.wrote id content ok) p
  /-- The read buffer is emptied after the commands of the client. -/
  | flushedClient {p : Phase} (turn : p.stage = .reading) :
    Step config p .flushed { p with stage := .read, source := none }
  /-- The read buffer is emptied before the credentials are sent. Where TLS is required it has been
  started. -/
  | flushedServer {p : Phase}
    (turn : p.stage = .secured ∨ p.stage = .settingUp ∧ outgoingForced config = false) :
    Step config p .flushed { p with stage := .flushed, source := none }
  /-- The client connected with SSL. -/
  | listened {p : Phase} {unread : List Byte} (turn : p.stage = .starting) :
    Step config p (.upgraded p.client unread) { p with client := p.client.secured }
  /-- The client started TLS. -/
  | accepted {p : Phase} {unread : List Byte} (turn : p.stage = .returned 2) :
    Step config p (.upgraded p.client unread)
      { p with stage := .upgraded, client := p.client.secured }
  /-- A handshake with the client failed. -/
  | clientFailed {p : Phase} (turn : p.stage = .starting ∨ p.stage = .returned 2) :
    Step config p (.upgradeFailed p.client) p
  /-- The real server is connected with SSL. -/
  | dialled {p : Phase} {id : IoId} {unread : List Byte} (turn : p.stage = .connected)
    (server : p.server = some id) :
    Step config p (.upgraded id unread) { p with server := some id.secured }
  /-- TLS is started with the real server. -/
  | secured {p : Phase} {id : IoId} {unread : List Byte} (turn : p.stage = .settingUp)
    (server : p.server = some id) :
    Step config p (.upgraded id unread) { p with stage := .secured, server := some id.secured }
  /-- A handshake with the real server failed. -/
  | serverFailed {p : Phase} {id : IoId}
    (turn : p.stage = .connected ∨ p.stage = .settingUp) (server : p.server = some id) :
    Step config p (.upgradeFailed id) p
  /-- An attempt begins. Whether bytes are unread is known then. -/
  | inGetAuth {p : Phase} {unread : List Byte} (turn : p.stage = .starting ∨ p.stage = .idle) :
    Step config p (.noted (.inGetAuth p.tlsState) unread)
      { p with stage := .reading, source := if unread = [] then none else p.source }
  /-- `in_get_auth` has returned. -/
  | gotAuth {p : Phase} {status : Int} {auth : Auth} {unread : List Byte}
    (turn : p.stage = .read) :
    Step config p (.noted (.gotAuth status auth) unread)
      { p with stage := .returned status, auth := auth }
  /-- The client has started TLS. -/
  | starttls {p : Phase} {unread : List Byte} (turn : p.stage = .upgraded) :
    Step config p (.noted .starttls unread)
      { p with stage := .idle, tlsState := p.tlsState ||| sslModeTlsListen }
  /-- Credentials were returned, and logins are allowed or not. -/
  | loginDisabledTest {p : Phase} {unread : List Byte} (turn : p.stage = .returned 0) :
    Step config p (.noted (.loginDisabledTest p.tlsState) unread)
      { p with stage := if loginsDisabled config.opt 0 p.tlsState then .refused else .tested }
  /-- The client will be told so. -/
  | loginDisabled {p : Phase} {unread : List Byte} (turn : p.stage = .refused) :
    Step config p (.noted .loginDisabled unread) { p with stage := .failing }
  /-- The real server is chosen. -/
  | located {p : Phase} {auth : Auth} {unread : List Byte} (turn : p.stage = .tested)
    (same : Locates p.auth auth) :
    Step config p (.noted (.located auth) unread) { p with stage := .located, auth := auth }
  /-- PAM is started. -/
  | pamStarted {p : Phase} {user : Option CString} {ok : Bool} (turn : p.stage = .located)
    (wanted : config.opt.authenticateIn) : Step config p (.pamStarted user ok) p
  /-- PAM has authenticated the client or not. -/
  | pamAuthenticated {p : Phase} {user passwd : Option CString} {ok : Bool}
    (turn : p.stage = .located) (wanted : config.opt.authenticateIn) :
    Step config p (.pamAuthenticated user passwd ok) p
  /-- Local authentication of the credentials, with the user name mangled for it, has an end. -/
  | inAuthenticated {p : Phase} {auth : Auth} {status : Int} {unread : List Byte}
    (turn : p.stage = .located) (wanted : config.opt.authenticateIn)
    (mangled : Mangles config stateLocalAuth p.auth auth) :
    Step config p (.noted (.inAuthenticated auth status) unread)
      { p with stage := if status = 1 then .admitted else .failing }
  /-- The real server is connected. -/
  | opened {p : Phase} {id : IoId} (turn : Admits config p) (plain : id.layer = 0)
    (party : id.party = .server) :
    Step config p (.opened id) { p with stage := .connected, server := some id }
  /-- The real server is not connected. -/
  | openFailed {p : Phase} (turn : Admits config p) :
    Step config p .openFailed { p with stage := .failing }
  /-- The set-up of the real server begins. -/
  | outSetup {p : Phase} {unread : List Byte} (turn : p.stage = .connected) :
    Step config p (.noted .outSetup unread) { p with stage := .settingUp }
  /-- The credentials will be sent, with the user name mangled for the real server. -/
  | outAuthenticate {p : Phase} {auth : Auth} {unread : List Byte} (turn : p.stage = .flushed)
    (mangled : Mangles config stateRemoteLogin p.auth auth) :
    Step config p (.noted (.outAuthenticate auth) unread) { p with stage := .authenticating }
  /-- The attempt is given up. -/
  | cleanUp {p : Phase} {unread : List Byte} (turn : p.stage.fails) :
    Step config p (.noted .cleanUp unread) { p with stage := .idle, tlsState := 0 }
  /-- The connection to the real server is closed. -/
  | closed {p : Phase} {id : IoId} (turn : p.stage = .idle) (server : p.server = some id) :
    Step config p (.closed id) { p with server := none }
  /-- The client is logged in. -/
  | loggedIn {p : Phase} {unread : List Byte} (turn : p.stage = .authenticating) :
    Step config p (.noted .loggedIn unread) { p with stage := .left }

end Phase

/-- The paths of a session. -/
abbrev SessionPath (config : Config) : List Event → Phase → Prop :=
  Path (Phase.Step config) Phase.start

end Perdition
