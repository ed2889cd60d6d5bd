import Perdition.Getserver
import Perdition.Protocol
import Perdition.Username

/-!
# The authentication loop

The part of `main` in `perdition.c` that talks to one client, from the greeting to the end of the
authentication loop, with SSL and PAM support compiled in. Pauses and log messages are left out, and
memory is never short. A `note` marks a call that statements about runs refer to.
-/
namespace Perdition

open Lib

/-- Calls and places of the loop that are visible in a run. -/
inductive Note where
  /-- `in_get_auth` is called with this `tls_state`. -/
  | inGetAuth (tlsState : Flag)
  /-- `in_get_auth` returned, with what `auth` holds then. -/
  | gotAuth (status : Int) (auth : Auth)
  /-- `client_io` was upgraded by `perdition_ssl_server_connection` after STARTTLS. -/
  | starttls
  /-- The test for disabled logins is made with this `tls_state`. -/
  | loginDisabledTest (tlsState : Flag)
  /-- The client is answered `Login Disabled` after that test. -/
  | loginDisabled
  /-- The real server is chosen, and with it the user name of `auth`. -/
  | located (auth : Auth)
  /-- `in_authenticate` returned for these credentials. -/
  | inAuthenticated (auth : Auth) (status : Int)
  /-- `out_setup` is called. -/
  | outSetup
  /-- `out_authenticate` is called with these credentials. -/
  | outAuthenticate (auth : Auth)
  /-- `PERDITION_CLEAN_UP_MAIN` is executed. -/
  | cleanUp
  /-- The loop is left. -/
  | loggedIn
  deriving DecidableEq

/-- Operations of the session. -/
inductive SessionOp where
  /-- An operation on `client_io` or `server_io`. -/
  | io (party : Party) (op : IoOp)
  /-- `token_flush`. -/
  | tokenFlush
  /-- `perdition_ssl_server_connection` on `client_io`. -/
  | sslServerConnection
  /-- `perdition_ssl_client_connection` on `server_io`. -/
  | sslClientConnection
  /-- `vanessa_socket_client_src_open`, and `io_create_fd` of the socket. -/
  | clientOpen (server : CString) (port : CString)
  /-- `io_close` and `io_destroy` of `server_io`, where there is one. -/
  | closeServer
  /-- The map as it is now, where there is one. -/
  | map
  /-- `pam_start` for a user. -/
  | pamStart (user : Option CString)
  /-- `do_pam_authentication` of a user and a password. -/
  | pamAuthenticate (user passwd : Option CString)
  /-- `perdition_exit_cleanly`. -/
  | exit (status : Int)
  /-- A place in the loop. -/
  | note (what : Note)

/-- Operations of the session and their results. -/
def SessionSig : Signature where
  Op := SessionOp
  Res
    | .io _ op => IoSig.Res op
    | .tokenFlush => Unit
    | .sslServerConnection => Bool
    | .sslClientConnection => Bool
    | .clientOpen _ _ => Bool
    | .closeServer => Unit
    | .map => Option (CString → MapResult)
    | .pamStart _ => Bool
    | .pamAuthenticate _ _ => Bool
    | .exit _ => Empty
    | .note _ => Unit

/-- A program of the session. -/
abbrev Session := Program SessionSig

namespace Session

/-- Perform an operation of the session. -/
def perform (op : SessionOp) : Session (SessionSig.Res op) := Program.perform (S := SessionSig) op

/-- `perdition_exit_cleanly`. -/
def exit {α : Type} (status : Int) : Session α :=
  (perform (.exit status) : Session Empty) >>= fun never => nomatch never

/-- Memory outside an object is used. -/
def fault {α : Type} (why : Fault) : Session α :=
  (perform (.io .client (.fault why)) : Session Empty) >>= fun never => nomatch never

/-- Mark a place. -/
def note (what : Note) : Session Unit := perform (.note what)

/-- Hold a dialogue with the client. -/
def client {α : Type} (dialogue : Dialogue α) : Session α :=
  dialogue.interpret fun op => Program.perform (S := SessionSig) (.io .client op)

/-- Hold an exchange with the real server and the client. -/
def exchange {α : Type} (exchange : Exchange α) : Session α :=
  exchange.interpret fun (op : Party × IoOp) =>
    Program.perform (S := SessionSig) (.io op.1 op.2)

end Session

/-! ## Local authentication -/

/-- `pop3_in_authenticate`, `imap4_in_authenticate` and `managesieve_in_authenticate`. The first
starts PAM for the user that authenticates, the second for the one whose account is accessed. -/
def Protocol.inAuthenticate (protocol : Protocol) (auth : Auth) (tag : Option Token) :
    Session Int :=
  let pam (user : Option CString) (reason : CString) : Session Int := do
    if !(← Session.perform (.pamStart user)) then return -1
    else if !(← Session.perform (.pamAuthenticate auth.getAuthorisationId auth.passwd)) then
      if (← Session.client (protocol.writeStr nullFlag tag (some (protocol.type .no))
          (some reason))) < 0 then return -1
      else return 0
    else return 1
  match protocol with
  | .pop3 => pam auth.authenticationId (lit "Authentication failure, mate")
  | .imap4 => pam auth.getAuthorisationId (lit "Authentication failure")
  | .managesieve => return -1

/-! ## The state of the loop -/

/-- The configuration of the process that talks to the client. -/
structure Config where
  /-- `opt`. -/
  opt : Options
  /-- The platform. -/
  platform : Platform
  /-- `protocol`. -/
  protocol : Protocol
  /-- The addresses of the connection. -/
  addresses : Addresses

/-- A configuration of a protocol that sets nothing but the real server. -/
def Config.sample (protocol : Protocol) : Config where
  opt := Options.sample
  platform := Platform.sample
  protocol := protocol
  addresses := ⟨lit "192.0.2.1", lit "192.0.2.2", lit "1024", lit "110"⟩

/-- The locals of `main` that live from one attempt to the next. -/
structure LoopState where
  /-- `tls_state`. -/
  tlsState : Flag
  /-- `auth`. -/
  auth : Auth
  /-- `client_tag`. -/
  clientTag : Option Token
  /-- `usp`. -/
  usp : Option UserServerPort
  /-- `servername`. -/
  servername : Option CString
  /-- `port`, which cleaning up leaves as it is. -/
  port : Option CString
  /-- `round_robin_server`. -/
  roundRobinServer : Bool
  /-- `rnd`. -/
  rnd : Nat
  /-- `our_tag`, unused where the protocol has no tags. -/
  ourTag : Token
  /-- `server_resp_buf`. -/
  serverRespBuf : List Byte

/-- The locals before the loop. -/
def LoopState.start (config : Config) : LoopState where
  tlsState := sslModeEmpty
  auth := Auth.zero
  clientTag := none
  usp := none
  servername := none
  port := none
  roundRobinServer := false
  rnd := config.platform.rand
  ourTag := imap4TagCreate
  serverRespBuf := config.platform.malloc maxLineLength

/-- What `PERDITION_CLEAN_UP_MAIN` leaves in the locals. -/
def LoopState.cleanedUp (st : LoopState) : LoopState :=
  { st with
    auth := Auth.zero
    roundRobinServer := false
    servername := none
    usp := none
    clientTag := none
    tlsState := 0 }

/-- An attempt: the loop continues on the left and is left on the right. -/
abbrev Attempt := Session (LoopState ⊕ LoopState)

/-- `PERDITION_CLEAN_UP_MAIN` and `continue`. -/
def cleanUpMain (st : LoopState) : Attempt := do
  Session.note .cleanUp
  Session.perform .closeServer
  return .inl st.cleanedUp

/-- `LOGIN_FAILED_PROTOCOL`. Both kinds of failure have one type. -/
def loginFailedProtocol (config : Config) (st : LoopState) (reason : CString) : Session Unit := do
  if (← Session.client (config.protocol.writeStr nullFlag st.clientTag
      (some (config.protocol.type .no)) (some (lit "failed: " ++ reason)))) < 0 then
    Session.exit (-1)
  else return ()

/-- `LOGIN_FAILED_PROTOCOL`, `PERDITION_CLEAN_UP_MAIN` and `continue`. -/
def failAttempt (config : Config) (st : LoopState) (reason : CString) : Attempt := do
  loginFailedProtocol config st reason
  cleanUpMain st

/-! ## The real server -/

/-- The index after `rnd` in a list: an `int` sum, which overflows to a negative number, taken
modulo a `size_t`. -/
def nextServer (rnd count : Nat) : Nat :=
  (if rnd = 2 ^ 31 - 1 then 2 ^ 64 - 2 ^ 31 else rnd + 1) % count

/-- `str == NULL || *str == '\0'` of a string of `main`. -/
def unset (text : Option CString) : Bool := emptyOrNull text

/-- The user name that `username_mangle` makes of the name in `auth`; a null name is read, or
returned as an error. -/
def mangledId (config : Config) (auth : Auth) (state : Flag) : Session Mangled :=
  match auth.getAuthorisationId with
  | none =>
    if config.opt.stripDomain.has state ∧
        ¬ (state = stateGetServer ∧ config.opt.clientServerSpecification) then
      Session.fault .nullPointer
    else Session.exit (-1)
  | some name => match usernameMangle config.opt config.platform name state with
    | none => Session.exit (-1)
    | some mangled => return mangled

/-- The lookup in the map. Where the mangled name is the name in `auth`, the name in `auth` is cut
where the map entry was taken from it. -/
def lookUp (config : Config) (st : LoopState) : Session LoopState := do
  let id ← mangledId config st.auth stateGetServer
  let map ← Session.perform .map
  if map.isNone ∧ !config.opt.clientServerSpecification then return st
  else match getserver config.opt map id.name config.addresses with
    | .error why => Session.fault why
    | .ok (usp, name) =>
      return { st with
        usp := usp
        auth := if id.same then st.auth.setAuthorisationId name else st.auth }

/-- What the entry of the map sets. -/
def useEntry (config : Config) (st : LoopState) : LoopState :=
  match st.usp with
  | none => st
  | some usp =>
    let st := { st with port := usp.port, servername := usp.server }
    match usp.user with
    | some user =>
      if config.opt.usernameFromDatabase then
        { st with auth := st.auth.setAuthorisationId user }
      else st
    | none => st

/-- The default server, where there is none or the last one was a default, and the default port. -/
def useDefaults (config : Config) (st : LoopState) : LoopState :=
  let st :=
    if (unset st.servername || st.roundRobinServer) && !config.opt.outgoingServer.isEmpty then
      let rnd := nextServer st.rnd config.opt.outgoingServer.length
      let usp := config.opt.outgoingServer[rnd]?
      { st with
        roundRobinServer := true
        rnd := rnd
        usp := usp
        servername := usp.bind (·.server)
        port := usp.bind (·.port) }
    else st
  if unset st.port then { st with port := some config.opt.outgoingPort } else st

/-! ## The stages of an attempt -/

/-- The response line of the real server, sent as it is. -/
def writeServerResp (config : Config) (st : LoopState) (capture : Option Capture) :
    Session LoopState :=
  match capture with
  | none => Session.fault .nullPointer
  | some c => do
    let buf := c.buf.set c.n 0
    if (← Session.client (config.protocol.writeStr writeStrNoCllf st.clientTag none
        (some (cstr buf)))) < 0 then Session.exit (-1)
    else return { st with serverRespBuf := buf }

/-- The buffer `out_authenticate` may store the response in. -/
def respCapture (config : Config) (st : LoopState) : Option Capture :=
  if config.opt.serverRespLine then some ⟨st.serverRespBuf, maxLineLength - 1⟩ else none

/-- What follows `out_authenticate`, according to its status. -/
def finish (config : Config) (st : LoopState) (result : OutAuth) : Attempt := do
  let st := { st with
    ourTag := result.tag
    serverRespBuf := (result.capture.map (·.buf)).getD st.serverRespBuf }
  if result.status = 0 then
    let ourTag ← Session.exchange (config.protocol.quit st.ourTag)
    let st := { st with ourTag := ourTag }
    if config.opt.serverRespLine then
      cleanUpMain (← writeServerResp config st result.capture)
    else failAttempt config st (lit "Re-Authentication Failure")
  else if result.status = 2 then failAttempt config st (lit "Login Disabled")
  else if result.status = 3 then failAttempt config st (lit "SASL mechanism unavailable")
  else if result.status < 0 then Session.exit (-1)
  else if config.opt.serverRespLine then
    let st ← writeServerResp config st result.capture
    Session.note .loggedIn
    return .inr st
  else if (← Session.client (config.protocol.writeStr nullFlag st.clientTag
      (some (config.protocol.type .ok)) (some config.opt.okLine))) < 0 then Session.exit (-1)
  else
    Session.note .loggedIn
    return .inr st

/-- `token_flush` and `out_authenticate`. -/
def authenticateServer (config : Config) (st : LoopState) (auth : Auth) (status : Int) :
    Attempt := do
  Session.perform .tokenFlush
  Session.note (.outAuthenticate auth)
  let saslMech : Nat := status.toNat &&& protocolSSaslPlain
  let result ← Session.exchange (config.protocol.outAuthenticate config.platform st.tlsState auth
    saslMech st.ourTag (respCapture config st))
  finish config st result

/-- The attempt ends without credentials being sent: `quit`, and the failure is reported. -/
def quitAttempt (config : Config) (st : LoopState) (reason : CString) : Attempt := do
  let ourTag ← Session.exchange (config.protocol.quit st.ourTag)
  failAttempt config { st with ourTag := ourTag } reason

/-- What follows `out_setup`, according to its status. -/
def secureServer (config : Config) (st : LoopState) (auth : Auth) (status : Int) : Attempt := do
  let opt := config.opt
  if status = 0 then quitAttempt config st (lit "Connection Negotiation Failure")
  else if status < 0 then Session.exit (-1)
  else if opt.sslMode.has sslModeTlsOutgoing && statusHas status protocolSStarttls then
    if !(← Session.perform .sslClientConnection) then Session.exit (-1)
    else
      authenticateServer config { st with tlsState := st.tlsState ||| sslModeTlsOutgoing } auth
        status
  else if opt.sslMode.has sslModeTlsOutgoing && opt.sslMode.has sslModeTlsOutgoingForce &&
      !statusHas status protocolSStarttls then
    quitAttempt config st (lit "TLS not present")
  else authenticateServer config st auth status

/-- The user name for the real server, and `out_setup`. -/
def setUpServer (config : Config) (st : LoopState) : Attempt := do
  let id ← mangledId config st.auth stateRemoteLogin
  let auth := st.auth.setAuthorisationId id.name
  Session.note .outSetup
  let (status, ourTag) ← Session.exchange
    (config.protocol.outSetup config.opt config.platform st.ourTag)
  secureServer config { st with ourTag := ourTag } auth status

/-- The connection to the real server. -/
def dialServer (config : Config) (st : LoopState) (server : CString) : Attempt := do
  if !(← Session.perform (.clientOpen server (st.port.getD .empty))) then
    failAttempt config st (lit "Could not connect to server")
  else if config.opt.sslMode.has sslModeSslOutgoing then
    if !(← Session.perform .sslClientConnection) then Session.exit (-1)
    else setUpServer config st
  else setUpServer config st

/-- Local authentication, where it is configured. -/
def authenticateLocally (config : Config) (st : LoopState) (server : CString) : Attempt := do
  if config.opt.authenticateIn then
    let id ← mangledId config st.auth stateLocalAuth
    let auth := st.auth.setAuthorisationId id.name
    let status ← config.protocol.inAuthenticate auth st.clientTag
    Session.note (.inAuthenticated auth status)
    if status = 0 then cleanUpMain st
    else if status < 0 then Session.exit (-1)
    else dialServer config st server
  else dialServer config st server

/-- The choice of the real server. -/
def locateServer (config : Config) (st : LoopState) : Attempt := do
  let st ← lookUp config st
  let st := useDefaults config (useEntry config st)
  match st.servername with
  | none => failAttempt config st (lit "Could not determine server")
  | some server =>
    if server.isEmpty then failAttempt config st (lit "Could not determine server")
    else
      Session.note (.located st.auth)
      authenticateLocally config st server

/-- Logins are disabled now: always, or until the client has started TLS. -/
def loginsDisabled (opt : Options) (status : Int) (tlsState : Flag) : Bool :=
  opt.loginDisabled || (status = 0 && opt.sslMode.has sslModeTlsListen &&
    opt.sslMode.has sslModeTlsListenForce && !tlsState.has sslModeTlsListen)

/-- What follows `in_get_auth`, according to its status. -/
def dispatch (config : Config) (st : LoopState) (status : Int) : Attempt := do
  if status < 0 then Session.exit (-1)
  else if status = 1 then Session.exit 0
  else if status = 2 ∧ config.opt.sslMode.has sslModeTlsListen then
    if !(← Session.perform .sslServerConnection) then Session.exit (-1)
    else
      Session.note .starttls
      return .inl { st with tlsState := st.tlsState ||| sslModeTlsListen }
  else
    Session.note (.loginDisabledTest st.tlsState)
    if loginsDisabled config.opt status st.tlsState then
      Session.note .loginDisabled
      failAttempt config st (lit "Login Disabled")
    else locateServer config st

/-- One round of the authentication loop. -/
def attempt (config : Config) (st : LoopState) : Attempt := do
  Session.note (.inGetAuth st.tlsState)
  let result ← Session.client (config.protocol.inGetAuth config.opt config.platform
    config.opt.sslMode st.tlsState)
  Session.perform .tokenFlush
  let st := { st with
    auth := result.auth.getD st.auth
    clientTag := if result.tag.isSome then result.tag else st.clientTag }
  Session.note (.gotAuth result.status st.auth)
  dispatch config st result.status

/-- The authentication loop. -/
def authenticationLoop (config : Config) : Session LoopState :=
  .loop (attempt config) (LoopState.start config)

/-- `main` from the accepted connection to the end of the authentication loop. -/
def main (config : Config) : Session LoopState := do
  let secured ← if config.opt.sslMode.has sslModeSslListen then
      Session.perform .sslServerConnection
    else pure true
  if !secured then Session.exit (-1)
  else if (← Session.client (config.protocol.greeting config.opt config.platform)) < 0 then
    Session.exit (-1)
  else authenticationLoop config

end Perdition
