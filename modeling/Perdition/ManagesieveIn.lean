import Perdition.Acap
import Perdition.Imap4In

/-!
# ManageSieve: reading credentials from the client

`managesieve_in.c` without `managesieve_in_authenticate`. A command of the loop ends with 0 after an
OK, -1 after a NO and -3 after an error; 1, 2 and 3 leave the loop.
-/
namespace Perdition

/-- `struct managesieve_in_auth_status`. -/
structure ManagesieveInAuthStatus where
  /-- `auth`, where credentials were read. -/
  auth : Option Auth
  /-- `status`. -/
  status : Int
  deriving DecidableEq

/-- A status without credentials. -/
def ManagesieveInAuthStatus.plain (status : Int) : ManagesieveInAuthStatus := ⟨none, status⟩

/-- Answer NO. The status is -1 where that is written, and -3 where it is not. -/
def managesieveInNo (message : CString) : Dialogue Int := do
  if (← managesieveNo message) < 0 then return -3 else return -1

/-- Answer OK. The status is 0 where that is written, and -3 where it is not. -/
def managesieveInOk (rc : Option ManagesieveResponseCode) (message : CString) : Dialogue Int := do
  if (← managesieveOk rc message) < 0 then return -3 else return 0

/-- A string argument at the end of a command is neither invalid nor an atom. -/
def AcapTokenWrapperStatus.isString (w : AcapTokenWrapperStatus) : Bool :=
  w.status = 0 && w.q.isNone && w.type ≠ .atom

/-- `managesieve_in_sasl_plain`. -/
def managesieveInSaslPlain (platform : Platform) (q : Queue) :
    Dialogue ManagesieveInAuthStatus :=
  if q.length ≠ 1 then do
    return .plain (← managesieveInNo (lit
      "Incorrect argument count, expected AUTHENTICATE \"PLAIN\" <challenge>, mate"))
  else do
    let w ← acapTokenWrapper platform q
    if w.status = -2 then return .plain (-3)
    else if !w.isString then
      return .plain (← managesieveInNo (lit "Invalid AUTHENTICATE \"PLAIN\" challenge, mate"))
    else match w.str with
      | none => fault .nullPointer
      | some str => match saslPlainChallengeDecode platform str with
        | .ok auth => return ⟨some auth, 0⟩
        | .invalid reason => return .plain (← managesieveInNo reason)
        | .error => return .plain (-1)
        | .beyond => fault .tokenToString

/-- `managesieve_in_authenticate_cmd`. -/
def managesieveInAuthenticateCmd (platform : Platform) (q : Queue) :
    Dialogue ManagesieveInAuthStatus :=
  if q.length = 0 ∨ 2 < q.length then do
    return .plain (← managesieveInNo (lit
      "Incorrect argument count, expected AUTHENTICATE <mechanism> [<challenge>], mate"))
  else match q with
    | [] => return .plain (-3)
    | t :: q =>
      if tokenCasecmpString t (lit "\"PLAIN\"") then do
        let as ← managesieveInSaslPlain platform q
        return if as.status = 0 then { as with status := 1 } else as
      else do return .plain (← managesieveInNo (lit "Unknown SASL mechanism, mate"))

/-- `managesieve_in_capability_cmd`. -/
def managesieveInCapabilityCmd (opt : Options) (q : Queue) (tlsFlags tlsState : Flag) :
    Dialogue Int :=
  if q.length ≠ 0 then managesieveInNo (lit "Too many arguments, expected CAPABILITY, mate")
  else match managesieveCapabilityMsg opt tlsFlags tlsState (lit "CAPABILITY completed, mate") with
    | none => fault .substring
    | some message => do
      if (← managesieveWriteRaw message) < 0 then return -3 else return 0

/-- `managesieve_in_logout_cmd`. -/
def managesieveInLogoutCmd (q : Queue) : Dialogue Int :=
  if q.length = 0 then managesieveInOk none (lit "LOGOUT completed, mate")
  else managesieveInNo (lit "Too many arguments, expected LOGOUT, mate")

/-- `managesieve_in_noop_cmd_str`. -/
def managesieveInNoopCmdStr (platform : Platform) (q : Queue) : Dialogue Int := do
  let w ← acapTokenWrapper platform q
  if w.status = -2 then return -3
  else if !w.isString then
    managesieveInNo (lit "Invalid AUTHENTICATE PLAIN challenge, mate")
  else match w.str with
    | none => fault .nullPointer
    | some str => managesieveInOk (some ⟨lit "TAG", [str]⟩) (lit "NOOP completed, mate")

/-- `managesieve_in_noop_cmd`. -/
def managesieveInNoopCmd (platform : Platform) (q : Queue) : Dialogue Int :=
  if q.length = 0 then managesieveInOk none (lit "NOOP completed, mate")
  else if q.length = 1 then managesieveInNoopCmdStr platform q
  else managesieveInNo (lit "Too many arguments, expected NOOP [String], mate")

/-- `managesieve_in_starttls_cmd`. -/
def managesieveInStarttlsCmd (q : Queue) : Dialogue Int :=
  if q.length ≠ 0 then managesieveInNo (lit "Too many arguments, expected STARTTLS, mate")
  else managesieveInOk none (lit "Begin TLS negotiation, mate")

/-- `managesieve_starttls_post`. -/
def managesieveStarttlsPost (opt : Options) (tlsFlags tlsState : Flag) : Dialogue Int :=
  if !tlsState.has sslModeTlsListen then return 0
  else match managesieveCapabilityMsg opt tlsFlags tlsState
      (lit "TLS negotiation completed, mate") with
    | none => fault .substring
    | some message => do
      if (← managesieveWriteRaw message) < 0 then return -1 else return 0

/-- The STARTTLS command is known: TLS is offered and the connection is plain. -/
def managesieveStarttlsKnown (tlsFlags : Flag) : Dialogue Bool :=
  if tlsFlags.has sslModeTlsListen then do return decide ((← ioGetType) ≠ .ssl) else return false

/-- `managesieve_in_get_auth_loop`. -/
def managesieveInGetAuthLoop (opt : Options) (platform : Platform) (tlsFlags tlsState : Flag) :
    Dialogue ManagesieveInAuthStatus := do
  match ← readLine none tokenImap4 0 with
  | none => return .plain (-3)
  | some (q, _) => match q with
    | [] => return .plain (-3)
    | t :: q =>
      if tokenCasecmpString t (lit "AUTHENTICATE") then
        let as ← managesieveInAuthenticateCmd platform q
        return if as.status = 0 then { as with status := 1 } else as
      else if tokenCasecmpString t (lit "CAPABILITY") then
        return .plain (← managesieveInCapabilityCmd opt q tlsFlags tlsState)
      else if tokenCasecmpString t (lit "LOGOUT") then
        let status ← managesieveInLogoutCmd q
        return .plain (if status = 0 then 2 else status)
      else if tokenCasecmpString t (lit "NOOP") then
        return .plain (← managesieveInNoopCmd platform q)
      else if (← managesieveStarttlsKnown tlsFlags) && tokenCasecmpString t (lit "STARTTLS") then
        let status ← managesieveInStarttlsCmd q
        return .plain (if status = 0 then 3 else status)
      else if (← managesieveNo (lit "Unknown command, mate")) < 0 then return .plain (-1)
      else return .plain 0

/-- `managesieve_in_get_auth`. -/
def managesieveInGetAuth (opt : Options) (platform : Platform) (tlsFlags tlsState : Flag) :
    Dialogue InAuth := do
  if (← managesieveStarttlsPost opt tlsFlags tlsState) < 0 then return InAuth.plain (-1)
  else
    .loop (fun _ => do
      let as ← managesieveInGetAuthLoop opt platform tlsFlags tlsState
      if as.status = 0 ∨ as.status = -1 then return .inl ()
      else
        let status := if 0 < as.status then as.status - 1 else as.status
        return .inr ⟨status, if status = 0 then as.auth else none, none⟩) ()

end Perdition
